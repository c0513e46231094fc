import Gapura.Lib.Tables

/-! # Transactions over one table, statement by statement

Every statement sees what was committed when it ran and what its own transaction
wrote. A row that was written, or read for an update, stays owned until the
transaction ends; a row read for sharing may be read so by others but owned by
nobody else. Advisory locks protect no row: they only keep the transactions that
ask for the same one apart. -/
namespace Gapura.Lib.Transactions
open Tables

variable {T K V L : Type}

/-- What an open transaction has done and holds. -/
structure Session (K V L : Type) where
  writes : List (Write K V) := []
  shared : List K := []
  owned : List K := []
  advisory : List L := []

structure Server (T K V L : Type) where
  committed : Table K V
  session : T → Session K V L

namespace Server

/-- What a statement of `t` sees. -/
def view [DecidableEq K] (s : Server T K V L) (t : T) : Table K V :=
  putAll s.committed (s.session t).writes

/-- No other transaction has a row of `ks` to itself. -/
def Shareable (s : Server T K V L) (t : T) (ks : List K) : Prop :=
  ∀ t', t' ≠ t → ∀ k ∈ ks, k ∉ (s.session t').owned

/-- No other transaction holds a row of `ks` in any way. -/
def Ownable (s : Server T K V L) (t : T) (ks : List K) : Prop :=
  ∀ t', t' ≠ t → ∀ k ∈ ks, k ∉ (s.session t').owned ∧ k ∉ (s.session t').shared

def Advisable (s : Server T K V L) (t : T) (l : L) : Prop :=
  ∀ t', t' ≠ t → l ∉ (s.session t').advisory

section Decidable
variable [Fintype T] [DecidableEq T] [DecidableEq K] [DecidableEq L] (s : Server T K V L) (t : T)

instance (ks : List K) : Decidable (s.Shareable t ks) :=
  inferInstanceAs (Decidable (∀ t', t' ≠ t → ∀ k ∈ ks, k ∉ (s.session t').owned))

instance (ks : List K) : Decidable (s.Ownable t ks) :=
  inferInstanceAs (Decidable (∀ t', t' ≠ t → ∀ k ∈ ks,
    k ∉ (s.session t').owned ∧ k ∉ (s.session t').shared))

instance (l : L) : Decidable (s.Advisable t l) :=
  inferInstanceAs (Decidable (∀ t', t' ≠ t → l ∉ (s.session t').advisory))

end Decidable

/-- An advisory lock has one holder. -/
def Apart (s : Server T K V L) : Prop :=
  ∀ t t' l, l ∈ (s.session t).advisory → l ∈ (s.session t').advisory → t = t'

/-- A statement that takes no advisory lock keeps their holders apart. -/
theorem Apart.of_subset {s s' : Server T K V L} (h : s.Apart)
    (hsub : ∀ t, (s'.session t).advisory ⊆ (s.session t).advisory) : s'.Apart :=
  fun t t' l hl hl' => h t t' l (hsub t hl) (hsub t' hl')

section Statements
variable [DecidableEq T]

def setSession (s : Server T K V L) (t : T) (σ : Session K V L) : Server T K V L :=
  { s with session := Function.update s.session t σ }

def share (s : Server T K V L) (t : T) (ks : List K) : Server T K V L :=
  s.setSession t { s.session t with shared := (s.session t).shared ++ ks }

def own (s : Server T K V L) (t : T) (ks : List K) : Server T K V L :=
  s.setSession t { s.session t with owned := (s.session t).owned ++ ks }

def write (s : Server T K V L) (t : T) (w : Write K V) : Server T K V L :=
  s.setSession t { s.session t with
    writes := (s.session t).writes ++ [w], owned := (s.session t).owned ++ [w.1] }

def advise (s : Server T K V L) (t : T) (l : L) : Server T K V L :=
  s.setSession t { s.session t with advisory := (s.session t).advisory ++ [l] }

/-- The writes become everybody's, and every lock is let go. -/
def commit [DecidableEq K] (s : Server T K V L) (t : T) : Server T K V L :=
  { committed := s.view t, session := Function.update s.session t {} }

def abort (s : Server T K V L) (t : T) : Server T K V L := s.setSession t {}

@[simp] theorem setSession_committed (s : Server T K V L) (t : T) (σ : Session K V L) :
    (s.setSession t σ).committed = s.committed := rfl

@[simp] theorem setSession_session (s : Server T K V L) (t : T) (σ : Session K V L) :
    (s.setSession t σ).session = Function.update s.session t σ := rfl

/-- Where a commit wrote nothing, the table stays as it was. -/
theorem lookup_commit [DecidableEq K] (s : Server T K V L) {t : T} {k : K}
    (h : ∀ w ∈ (s.session t).writes, k ≠ w.1) :
    (s.commit t).committed.lookup k = s.committed.lookup k :=
  lookup_putAll_of_forall_ne s.committed h

/-- Where a commit wrote nothing, no other transaction sees a difference. -/
theorem lookup_view_commit [DecidableEq K] (s : Server T K V L) {t t' : T} {k : K}
    (hne : t' ≠ t) (h : ∀ w ∈ (s.session t).writes, k ≠ w.1) :
    ((s.commit t).view t').lookup k = (s.view t').lookup k := by
  have hsession : (s.commit t).session t' = s.session t' := Function.update_of_ne hne _ _
  rw [view, hsession]
  exact lookup_putAll_congr _ (s.lookup_commit h)

theorem Apart.setSession {s : Server T K V L} (h : s.Apart) {t : T} {σ : Session K V L}
    (hσ : σ.advisory ⊆ (s.session t).advisory) : (s.setSession t σ).Apart := by
  refine h.of_subset fun t' => ?_
  by_cases ht : t' = t
  · subst ht
    simpa using hσ
  · simp [Function.update_of_ne ht]

theorem Apart.commit [DecidableEq K] {s : Server T K V L} (h : s.Apart) (t : T) :
    (s.commit t).Apart :=
  (h.setSession (σ := {}) (List.nil_subset _) : (s.setSession t {}).Apart)

theorem Apart.advise {s : Server T K V L} (h : s.Apart) {t : T} {l : L} (hl : s.Advisable t l) :
    (s.advise t l).Apart := by
  have hheld : ∀ t' l', l' ∈ ((s.advise t l).session t').advisory →
      l' ∈ (s.session t').advisory ∨ t' = t ∧ l' = l := by
    intro t' l' hl'
    by_cases ht : t' = t
    · subst ht
      simpa [Server.advise] using hl'
    · exact .inl (by simpa [Server.advise, Function.update_of_ne ht] using hl')
  intro t₁ t₂ l' h₁ h₂
  rcases hheld t₁ l' h₁ with held₁ | ⟨rfl, rfl⟩
  · rcases hheld t₂ l' h₂ with held₂ | ⟨rfl, rfl⟩
    · exact h t₁ t₂ l' held₁ held₂
    · by_contra hne
      exact hl t₁ hne held₁
  · rcases hheld t₂ l' h₂ with held₂ | ⟨rfl, -⟩
    · by_contra hne
      exact hl t₂ (Ne.symm hne) held₂
    · rfl

end Statements

end Server

end Gapura.Lib.Transactions
