import Gapura.Lib.Text

/-! # Texts put together from parts

A key is its parts with separators between them. A part that cannot hold the
separator after it is read back from the key, and so are the decimal and the
hexadecimal text of a number. Last, lists whose elements have distinct keys. -/
namespace Gapura.Lib.Keys
open Text

variable {α : Type}

variable {sep : α}

theorem append_cons_inj {a b x y : List α} (ha : sep ∉ a) (hb : sep ∉ b)
    (h : a ++ sep :: x = b ++ sep :: y) : a = b ∧ x = y := by
  induction a generalizing b with
  | nil => cases b with
    | nil => exact ⟨rfl, (List.cons.inj h).2⟩
    | cons c rest =>
      obtain ⟨rfl, -⟩ := List.cons.inj h
      exact absurd List.mem_cons_self hb
  | cons c rest ih => cases b with
    | nil =>
      obtain ⟨rfl, -⟩ := List.cons.inj h
      exact absurd List.mem_cons_self ha
    | cons d rest' =>
      obtain ⟨rfl, htail⟩ := List.cons.inj h
      obtain ⟨rfl, rfl⟩ := ih (fun hc => ha (List.mem_cons_of_mem c hc))
        (fun hc => hb (List.mem_cons_of_mem c hc)) htail
      exact ⟨rfl, rfl⟩

/-- A tail that is empty or begins with the separator ends the text before it. -/
theorem append_tail_inj {a b : List α} {x y : Option (List α)} (ha : sep ∉ a)
    (hb : sep ∉ b) (h : a ++ x.elim [] (sep :: ·) = b ++ y.elim [] (sep :: ·)) : a = b ∧ x = y := by
  cases x with
  | none => cases y with
    | none => exact ⟨by simpa using h, rfl⟩
    | some y =>
      have hmem : sep ∈ a ++ [] := by
        rw [show a ++ [] = b ++ sep :: y from h]
        simp
      exact absurd (by simpa using hmem) ha
  | some x => cases y with
    | none =>
      have hmem : sep ∈ b ++ [] := by
        rw [← show a ++ sep :: x = b ++ [] from h]
        simp
      exact absurd (by simpa using hmem) hb
    | some y =>
      obtain ⟨rfl, rfl⟩ := append_cons_inj ha hb h
      exact ⟨rfl, rfl⟩

theorem append_cons_inj_last {a b x y : List α} (hx : sep ∉ x) (hy : sep ∉ y)
    (h : a ++ sep :: x = b ++ sep :: y) : a = b ∧ x = y := by
  have hrev : x.reverse ++ sep :: a.reverse = y.reverse ++ sep :: b.reverse := by
    simpa using congrArg List.reverse h
  obtain ⟨htail, hhead⟩ := append_cons_inj (by simpa using hx) (by simpa using hy) hrev
  exact ⟨List.reverse_injective hhead, List.reverse_injective htail⟩

theorem toString_inj {n m : Nat} (h : (toString n).toList = (toString m).toList) : n = m := by
  have hnum := congrArg (fun ds => Nat.ofDigitChars 10 ds 0) h
  simpa [Nat.toString_eq_ofList_toDigits] using hnum

theorem hexDigit_inj {a b : Nat} (ha : a < 16) (hb : b < 16) (h : hexDigit a = hexDigit b) :
    a = b := by
  have hall : ∀ i < 16, ∀ j < 16, hexDigit i = hexDigit j → i = j := by decide
  exact hall a ha b hb h

theorem hex_inj {a b : List UInt8} (h : hex a = hex b) : a = b := by
  have hl := String.ofList_injective h
  induction a generalizing b with
  | nil => cases b with
    | nil => rfl
    | cons y ys => cases hl
  | cons x xs ih => cases b with
    | nil => cases hl
    | cons y ys =>
      simp only [List.flatMap_cons, List.cons_append, List.nil_append, List.cons.injEq] at hl
      obtain ⟨hhigh, hlow, hrest⟩ := hl
      have hx := x.toNat_lt
      have hy := y.toNat_lt
      have hdiv := hexDigit_inj (by omega) (by omega) hhigh
      have hmod := hexDigit_inj (by omega) (by omega) hlow
      have hxy : x = y := UInt8.toNat_inj.mp (by omega)
      rw [hxy, ih (by rw [hex, hex, hrest]) hrest]

/-! ## Distinct keys -/

/-- What a list with distinct keys has under one key is what one element has. -/
theorem flatMap_of_key {β κ : Type} [DecidableEq κ] {key : α → κ} {l : List α}
    (h : (l.map key).Nodup) (g : α → List β) {a : α} (ha : a ∈ l) :
    (l.flatMap fun b => if key b = key a then g b else []) = g a := by
  induction l with
  | nil => cases ha
  | cons b rest ih =>
    obtain ⟨hnew, hrest⟩ := List.nodup_cons.mp h
    rw [List.flatMap_cons]
    rcases List.mem_cons.mp ha with rfl | ha
    · have hnone : (rest.flatMap fun b => if key b = key a then g b else []) = [] := by
        rw [List.flatMap_eq_nil_iff]
        intro b hb
        exact if_neg fun heq => hnew (List.mem_map.mpr ⟨b, hb, heq⟩)
      rw [hnone, if_pos rfl, List.append_nil]
    · have hne : key b ≠ key a := fun heq => hnew (List.mem_map.mpr ⟨a, ha, heq.symm⟩)
      rw [if_neg hne, List.nil_append]
      exact ih hrest ha

end Gapura.Lib.Keys
