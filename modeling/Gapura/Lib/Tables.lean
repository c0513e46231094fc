import Mathlib

/-! # Tables

Keys with at most one value each, in no order that anything depends on: written
to one key at a time, restricted to some keys, or thinned by a test. -/
namespace Gapura.Lib.Tables

variable {K V : Type}

/-- At most one value under each key. -/
abbrev Table (K V : Type) := AList fun _ : K => V

section
variable [DecidableEq K]

/-- A key and what it is to hold, or nothing for a deletion. -/
abbrev Write (K V : Type) := K × Option V

def put (t : Table K V) : Write K V → Table K V
  | (k, some v) => t.insert k v
  | (k, none) => t.erase k

def putAll (t : Table K V) (ws : List (Write K V)) : Table K V := ws.foldl put t

@[simp] theorem putAll_nil (t : Table K V) : putAll t [] = t := rfl

variable {k : K} {t' : Table K V}

theorem lookup_put_of_ne (t : Table K V) (w : Write K V) (h : k ≠ w.1) :
    (put t w).lookup k = t.lookup k := by
  obtain ⟨k', v⟩ := w
  cases v with
  | none => exact AList.lookup_erase_ne h
  | some v => exact AList.lookup_insert_ne h

theorem lookup_put_congr {t : Table K V} (w : Write K V)
    (h : t.lookup k = t'.lookup k) : (put t w).lookup k = (put t' w).lookup k := by
  by_cases hk : k = w.1
  · subst hk
    obtain ⟨k', v⟩ := w
    cases v with
    | none => simp [put]
    | some v => simp [put]
  · rw [lookup_put_of_ne t w hk, lookup_put_of_ne t' w hk, h]

/-- Writes leave every other key alone. -/
theorem lookup_putAll_of_forall_ne (t : Table K V) {ws : List (Write K V)}
    (h : ∀ w ∈ ws, k ≠ w.1) : (putAll t ws).lookup k = t.lookup k := by
  induction ws generalizing t with
  | nil => rfl
  | cons w rest ih =>
    have hrest := ih (put t w) fun w' hw' => h w' (List.mem_cons_of_mem w hw')
    exact hrest.trans (lookup_put_of_ne t w (h w List.mem_cons_self))

theorem lookup_putAll_congr {t : Table K V} (ws : List (Write K V))
    (h : t.lookup k = t'.lookup k) : (putAll t ws).lookup k = (putAll t' ws).lookup k := by
  induction ws generalizing t t' with
  | nil => exact h
  | cons w rest ih => exact ih (lookup_put_congr w h)

/-- The rows of `ks` alone. -/
def restrict (t : Table K V) (ks : List K) : Table K V :=
  putAll ∅ (ks.map fun k => (k, t.lookup k))

theorem lookup_putAll_rows (t acc : Table K V) (ks : List K) (k : K) :
    (putAll acc (ks.map fun k => (k, t.lookup k))).lookup k =
      if k ∈ ks then t.lookup k else acc.lookup k := by
  induction ks generalizing acc with
  | nil => simp
  | cons k' rest ih =>
    have hput : (put acc (k', t.lookup k')).lookup k =
        if k = k' then t.lookup k' else acc.lookup k := by
      by_cases hk : k = k'
      · subst hk
        cases hv : t.lookup k with
        | none => simp [put]
        | some v => simp [put]
      · rw [if_neg hk, lookup_put_of_ne _ _ hk]
    rw [List.map_cons, putAll, List.foldl_cons, ← putAll, ih, hput]
    by_cases hk : k = k'
    · subst hk
      simp
    · simp [hk]

@[simp] theorem lookup_restrict (t : Table K V) (ks : List K) (k : K) :
    (restrict t ks).lookup k = if k ∈ ks then t.lookup k else none := by
  simp [restrict, lookup_putAll_rows]

end

/-! ## Thinning -/

def size (t : Table K V) : Nat := t.entries.length

variable (t : Table K V)

theorem size_eq_keys : size t = t.keys.length := (List.length_map ..).symm

/-- The entries that pass a test. -/
def retain (t : Table K V) (p : K → V → Bool) : Table K V where
  entries := t.entries.filter fun e => p e.1 e.2
  nodupKeys := t.nodupKeys.sublist List.filter_sublist

variable (p : K → V → Bool)

theorem size_retain_le : size (retain t p) ≤ size t :=
  List.length_filter_le ..

variable [DecidableEq K]

theorem lookup_retain (k : K) : (retain t p).lookup k = (t.lookup k).filter (p k) := by
  ext v
  rw [← Option.mem_def, AList.mem_lookup_iff, Option.filter_eq_some_iff, ← Option.mem_def,
    AList.mem_lookup_iff]
  simp [retain]

theorem retain_of_forall {t : Table K V} {p : K → V → Bool}
    (h : ∀ k v, t.lookup k = some v → p k v = true) : retain t p = t := by
  refine AList.ext (List.filter_eq_self.mpr fun e he => ?_)
  exact h e.1 e.2 (AList.mem_lookup_iff.mpr he)

theorem size_insert_of_mem {t : Table K V} {k : K} (v : V) (h : k ∈ t) :
    size (t.insert k v) = size t := by
  have hpos := List.length_pos_of_mem (AList.mem_keys.mp h)
  rw [size_eq_keys, size_eq_keys, AList.keys_insert, List.length_cons,
    List.length_erase_of_mem (AList.mem_keys.mp h)]
  omega

theorem size_insert_le (k : K) (v : V) : size (t.insert k v) ≤ size t + 1 := by
  rw [size_eq_keys, size_eq_keys, AList.keys_insert, List.length_cons]
  exact Nat.succ_le_succ List.length_erase_le

theorem size_erase_le (k : K) : size (t.erase k) ≤ size t := by
  rw [size_eq_keys, size_eq_keys, AList.keys_erase]
  exact List.length_erase_le

end Gapura.Lib.Tables
