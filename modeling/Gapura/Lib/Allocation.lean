import Mathlib

/-! # One value per key, first come first served

Keys arrive in a list, some more than once. A key is given the first value of
its pool that is not taken, once; it keeps that value, or that there was none,
each time it comes again. Values given are taken from then on. -/
namespace Gapura.Lib.Allocation
variable {κ ν : Type} [DecidableEq κ] [DecidableEq ν] {pool : κ → List ν}

structure Alloc (κ ν : Type) where
  taken : List ν
  groups : List (κ × Option ν) := []

/-- The value of a key: the one it was given before, else the first that is free. -/
def Alloc.pick (pool : κ → List ν) (a : Alloc κ ν) (k : κ) : Option ν :=
  match a.groups.lookup k with
  | some v => v
  | none => (pool k).find? fun v => !a.taken.contains v

def Alloc.give (pool : κ → List ν) (a : Alloc κ ν) (k : κ) : Alloc κ ν :=
  { taken := (a.pick pool k).toList ++ a.taken
    groups := if (a.groups.lookup k).isSome then a.groups else (k, a.pick pool k) :: a.groups }

/-- The values of the keys in order; an item without a key has none. -/
def assign (pool : κ → List ν) : Alloc κ ν → List (Option κ) → List (Option ν)
  | _, [] => []
  | a, none :: rest => none :: assign pool a rest
  | a, some k :: rest => a.pick pool k :: assign pool (a.give pool k) rest

/-- What has been given after all the items. -/
def Alloc.run (pool : κ → List ν) : Alloc κ ν → List (Option κ) → Alloc κ ν
  | a, [] => a
  | a, none :: rest => a.run pool rest
  | a, some k :: rest => (a.give pool k).run pool rest

/-! ## A key keeps its value -/

theorem lookup_give (a : Alloc κ ν) (k : κ) :
    (a.give pool k).groups.lookup k = some (a.pick pool k) := by
  unfold Alloc.give Alloc.pick
  simp only
  cases h : a.groups.lookup k with
  | some v => simp [h]
  | none => simp

variable {a : Alloc κ ν} {k : κ} {v : Option ν} {base : List ν}

theorem lookup_give_of_some {k' : κ}
    (h : a.groups.lookup k' = some v) : (a.give pool k).groups.lookup k' = some v := by
  unfold Alloc.give
  simp only
  split
  · exact h
  · rename_i hnew
    have hne : k' ≠ k := by
      rintro rfl
      simp [h] at hnew
    rw [List.lookup_cons, beq_eq_false_iff_ne.mpr hne]
    exact h

theorem lookup_run (items : List (Option κ))
    (h : a.groups.lookup k = some v) : (a.run pool items).groups.lookup k = some v := by
  induction items generalizing a with
  | nil => exact h
  | cons item rest ih => cases item with
    | none => exact ih h
    | some k' => exact ih (lookup_give_of_some h)

/-- Every item has the value its key ends up with. -/
theorem assign_eq (a : Alloc κ ν) (items : List (Option κ)) :
    assign pool a items =
      items.map fun item => item.bind fun k => ((a.run pool items).groups.lookup k).join := by
  induction items generalizing a with
  | nil => rfl
  | cons item rest ih => cases item with
    | none =>
      rw [assign, ih, List.map_cons]
      rfl
    | some k =>
      rw [assign, ih, List.map_cons]
      have hk : ((a.give pool k).run pool rest).groups.lookup k = some (a.pick pool k) :=
        lookup_run rest (lookup_give a k)
      simp [Alloc.run, hk]

/-! ## Values are free, from the pool, and apart -/

/-- `base` is taken from the start. -/
structure Sound (pool : κ → List ν) (base : List ν) (a : Alloc κ ν) : Prop where
  start : ∀ v ∈ base, v ∈ a.taken
  given : ∀ k v, a.groups.lookup k = some (some v) → v ∈ pool k ∧ v ∉ base ∧ v ∈ a.taken
  apart : ∀ k k' v, a.groups.lookup k = some (some v) → a.groups.lookup k' = some (some v) → k = k'

omit [DecidableEq ν] in
theorem sound_start (base : List ν) : Sound pool base { taken := base } :=
  ⟨fun _ hv => hv, fun _ _ h => (nomatch h), fun _ _ _ h => (nomatch h)⟩

/-- What is in the groups after a key was served: what was there, or its value,
which was free. -/
theorem lookup_give_cases {k' : κ} {v : ν} (h : (a.give pool k).groups.lookup k' = some (some v)) :
    a.groups.lookup k' = some (some v) ∨ (k' = k ∧ v ∈ pool k ∧ v ∉ a.taken) := by
  unfold Alloc.give at h
  simp only at h
  split at h
  · exact .inl h
  · rename_i hnew
    rw [List.lookup_cons] at h
    split at h
    · rename_i heq
      right
      have hpick : a.pick pool k = some v := Option.some.inj h
      unfold Alloc.pick at hpick
      rw [Option.not_isSome_iff_eq_none.mp hnew] at hpick
      exact ⟨by simpa using heq, List.mem_of_find?_eq_some hpick,
        by simpa using List.find?_some hpick⟩
    · exact .inl h

theorem Sound.give (h : Sound pool base a) (k : κ) : Sound pool base (a.give pool k) := by
  have htaken : ∀ v ∈ a.taken, v ∈ (a.give pool k).taken := fun v hv =>
    List.mem_append_right _ hv
  have hnew : ∀ v, (a.give pool k).groups.lookup k = some (some v) → v ∈ (a.give pool k).taken := by
    intro v hv
    rw [lookup_give] at hv
    exact List.mem_append_left _ (by simp [Option.some.inj hv])
  refine ⟨fun v hv => htaken v (h.start v hv), fun k' v hk => ?_, fun k₁ k₂ v hk₁ hk₂ => ?_⟩
  · rcases lookup_give_cases hk with hold | ⟨rfl, hpool, hfree⟩
    · obtain ⟨hpool, hbase, hv⟩ := h.given k' v hold
      exact ⟨hpool, hbase, htaken v hv⟩
    · exact ⟨hpool, fun hv => hfree (h.start v hv), hnew v hk⟩
  · rcases lookup_give_cases hk₁ with hold₁ | ⟨rfl, -, hfree⟩
    · rcases lookup_give_cases hk₂ with hold₂ | ⟨rfl, -, hfree⟩
      · exact h.apart k₁ k₂ v hold₁ hold₂
      · exact absurd (h.given k₁ v hold₁).2.2 hfree
    · rcases lookup_give_cases hk₂ with hold₂ | ⟨rfl, -, -⟩
      · exact absurd (h.given k₂ v hold₂).2.2 hfree
      · rfl

theorem Sound.run (h : Sound pool base a)
    (items : List (Option κ)) : Sound pool base (a.run pool items) := by
  induction items generalizing a with
  | nil => exact h
  | cons item rest ih => cases item with
    | none => exact ih h
    | some k => exact ih (h.give k)

end Gapura.Lib.Allocation
