import Mathlib

/-! # Checks that can fail

What an accepted input says about the checks it went through. -/
namespace Gapura.Lib.Checks

variable {ε α β : Type}

variable {f : α → Except ε β} {x : Except ε α} {l : List α} {out : List β}

variable {b : β}

theorem bind_eq_ok : (x >>= f) = .ok b ↔ ∃ a, x = .ok a ∧ f a = .ok b := by
  cases x with
  | error e => simp [bind, Except.bind]
  | ok a => simp [bind, Except.bind]

theorem bind_ok {a : α} (hx : x = .ok a) (hf : f a = .ok b) : (x >>= f) = .ok b :=
  bind_eq_ok.mpr ⟨a, hx, hf⟩

theorem map_eq_ok {f : α → β} : x.map f = .ok b ↔ ∃ a, x = .ok a ∧ f a = b := by
  cases x with
  | error e => simp [Except.map]
  | ok a => simp [Except.map]

theorem ok_of_isSome (d : α) (h : x.toOption.isSome = true) : x = .ok (x.toOption.getD d) := by
  cases x with
  | error e => cases h
  | ok a => rfl

/-- A list is accepted when each of its values is. -/
theorem mapM_eq_ok : l.mapM f = .ok out ↔ l.map f = out.map .ok := by
  induction l generalizing out with
  | nil => cases out <;> simp [pure, Except.pure]
  | cons x rest ih =>
    rw [List.mapM_cons, bind_eq_ok, List.map_cons, eq_comm, List.map_eq_cons_iff]
    simp only [bind_eq_ok, ih]
    constructor
    · rintro ⟨y, hy, ys, hys, h⟩
      cases h
      exact ⟨y, ys, rfl, hy.symm, hys.symm⟩
    · rintro ⟨y, ys, rfl, hy, hys⟩
      exact ⟨y, hy.symm, ys, hys.symm, rfl⟩

/-- What a list of accepted values was read from. -/
theorem exists_of_mem_mapM (h : l.mapM f = .ok out) {y : β} (hy : y ∈ out) : ∃ x ∈ l, f x = .ok y :=
  List.mem_map.mp (mapM_eq_ok.mp h ▸ List.mem_map_of_mem hy)

theorem exists_mem_of_mapM
    (h : l.mapM f = .ok out) {x : α} (hx : x ∈ l) : ∃ y ∈ out, f x = .ok y := by
  have hmem : f x ∈ out.map .ok := mapM_eq_ok.mp h ▸ List.mem_map_of_mem hx
  obtain ⟨y, hy, hfx⟩ := List.mem_map.mp hmem
  exact ⟨y, hy, hfx.symm⟩

theorem length_of_mapM (h : l.mapM f = .ok out) : out.length = l.length := by
  simpa using (congrArg List.length (mapM_eq_ok.mp h)).symm

/-- Values that are accepted as they were written out are all accepted. -/
theorem mapM_map_of_forall {γ : Type} {g : γ → α} {k : γ → β} {l : List γ}
    (h : ∀ y ∈ l, f (g y) = .ok (k y)) : (l.map g).mapM f = .ok (l.map k) := by
  rw [mapM_eq_ok, List.map_map, List.map_map]
  exact List.map_congr_left h

/-- A list read with a check whose results it accepts again reads as itself. -/
theorem mapM_again {g : β → α} (hf : ∀ x y, f x = .ok y → f (g y) = .ok y)
    (h : l.mapM f = .ok out) : (out.map g).mapM f = .ok out := by
  have hout : ∀ y ∈ out, f (g y) = .ok (id y) := by
    intro y hy
    obtain ⟨x, -, hx⟩ := exists_of_mem_mapM h hy
    exact hf x y hx
  rw [mapM_map_of_forall hout, List.map_id]

/-! ## Two runs -/

/-- Two runs that fail alike, or both succeed with related values. -/
inductive Both (R : α → β → Prop) : Except ε α → Except ε β → Prop
  | ok {a : α} {b : β} (h : R a b) : Both R (.ok a) (.ok b)
  | error (e : ε) : Both R (.error e) (.error e)

namespace Both

variable {γ δ : Type} {R : α → β → Prop} {S : γ → δ → Prop}

theorem bind {x : Except ε α} {y : Except ε β} {f : α → Except ε γ} {g : β → Except ε δ}
    (h : Both R x y) (hf : ∀ a b, R a b → Both S (f a) (g b)) : Both S (x >>= f) (y >>= g) := by
  cases h with
  | ok h => exact hf _ _ h
  | error e => exact .error e

theorem eq {x y : Except ε α} (h : Both Eq x y) : x = y := by
  cases h with
  | ok h => rw [h]
  | error e => rfl

/-- A loop over one list keeps the relation each of its steps keeps. -/
theorem foldlM {l : List γ} {f : α → γ → Except ε α} {g : β → γ → Except ε β}
    (hf : ∀ a b c, R a b → Both R (f a c) (g b c)) {a : α} {b : β} (h : R a b) :
    Both R (l.foldlM f a) (l.foldlM g b) := by
  induction l generalizing a b with
  | nil => exact .ok h
  | cons c rest ih =>
    rw [List.foldlM_cons, List.foldlM_cons]
    exact (hf a b c h).bind fun a b h => ih h

end Both

end Gapura.Lib.Checks
