import Mathlib.Data.List.Basic
import Mathlib.Logic.Function.Basic

/-! # Maps from a name to its values

Five lists of edits, applied in one order. A container follows an edit when each
pass over it does to what its names hold what the map's step does. -/
namespace Gapura.Lib.MultiMap

/-- The edits, each list in the order it is applied. -/
structure Edits (K V : Type) where
  remove : List K
  rename : List (K × K)
  replace : List (K × V)
  add : List (K × V)
  append : List (K × V)

variable {K V : Type}

/-- A pass follows the map's pass when each of its steps does. -/
theorem foldl_follows {M α β : Type} {R : M → (K → List V) → Prop} (op : M → α → M)
    (step : (K → List V) → β → K → List V) (read : α → β) {l : List α}
    (h : ∀ a ∈ l, ∀ m f, R m f → R (op m a) (step f (read a))) {m : M} {f : K → List V}
    (hm : R m f) : R (l.foldl op m) ((l.map read).foldl step f) := by
  rw [List.foldl_map]
  exact List.foldl_rel hm h

variable [DecidableEq K]

def removed (f : K → List V) (name : K) : K → List V := Function.update f name []

/-- The new name holds exactly what the old one held. -/
def renamed (f : K → List V) (p : K × K) : K → List V :=
  if (f p.1).isEmpty then f else Function.update (Function.update f p.1 []) p.2 (f p.1)

def replaced (f : K → List V) (p : K × V) : K → List V :=
  if (f p.1).isEmpty then f else Function.update f p.1 [p.2]

def added (f : K → List V) (p : K × V) : K → List V :=
  if (f p.1).isEmpty then Function.update f p.1 [p.2] else f

def appended (f : K → List V) (p : K × V) : K → List V :=
  Function.update f p.1 (f p.1 ++ [p.2])

def Edits.apply (e : Edits K V) (f : K → List V) : K → List V :=
  let f := e.remove.foldl removed f
  let f := e.rename.foldl renamed f
  let f := e.replace.foldl replaced f
  let f := e.add.foldl added f
  e.append.foldl appended f

theorem foldl_removed (names : List K) (f : K → List V) (k : K) :
    names.foldl removed f k = if k ∈ names then [] else f k := by
  induction names generalizing f with
  | nil => simp
  | cons name rest ih =>
    rw [List.foldl_cons, ih]
    by_cases hk : k = name
    · simp [hk, removed]
    · simp [hk, removed]

end Gapura.Lib.MultiMap
