import Mathlib

/-! # Leading bits

The words that share their first `b` bits with a given one. Two such classes
are nested or disjoint, whatever their lengths. -/
namespace Gapura.Lib.BitPrefix

variable {v w : Nat}

def SharesFirst (b : Nat) (x y : BitVec w) : Prop := ∀ i, i < b → x.getMsbD i = y.getMsbD i

namespace SharesFirst

variable {b : Nat}

theorem symm {x y : BitVec w} (h : SharesFirst b x y) : SharesFirst b y x :=
  fun i hi => (h i hi).symm

theorem trans {x y z : BitVec w} (hxy : SharesFirst b x y) (hyz : SharesFirst b y z) :
    SharesFirst b x z :=
  fun i hi => (hxy i hi).trans (hyz i hi)

theorem mono {c : Nat} {x y : BitVec w} (h : SharesFirst c x y) (hbc : b ≤ c) : SharesFirst b x y :=
  fun i hi => h i (by omega)

end SharesFirst

/-- What is left after shifting all but the first `b` bits out is those bits. -/
theorem shiftRight_eq_iff {b : Nat} (hb : b ≤ w) (x y : BitVec w) :
    x >>> (w - b) = y >>> (w - b) ↔ SharesFirst b x y := by
  constructor
  · intro h i hi
    have hbit := congrArg (fun z => z.getLsbD (b - 1 - i)) h
    have hpos : w - b + (b - 1 - i) = w - 1 - i := by omega
    simp only [BitVec.getLsbD_ushiftRight, hpos] at hbit
    simp only [BitVec.getMsbD, hbit]
  · intro h
    refine BitVec.eq_of_getLsbD_eq fun i hi => ?_
    rw [BitVec.getLsbD_ushiftRight, BitVec.getLsbD_ushiftRight]
    by_cases hin : w - b + i < w
    · have hbit := h (b - 1 - i) (by omega)
      have hpos : w - 1 - (b - 1 - i) = w - b + i := by omega
      have hlt : b - 1 - i < w := by omega
      simpa only [BitVec.getMsbD, hpos, hlt, decide_true, Bool.true_and] using hbit
    · rw [BitVec.getLsbD_of_ge _ _ (by omega), BitVec.getLsbD_of_ge _ _ (by omega)]

theorem sharesFirst_append {b : Nat} (p q : BitVec v) (x y : BitVec w) :
    SharesFirst (v + b) (p ++ x) (q ++ y) ↔ p = q ∧ SharesFirst b x y := by
  constructor
  · intro h
    refine ⟨BitVec.eq_of_getMsbD_eq fun i hi => ?_, fun i hi => ?_⟩
    · have hbit := h i (by omega)
      have hout : ¬ v ≤ i := by omega
      simpa only [BitVec.getMsbD_append, hout, if_false] using hbit
    · have hbit := h (v + i) (by omega)
      simpa [BitVec.getMsbD_append] using hbit
  · rintro ⟨rfl, h⟩ i hi
    rw [BitVec.getMsbD_append, BitVec.getMsbD_append]
    split
    · exact h (i - v) (by omega)
    · rfl

def withPrefix (x : BitVec w) (b : Nat) : Set (BitVec w) := {y | SharesFirst b x y}

theorem withPrefix_nested_or_disjoint (x y : BitVec w) (b c : Nat) :
    withPrefix x b ⊆ withPrefix y c ∨ withPrefix y c ⊆ withPrefix x b ∨
      Disjoint (withPrefix x b) (withPrefix y c) := by
  wlog hbc : b ≤ c generalizing x y b c
  · obtain h | h | h := this y x c b (by omega)
    · exact .inr (.inl h)
    · exact .inl h
    · exact .inr (.inr h.symm)
  by_cases hxy : SharesFirst b x y
  · exact .inr (.inl fun z hz => hxy.trans (SharesFirst.mono hz hbc))
  · refine .inr (.inr (Set.disjoint_left.mpr fun z hx hy => hxy ?_))
    exact SharesFirst.trans hx (SharesFirst.mono hy hbc).symm

end Gapura.Lib.BitPrefix
