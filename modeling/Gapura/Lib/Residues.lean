import Mathlib.Algebra.BigOperators.Ring.Finset
import Mathlib.Data.Int.CardIntervalMod
import Mathlib.Data.Nat.Periodic

/-! # Counting two residues of one number

How often, in any run of `n * h` consecutive numbers, one leaves given
remainders modulo `n` and modulo `h`: as often as the two have a common divisor
when the remainders agree on it, and never otherwise. -/
namespace Gapura.Lib.Residues

/-- A run of one whole period counts the same wherever it starts. -/
theorem countP_range'_of_periodic {p : Nat → Prop} [DecidablePred p] {period : Nat}
    (hp : Function.Periodic p period) (start : Nat) :
    (List.range' start period).countP p = Nat.count p period := by
  have hcard := Nat.filter_multiset_Ico_card_eq_of_periodic start period p hp
  rw [← hcard, ← Multiset.countP_eq_card_filter, Multiset.Ico, Nat.Ico_eq_range',
    Nat.add_sub_cancel_left]
  rfl

variable {n : Nat}

variable {h : Nat}

theorem modEq_and_modEq_iff {c c' : Nat} :
    c ≡ c' [MOD n] ∧ c ≡ c' [MOD h] ↔ c ≡ c' [MOD Nat.lcm n h] := by
  simp only [Nat.modEq_iff_dvd]
  constructor
  · rintro ⟨hn, hh⟩
    exact_mod_cast Int.coe_lcm_dvd hn hh
  · intro h
    exact ⟨(Int.natCast_dvd_natCast.mpr (Nat.dvd_lcm_left n _)).trans h,
      (Int.natCast_dvd_natCast.mpr (Nat.dvd_lcm_right _ _)).trans h⟩

theorem count_modEq (hn : 0 < n) (h e : Nat) : Nat.count (fun c => c ≡ e [MOD n]) (n * h) = h := by
  rw [Nat.count_modEq_card _ hn, Nat.mul_div_cancel_left h hn, Nat.mul_mod_right]
  simp

theorem count_modEq_modEq (hn : 0 < n) (hh : 0 < h) (e k : Nat) :
    Nat.count (fun c => c ≡ e [MOD n] ∧ c ≡ k [MOD h]) (n * h) =
      if e ≡ k [MOD Nat.gcd n h] then Nat.gcd n h else 0 := by
  split
  · rename_i hek
    obtain ⟨c₀, he, hk⟩ := Nat.chineseRemainder' hek
    have hiff : ∀ c, (c ≡ e [MOD n] ∧ c ≡ k [MOD h]) ↔ c ≡ c₀ [MOD Nat.lcm n h] := by
      intro c
      rw [← modEq_and_modEq_iff]
      exact ⟨fun hc => ⟨hc.1.trans he.symm, hc.2.trans hk.symm⟩,
        fun hc => ⟨hc.1.trans he, hc.2.trans hk⟩⟩
    simp only [hiff]
    rw [← Nat.gcd_mul_lcm n h, Nat.mul_comm]
    exact count_modEq (Nat.lcm_pos hn hh) _ _
  · rename_i hek
    rw [Nat.count_eq_card_filter_range, Finset.card_eq_zero, Finset.filter_eq_empty_iff]
    rintro c - ⟨he, hk⟩
    exact hek ((he.symm.of_dvd (Nat.gcd_dvd_left n h)).trans (hk.of_dvd (Nat.gcd_dvd_right n h)))

/-- The numbers whose remainder modulo `n` is marked and whose remainder modulo
`h` is `k`, by the marked remainders that agree with `k`. -/
theorem count_marked_modEq (hn : 0 < n) (hh : 0 < h) (marked : Nat → Prop)
    [DecidablePred marked] (k : Nat) :
    Nat.count (fun c => marked (c % n) ∧ c ≡ k [MOD h]) (n * h) =
      Nat.gcd n h * Nat.count (fun e => marked e ∧ e ≡ k [MOD Nat.gcd n h]) n := by
  have hmaps : ∀ c ∈ (Finset.range (n * h)).filter (fun c => marked (c % n) ∧ c ≡ k [MOD h]),
      c % n ∈ Finset.range n := fun c _ => Finset.mem_range.mpr (Nat.mod_lt c hn)
  rw [Nat.count_eq_card_filter_range, Finset.card_eq_sum_card_fiberwise hmaps,
    Nat.count_eq_card_filter_range, Finset.card_filter, Finset.mul_sum]
  refine Finset.sum_congr rfl fun e he => ?_
  have hmod : e % n = e := Nat.mod_eq_of_lt (Finset.mem_range.mp he)
  rw [Finset.filter_filter]
  by_cases hmarked : marked e
  · -- the fibre over a marked remainder is counted by its two residues
    have hfibre : ∀ c, ((marked (c % n) ∧ c ≡ k [MOD h]) ∧ c % n = e) ↔
        (c ≡ e [MOD n] ∧ c ≡ k [MOD h]) := by
      intro c
      have hsame : c ≡ e [MOD n] ↔ c % n = e := by rw [Nat.ModEq, hmod]
      rw [hsame]
      constructor
      · rintro ⟨⟨-, hk⟩, he⟩
        exact ⟨he, hk⟩
      · rintro ⟨he, hk⟩
        exact ⟨⟨he ▸ hmarked, hk⟩, he⟩
    simp only [hfibre, ← Nat.count_eq_card_filter_range, count_modEq_modEq hn hh, hmarked,
      true_and, mul_ite, mul_one, mul_zero]
  · rw [if_neg fun h => hmarked h.1, mul_zero, Finset.card_eq_zero, Finset.filter_eq_empty_iff]
    rintro c - ⟨⟨hc, -⟩, rfl⟩
    exact hmarked hc

end Gapura.Lib.Residues
