import Gapura.Lib.Ordered

/-! # What does not depend on a list's order

A search, a sort, a collected map and the highest element are each decided by the
list's order in one case only: where two different elements tie. Without ties
they are the same for every permutation. -/
namespace Gapura.Lib.Permuted
open Std Ordered

variable {α β κ ν : Type} {l l' : List α}

theorem find?_eq_of_perm {p : α → Bool} (h : l.Perm l')
    (hu : ∀ a ∈ l, ∀ b ∈ l, p a = true → p b = true → a = b) : l.find? p = l'.find? p := by
  cases hf : l.find? p with
  | none =>
    symm
    rw [List.find?_eq_none] at hf ⊢
    exact fun a ha => hf a (h.mem_iff.mpr ha)
  | some a =>
    have ha := List.mem_of_find?_eq_some hf
    have hpa := List.find?_some hf
    have hsome : (l'.find? p).isSome = true := List.find?_isSome.mpr ⟨a, h.mem_iff.mp ha, hpa⟩
    obtain ⟨b, hb⟩ := Option.isSome_iff_exists.mp hsome
    rw [hb, hu a ha b (h.mem_iff.mpr (List.mem_of_find?_eq_some hb)) hpa (List.find?_some hb)]

theorem sortBy_eq_of_perm {cmp : α → α → Ordering} [TransCmp cmp] (h : l.Perm l')
    (hu : ∀ a ∈ l, ∀ b ∈ l, cmp a b = .eq → a = b) : sortBy cmp l = sortBy cmp l' := by
  refine List.Perm.eq_of_pairwise ?_ (pairwise_sortBy l) (pairwise_sortBy l')
    ((sortBy_perm l).trans (h.trans (sortBy_perm l').symm))
  intro a b ha hb hab hba
  refine hu a (mem_sortBy.mp ha) b (h.mem_iff.mpr (mem_sortBy.mp hb)) ?_
  have hswap : cmp b a = (cmp a b).swap := OrientedCmp.eq_swap
  rw [hswap] at hba
  cases hcmp : cmp a b with
  | eq => rfl
  | lt => rw [hcmp] at hba; cases hba
  | gt => rw [hcmp] at hab; cases hab

theorem getElem?_collect_of_perm {cmp : κ → κ → Ordering} [TransCmp cmp] [LawfulEqCmp cmp]
    [DecidableEq κ] {l l' : List (κ × ν)} (h : l.Perm l') (hu : (l.map Prod.fst).Nodup) (k : κ) :
    (collect cmp l)[k]? = (collect cmp l')[k]? := by
  rw [getElem?_collect, getElem?_collect]
  have hrev : l.reverse.Perm l'.reverse :=
    (List.reverse_perm l).trans (h.trans (List.reverse_perm l').symm)
  rw [find?_eq_of_perm hrev]
  intro a ha b hb hka hkb
  refine List.inj_on_of_nodup_map hu (List.mem_reverse.mp ha) (List.mem_reverse.mp hb) ?_
  rw [of_decide_eq_true hka, of_decide_eq_true hkb]

theorem argmax_eq_of_perm [DecidableEq α] {key : α → Nat} (h : l.Perm l')
    (hu : ∀ a ∈ l, ∀ b ∈ l, key a = key b → a = b) : l.argmax key = l'.argmax key := by
  cases hmax : l.argmax key with
  | none =>
    rw [List.argmax_eq_none] at hmax
    subst hmax
    rw [List.nil_perm.mp h]
    rfl
  | some a =>
    symm
    rw [List.argmax_eq_some_iff] at hmax ⊢
    obtain ⟨ha, htop, -⟩ := hmax
    refine ⟨h.mem_iff.mp ha, fun b hb => htop b (h.mem_iff.mpr hb), fun b hb hle => ?_⟩
    have hb := h.mem_iff.mpr hb
    rw [hu a ha b hb (Nat.le_antisymm hle (htop b hb))]

variable (class_ : α → β)

/-- Two lists that agree class by class hold the same elements. -/
theorem perm_of_filter_eq [DecidableEq α] [DecidableEq β]
    (h : ∀ c, l.filter (fun a => class_ a = c) = l'.filter fun a => class_ a = c) : l.Perm l' := by
  rw [List.perm_iff_count]
  intro a
  have hcount : ∀ m : List α, m.count a = (m.filter fun b => class_ b = class_ a).count a :=
    fun m => (List.count_filter (by simp)).symm
  rw [hcount l, hcount l', h]

theorem nodup_of_filter_le [DecidableEq β]
    (h : ∀ c, (l.filter fun a => class_ a = c).length ≤ 1) : (l.map class_).Nodup := by
  rw [List.nodup_iff_count_le_one]
  intro c
  rw [List.count_eq_length_filter, List.filter_map, List.length_map]
  simpa [Function.comp_def, beq_eq_decide] using h c

end Gapura.Lib.Permuted
