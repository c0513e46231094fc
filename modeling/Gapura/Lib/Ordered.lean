import Mathlib

/-! # Sorting by a comparison, and maps collected from lists

`sortBy` is the stable sort by a three-way comparison; what a first-match
search over a sorted list finds is a least element among those that match.
`collect` builds an ordered map from pairs, the last pair of a key winning, so
a lookup is a search from the list's end. -/
namespace Gapura.Lib.Ordered
open Std

variable {α β κ ν : Type}

/-! ## Stable sort -/

def sortBy (cmp : α → α → Ordering) (l : List α) : List α :=
  l.insertionSort fun a b => (cmp a b).isLE = true

section
variable {cmp : α → α → Ordering}

theorem sortBy_perm (l : List α) : (sortBy cmp l).Perm l := List.perm_insertionSort _ l

variable {a b : α} {l : List α} (q : α → Bool) {key : α → Nat} {p : α → Bool}

@[simp] theorem mem_sortBy : a ∈ sortBy cmp l ↔ a ∈ l :=
  (sortBy_perm l).mem_iff

theorem pairwise_sortBy [TransCmp cmp] (l : List α) :
    (sortBy cmp l).Pairwise fun a b => (cmp a b).isLE = true := by
  have : IsTrans α fun a b => (cmp a b).isLE = true := ⟨fun _ _ _ => TransCmp.isLE_trans⟩
  have : Std.Total fun a b => (cmp a b).isLE = true := ⟨fun a b => by
    have hswap : cmp b a = (cmp a b).swap := OrientedCmp.eq_swap
    rw [hswap]
    cases cmp a b <;> simp⟩
  exact List.pairwise_insertionSort _ l

theorem filter_orderedInsert [TransCmp cmp] (a : α)
    (hl : l.Pairwise fun a b => (cmp a b).isLE = true) :
    (l.orderedInsert (fun a b => (cmp a b).isLE = true) a).filter q =
      if q a then (l.filter q).orderedInsert (fun a b => (cmp a b).isLE = true) a
      else l.filter q := by
  induction l with
  | nil => simp [List.filter_cons]
  | cons b rest ih =>
    obtain ⟨hb, hrest⟩ := List.pairwise_cons.mp hl
    by_cases hab : (cmp a b).isLE = true
    · rw [List.orderedInsert_cons, if_pos hab, List.filter_cons]
      split
      · -- everything that is left stands at or above `b`, so `a` goes to its front
        have hfront : ∀ c ∈ (b :: rest).filter q, (cmp a c).isLE = true := by
          intro c hc
          rcases List.mem_cons.mp (List.mem_of_mem_filter hc) with rfl | hc
          · exact hab
          · exact TransCmp.isLE_trans hab (hb c hc)
        cases hf : (b :: rest).filter q with
        | nil => rfl
        | cons c cs =>
          rw [List.orderedInsert_cons, if_pos (hfront c (by simp [hf]))]
      · rfl
    · rw [List.orderedInsert_cons, if_neg hab, List.filter_cons, ih hrest, List.filter_cons]
      split
      · split
        · rw [List.orderedInsert_cons, if_neg hab]
        · rfl
      · rfl

theorem sortBy_filter [TransCmp cmp] (l : List α) :
    sortBy cmp (l.filter q) = (sortBy cmp l).filter q := by
  induction l with
  | nil => rfl
  | cons a rest ih =>
    have hstep : sortBy cmp (a :: rest) =
        (sortBy cmp rest).orderedInsert (fun a b => (cmp a b).isLE = true) a := rfl
    rw [hstep, filter_orderedInsert q a (pairwise_sortBy rest), List.filter_cons, ← ih]
    split
    · rfl
    · rfl

/-- Elements that compare equal keep the order they had. -/
theorem filter_sortBy [TransCmp cmp] (x : α) (l : List α) :
    (sortBy cmp l).filter (fun y => cmp x y = .eq) = l.filter fun y => cmp x y = .eq := by
  rw [← sortBy_filter]
  apply List.Pairwise.insertionSort_eq
  apply List.pairwise_of_forall_mem_list
  intro a ha b hb
  have hxa : cmp x a = .eq := by simpa using (List.mem_filter.mp ha).2
  have hxb : cmp x b = .eq := by simpa using (List.mem_filter.mp hb).2
  rw [← TransCmp.congr_left hxa, hxb]
  rfl

/-- The comparison of a sort by a numeric key. -/
def byKey (key : α → Nat) (a b : α) : Ordering := compare (key a) (key b)

instance (key : α → Nat) : TransCmp (byKey key) where
  eq_swap := fun {a b} => OrientedOrd.eq_swap (a := key a) (b := key b)
  isLE_trans := fun {a b c} => TransOrd.isLE_trans (a := key a) (b := key b) (c := key c)

theorem split_at_key {n : Nat}
    (hl : l.Pairwise fun a b => key a ≤ key b) (hn : ∀ a ∈ l, key a < n + 1) :
    l = l.filter (fun a => key a < n) ++ l.filter fun a => key a = n := by
  induction l with
  | nil => rfl
  | cons a rest ih =>
    obtain ⟨ha, hrest⟩ := List.pairwise_cons.mp hl
    by_cases hk : key a < n
    · have hne : ¬ key a = n := by omega
      rw [List.filter_cons_of_pos (by simpa using hk), List.filter_cons_of_neg (by simpa using hne),
        List.cons_append, ← ih hrest fun b hb => hn b (List.mem_cons_of_mem a hb)]
    · -- the key is the highest, so everything after `a` shares it
      have hall : ∀ b ∈ a :: rest, key b = n := by
        intro b hb
        have hhigh := hn b hb
        have hlow : n ≤ key a := by omega
        rcases List.mem_cons.mp hb with rfl | hb
        · omega
        · have := ha b hb
          omega
      rw [List.filter_eq_nil_iff.mpr fun b hb => by simp [hall b hb], List.nil_append,
        List.filter_eq_self.mpr fun b hb => by simp [hall b hb]]

/-- A list in the order of its keys is the classes of the keys, one after the other. -/
theorem eq_flatMap_classes (n : Nat)
    (hl : l.Pairwise fun a b => key a ≤ key b) (hn : ∀ a ∈ l, key a < n) :
    l = (List.range n).flatMap fun k => l.filter fun a => key a = k := by
  induction n generalizing l with
  | zero =>
    cases l with
    | nil => rfl
    | cons a rest => exact absurd (hn a List.mem_cons_self) (by omega)
  | succ n ih =>
    have hlow := ih (hl.sublist (List.filter_sublist (p := fun a => decide (key a < n))))
      fun a ha => by simpa using (List.mem_filter.mp ha).2
    rw [List.range_succ, List.flatMap_append, List.flatMap_singleton]
    nth_rewrite 1 [split_at_key hl hn]
    congr 1
    rw [hlow]
    apply List.flatMap_congr
    intro k hk
    rw [List.filter_filter]
    apply List.filter_congr
    intro a _
    have := List.mem_range.mp hk
    by_cases hka : key a = k
    · simp [hka, this]
    · simp [hka]

/-- The stable sort by a key keeps each class as it stood. -/
theorem sortBy_byKey (n : Nat) (hn : ∀ a ∈ l, key a < n) :
    sortBy (byKey key) l = (List.range n).flatMap fun k => l.filter fun a => key a = k := by
  have hle : (sortBy (byKey key) l).Pairwise fun a b => key a ≤ key b := by
    have hsorted : (sortBy (byKey key) l).Pairwise fun a b => (byKey key a b).isLE = true :=
      pairwise_sortBy l
    apply hsorted.imp
    intro a b hab
    exact Nat.isLE_compare.mp hab
  rw [eq_flatMap_classes n hle fun a ha => hn a (mem_sortBy.mp ha)]
  apply List.flatMap_congr
  intro k _
  rw [← sortBy_filter]
  apply List.Pairwise.insertionSort_eq
  apply List.pairwise_of_forall_mem_list
  intro a ha b hb
  have hka : key a = k := by simpa using (List.mem_filter.mp ha).2
  have hkb : key b = k := by simpa using (List.mem_filter.mp hb).2
  simp [byKey, hka, hkb]

/-- In a list in order, the first element a search accepts comes before every
other one it would accept. -/
theorem find?_le {le : α → α → Prop} (hl : l.Pairwise le)
    (h : l.find? p = some a) (hb : b ∈ l) (hp : p b = true) : b = a ∨ le a b := by
  obtain ⟨_, before, after, rfl, hbefore⟩ := List.find?_eq_some_iff_append.mp h
  rcases List.mem_append.mp hb with hb | hb
  · have := hbefore b hb
    simp [hp] at this
  · rcases List.mem_cons.mp hb with rfl | hb
    · exact .inl rfl
    · exact .inr (List.rel_of_pairwise_cons (List.pairwise_append.mp hl).2.1 hb)

/-! ## First matches -/

/-- A filter that drops nothing keeps indices. -/
theorem getElem?_filterMap {f : α → Option β} {l : List α} (h : ∀ a ∈ l, ∃ b, f a = some b)
    (k : Nat) : (l.filterMap f)[k]? = l[k]?.bind f := by
  induction l generalizing k with
  | nil => rfl
  | cons a rest ih =>
    obtain ⟨b, hb⟩ := h a List.mem_cons_self
    rw [List.filterMap_cons_some hb]
    cases k with
    | zero => simp [hb]
    | succ k => simpa using ih (fun x hx => h x (List.mem_cons_of_mem a hx)) k

theorem find?_filter_of_pos {q : α → Bool} (h : l.find? p = some a)
    (hq : q a = true) : (l.filter q).find? p = some a := by
  obtain ⟨hp, before, after, rfl, hbefore⟩ := List.find?_eq_some_iff_append.mp h
  rw [List.find?_eq_some_iff_append]
  refine ⟨hp, before.filter q, after.filter q, ?_, ?_⟩
  · rw [List.filter_append, List.filter_cons_of_pos hq]
  · intro b hb
    exact hbefore b (List.mem_filter.mp hb).1

theorem idxOf_lt_of_find? [DecidableEq α]
    (h : l.find? p = some a) (hb : p b = true) (hne : b ≠ a) : l.idxOf a < l.idxOf b := by
  induction l with
  | nil => cases h
  | cons c rest ih =>
    by_cases hc : p c = true
    · obtain rfl : c = a := by simpa [hc] using h
      rw [List.idxOf_cons_self, List.idxOf_cons_ne _ (Ne.symm hne)]
      omega
    · have hca : c ≠ a := by
        rintro rfl
        exact hc (List.find?_some h)
      have hcb : c ≠ b := by
        rintro rfl
        exact hc hb
      rw [List.find?_cons_of_neg hc] at h
      rw [List.idxOf_cons_ne _ hca, List.idxOf_cons_ne _ hcb]
      exact Nat.succ_lt_succ (ih h)

theorem idxOf_filter_lt [DecidableEq α] {q : α → Bool} (ha : q a = true)
    (hb : q b = true) : (l.filter q).idxOf a < (l.filter q).idxOf b ↔ l.idxOf a < l.idxOf b := by
  induction l with
  | nil => simp
  | cons c rest ih =>
    by_cases hc : q c = true
    · rw [List.filter_cons_of_pos hc]
      by_cases hca : c = a
      · subst hca
        by_cases hcb : c = b
        · simp [hcb]
        · rw [List.idxOf_cons_self, List.idxOf_cons_self, List.idxOf_cons_ne _ hcb,
            List.idxOf_cons_ne _ hcb]
          simp
      · by_cases hcb : c = b
        · simp [hcb]
        · rw [List.idxOf_cons_ne _ hca, List.idxOf_cons_ne _ hcb, List.idxOf_cons_ne _ hca,
            List.idxOf_cons_ne _ hcb]
          omega
    · have hca : c ≠ a := by
        rintro rfl
        exact hc ha
      have hcb : c ≠ b := by
        rintro rfl
        exact hc hb
      rw [List.filter_cons_of_neg hc, List.idxOf_cons_ne _ hca, List.idxOf_cons_ne _ hcb]
      omega

/-- The first match of a sorted list comes before every other match, and before
one that compares equal in the list as it was. -/
theorem find?_sortBy [TransCmp cmp] [DecidableEq α]
    (h : (sortBy cmp l).find? p = some a) (hb : b ∈ l) (hpb : p b = true) (hne : b ≠ a) :
    cmp a b = .lt ∨ (cmp a b = .eq ∧ l.idxOf a < l.idxOf b) := by
  rcases find?_le (pairwise_sortBy l) h (mem_sortBy.mpr hb) hpb with heq | hle
  · exact absurd heq hne
  · cases hcmp : cmp a b with
    | lt => exact .inl rfl
    | gt => rw [hcmp] at hle; cases hle
    | eq =>
      right
      refine ⟨rfl, ?_⟩
      have hself : cmp a a = .eq := ReflCmp.compare_self
      have hclass := find?_filter_of_pos (q := fun y => cmp a y = .eq) h (by simpa using hself)
      rw [filter_sortBy] at hclass
      have hlt := idxOf_lt_of_find? hclass hpb hne
      exact (idxOf_filter_lt (by simpa using hself) (by simpa using hcmp)).mp hlt

end

/-! ## The highest by a key -/

/-- From `n` down, the first element whose key is the highest that any has. -/
def downFrom (key : α → Nat) (l : List α) : Nat → Option α
  | 0 => l.find? fun a => key a = 0
  | n + 1 => (l.find? fun a => key a = n + 1).or (downFrom key l n)

variable {n : Nat}

theorem argmax_of_find? [DecidableEq α] {key : α → Nat} {l : List α} {a : α}
    (hn : ∀ b ∈ l, key b ≤ n) (h : l.find? (fun b => key b = n) = some a) :
    l.argmax key = some a := by
  have ha : key a = n := by simpa using List.find?_some h
  rw [List.argmax_eq_some_iff]
  refine ⟨List.mem_of_find?_eq_some h, fun b hb => ha ▸ hn b hb, fun b hb hle => ?_⟩
  by_cases hba : b = a
  · rw [hba]
  · have hkey : key b = n := Nat.le_antisymm (hn b hb) (ha ▸ hle)
    exact (idxOf_lt_of_find? h (by simpa using hkey) hba).le

theorem argmax_eq_downFrom [DecidableEq α] {key : α → Nat} {l : List α}
    (hn : ∀ a ∈ l, key a ≤ n) : l.argmax key = downFrom key l n := by
  induction n with
  | zero =>
    rw [downFrom]
    cases hf : l.find? fun a => key a = 0 with
    | some a => exact argmax_of_find? hn hf
    | none =>
      rw [List.argmax_eq_none, List.eq_nil_iff_forall_not_mem]
      intro a ha
      have := hn a ha
      exact List.find?_eq_none.mp hf a ha (by simpa using this)
  | succ n ih =>
    rw [downFrom]
    cases hf : l.find? fun a => key a = n + 1 with
    | some a => exact argmax_of_find? hn hf
    | none =>
      rw [Option.none_or]
      apply ih
      intro a ha
      have hne : key a ≠ n + 1 := by simpa using List.find?_eq_none.mp hf a ha
      have := hn a ha
      omega

/-! ## Pair keys -/

def pairCmp [Ord α] [Ord β] : α × β → α × β → Ordering :=
  compareLex (compareOn Prod.fst) (compareOn Prod.snd)

instance [Ord α] [Ord β] [TransOrd α] [TransOrd β] : TransCmp (pairCmp (α := α) (β := β)) :=
  inferInstanceAs (TransCmp (compareLex (compareOn Prod.fst) (compareOn Prod.snd)))

instance [Ord α] [Ord β] [LawfulEqOrd α] [LawfulEqOrd β] :
    LawfulEqCmp (pairCmp (α := α) (β := β)) where
  compare_self := by simp [pairCmp, compareLex, compareOn]
  eq_of_compare {a b} h := by
    simp only [pairCmp, compareLex, compareOn, Ordering.then_eq_eq, Std.compare_eq_iff_eq] at h
    exact Prod.ext h.1 h.2

/-! ## Maps collected from pairs -/

def collect (cmp : κ → κ → Ordering) (l : List (κ × ν)) : TreeMap κ ν cmp :=
  l.foldl (fun m p => m.insert p.1 p.2) ∅

variable {cmp : κ → κ → Ordering}

theorem getElem?_foldl_insert [TransCmp cmp] [LawfulEqCmp cmp] [DecidableEq κ]
    (l : List (κ × ν)) (m : TreeMap κ ν cmp) (k : κ) :
    (l.foldl (fun m p => m.insert p.1 p.2) m)[k]? =
      ((l.reverse.find? fun p => p.1 = k).map Prod.snd).or m[k]? := by
  induction l generalizing m with
  | nil => simp
  | cons p rest ih =>
    rw [List.foldl_cons, ih, TreeMap.getElem?_insert, List.reverse_cons, List.find?_append]
    by_cases hk : p.1 = k
    · simp [hk]
    · simp [hk]

theorem getElem?_collect [TransCmp cmp] [LawfulEqCmp cmp] [DecidableEq κ] (l : List (κ × ν))
    (k : κ) : (collect cmp l)[k]? = (l.reverse.find? fun p => p.1 = k).map Prod.snd := by
  rw [collect, getElem?_foldl_insert]
  simp

theorem exists_of_mem_collect (cmp : κ → κ → Ordering) [TransCmp cmp] [LawfulEqCmp cmp]
    [DecidableEq κ] {l : List (κ × ν)} {k : κ} (h : k ∈ l.map Prod.fst) :
    ∃ v, (k, v) ∈ l ∧ (collect cmp l)[k]? = some v := by
  rw [getElem?_collect]
  obtain ⟨p, hp, rfl⟩ := List.mem_map.mp h
  have hsome : (l.reverse.find? fun q => q.1 = p.1).isSome := by
    rw [List.find?_isSome]
    exact ⟨p, by simpa using hp, by simp⟩
  obtain ⟨q, hq⟩ := Option.isSome_iff_exists.mp hsome
  have hk : q.1 = p.1 := by simpa using List.find?_some hq
  have hmem : q ∈ l := by simpa using List.mem_of_find?_eq_some hq
  exact ⟨q.2, by rw [← hk]; exact hmem, by rw [hq]; rfl⟩

end Gapura.Lib.Ordered
