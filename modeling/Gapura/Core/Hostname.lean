import Gapura.Core.Config

/-! # Hostname patterns

A pattern is an exact name or `*.` and a suffix. On lowercased characters a
wildcard holds the hosts that put at least one character and a dot before the
suffix; the hosts of two patterns are then nested or disjoint, and `matches` on
the patterns themselves decides which (`matches_trans`, `matches_nested`). -/
namespace Gapura.Core.Hostname
open Lib.Text

/-- True when `pattern`, exact or `*.` wildcard, matches `host`. A host whose
first label is a literal `*` is an ordinary one, so a pattern can be matched
against a pattern. -/
def «matches» (pattern host : String) : Bool :=
  let h := host.toList
  match pattern.toList with
  | '*' :: '.' :: suffix =>
    decide (suffix.length + 1 < h.length) &&
      (h[h.length - suffix.length - 1]? == some '.' &&
        eqIgnoreCase (h.drop (h.length - suffix.length)) suffix)
  | p => eqIgnoreCase p h

/-- The hostnames a route has on a listener: `none` when the two share none,
`some []` when neither side names one. -/
def intersect (listener : Option String) (route : List String) : Option (List String) :=
  let sorted := fun out : List String =>
    some ((out.insertionSort (· ≤ ·)).destutter (· ≠ ·))
  match listener, route.isEmpty with
  | none, true => some []
  | none, false => sorted (route.map toAsciiLowercase)
  | some l, true => sorted [toAsciiLowercase l]
  | some l, false =>
    let out := route.filterMap fun r =>
      if «matches» l r then some (toAsciiLowercase r)
      else if «matches» r l then some (toAsciiLowercase l)
      else none
    if out.isEmpty then none else sorted out

/-- Exact beats wildcard beats none, then the longer name wins. -/
def specificity : Option String → Nat × Nat
  | none => (0, 0)
  | some h => (if ['*', '.'].isPrefixOf h.toList then 1 else 2, len h)

/-! ## What a pattern holds -/

/-- `matches` on lowercased characters. -/
def Holds : List Char → List Char → Prop
  | '*' :: '.' :: suffix, h => ∃ label, label ≠ [] ∧ h = label ++ '.' :: suffix
  | p, h => p = h

theorem holds_exact {p h : List Char} (hp : ∀ s, p ≠ '*' :: '.' :: s) : Holds p h ↔ p = h := by
  unfold Holds
  split
  · exact absurd rfl (hp _)
  · rfl

theorem lower_wildcard_iff {p s : List Char} :
    lower p = '*' :: '.' :: s ↔ ∃ t, p = '*' :: '.' :: t ∧ lower t = s := by
  constructor
  · intro h
    obtain ⟨c, p', rfl, hc, h⟩ := List.map_eq_cons_iff.mp h
    obtain ⟨d, t, rfl, hd, ht⟩ := List.map_eq_cons_iff.mp h
    rw [toLower_eq_iff (by decide)] at hc hd
    exact ⟨t, by rw [hc, hd], ht⟩
  · rintro ⟨t, rfl, rfl⟩
    rfl

/-- The index arithmetic of the wildcard branch, as a split of the host. -/
theorem wildcard_iff (suffix h : List Char) :
    (suffix.length + 1 < h.length ∧ h[h.length - suffix.length - 1]? = some '.' ∧
      lower (h.drop (h.length - suffix.length)) = lower suffix) ↔
    ∃ label, label ≠ [] ∧ lower h = label ++ '.' :: lower suffix := by
  constructor
  · rintro ⟨hlen, hdot, hs⟩
    have hk : h.length - suffix.length = (h.length - suffix.length - 1) + 1 := by omega
    have hsplit : h = h.take (h.length - suffix.length - 1) ++
        '.' :: h.drop (h.length - suffix.length) := by
      obtain ⟨hlt, hget⟩ := List.getElem?_eq_some_iff.mp hdot
      conv_lhs => rw [← List.take_append_drop (h.length - suffix.length - 1) h]
      rw [List.drop_eq_getElem_cons hlt, hget, ← hk]
    refine ⟨lower (h.take (h.length - suffix.length - 1)), ?_, ?_⟩
    · apply List.ne_nil_of_length_pos
      simp only [length_lower, List.length_take]
      omega
    · conv_lhs => rw [hsplit]
      simp only [lower_append, lower_cons, hs]
      rfl
  · rintro ⟨label, hl, h'⟩
    obtain ⟨a, r, rfl, rfl, hr⟩ := List.map_eq_append_iff.mp h'
    obtain ⟨c, s, rfl, hc, hs⟩ := List.map_eq_cons_iff.mp hr
    rw [toLower_eq_iff (by decide)] at hc
    subst hc
    have hlen : s.length = suffix.length := by
      have := congrArg List.length hs
      simpa using this
    have ha : 0 < a.length := by
      apply List.length_pos_of_ne_nil
      rintro rfl
      exact hl rfl
    have e1 : (a ++ '.' :: s).length - suffix.length - 1 = a.length := by simp; omega
    have e2 : (a ++ '.' :: s).length - suffix.length = a.length + 1 := by simp; omega
    rw [e1, e2]
    refine ⟨by simp; omega, by simp, ?_⟩
    simpa [lower] using hs

theorem matches_iff {p h : String} :
    «matches» p h = true ↔ Holds (lower p.toList) (lower h.toList) := by
  by_cases hw : ∃ s, p.toList = '*' :: '.' :: s
  · obtain ⟨s, hs⟩ := hw
    have := wildcard_iff s h.toList
    simp only [«matches», hs, lower_cons, Bool.and_eq_true, decide_eq_true_eq, beq_iff_eq,
      eqIgnoreCase_iff]
    rw [this]
    rfl
  · have hp : ∀ s, lower p.toList ≠ '*' :: '.' :: s := by
      intro s hs
      obtain ⟨t, ht, _⟩ := lower_wildcard_iff.mp hs
      exact hw ⟨t, ht⟩
    rw [holds_exact hp]
    unfold «matches»
    split
    · rename_i s hs
      exact absurd ⟨s, hs⟩ hw
    · exact eqIgnoreCase_iff

/-! ## Patterns are nested or disjoint -/

theorem holds_wildcard {s h : List Char} :
    Holds ('*' :: '.' :: s) h ↔ ∃ label, label ≠ [] ∧ h = label ++ '.' :: s := Iff.rfl

theorem wildcard_or_exact (p : List Char) :
    (∃ s, p = '*' :: '.' :: s) ∨ ∀ s, p ≠ '*' :: '.' :: s := by
  by_cases h : ∃ s, p = '*' :: '.' :: s
  · exact .inl h
  · exact .inr fun s hs => h ⟨s, hs⟩

/-- What a held pattern holds, its holder holds. -/
theorem Holds.trans {p q h : List Char} (hpq : Holds p q) (hqh : Holds q h) : Holds p h := by
  rcases wildcard_or_exact q with ⟨t, rfl⟩ | hq
  · rcases wildcard_or_exact p with ⟨s, rfl⟩ | hp
    · obtain ⟨label, hl, hpq⟩ := holds_wildcard.mp hpq
      obtain ⟨front, hf, rfl⟩ := holds_wildcard.mp hqh
      cases label with
      | nil => exact absurd rfl hl
      | cons c rest =>
        cases rest with
        | nil =>
          -- the same suffix
          obtain ⟨-, -, rfl⟩ : '*' = c ∧ '.' = '.' ∧ t = s := by simpa using hpq
          exact ⟨front, hf, rfl⟩
        | cons d rest =>
          -- the held suffix ends in the holder's
          obtain ⟨-, -, rfl⟩ : '*' = c ∧ '.' = d ∧ t = rest ++ '.' :: s := by simpa using hpq
          exact ⟨front ++ '.' :: rest, by simp, by simp⟩
    · rw [(holds_exact hp).mp hpq]
      exact hqh
  · rw [← (holds_exact hq).mp hqh]
    exact hpq

/-- Two suffixes of one host, each behind a dot: the longer is held by the
shorter's wildcard. -/
theorem holds_of_suffixes {s t front label : List Char} (hlen : s.length ≤ t.length)
    (h : front ++ '.' :: t = label ++ '.' :: s) : Holds ('*' :: '.' :: s) ('*' :: '.' :: t) := by
  rcases List.append_eq_append_iff.mp h with ⟨mid, rfl, hmid⟩ | ⟨mid, rfl, hmid⟩
  · cases mid with
    | nil =>
      obtain rfl : t = s := by simpa using hmid
      exact ⟨['*'], by simp, rfl⟩
    | cons c mid =>
      obtain ⟨-, rfl⟩ : '.' = c ∧ t = mid ++ '.' :: s := by simpa using hmid
      exact ⟨'*' :: '.' :: mid, by simp, rfl⟩
  · cases mid with
    | nil =>
      obtain rfl : s = t := by simpa using hmid
      exact ⟨['*'], by simp, rfl⟩
    | cons c mid =>
      obtain ⟨-, rfl⟩ : '.' = c ∧ s = mid ++ '.' :: t := by simpa using hmid
      simp at hlen
      omega

/-- Two patterns that hold one host: one of them holds the other. -/
theorem Holds.nested {p q h : List Char} (hp : Holds p h) (hq : Holds q h) :
    Holds p q ∨ Holds q p := by
  rcases wildcard_or_exact p with ⟨s, rfl⟩ | hpe
  · rcases wildcard_or_exact q with ⟨t, rfl⟩ | hqe
    · obtain ⟨label, -, rfl⟩ := holds_wildcard.mp hp
      obtain ⟨front, -, heq⟩ := holds_wildcard.mp hq
      rcases Nat.le_total s.length t.length with hlen | hlen
      · exact .inl (holds_of_suffixes hlen heq.symm)
      · exact .inr (holds_of_suffixes hlen heq)
    · rw [(holds_exact hqe).mp hq]
      exact .inl hp
  · rw [(holds_exact hpe).mp hp]
    exact .inr hq

theorem matches_trans {p q h : String} (hpq : «matches» p q = true) (hqh : «matches» q h = true) :
    «matches» p h = true :=
  matches_iff.mpr ((matches_iff.mp hpq).trans (matches_iff.mp hqh))

theorem matches_nested {p q h : String} (hp : «matches» p h = true) (hq : «matches» q h = true) :
    «matches» p q = true ∨ «matches» q p = true := by
  rcases (matches_iff.mp hp).nested (matches_iff.mp hq) with h | h
  · exact .inl (matches_iff.mpr h)
  · exact .inr (matches_iff.mpr h)

theorem matches_self (p : String) : «matches» p p = true := by
  rw [matches_iff]
  rcases wildcard_or_exact (lower p.toList) with ⟨s, hs⟩ | hp
  · rw [hs]
    exact ⟨['*'], by simp, rfl⟩
  · exact (holds_exact hp).mpr rfl

/-! ## Specificity -/

def labels (h : String) : Nat := h.toList.count '.' + 1

theorem labels_eq (h : String) : labels h = (lower h.toList).count '.' + 1 := by
  have hlower : ∀ cs : List Char, (lower cs).count '.' = cs.count '.' := by
    intro cs
    induction cs with
    | nil => rfl
    | cons c cs ih =>
      have hdot : c.toLower = '.' ↔ c = '.' := toLower_eq_iff (by decide)
      simp only [lower_cons, List.count_cons, ih, beq_iff_eq, hdot]
  rw [hlower]
  rfl

theorem isPrefixOf_wildcard {cs : List Char} :
    ['*', '.'].isPrefixOf cs = true ↔ ∃ s, cs = '*' :: '.' :: s := by
  rw [List.isPrefixOf_iff_prefix]
  constructor
  · rintro ⟨s, rfl⟩
    exact ⟨s, rfl⟩
  · rintro ⟨s, rfl⟩
    exact ⟨s, rfl⟩

theorem specificity_eq (h : String) : specificity (some h) =
    (if ['*', '.'].isPrefixOf (lower h.toList) then 1 else 2, String.utf8Len (lower h.toList)) := by
  have hwild : ['*', '.'].isPrefixOf h.toList = ['*', '.'].isPrefixOf (lower h.toList) := by
    rw [Bool.eq_iff_iff, isPrefixOf_wildcard, isPrefixOf_wildcard]
    constructor
    · rintro ⟨s, hs⟩
      exact ⟨lower s, by rw [hs]; rfl⟩
    · rintro ⟨s, hs⟩
      obtain ⟨t, ht, -⟩ := lower_wildcard_iff.mp hs
      exact ⟨t, ht⟩
  rw [specificity, hwild, len_eq]

/-- What a pattern holds is the pattern itself, in some case, or more specific. -/
theorem specificity_of_matches {p q : String} (h : «matches» p q = true) :
    lower p.toList = lower q.toList ∨
      (specificity (some p)).1 < (specificity (some q)).1 ∨
      ((specificity (some p)).1 = (specificity (some q)).1 ∧ len p < len q ∧
        labels p < labels q) := by
  rw [matches_iff] at h
  rw [specificity_eq, specificity_eq, len_eq, len_eq, labels_eq, labels_eq]
  generalize lower p.toList = p at h ⊢
  generalize lower q.toList = q at h ⊢
  rcases wildcard_or_exact p with ⟨s, rfl⟩ | hp
  · obtain ⟨label, hl, rfl⟩ := holds_wildcard.mp h
    rcases wildcard_or_exact (label ++ '.' :: s) with ⟨t, ht⟩ | hq
    · cases label with
      | nil => exact absurd rfl hl
      | cons c rest => cases rest with
        | nil =>
          -- the same suffix
          left
          obtain ⟨rfl, -⟩ : c = '*' ∧ s = t := by simpa using ht
          rfl
        | cons d rest =>
          obtain ⟨rfl, rfl, -⟩ : c = '*' ∧ d = '.' ∧ rest ++ '.' :: s = t := by simpa using ht
          right; right
          refine ⟨by simp, ?_, ?_⟩
          · have hdot := Char.utf8Size_pos '.'
            simp only [List.cons_append, String.utf8Len_cons, String.utf8Len_append]
            omega
          · simp
    · right; left
      have hexact : ['*', '.'].isPrefixOf (label ++ '.' :: s) = false := by
        rw [Bool.eq_false_iff, Ne, isPrefixOf_wildcard]
        rintro ⟨t, ht⟩
        exact hq t ht
      simp [hexact]
  · exact .inl ((holds_exact hp).mp h)

theorem specificity_pos (h : String) : 0 < (specificity (some h)).1 := by
  show 0 < if ['*', '.'].isPrefixOf h.toList then 1 else 2
  split <;> omega

/-- The order the documentation gives: exact beats wildcard beats none, then more
labels. -/
def documentedRank : Option String → Nat × Nat
  | none => (0, 0)
  | some h => ((specificity (some h)).1, labels h)

/-- Among patterns of one kind that match one host, the longer has more labels. -/
theorem compare_len_of_matches {p q host : String} (hp : «matches» p host = true)
    (hq : «matches» q host = true) (hkind : (specificity (some p)).1 = (specificity (some q)).1) :
    compare (len p) (len q) = compare (labels p) (labels q) := by
  have hsame : lower p.toList = lower q.toList → len p = len q ∧ labels p = labels q := by
    intro heq
    rw [len_eq, len_eq, labels_eq, labels_eq, heq]
    exact ⟨rfl, rfl⟩
  rcases matches_nested hp hq with h | h
  · rcases specificity_of_matches h with heq | hlt | ⟨-, hlen, hlabels⟩
    · rw [(hsame heq).1, (hsame heq).2, compare_eq_iff_eq.mpr rfl, compare_eq_iff_eq.mpr rfl]
    · omega
    · rw [compare_lt_iff_lt.mpr hlen, compare_lt_iff_lt.mpr hlabels]
  · rcases specificity_of_matches h with heq | hlt | ⟨-, hlen, hlabels⟩
    · rw [(hsame heq.symm).1, (hsame heq.symm).2, compare_eq_iff_eq.mpr rfl,
        compare_eq_iff_eq.mpr rfl]
    · omega
    · rw [compare_gt_iff_gt.mpr hlen, compare_gt_iff_gt.mpr hlabels]

end Gapura.Core.Hostname
