import Gapura.Core.Hostname

/-! # The hosts two sides share

`intersect` compares patterns by matching one against the other as if it were a
host. On well-formed names that is exact: the effective hostnames match the hosts
both sides take, and there are none only when no host is taken by both. -/
namespace Gapura.Core.Hostname
open Lib.Text

/-! ## Case -/

theorem matches_lowercase (p h : String) : «matches» p (toAsciiLowercase h) = «matches» p h := by
  rw [Bool.eq_iff_iff, matches_iff, matches_iff, toList_toAsciiLowercase, lower_lower]

theorem lowercase_matches (p h : String) : «matches» (toAsciiLowercase p) h = «matches» p h := by
  rw [Bool.eq_iff_iff, matches_iff, matches_iff, toList_toAsciiLowercase, lower_lower]

/-! ## The effective hostnames -/

/-- Leaving out repetitions of the name before keeps every name. -/
theorem mem_destutter_ne {α : Type} [DecidableEq α] {a : α} {l : List α} :
    a ∈ l.destutter (· ≠ ·) ↔ a ∈ l := by
  have hrest : ∀ (rest : List α) (b : α), a ∈ rest.destutter' (· ≠ ·) b ↔ a = b ∨ a ∈ rest := by
    intro rest
    induction rest with
    | nil => simp
    | cons c rest ih =>
      intro b
      by_cases hbc : b = c
      · subst hbc
        rw [List.destutter'_cons_neg rest (by simp), ih]
        simp
      · rw [List.destutter'_cons_pos rest hbc, List.mem_cons, ih, List.mem_cons]
  cases l with
  | nil => simp
  | cons b rest => rw [List.destutter_cons', hrest, List.mem_cons]

variable {l route : List String} {listener : Option String}

theorem mem_sorted {h : String} : h ∈ (l.insertionSort (· ≤ ·)).destutter (· ≠ ·) ↔ h ∈ l :=
  mem_destutter_ne.trans (List.perm_insertionSort _ l).mem_iff

theorem sorted_eq_nil : (l.insertionSort (· ≤ ·)).destutter (· ≠ ·) = [] ↔ l = [] := by
  rw [List.destutter_eq_nil, ← List.length_eq_zero_iff, List.length_insertionSort,
    List.length_eq_zero_iff]

/-- The narrower of a listener's and a route's name, lowercased, if one holds the
other. -/
def narrower (l r : String) : Option String :=
  if «matches» l r then some (toAsciiLowercase r)
  else if «matches» r l then some (toAsciiLowercase l)
  else none

theorem intersect_names (l : String) (hroute : route ≠ []) : intersect (some l) route =
      if route.filterMap (narrower l) = [] then none
      else some (((route.filterMap (narrower l)).insertionSort (· ≤ ·)).destutter (· ≠ ·)) := by
  have hempty : route.isEmpty = false := by simpa using hroute
  simp only [intersect, hempty, List.isEmpty_iff]
  rfl

/-- The narrower name holds what both hold: two patterns that share a host are
nested. -/
theorem narrower_matches {l r h : String} :
    (∃ p, narrower l r = some p ∧ «matches» p h = true) ↔
      «matches» l h = true ∧ «matches» r h = true := by
  unfold narrower
  split
  · rename_i hlr
    simp only [Option.some.injEq, exists_eq_left', lowercase_matches]
    exact ⟨fun hr => ⟨matches_trans hlr hr, hr⟩, And.right⟩
  · split
    · rename_i hrl
      simp only [Option.some.injEq, exists_eq_left', lowercase_matches]
      exact ⟨fun hl => ⟨hl, matches_trans hrl hl⟩, And.left⟩
    · rename_i hlr hrl
      constructor
      · intro h
        obtain ⟨p, hp, -⟩ := h
        cases hp
      · intro h
        rcases matches_nested h.1 h.2 with h | h
        · exact absurd h hlr
        · exact absurd h hrl

/-- The hosts both sides take: an absent hostname and an empty list take any. -/
def Shared (listener : Option String) (route : List String) (h : String) : Prop :=
  (∀ l ∈ listener, «matches» l h = true) ∧ (route = [] ∨ ∃ r ∈ route, «matches» r h = true)

/-- The hosts the effective hostnames take. -/
def Effective : Option (List String) → String → Prop
  | none, _ => False
  | some hosts, h => hosts = [] ∨ ∃ p ∈ hosts, «matches» p h = true

theorem effective_sorted (hl : l ≠ []) (h : String) :
    Effective (some ((l.insertionSort (· ≤ ·)).destutter (· ≠ ·))) h ↔
      ∃ p ∈ l, «matches» p h = true := by
  simp only [Effective, sorted_eq_nil, hl, false_or, mem_sorted]

theorem effective_intersect (listener : Option String) (route : List String) (h : String) :
    Effective (intersect listener route) h ↔ Shared listener route h := by
  by_cases hroute : route = []
  · subst hroute
    cases listener with
    | none => simp [Effective, intersect, Shared]
    | some l =>
      have hone : intersect (some l) [] =
          some ((([toAsciiLowercase l] : List String).insertionSort (· ≤ ·)).destutter (· ≠ ·)) := rfl
      rw [hone, effective_sorted (by simp)]
      simp [Shared, lowercase_matches]
  · cases listener with
    | none =>
      have hempty : route.isEmpty = false := by simpa using hroute
      have hall : intersect none route =
          some (((route.map toAsciiLowercase).insertionSort (· ≤ ·)).destutter (· ≠ ·)) := by
        simp only [intersect, hempty]
      rw [hall, effective_sorted (by simpa using hroute)]
      simp [Shared, hroute, lowercase_matches]
    | some l =>
      have hout : (∃ p ∈ route.filterMap (narrower l), «matches» p h = true) ↔
          Shared (some l) route h := by
        simp only [Shared, Option.mem_def, Option.some.injEq, forall_eq', hroute, false_or,
          List.mem_filterMap]
        constructor
        · intro hp
          obtain ⟨p, ⟨r, hr, hp⟩, hmatch⟩ := hp
          obtain ⟨hl, hrh⟩ := narrower_matches.mp ⟨p, hp, hmatch⟩
          exact ⟨hl, r, hr, hrh⟩
        · intro hp
          obtain ⟨hl, r, hr, hrh⟩ := hp
          obtain ⟨p, hp, hmatch⟩ := narrower_matches.mpr ⟨hl, hrh⟩
          exact ⟨p, ⟨r, hr, hp⟩, hmatch⟩
      rw [intersect_names l hroute, ← hout]
      split
      · rename_i hnil
        simp [Effective, hnil]
      · rename_i hne
        exact effective_sorted hne h

/-! ## Well-formed names -/

/-- Non-empty labels without a `*`. -/
def Plain (cs : List Char) : Prop := '*' ∉ cs ∧ ∀ label ∈ cs.splitOn '.', label ≠ []

instance (cs : List Char) : Decidable (Plain cs) :=
  inferInstanceAs (Decidable ('*' ∉ cs ∧ ∀ label ∈ cs.splitOn '.', label ≠ []))

/-- A host a client can name. -/
def Concrete (h : String) : Prop := Plain h.toList

instance (h : String) : Decidable (Concrete h) := inferInstanceAs (Decidable (Plain h.toList))

/-- The labels of a pattern, without the leading `*.` of a wildcard. -/
def stem : List Char → List Char
  | '*' :: '.' :: suffix => suffix
  | p => p

def WellFormed (p : String) : Prop := Plain (stem p.toList)

instance (p : String) : Decidable (WellFormed p) :=
  inferInstanceAs (Decidable (Plain (stem p.toList)))

theorem plain_label {c : Char} {cs : List Char} (hc : c ≠ '*' ∧ c ≠ '.') (h : Plain cs) :
    Plain (c :: '.' :: cs) := by
  constructor
  · simp [hc.1.symm, h.1]
  · have hsplit : (c :: '.' :: cs).splitOn '.' = [c].splitOn '.' ++ cs.splitOn '.' :=
      List.splitOn_append_cons_self [c] cs
    rw [hsplit, List.splitOn_eq_singleton (by simpa using hc.2.symm), List.singleton_append]
    intro label hlabel
    rcases List.mem_cons.mp hlabel with rfl | hlabel
    · simp
    · exact h.2 label hlabel

variable {p : String} {hosts : List String}

/-- Every well-formed pattern matches some host. -/
theorem exists_concrete (hp : WellFormed p) : ∃ h, Concrete h ∧ «matches» p h = true := by
  by_cases hw : ∃ s, p.toList = '*' :: '.' :: s
  · obtain ⟨s, hs⟩ := hw
    have hplain : Plain s := by simpa [WellFormed, stem, hs] using hp
    refine ⟨String.ofList ('a' :: '.' :: s), ?_, ?_⟩
    · show Plain (String.ofList ('a' :: '.' :: s)).toList
      rw [String.toList_ofList]
      exact plain_label (by decide) hplain
    · rw [matches_iff, hs, String.toList_ofList]
      exact ⟨['a'], by simp, rfl⟩
  · refine ⟨p, ?_, matches_self p⟩
    have hstem : stem p.toList = p.toList := by
      unfold stem
      split
      · rename_i s hs
        exact absurd ⟨s, hs⟩ hw
      · rfl
    show Plain p.toList
    rw [← hstem]
    exact hp

/-- Each effective hostname is one of the names given, lowercased. -/
theorem mem_of_intersect (h : intersect listener route = some hosts) (hp : p ∈ hosts) : ∃ q,
    (q ∈ listener ∨ q ∈ route) ∧ p = toAsciiLowercase q := by
  by_cases hroute : route = []
  · subst hroute
    cases listener with
    | none =>
      obtain rfl : [] = hosts := Option.some.inj h
      cases hp
    | some l =>
      obtain rfl := Option.some.inj h
      exact ⟨l, .inl rfl, List.mem_singleton.mp (mem_sorted.mp hp)⟩
  · cases listener with
    | none =>
      have hempty : route.isEmpty = false := by simpa using hroute
      simp only [intersect, hempty, Option.some.injEq] at h
      subst h
      obtain ⟨q, hq, rfl⟩ := List.mem_map.mp (mem_sorted.mp hp)
      exact ⟨q, .inr hq, rfl⟩
    | some l =>
      rw [intersect_names l hroute] at h
      split at h
      · cases h
      · obtain rfl := Option.some.inj h
        obtain ⟨r, hr, hnarrow⟩ := List.mem_filterMap.mp (mem_sorted.mp hp)
        unfold narrower at hnarrow
        split at hnarrow
        · exact ⟨r, .inr hr, (Option.some.inj hnarrow).symm⟩
        · split at hnarrow
          · exact ⟨l, .inl rfl, (Option.some.inj hnarrow).symm⟩
          · cases hnarrow

theorem exists_shared (hlistener : ∀ l ∈ listener, WellFormed l)
    (hroute : ∀ r ∈ route, WellFormed r) (h : intersect listener route = some hosts) :
    ∃ host, Concrete host ∧ Shared listener route host := by
  have heffective : ∃ host, Concrete host ∧ Effective (some hosts) host := by
    cases hosts with
    | nil => exact ⟨"a", by decide, .inl rfl⟩
    | cons p rest =>
      obtain ⟨q, hq, rfl⟩ := mem_of_intersect h List.mem_cons_self
      have hwell : WellFormed q := hq.elim (hlistener q) (hroute q)
      obtain ⟨host, hconcrete, hmatch⟩ := exists_concrete hwell
      exact ⟨host, hconcrete, .inr ⟨_, List.mem_cons_self, by rwa [lowercase_matches]⟩⟩
  obtain ⟨host, hconcrete, heff⟩ := heffective
  exact ⟨host, hconcrete, (effective_intersect listener route host).mp (h ▸ heff)⟩

/-- The effective hostnames match exactly the hosts both sides take, and there are
none only when there is no such host. -/
theorem intersect_exact (listener : Option String) (route : List String)
    (hlistener : ∀ l ∈ listener, WellFormed l) (hroute : ∀ r ∈ route, WellFormed r) :
    (∀ h, Concrete h →
      ((∃ hosts, intersect listener route = some hosts ∧
          (hosts = [] ∨ ∃ p ∈ hosts, «matches» p h = true)) ↔
        (∀ l ∈ listener, «matches» l h = true) ∧
          (route = [] ∨ ∃ r ∈ route, «matches» r h = true))) ∧
    (intersect listener route = none ↔
      ¬ ∃ h, Concrete h ∧ (∀ l ∈ listener, «matches» l h = true) ∧
        (route = [] ∨ ∃ r ∈ route, «matches» r h = true)) := by
  constructor
  · intro h _
    refine Iff.trans ?_ (effective_intersect listener route h)
    cases hresult : intersect listener route with
    | none => simp [Effective]
    | some hosts => simp [Effective]
  · constructor
    · intro hnone hex
      obtain ⟨h, -, hshared⟩ := hex
      have heffective := (effective_intersect listener route h).mpr hshared
      rw [hnone] at heffective
      exact heffective
    · intro hnot
      cases hresult : intersect listener route with
      | none => rfl
      | some hosts => exact absurd (exists_shared hlistener hroute hresult) hnot

/-- Nested wildcards share the narrower one's hosts. -/
theorem intersect_exact_nested :
    WellFormed "*.ex.com" ∧ WellFormed "*.a.ex.com" ∧
    ((∃ hosts, intersect (some "*.ex.com") ["*.a.ex.com"] = some hosts ∧
        (hosts = [] ∨ ∃ p ∈ hosts, «matches» p "x.a.ex.com" = true)) ↔
      (∀ l ∈ some "*.ex.com", «matches» l "x.a.ex.com" = true) ∧
        (["*.a.ex.com"] = [] ∨ ∃ r ∈ ["*.a.ex.com"], «matches» r "x.a.ex.com" = true)) := by
  have hlistener : ∀ l ∈ some "*.ex.com", WellFormed l := by decide
  have hroute : ∀ r ∈ ["*.a.ex.com"], WellFormed r := by decide
  exact ⟨hlistener _ rfl, hroute _ List.mem_cons_self,
    (intersect_exact (some "*.ex.com") ["*.a.ex.com"] hlistener hroute).1 "x.a.ex.com" (by decide)⟩

end Gapura.Core.Hostname
