import Gapura.Core.PathCanonical
import Gapura.Core.Translate.Rules

/-! # A path value is reached by the requests it is written for

A route's path value is stored in the normal form that request paths are
brought to, a prefix without its trailing slash. What is left is that trimming
keeps a normal form normal, so that the byte comparison of the data plane sees
exactly the paths that equal the value or extend it. -/
namespace Gapura.Core.Translate
open Lib.Text Core.Path PathCanonical Matcher Input

/-! ## No parameters in a normal form -/

theorem not_mem_decodeEscape (a b : Char) (ha : a.isHexDigit = true) (hb : b.isHexDigit = true) :
    ';' ∉ decodeEscape a b := by
  unfold decodeEscape
  simp only
  split
  · rename_i hv
    intro hmem
    have hc : ';' = Char.ofNat (16 * hexValue a + hexValue b) := by simpa using hmem
    simp only [unreserved, ← hc] at hv
    simp at hv
  · have hne : ∀ c : Char, c.isHexDigit = true → ';' ≠ c.toUpper := fun c hc =>
      forall_hexDigit (fun c => ';' ≠ c.toUpper) (by decide) hc
    simp [hne a ha, hne b hb]

variable {cs : List Char}

theorem not_mem_decode {out : List Char} (h : decode cs = .ok out) : ';' ∉ cs → ';' ∉ out := by
  refine decode_induction (P := fun cs out => ';' ∉ cs → ';' ∉ out) id ?_ ?_ h
  · intro c rest d hc ih hmem
    obtain ⟨hne, hrest⟩ := List.ne_and_not_mem_of_not_mem_cons hmem
    exact List.not_mem_cons_of_ne_of_not_mem hne (ih hrest)
  · intro a b rest d ha hb ih hmem hout
    have hrest : ';' ∉ rest := fun hr => hmem (by simp [hr])
    rcases List.mem_append.mp hout with hout | hout
    · exact not_mem_decodeEscape a b ha hb hout
    · exact ih hrest hout

theorem mem_of_mem_mergeFrom {c : Char} {slash : Bool} (h : c ∈ mergeFrom slash cs) : c ∈ cs := by
  induction cs generalizing slash with
  | nil => exact h
  | cons d rest ih =>
    simp only [mergeFrom] at h
    split at h
    · exact List.mem_cons_of_mem d (ih h)
    · rcases List.mem_cons.mp h with rfl | h
      · exact List.mem_cons_self
      · exact List.mem_cons_of_mem d (ih h)

theorem not_mem_normalize {raw out : List Char} (h : normalizeChars raw = .ok out)
    (hraw : ';' ∉ raw) : ';' ∉ out := by
  cases raw with
  | nil =>
    cases h
    decide
  | cons c rest =>
    simp only [normalizeChars] at h
    split at h
    · cases h
    split at h
    · cases h
    rename_i decoded hd
    split at h
    · cases h
    cases h
    exact fun hmem => not_mem_decode hd hraw (mem_of_mem_mergeFrom hmem)

/-! ## Trimming -/

/-- A normal path without its last slash is normal, if anything is left. -/
theorem normal_trim {stem : List Char} (h : Normal (stem ++ ['/'])) (hne : stem ≠ []) :
    Normal stem ∧ stem.getLast? ≠ some '/' := by
  obtain ⟨c, rest, rfl⟩ := List.exists_cons_of_ne_nil hne
  have hsingle := h.single
  rw [merged_append, Bool.and_eq_true_iff] at hsingle
  refine ⟨⟨by simpa using h.rooted, (h.fixed.split (by decide) (by decide)).1, hsingle.1, ?_⟩, ?_⟩
  · have hdots := h.dotless
    rw [List.splitOn_append_cons_self, List.any_append, Bool.or_eq_false_iff] at hdots
    exact hdots.1
  · intro hlast
    obtain ⟨front, hfront⟩ := List.getLast?_eq_some_iff.mp hlast
    rw [hfront, endsSlash_append_singleton] at hsingle
    simp [merged] at hsingle

/-- The path without trailing slashes: nothing for the root, else a normal path
that ends in no slash and had at most one. -/
theorem normal_stem (h : Normal cs) : (cs.rdropWhile (· == '/') = [] ∧ cs = ['/']) ∨
      (cs.rdropWhile (· == '/') ≠ [] ∧ Normal (cs.rdropWhile (· == '/')) ∧
        (cs.rdropWhile (· == '/')).getLast? ≠ some '/') := by
  rcases List.eq_nil_or_concat' cs with rfl | ⟨front, c, rfl⟩
  · cases h.rooted
  by_cases hc : c = '/'
  · subst hc
    rw [List.rdropWhile_concat_pos _ _ _ (by simp)]
    by_cases hfront : front = []
    · subst hfront
      exact .inl ⟨rfl, rfl⟩
    · obtain ⟨hnormal, hlast⟩ := normal_trim h hfront
      have hkeep : front.rdropWhile (· == '/') = front := by
        rw [List.rdropWhile_eq_self_iff]
        intro hne
        have := hlast
        rw [List.getLast?_eq_some_getLast hne] at this
        simpa using this
      rw [hkeep]
      exact .inr ⟨hfront, hnormal, hlast⟩
  · rw [List.rdropWhile_concat_neg _ _ _ (by simpa using hc)]
    exact .inr ⟨by simp, h, by simpa using hc⟩

/-! ## What matches -/

variable {env : Env}

theorem normalizedPath_eq_ok {kind value p : String} (h : normalizedPath env kind value = .ok p) :
    normalizePath value = .ok p ∧ Normal p.toList ∧ ';' ∉ p.toList := by
  unfold normalizedPath at h
  split at h
  · cases h
  rename_i hbare
  split at h
  · rename_i q hq
    cases h
    have hchars := normalizePath_eq_ok.mp hq
    exact ⟨hq, normal_of_normalize hchars, not_mem_normalize hchars (by simpa using hbare)⟩
  · cases h

theorem prefixMatches_iff {value path : String} (hvalue : value ≠ "/") :
    prefixMatches value path = true ↔
      path.toList = value.toList ∨ ∃ rest, path.toList = value.toList ++ '/' :: rest := by
  unfold prefixMatches
  simp only [Bool.or_eq_true, beq_iff_eq, hvalue, false_or, ← String.toList_inj]
  refine or_congr Iff.rfl ?_
  split
  · rename_i rest hdrop
    obtain ⟨front, hpath, hfront⟩ := List.dropPrefix?_eq_some_iff.mp hdrop
    obtain rfl : front = value.toList := by simpa using hfront
    exact ⟨fun _ => ⟨rest, hpath⟩, fun _ => rfl⟩
  · rename_i hdrop
    constructor
    · intro h
      cases h
    · rintro ⟨rest, hrest⟩
      exact absurd (List.dropPrefix?_eq_some_iff.mpr ⟨_, hrest, by simp⟩) (hdrop rest)

/-- A prefix as it is stored: normal, and matched by what extends its stem. -/
theorem normalizePrefix_spec {p : String} (h : Normal p.toList) (hbare : ';' ∉ p.toList) :
    normalizePath (normalizePrefix p) = .ok (normalizePrefix p) ∧
      ';' ∉ (normalizePrefix p).toList ∧
      (normalizePrefix p ≠ "/" → (normalizePrefix p).toList.getLast? ≠ some '/') ∧
      ∀ n : String, Normal n.toList → (prefixMatches (normalizePrefix p) n = true ↔
        n.toList = p.toList.rdropWhile (· == '/') ∨
          ∃ rest, n.toList = p.toList.rdropWhile (· == '/') ++ '/' :: rest) := by
  rcases normal_stem h with ⟨hnil, -⟩ | ⟨hne, hnormal, hlast⟩
  · have hroot : normalizePrefix p = "/" := by simp [normalizePrefix, hnil]
    rw [hroot, hnil]
    refine ⟨by decide +kernel, by decide, fun hne => absurd rfl hne, fun n hn => ?_⟩
    obtain ⟨rest, hrest⟩ := List.head?_eq_some_iff.mp hn.rooted
    exact ⟨fun _ => .inr ⟨rest, by simpa using hrest⟩, fun _ => by simp [prefixMatches]⟩
  · have hstem : (normalizePrefix p).toList = p.toList.rdropWhile (· == '/') := by
      simp [normalizePrefix, hne]
    have hslash : normalizePrefix p ≠ "/" := by
      intro heq
      rw [← hstem, heq] at hlast
      exact hlast rfl
    refine ⟨normalizePath_eq_ok.mpr (hstem ▸ hnormal.normalize), ?_, fun _ => hstem ▸ hlast,
      fun n _ => ?_⟩
    · rw [hstem]
      exact fun hmem => hbare ((List.rdropWhile_prefix _ _).subset hmem)
    · rw [prefixMatches_iff hslash, hstem]

/-- The path a match asks for; one that says nothing asks for every path. -/
def pathOf (m : HttpRouteMatch) : HttpPathMatch := m.path.getD {}

theorem compilePath_of_compileMatch {m : HttpRouteMatch} {rm : RouteMatch}
    (h : compileMatch env m = .ok rm) : compilePath env (pathOf m) = .ok rm.path := by
  unfold compileMatch at h
  obtain ⟨path, hpath, h⟩ := Lib.Checks.bind_eq_ok.mp h
  obtain ⟨headers, -, h⟩ := Lib.Checks.bind_eq_ok.mp h
  obtain ⟨query, -, h⟩ := Lib.Checks.bind_eq_ok.mp h
  cases h
  unfold pathOf
  cases hm : m.path with
  | some p =>
    rw [hm] at hpath
    exact hpath
  | none =>
    rw [hm] at hpath
    cases hpath
    rfl

/-- An accepted path value is stored as a normal form and reached by exactly the
request paths that equal it or, for a prefix, extend it at a slash. -/
theorem compileMatch_reached (env : Env) (m : HttpRouteMatch) (rm : RouteMatch)
    (hok : compileMatch env m = .ok rm) (regexes : RegexMap) :
    ((pathOf m).type.getD "PathPrefix" = "Exact" → ∃ stored, rm.path = .exact stored ∧
      normalizePath stored = .ok stored ∧ ';' ∉ stored.toList ∧
      ∀ raw n, normalizePath raw = .ok n → (pathMatches regexes rm.path n = true ↔
        normalizePath ((pathOf m).value.getD "/") = .ok n)) ∧
    ((pathOf m).type.getD "PathPrefix" = "PathPrefix" → ∃ stored normal,
      rm.path = .pathPrefix stored ∧ normalizePath stored = .ok stored ∧ ';' ∉ stored.toList ∧
      (stored ≠ "/" → stored.toList.getLast? ≠ some '/') ∧
      normalizePath ((pathOf m).value.getD "/") = .ok normal ∧
      ∀ raw n, normalizePath raw = .ok n → (pathMatches regexes rm.path n = true ↔
        n.toList = normal.toList.rdropWhile (· == '/') ∨
          ∃ rest, n.toList = normal.toList.rdropWhile (· == '/') ++ '/' :: rest)) := by
  have hpath := compilePath_of_compileMatch hok
  unfold compilePath at hpath
  refine ⟨fun htype => ?_, fun htype => ?_⟩
  · rw [htype] at hpath
    obtain ⟨stored, hstored, hrm⟩ := Lib.Checks.bind_eq_ok.mp hpath
    obtain ⟨hvalue, hnormal, hbare⟩ := normalizedPath_eq_ok hstored
    have hrm : rm.path = .exact stored := (Except.ok.inj hrm).symm
    refine ⟨stored, hrm, normalizePath_eq_ok.mpr hnormal.normalize, hbare, fun raw n _ => ?_⟩
    rw [hrm, hvalue]
    show (n == stored) = true ↔ _
    rw [beq_iff_eq, Except.ok.injEq, eq_comm]
  · rw [htype] at hpath
    obtain ⟨normal, hstored, hrm⟩ := Lib.Checks.bind_eq_ok.mp hpath
    obtain ⟨hvalue, hnormal, hbare⟩ := normalizedPath_eq_ok hstored
    have hrm : rm.path = .pathPrefix (normalizePrefix normal) := (Except.ok.inj hrm).symm
    obtain ⟨hfixed, hfree, hlast, hmatches⟩ := normalizePrefix_spec hnormal hbare
    refine ⟨normalizePrefix normal, normal, hrm, hfixed, hfree, hlast, hvalue, fun raw n hn => ?_⟩
    rw [hrm]
    exact hmatches n (normal_of_normalize (normalizePath_eq_ok.mp hn))

def johnMatch : HttpRouteMatch :=
  { path := some { type := some "PathPrefix", value := some "/%7Ejohn/" } }

def johnCompiled : RouteMatch :=
  { path := .pathPrefix "/~john", headers := [], query := [], method := none }

/-- A prefix written with an escape and a trailing slash takes in a request
path written with another. -/
theorem compileMatch_reached_john : compileMatch bareEnv johnMatch = .ok johnCompiled ∧
    normalizePath "/%7ejohn//files" = .ok "/~john/files" ∧
    pathMatches ∅ johnCompiled.path "/~john/files" = true := by
  have hok : compileMatch bareEnv johnMatch = .ok johnCompiled := by decide +kernel
  have hraw : normalizePath "/%7ejohn//files" = .ok "/~john/files" := by decide +kernel
  refine ⟨hok, hraw, ?_⟩
  obtain ⟨-, hprefix⟩ := compileMatch_reached bareEnv johnMatch johnCompiled hok ∅
  obtain ⟨stored, normal, -, -, -, -, hvalue, hmatches⟩ := hprefix (by decide)
  have hnormal : normalizePath "/%7Ejohn/" = .ok "/~john/" := by decide +kernel
  obtain rfl : normal = "/~john/" := Except.ok.inj (hvalue.symm.trans hnormal)
  exact (hmatches _ _ hraw).mpr (.inr ⟨"files".toList, by decide +kernel⟩)

end Gapura.Core.Translate
