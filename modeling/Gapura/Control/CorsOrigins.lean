import Gapura.Control.Rows

/-! # The origins a stored policy admits

The control plane stores an entry in one of three forms: `*` alone, an origin,
or an origin with `*.` before its host. What the data plane then admits is read
off the entry: the origin itself, or one label in the place of the star. -/
namespace Gapura.Control.CorsOrigins
open Gapura.Core Policies Lib.Text Lib.Checks Control.Configuration

/-- An entry that admits one label before `suffix`. -/
def wildcard (scheme suffix port : String) : String := scheme ++ "://*." ++ suffix ++ port

/-- The origin with `label` in the place of the star. -/
def under (scheme label suffix port : String) : String :=
  scheme ++ "://" ++ label ++ "." ++ suffix ++ port

/-- The parts of a wildcard entry: a dotted name and a port that is not the
scheme's own, or none. -/
structure WildcardParts (scheme suffix port : String) : Prop where
  scheme : scheme = "http" ∨ scheme = "https"
  labels : (splitOn '.' suffix).all hostLabel = true
  dotted : '.' ∈ suffix.toList
  port : port = "" ∨ ∃ n, 0 < n ∧ n < 2 ^ 16 ∧ port = ":" ++ toString n

/-! ## The stored forms -/

theorem star_not_mem_labels {name : String} (h : (splitOn '.' name).all hostLabel = true) :
    '*' ∉ name.toList := by
  intro hstar
  rcases mem_splitOn '.' hstar with hdot | ⟨label, hlabel, hmem⟩
  · cases hdot
  · have hall := List.all_eq_true.mp h (String.ofList label) (List.mem_map_of_mem hlabel)
    simp only [hostLabel, String.toList_ofList, Bool.and_eq_true, List.all_eq_true] at hall
    exact absurd (hall.2 '*' hmem) (by decide)

theorem bareOrigin_cases (host : String) :
    bareOrigin host = (false, host) ∨
      ∃ name, bareOrigin host = (true, name) ∧ host = "*." ++ name := by
  unfold bareOrigin
  split
  next name hname =>
    obtain ⟨star, hhost, hstar⟩ := List.dropPrefix?_eq_some_iff.mp hname
    obtain rfl : star = ['*', '.'] := by simpa using hstar
    refine .inr ⟨String.ofList name, rfl, ?_⟩
    rw [← String.toList_inj, hhost]
    simp
  next => exact .inl rfl

variable {scheme : String} {origins : List String} {config : Json} {p : CorsPolicy}

theorem star_not_mem_scheme (h : scheme = "http" ∨ scheme = "https") :
    '*' ∉ (scheme ++ "://").toList := by
  rcases h with rfl | rfl <;> decide

variable {entry o : String}

/-- An accepted entry is `*`, an origin without a star, or a wildcard. -/
theorem entry_cases {text : String} (h : origin text = .ok entry) :
    entry = "*" ∨ '*' ∉ entry.toList ∨
      ∃ scheme suffix port, WildcardParts scheme suffix port ∧
        entry = wildcard scheme suffix port := by
  rcases origin_ok h with rfl | ⟨scheme, host, port, hparts, rfl⟩
  · exact .inl rfl
  have hport := hparts.portText_cases
  rcases bareOrigin_cases host with hbare | ⟨name, hbare, rfl⟩
  · refine .inr (.inl ?_)
    have hhost : '*' ∉ host.toList := star_not_mem_labels (by simpa [hbare] using hparts.labels)
    have hdigits : '*' ∉ (portText scheme port).toList := by
      rcases hport with hnone | ⟨n, -, -, htext, -⟩
      · rw [hnone]
        decide
      · rw [htext, String.toList_append, List.mem_append, not_or]
        exact ⟨by decide, fun hstar => absurd (isDigit_of_mem_toString hstar) (by decide)⟩
    rw [String.toList_append, List.mem_append, String.toList_append (s := host), List.mem_append]
    rintro (hstar | hstar | hstar)
    · exact star_not_mem_scheme hparts.scheme hstar
    · exact hhost hstar
    · exact hdigits hstar
  · refine .inr (.inr ⟨scheme, name, portText scheme port, ⟨hparts.scheme, ?_, ?_, ?_⟩, ?_⟩)
    · simpa [hbare] using hparts.labels
    · simpa [hbare] using hparts.dotted
    · exact hport.imp id fun ⟨n, hpos, hlt, htext, _⟩ => ⟨n, hpos, hlt, htext⟩
    · rw [wildcard, ← String.toList_inj]
      simp

/-! ## Matching an entry -/

theorem originMatches_exact (h : '*' ∉ entry.toList) (o : String) :
    originMatches o entry = (entry == o) := by
  unfold originMatches
  rw [dropInfix?_eq_none h]

/-- A prefix, a suffix and the dot before it are taken off in turn. -/
theorem stripped_iff {o scheme tail label : List Char} :
    ((o.dropPrefix? scheme).bind fun rest =>
        (rest.dropSuffix? tail).bind fun label => label.dropSuffix? ['.']) = some label ↔
      o = scheme ++ (label ++ ['.'] ++ tail) := by
  simp only [Option.bind_eq_some_iff, List.dropPrefix?_eq_some_iff, List.dropSuffix?_eq_some_iff,
    beq_iff_eq]
  constructor
  · rintro ⟨rest, ⟨_, rfl, rfl⟩, dotted, ⟨_, rfl, rfl⟩, _, rfl, rfl⟩
    rfl
  · rintro rfl
    exact ⟨_, ⟨_, rfl, rfl⟩, _, ⟨_, rfl, rfl⟩, _, rfl, rfl⟩

theorem originMatches_wildcard (h : scheme = "http" ∨ scheme = "https") (suffix port o : String) :
    originMatches o (wildcard scheme suffix port) = true ↔
      ∃ label, o = under scheme label suffix port ∧ originLabel label.toList = true := by
  have hentry : (wildcard scheme suffix port).toList =
      (scheme ++ "://").toList ++ '*' :: ['.'] ++ (suffix ++ port).toList := by
    simp [wildcard]
  have hunder : ∀ label : String, o = under scheme label suffix port ↔
      o.toList = (scheme ++ "://").toList ++ (label.toList ++ ['.'] ++ (suffix ++ port).toList) := by
    intro label
    rw [← String.toList_inj]
    simp [under]
  simp only [hunder, ← stripped_iff]
  unfold originMatches
  rw [hentry, dropInfix?_of_not_mem (star_not_mem_scheme h)]
  dsimp only
  split
  next label hlabel =>
    constructor
    · intro hok
      exact ⟨String.ofList label, by rw [hlabel, String.toList_ofList], by simpa using hok⟩
    · rintro ⟨other, hother, hok⟩
      rw [hlabel] at hother
      rwa [Option.some.inj hother]
  next hnone =>
    refine ⟨nofun, ?_⟩
    rintro ⟨other, hother, -⟩
    rw [hnone] at hother
    cases hother

/-! ## The policies that are accepted -/

/-- What the check of the origins leaves. -/
theorem originList_ok {credentials : Bool} {given : List String}
    (h : originList credentials given = .ok origins) :
    (∀ entry ∈ origins, ∃ text, origin text = .ok entry) ∧
    ("*" ∈ origins → origins = ["*"] ∧ credentials = false) := by
  unfold originList at h
  split at h
  · cases h
  split at h
  · cases h
  obtain ⟨origins', hread, h⟩ := bind_eq_ok.mp h
  split at h
  · cases h
  next hcredentials =>
    split at h
    · cases h
    next halone =>
      cases h
      refine ⟨fun entry hentry => ?_, fun hstar => ?_⟩
      · obtain ⟨text, -, htext⟩ := exists_of_mem_mapM hread hentry
        exact ⟨text, htext⟩
      · have hcontains : origins.contains "*" = true := List.contains_iff_mem.mpr hstar
        simp only [hcontains, Bool.true_and, decide_eq_true_eq, Nat.not_lt,
          Bool.not_eq_true] at hcredentials halone
        refine ⟨?_, hcredentials⟩
        cases origins with
        | nil => cases hstar
        | cons first rest =>
          obtain rfl : rest = [] := List.length_eq_zero_iff.mp (by simpa using halone)
          rw [List.mem_singleton.mp hstar]

theorem cors_ok (h : cors config = .ok p) :
    ∃ given, originList p.credentials given = .ok p.origins := by
  unfold cors at h
  split at h
  · cases h
  obtain ⟨credentials, -, h⟩ := bind_eq_ok.mp h
  obtain ⟨given, -, h⟩ := bind_eq_ok.mp h
  obtain ⟨origins, horigins, h⟩ := bind_eq_ok.mp h
  obtain ⟨_, -, h⟩ := bind_eq_ok.mp h
  obtain ⟨methods, -, h⟩ := bind_eq_ok.mp h
  obtain ⟨secs, -, h⟩ := bind_eq_ok.mp h
  obtain ⟨headers, -, h⟩ := bind_eq_ok.mp h
  obtain ⟨exposed, -, h⟩ := bind_eq_ok.mp h
  obtain ⟨preflight, -, h⟩ := bind_eq_ok.mp h
  cases h
  exact ⟨given, horigins⟩

theorem parse_cors {debug : String → String} {kind : String}
    (h : parse debug kind config = .ok (.cors p)) : cors config = .ok p := by
  unfold parse at h
  repeat' split at h
  all_goals first
    | cases h
    | (obtain ⟨q, hq, hsame⟩ := map_eq_ok.mp h; cases hsame; exact hq)
    | (obtain ⟨q, hq, hsame⟩ := map_eq_ok.mp h; cases hsame)

/-- A label in place of the star: lowercase letters, digits and hyphens. -/
def Label (label : String) : Prop :=
  label ≠ "" ∧ ∀ c ∈ label.toList, ('a' ≤ c ∧ c ≤ 'z') ∨ ('0' ≤ c ∧ c ≤ '9') ∨ c = '-'

theorem originLabel_iff {label : String} : originLabel label.toList = true ↔ Label label := by
  simp [originLabel, Label, Char.isDigit, Char.le_def, or_assoc]

/-- The entries that name an origin, or stand over it. -/
def Admits (origins : List String) (o : String) : Prop :=
  (o ∈ origins ∧ '*' ∉ o.toList) ∨
    ∃ scheme label suffix port, WildcardParts scheme suffix port ∧
      wildcard scheme suffix port ∈ origins ∧ o = under scheme label suffix port ∧
      Label label

theorem any_originMatches_iff
    (h : ∀ entry ∈ origins, ∃ text, origin text = .ok entry) (hstar : "*" ∉ origins) (o : String) :
    origins.any (originMatches o) = true ↔ Admits origins o := by
  rw [List.any_eq_true]
  constructor
  · rintro ⟨entry, hentry, hmatch⟩
    obtain ⟨text, htext⟩ := h entry hentry
    rcases entry_cases htext with rfl | hexact | ⟨scheme, suffix, port, hparts, rfl⟩
    · exact absurd hentry hstar
    · rw [originMatches_exact hexact] at hmatch
      obtain rfl := eq_of_beq hmatch
      exact .inl ⟨hentry, hexact⟩
    · obtain ⟨label, ho, hlabel⟩ := (originMatches_wildcard hparts.scheme _ _ _).mp hmatch
      exact .inr ⟨scheme, label, suffix, port, hparts, hentry, ho, originLabel_iff.mp hlabel⟩
  · rintro (⟨ho, hexact⟩ | ⟨scheme, label, suffix, port, hparts, hentry, ho, hlabel⟩)
    · exact ⟨o, ho, by rw [originMatches_exact hexact]; exact beq_self_eq_true o⟩
    · exact ⟨_, hentry, (originMatches_wildcard hparts.scheme _ _ _).mpr
        ⟨label, ho, originLabel_iff.mpr hlabel⟩⟩

/-- No entry but `*` admits the text `*`. -/
theorem not_admits_star (origins : List String) : ¬Admits origins "*" := by
  rintro (⟨-, hexact⟩ | ⟨scheme, label, suffix, port, hparts, -, ho, -⟩)
  · exact hexact (by decide)
  · have hlist := congrArg String.toList ho
    rcases hparts.scheme with rfl | rfl <;> simp [under] at hlist

theorem allowed_of_alone (hnull : o ≠ "null") (h : p.origins = ["*"]) : p.allowed o = some "*" := by
  simp [CorsPolicy.allowed, hnull, h]

theorem allowed_of_entries (hnull : o ≠ "null")
    (h : ∀ entry ∈ p.origins, ∃ text, origin text = .ok entry) (hstar : "*" ∉ p.origins) :
    (Admits p.origins o ∧ p.allowed o = some o) ∨ (¬Admits p.origins o ∧ p.allowed o = none) := by
  have hallowed : p.allowed o = if p.origins.any (originMatches o) then some o else none := by
    simp [CorsPolicy.allowed, hnull, hstar]
  rw [hallowed, ← any_originMatches_iff h hstar o]
  cases p.origins.any (originMatches o) with
  | true => exact .inl ⟨rfl, rfl⟩
  | false => exact .inr ⟨Bool.false_ne_true, rfl⟩

/-- An accepted policy admits an origin exactly when it is not `null` and the
policy's origins are `*`, hold it as an entry without a star, or hold an entry
it is under by one label. It is answered with `*` in the first case and with
itself in the others, and a policy that answers `*` sends no credentials. -/
theorem cors_admits_exactly (debug : String → String) (kind : String) (config : Json) (p : CorsPolicy)
    (h : parse debug kind config = .ok (.cors p)) (o : String) :
    ((p.allowed o).isSome = true ↔ o ≠ "null" ∧ (p.origins = ["*"] ∨ Admits p.origins o)) ∧
    (∀ answer, p.allowed o = some answer →
      answer = if p.origins = ["*"] then "*" else o) ∧
    (p.allowed o = some "*" → p.credentials = false) := by
  obtain ⟨given, hlist⟩ := cors_ok (parse_cors h)
  obtain ⟨hentries, hstar⟩ := originList_ok hlist
  by_cases hnull : o = "null"
  · subst hnull
    have hnone : p.allowed "null" = none := rfl
    simp [hnone]
  by_cases halone : p.origins = ["*"]
  · have hsome := allowed_of_alone hnull halone
    refine ⟨by simp [hsome, hnull, halone], fun answer hanswer => ?_, fun _ => ?_⟩
    · rw [if_pos halone]
      exact Option.mem_unique hanswer hsome
    · exact (hstar (by simp [halone])).2
  · obtain ⟨hadmits, hsome⟩ | ⟨hadmits, hnone⟩ :=
      allowed_of_entries hnull hentries fun hmem => halone (hstar hmem).1
    · refine ⟨by simp [hsome, hnull, hadmits], fun answer hanswer => ?_, fun hanswer => ?_⟩
      · rw [if_neg halone]
        exact Option.mem_unique hanswer hsome
      · rw [Option.mem_unique hsome hanswer] at hadmits
        exact absurd hadmits (not_admits_star _)
    · simp [hnone, halone, hadmits]

/-- One page, and every shop under a port of its own, with credentials. -/
def shopConfig : Json :=
  .object [("origins", .ofTexts ["https://app.test", "HTTPS://*.Shop.test:8443"]),
    ("credentials", .bool true)]

def shopPolicy : CorsPolicy where
  origins := ["https://app.test", "https://*.shop.test:8443"]
  methods := corsMethods
  headers := []
  exposeHeaders := []
  credentials := true
  maxAge := none
  preflightContinue := false

theorem cors_admits_exactly_shop :
    (shopPolicy.allowed "https://pay.shop.test:8443").isSome = true ∧
      shopPolicy.allowed "https://a.pay.shop.test:8443" ≠ some "*" := by
  have h := cors_admits_exactly id "cors" shopConfig shopPolicy (by rfl)
  refine ⟨(h "https://pay.shop.test:8443").1.mpr ⟨by decide, .inr (.inr ?_)⟩, fun hstar => ?_⟩
  · exact ⟨"https", "pay", "shop.test", ":8443",
      ⟨.inr rfl, by decide +kernel, by decide, .inr ⟨8443, by decide, by decide, by decide +kernel⟩⟩,
      by decide +kernel, by decide +kernel, originLabel_iff.mp (by decide +kernel)⟩
  · cases (h _).2.2 hstar

end Gapura.Control.CorsOrigins
