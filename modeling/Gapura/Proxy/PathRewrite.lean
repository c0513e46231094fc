import Gapura.Core.StoreEntries
import Gapura.Core.Translate.PathValues
import Gapura.Core.Translate.Tables
import Gapura.Proxy.Select

/-! # Rewritten paths

A rule that replaces the matched prefix has only matches that say what the
prefix is: translation refuses a route where one does not, and the store's
compiler refuses to strip a regex. What follows a matched prefix then starts at
a slash, so that putting it behind another normal path gives a normal path. -/
namespace Gapura.Proxy.PathRewrite
open Gapura.Core Core.Path Core.PathCanonical Core.Matcher Lib.Stateful Select
open Core.Translate (isPrefix replacesPrefix prefixMatches_iff normal_stem)

/-! ## Cutting and joining normal paths -/

variable {rest : List Char} {m : PathMatch} {regexes : RegexMap}

/-- A normal path cut before a slash. -/
theorem normal_after_slash {front : List Char} (h : Normal (front ++ '/' :: rest)) :
    Normal ('/' :: rest) := by
  have hsingle := h.single
  rw [merged_append, Bool.and_eq_true, merged, Bool.and_eq_true] at hsingle
  have hdots := h.dotless
  rw [List.splitOn_append_cons_self, List.any_append, Bool.or_eq_false_iff] at hdots
  refine ⟨rfl, (fixed_cons (by decide) rest).mpr (h.fixed.split (by decide) (by decide)).2, ?_, ?_⟩
  · rw [merged, hsingle.2.2]
    rfl
  · rw [List.splitOn_cons_eq_if_modifyHead]
    simpa [dotSegment, withoutParams] using hdots.2

/-- A path that starts at a slash behind one that does not end in any. -/
theorem normal_join {stem : List Char} (hs : Normal stem) (hlast : stem.getLast? ≠ some '/')
    (hr : Normal ('/' :: rest)) : Normal (stem ++ '/' :: rest) := by
  have hends : endsSlash false stem = false := by
    rcases List.eq_nil_or_concat' stem with rfl | ⟨front, c, rfl⟩
    · rfl
    · rw [endsSlash_append_singleton]
      simpa using hlast
  refine ⟨?_, hs.fixed.append hr.fixed, ?_, ?_⟩
  · rw [List.head?_append, hs.rooted]
    rfl
  · rw [merged_append, hs.single, hends, hr.single]
    rfl
  · have hdots := hr.dotless
    rw [List.splitOn_cons_eq_if_modifyHead] at hdots
    rw [List.splitOn_append_cons_self, List.any_append, hs.dotless]
    simpa [dotSegment, withoutParams] using hdots

/-! ## What follows a match -/

theorem afterBytes_append (front rest : List Char) :
    afterBytes (String.utf8Len front) (front ++ rest) = some rest := by
  induction front with
  | nil => cases rest <;> rfl
  | cons c front ih =>
    have hpos := c.utf8Size_pos
    have hlen : String.utf8Len (c :: front) = String.utf8Len front + c.utf8Size := by simp
    obtain ⟨n, hn⟩ := Nat.exists_eq_succ_of_ne_zero (show String.utf8Len (c :: front) ≠ 0 by omega)
    have hrest : n + 1 - c.utf8Size = String.utf8Len front := by omega
    rw [hn, List.cons_append, afterBytes, if_pos (by omega), hrest, ih]
    exact Nat.succ_ne_zero n

/-- The part of the path a match accounts for: the root stands before every
path. -/
def matchedPart : PathMatch → String
  | .pathPrefix value => if value = "/" then "" else value
  | .exact value => value
  | .regex _ => ""

def isRegex : PathMatch → Bool
  | .regex _ => true
  | _ => false

/-- What a match leaves of a normal path is nothing, or starts at a slash. -/
theorem keptRest_of_matches {path : String} (hm : isRegex m = false) (hpath : Normal path.toList)
    (h : pathMatches regexes m path = true) :
    ∃ rest : List Char, path.toList = (matchedPart m).toList ++ rest ∧
      keptRest path m = some (String.ofList rest) ∧
      (rest = [] ∨ ∃ tail, rest = '/' :: tail ∧ Normal rest) := by
  cases m with
  | regex pattern => cases hm
  | exact value =>
    obtain rfl : path = value := by simpa [pathMatches] using h
    exact ⟨[], by simp [matchedPart], rfl, .inl rfl⟩
  | pathPrefix value =>
    by_cases hroot : value = "/"
    · obtain ⟨tail, htail⟩ := List.head?_eq_some_iff.mp hpath.rooted
      refine ⟨path.toList, by simp [matchedPart, hroot], by simp [keptRest, hroot],
        .inr ⟨tail, htail, hpath⟩⟩
    have hkept : ∀ rest, path.toList = value.toList ++ rest →
        keptRest path (.pathPrefix value) = some (String.ofList rest) := by
      intro rest hrest
      have hlen : value.utf8ByteSize = String.utf8Len value.toList := by
        rw [← String.utf8ByteSize_ofList, String.ofList_toList]
      rw [keptRest, if_neg (by simpa using hroot), hlen, hrest, afterBytes_append]
      rfl
    have hpart : matchedPart (.pathPrefix value) = value := if_neg hroot
    rw [hpart]
    obtain hsame | ⟨tail, htail⟩ := (prefixMatches_iff hroot).mp h
    · exact ⟨[], by simp [hsame], hkept [] (by simp [hsame]), .inl rfl⟩
    · rw [htail] at hpath
      exact ⟨'/' :: tail, htail, hkept _ htail, .inr ⟨tail, rfl, normal_after_slash hpath⟩⟩

/-- A replacement without its trailing slashes, then what follows the match. -/
def grafted (replacement rest : String) : String :=
  if (trimEndSlashes replacement ++ rest).isEmpty then "/" else trimEndSlashes replacement ++ rest

theorem rewritePath_eq (replacement path : String) (m : PathMatch) :
    rewritePath (.replacePrefixMatch replacement) path m =
      (keptRest path m).map (grafted replacement) := by
  have hroot : trimEndSlashes "/" = "" := by decide +kernel
  simp only [rewritePath]
  cases keptRest path m with
  | none => rw [Option.map_none, Option.map_none]
  | some rest =>
    by_cases hr : replacement = "/"
    · simp [hr, grafted, hroot]
    · simp [hr, grafted]

theorem normal_grafted {replacement : String} (hreplacement : Normal replacement.toList)
    (hrest : rest = [] ∨ ∃ tail, rest = '/' :: tail ∧ Normal rest) :
    Normal (grafted replacement (String.ofList rest)).toList := by
  have hchars : (grafted replacement (String.ofList rest)).toList =
      if replacement.toList.rdropWhile (· == '/') ++ rest = [] then ['/']
      else replacement.toList.rdropWhile (· == '/') ++ rest := by
    have hjoin : (trimEndSlashes replacement ++ String.ofList rest).toList =
        replacement.toList.rdropWhile (· == '/') ++ rest := by
      rw [String.toList_append, trimEndSlashes, String.toList_ofList, String.toList_ofList]
    have hempty : (trimEndSlashes replacement ++ String.ofList rest).isEmpty = true ↔
        replacement.toList.rdropWhile (· == '/') ++ rest = [] := by
      rw [String.isEmpty_iff, ← String.toList_inj, hjoin]
      rfl
    simp only [grafted, hempty]
    split
    · rfl
    · exact hjoin
  rw [hchars]
  obtain ⟨hnil, -⟩ | ⟨hne, hnormal, hlast⟩ := normal_stem hreplacement
  · obtain rfl | ⟨tail, rfl, hrest⟩ := hrest
    · simpa [hnil] using normal_of_normalize (rfl : normalizeChars [] = .ok ['/'])
    · simpa [hnil] using hrest
  · rw [if_neg (by simp [hne])]
    obtain rfl | ⟨tail, rfl, hrest⟩ := hrest
    · simpa using hnormal
    · exact normal_join hnormal hlast hrest

/-! ## The rules that replace a prefix -/

/-- The path modifiers of a rule: its rewrite's and its redirect's. -/
def pathModifiers (rule : RouteRule) : List PathRewrite :=
  (rule.filters.rewrite.bind (·.path)).toList ++ (rule.filters.redirect.bind (·.path)).toList

/-- A rule that replaces a prefix has no regex among its matches. -/
def Prefixed (rule : RouteRule) : Prop :=
  ∀ modifier ∈ pathModifiers rule, replacesPrefix modifier = true →
    ∀ m ∈ rule.matches, isRegex m.path = false

theorem isRegex_of_isPrefix (h : isPrefix m = true) : isRegex m = false := by
  cases m <;> first | rfl | cases h

section
open Core.Translate Core.Input
variable {env : Env} {snap : Snapshot}

theorem compileFilters_prefix {filters : List HttpRouteFilter} {prefixOnly : Bool}
    {mirrorCluster : Option String} {out : Filters}
    (h : compileFilters filters prefixOnly mirrorCluster = .ok out) (rule : RouteRule)
    (hrule : rule.filters = out) {modifier : PathRewrite} (hm : modifier ∈ pathModifiers rule)
    (hreplaces : replacesPrefix modifier = true) : prefixOnly = true := by
  unfold compileFilters at h
  obtain ⟨⟨seen, out'⟩, -, h⟩ := Lib.Checks.bind_eq_ok.mp h
  simp only at h
  split at h
  · cases h
  split at h
  · cases h
  rename_i hkept
  cases h
  by_contra hmixed
  refine hkept ?_
  rw [Bool.not_eq_true] at hmixed
  simp only [hmixed, Bool.not_false, Bool.true_and, Bool.or_eq_true, Option.any_eq_true]
  rw [pathModifiers, hrule, List.mem_append, Option.mem_toList, Option.mem_toList] at hm
  exact hm.imp (fun hm => ⟨modifier, hm, hreplaces⟩) fun hm => ⟨modifier, hm, hreplaces⟩

theorem compileRule_prefixed (route : HttpRoute) (rref : ObjectRef) (source : HttpRouteRule × Nat) :
    Along (RefsGrow snap) (compileRule env snap route rref source) fun rule _ =>
      Prefixed rule := by
  obtain ⟨r, index⟩ := source
  have hpure : ∀ {p : Prop}, Stable (RefsGrow snap) fun _ => p := fun _ _ _ h => h
  have hbackend : ∀ b ∈ r.backendRefs, Along (RefsGrow snap) (compileBackend snap rref b)
      fun _ _ => True := fun b _ => (compileBackend_along b).weaken fun _ _ _ => trivial
  have hbackends := Along.mapM_forall (fun _ => hpure) hbackend
  refine ((Along.answer _).bind (fun _ => hpure) fun compiled =>
    ((resolveMirror_along r).weaken fun _ _ _ => trivial).bind (fun _ => hpure) fun key =>
    (Along.answer _).bind (fun _ => hpure) fun filters =>
    hbackends.bind (fun _ => hpure) fun backends =>
    (Along.answer _).bind (fun _ => hpure) fun requestMs =>
    (Along.answer _).bind (fun _ => hpure) fun backendRequestMs => Along.pure _).weaken ?_
  rintro rule s ⟨compiled, -, key, -, filters, hfilters, backends, -, -, -, -, -, rfl⟩
  intro modifier hmodifier hreplaces m hm
  have hall := compileFilters_prefix hfilters _ rfl hmodifier hreplaces
  exact isRegex_of_isPrefix (List.all_eq_true.mp hall m hm)

theorem compile_prefixed {route : HttpRoute} {rref : ObjectRef} {clusters : ClusterTable}
    {c : Compiled} (h : (compile env snap route rref clusters).1 = .ok c) :
    ∀ rule ∈ c.rules, Prefixed rule := by
  have hpure : ∀ rule : RouteRule, Stable (RefsGrow snap) fun _ => Prefixed rule :=
    fun _ _ _ _ h => h
  have hrules : ∀ source ∈ route.rules.zipIdx,
      Along (RefsGrow snap) (compileRule env snap route rref source) fun rule _ =>
        Prefixed rule := fun source _ => compileRule_prefixed route rref source
  have hrun := Along.mapM_forall hpure hrules { clusters }
  cases hres : (compileRules env snap route rref { clusters }).1 with
  | error e => simp [compile, hres, Except.map] at h
  | ok rules =>
    obtain rfl : _ = c := by simpa [compile, hres, Except.map] using h
    exact hrun.2 rules hres

/-- A winning entry of a translated configuration is a match of its rule. -/
theorem translate_hit {settings : Settings} {port : Nat} {req : RequestAttrs}
    {regexes : RegexMap} {hit : PortMatch}
    (h : matchPortWith (translate env snap settings).config port req regexes = some hit) :
    Prefixed hit.rule ∧ hit.entry.matcher ∈ hit.rule.matches := by
  obtain ⟨entries, hwon⟩ := won_of_match h
  obtain ⟨pos, gw, l, cfg, atts, hserves, -, hmem⟩ :=
    serves_of_entry hwon.table (List.mem_of_find?_eq_some hwon.first)
  obtain ⟨a, ha, rule, hrule, hat, -, hmatcher⟩ := hserves.carries.holds.sound _ hmem
  have hlistener : cfg = hit.listener := by
    have hconfig := hserves.emits.config
    rw [← hwon.index, hwon.listener] at hconfig
    exact (Option.some.inj hconfig).symm
  obtain rfl : rule = hit.rule := by
    have hpicked := hwon.rule
    rw [← hlistener, hserves.emits.rules] at hpicked
    exact Option.mem_unique hat hpicked
  obtain ⟨t, c, -, hcompiled, hrules⟩ := (hserves.carries.genuine a ha).compiled
  exact ⟨compile_prefixed hcompiled _ (hrules ▸ hrule), hmatcher⟩

end

section
open Core.Store
variable {sha256 : String → List UInt8} {snap : StoreSnapshot} {settings : StoreSettings}

theorem isRegex_uppercasePath (m : PathMatch) : isRegex (uppercasePath m) = isRegex m := by
  cases m <;> rfl

theorem ruleOf_prefixed {consumers : ConsumerTable} {route : StoreRoute} {service : StoreService}
    (h : refusal route = none) : Prefixed (ruleOf sha256 snap consumers route service) := by
  intro modifier hmodifier _ m hm
  have hstrip : route.stripPath = true := by
    by_contra hkept
    simp [pathModifiers, ruleOf, hkept] at hmodifier
  have hplain : stripsARegex route = false := by
    by_contra hregex
    rw [Bool.not_eq_false] at hregex
    simp only [refusal, hregex, if_true] at h
    split at h
    · cases h
    · split at h <;> cases h
  obtain ⟨path, hpath, hm⟩ := List.mem_flatMap.mp hm
  obtain ⟨method, -, rfl⟩ := List.mem_map.mp hm
  show isRegex path = false
  split at hpath
  · rw [List.mem_singleton.mp hpath]
    rfl
  · obtain ⟨p, hp, rfl⟩ := List.mem_map.mp hpath
    rw [isRegex_uppercasePath]
    simp only [stripsARegex, hstrip, Bool.true_and, List.any_eq_false] at hplain
    have hnot := hplain p hp
    cases p with
    | exact v => rfl
    | pathPrefix v => rfl
    | regex v => exact absurd rfl hnot

/-- A winning entry of a compiled store is a match of its rule, and the route is
one that is served. -/
theorem compile_hit {port : Nat} {req : RequestAttrs} {regexes : RegexMap} {hit : PortMatch}
    (h : matchPortWith (compile sha256 snap settings) port req regexes = some hit) :
    Prefixed hit.rule ∧ hit.entry.matcher ∈ hit.rule.matches := by
  obtain ⟨r, service, ⟨-, -, hserved⟩, hrule, hmatcher⟩ :=
    StoreEntries.rule_of_hit (StoreEntries.bound_of_hit h) h
  rw [hrule]
  exact ⟨ruleOf_prefixed hserved, hmatcher⟩

end

/-- A configuration of either kind: translated from the cluster's objects, or
compiled from the store's rows. -/
def Produced (config : Config) : Prop :=
  (∃ env snap settings, config = (Translate.translate env snap settings).config) ∨
    ∃ sha256 snap settings, config = Store.compile sha256 snap settings

theorem Produced.hit {config : Config} (h : Produced config) {port : Nat} {req : RequestAttrs}
    {hit : PortMatch}
    (hhit : matchPortWith config port req regexes = some hit) :
    Prefixed hit.rule ∧ hit.entry.matcher ∈ hit.rule.matches := by
  obtain ⟨env, snap, settings, rfl⟩ | ⟨sha256, snap, settings, rfl⟩ := h
  · exact translate_hit hhit
  · exact compile_hit hhit

/-- Whatever wins a request, its rule's path modifiers have a path to give; and
a prefix replaced by a normal path gives a normal path. -/
theorem rewritePath_of_hit (config : Config) (hconfig : Produced config) (port : Nat)
    (req : RequestAttrs) (regexes : RegexMap) (hit : PortMatch) (raw : String)
    (hpath : normalizePath raw = .ok req.path)
    (hhit : matchPortWith config port req regexes = some hit) (modifier : PathRewrite)
    (hmodifier : modifier ∈ pathModifiers hit.rule) :
    (rewritePath modifier req.path hit.entry.matcher.path).isSome = true ∧
    ∀ replacement, modifier = .replacePrefixMatch replacement →
      normalizePath replacement = .ok replacement →
      ∃ rest out, req.path = matchedPart hit.entry.matcher.path ++ rest ∧
        rewritePath modifier req.path hit.entry.matcher.path = some out ∧
        out = (if (trimEndSlashes replacement ++ rest).isEmpty then "/"
          else trimEndSlashes replacement ++ rest) ∧
        normalizePath out = .ok out ∧ out.toList.head? = some '/' := by
  obtain ⟨hprefixed, hmatcher⟩ := hconfig.hit hhit
  obtain ⟨entries, hwon⟩ := won_of_match hhit
  have hnormal := normal_of_normalize (normalizePath_eq_ok.mp hpath)
  have hmatches : pathMatches regexes hit.entry.matcher.path req.path = true := by
    have hentry := List.find?_some hwon.first
    simp only [entryMatches, Matcher.matches, Bool.and_eq_true] at hentry
    exact hentry.2.1
  cases modifier with
  | replaceFullPath p => exact ⟨rfl, fun replacement h => by cases h⟩
  | replacePrefixMatch replacement =>
    have hplain := hprefixed _ hmodifier rfl _ hmatcher
    obtain ⟨rest, hcut, hkept, hrest⟩ := keptRest_of_matches hplain hnormal hmatches
    rw [rewritePath_eq, hkept]
    refine ⟨rfl, fun replacement' hsame hfixed => ?_⟩
    cases hsame
    have hreplacement := normal_of_normalize (normalizePath_eq_ok.mp hfixed)
    have hout := normal_grafted hreplacement hrest
    refine ⟨String.ofList rest, _, ?_, rfl, rfl, normalizePath_eq_ok.mpr hout.normalize,
      hout.rooted⟩
    rw [← String.toList_inj, String.toList_append, String.toList_ofList, hcut]

/-- A route that strips its prefix. -/
def strippingSnapshot : Store.StoreSnapshot where
  services := [StoreRouting.ordersService "shop"]
  routes := [{ StoreRouting.routeFor "shop" "api" [] with
    paths := [.pathPrefix "/test"], stripPath := true }]

def pingRequest : RequestAttrs := { StoreRouting.getOrders with path := "/test/ping" }

theorem rewritePath_of_hit_stripped :
    ∃ hit, matchPortWith (Store.compile (fun _ => []) strippingSnapshot {}) 80 pingRequest ∅ =
        some hit ∧
      ∃ out, rewritePath (.replacePrefixMatch "/") "/test/ping" hit.entry.matcher.path =
        some out ∧ normalizePath out = .ok out := by
  have hwins : (matchPortWith (Store.compile (fun _ => []) strippingSnapshot {}) 80
      pingRequest ∅).isSome = true := by decide +kernel
  obtain ⟨hit, hhit⟩ := Option.isSome_iff_exists.mp hwins
  have hmodifier : (matchPortWith (Store.compile (fun _ => []) strippingSnapshot {}) 80
      pingRequest ∅).all (fun hit => decide (.replacePrefixMatch "/" ∈ pathModifiers hit.rule)) =
        true := by decide +kernel
  rw [hhit] at hmodifier
  obtain ⟨-, out, -, hout, -, hnormal, -⟩ := (rewritePath_of_hit _ (.inr ⟨_, _, _, rfl⟩) 80
    pingRequest ∅ hit "/test/ping" (by decide +kernel) hhit _ (by simpa using hmodifier)).2 "/" rfl
    (by decide +kernel)
  exact ⟨hit, hhit, out, hout, hnormal⟩

end Gapura.Proxy.PathRewrite
