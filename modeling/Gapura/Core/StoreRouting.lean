import Gapura.Core.Store

/-! # What the compiled store routes to

The specification speaks of routes: which ones are served, which take a
request, and which of two comes first. The flat table of the compiled
configuration finds the rule of the first served route that takes the request
(`matchPortWith_compile`), for any rows and any bound port. -/
namespace Gapura.Core.StoreRouting
open Lib.Text Lib.Ordered Store Matcher
open Std (TreeMap TransCmp)

/-! ## The specification -/

/-- A route is served when its own workspace has its service and nothing about
it is refused. -/
def Served (snap : StoreSnapshot) (r : StoreRoute) : Prop :=
  r ∈ snap.routes ∧ (∃ s ∈ snap.services, s.workspace = r.workspace ∧ s.name = r.service) ∧
    refusal r = none

def pathTakes (rx : RegexCrate) (m : PathMatch) (path : String) : Bool :=
  match m with
  | .exact value => path == value
  | .pathPrefix value => prefixMatches value path
  | .regex pattern => match compilePathRegex rx pattern with
    | .ok re => re path
    | .error _ => false

/-- Place `i` of a text holds one of the two hex digits after a `%`. -/
def InEscape (cs : List Char) (i : Nat) : Prop :=
  ∃ j a b rest, cs.drop j = '%' :: a :: b :: rest ∧ a.isHexDigit = true ∧ b.isHexDigit = true ∧
    (i = j + 1 ∨ i = j + 2)

/-- `up` is the text with those digits in uppercase and all else as it was. -/
def EscapesUp (cs up : List Char) : Prop :=
  ∀ i, (InEscape cs i → up[i]? = cs[i]?.map Char.toUpper) ∧ (¬ InEscape cs i → up[i]? = cs[i]?)

/-- `q` is the path with its escapes uppercased; a regex is as it was written. -/
def PathUp : PathMatch → PathMatch → Prop
  | .exact v, .exact w => EscapesUp v.toList w.toList
  | .pathPrefix v, .pathPrefix w => EscapesUp v.toList w.toList
  | .regex v, .regex w => v = w
  | _, _ => False

/-- Some host, some path and some method of the route match, where it names any, and
every header does. -/
structure Takes (rx : RegexCrate) (r : StoreRoute) (req : RequestAttrs) : Prop where
  host : r.hosts = [] ∨ ∃ h ∈ r.hosts, Hostname.matches h req.host = true
  path : r.paths = [] ∨ ∃ p ∈ r.paths, ∃ q, PathUp p q ∧ pathTakes rx q req.path = true
  method : r.methods = [] ∨ ∃ m ∈ r.methods, eqIgnoreAsciiCase m req.method = true
  headers : ∀ h ∈ r.headers, headerMatches req.headers h = true

/-- The same as the compiled matches decide it. -/
def takes (onPath : PathMatch → String → Bool) (r : StoreRoute) (req : RequestAttrs) : Bool :=
  (r.hosts.isEmpty || r.hosts.any fun h => Hostname.matches h req.host) &&
  ((r.paths.isEmpty || r.paths.any fun p => onPath (uppercasePath p) req.path) &&
  ((r.methods.isEmpty || r.methods.any fun m => eqIgnoreAsciiCase m req.method) &&
  r.headers.all (headerMatches req.headers)))

/-- Priority descending, then workspace, then name. -/
def Before (a b : StoreRoute) : Prop :=
  b.priority < a.priority ∨ (a.priority = b.priority ∧
    (a.workspace < b.workspace ∨ (a.workspace = b.workspace ∧ a.name < b.name)))

/-- The rule the compiler builds for a route. -/
def compiledRule (sha256 : String → List UInt8) (snap : StoreSnapshot) (r : StoreRoute) :
    Option RouteRule :=
  ((servicesOf snap)[(r.workspace, r.service)]?).map (ruleOf sha256 snap (consumerTable snap) r)

/-- `r` is the first served route that takes the request. -/
structure First (rx : RegexCrate) (snap : StoreSnapshot) (req : RequestAttrs) (r : StoreRoute) :
    Prop where
  served : Served snap r
  takes : Takes rx r req
  first : ∀ r', Served snap r' → Takes rx r' req → r' ≠ r → Before r r'

/-! ## Escapes -/

variable {rest : List Char} (cs : List Char) (regexes : RegexMap)

variable {c : Char} {up : List Char} {a b : StoreRoute}

theorem inEscape_cons {i : Nat}
    (hc : ∀ a b tail, c :: rest = '%' :: a :: b :: tail → a.isHexDigit = true →
      b.isHexDigit = true → i ≠ 0 ∧ i ≠ 1) :
    InEscape (c :: rest) (i + 1) ↔ InEscape rest i := by
  constructor
  · rintro ⟨j, a, b, tail, hdrop, ha, hb, hi⟩
    cases j with
    | zero =>
      obtain ⟨h0, h1⟩ := hc a b tail hdrop ha hb
      omega
    | succ j => exact ⟨j, a, b, tail, hdrop, ha, hb, by omega⟩
  · rintro ⟨j, a, b, tail, hdrop, ha, hb, hi⟩
    exact ⟨j + 1, a, b, tail, hdrop, ha, hb, by omega⟩

theorem not_inEscape_zero : ¬ InEscape cs 0 := by
  rintro ⟨j, a, b, rest, -, -, -, hi⟩
  omega

/-- A character that starts no escape stays, and the rest is on its own. -/
theorem escapesUp_cons (hc : ∀ a b tail, c :: rest = '%' :: a :: b :: tail → a.isHexDigit = true →
      b.isHexDigit = false) (h : EscapesUp rest up) : EscapesUp (c :: rest) (c :: up) := by
  intro i
  cases i with
  | zero => exact ⟨fun hin => absurd hin (not_inEscape_zero _), fun _ => rfl⟩
  | succ i =>
    have hin : InEscape (c :: rest) (i + 1) ↔ InEscape rest i :=
      inEscape_cons fun a b tail heq ha hb => absurd hb (by simp [hc a b tail heq ha])
    rw [hin]
    exact h i

theorem escapesUp_escape {a b : Char} (ha : a.isHexDigit = true)
    (hb : b.isHexDigit = true) (h : EscapesUp rest up) :
    EscapesUp ('%' :: a :: b :: rest) ('%' :: a.toUpper :: b.toUpper :: up) := by
  have hdigit : ∀ {c : Char} {tail : List Char} {i : Nat}, c.isHexDigit = true →
      (InEscape (c :: tail) (i + 1) ↔ InEscape tail i) := by
    intro c tail i hc
    refine inEscape_cons fun a b tail heq _ _ => ?_
    rw [(List.cons.inj heq).1] at hc
    exact absurd hc (by decide)
  intro i
  match i with
  | 0 => exact ⟨fun hin => absurd hin (not_inEscape_zero _), fun _ => rfl⟩
  | 1 => exact ⟨fun _ => rfl, fun hout => absurd ⟨0, a, b, rest, rfl, ha, hb, .inl rfl⟩ hout⟩
  | 2 => exact ⟨fun _ => rfl, fun hout => absurd ⟨0, a, b, rest, rfl, ha, hb, .inr rfl⟩ hout⟩
  | i + 3 =>
    have hin : InEscape ('%' :: a :: b :: rest) (i + 3) ↔ InEscape rest i := by
      rw [inEscape_cons (fun _ _ _ _ _ _ => by omega), hdigit ha, hdigit hb]
    rw [hin]
    exact h i

theorem escapesUp_uppercaseChars : EscapesUp cs (uppercaseChars cs) := by
  have hnil : EscapesUp [] [] :=
    fun i => ⟨fun ⟨j, a, b, rest, hdrop, _⟩ => by simp at hdrop, fun _ => rfl⟩
  fun_induction uppercaseChars cs with
  | case1 => exact hnil
  | case2 a b rest hhex ih =>
    rw [Bool.and_eq_true] at hhex
    exact escapesUp_escape hhex.1 hhex.2 ih
  | case3 a b rest hhex ih =>
    refine escapesUp_cons (fun a' b' tail heq ha => ?_) ih
    obtain ⟨rfl, rfl, rfl⟩ : a = a' ∧ b = b' ∧ rest = tail := by simpa using heq
    simpa [ha] using hhex
  | case4 a ih => exact escapesUp_cons (fun a' b tail heq => by simp at heq) ih
  | case5 => exact escapesUp_cons (fun a b tail heq => by simp at heq) hnil
  | case6 c rest hc ih =>
    exact escapesUp_cons (fun a b tail heq => absurd (List.cons.inj heq).1 hc) ih

theorem EscapesUp.unique {cs up' : List Char} (h : EscapesUp cs up) (h' : EscapesUp cs up') :
    up = up' := by
  refine List.ext_getElem? fun i => ?_
  by_cases hin : InEscape cs i
  · rw [(h i).1 hin, (h' i).1 hin]
  · rw [(h i).2 hin, (h' i).2 hin]

theorem pathUp_iff {p q : PathMatch} : PathUp p q ↔ q = uppercasePath p := by
  have htext : ∀ v w : String, EscapesUp v.toList w.toList ↔ w = uppercaseEscapes v := by
    intro v w
    rw [uppercaseEscapes, ← String.toList_inj, String.toList_ofList]
    exact ⟨fun h => h.unique (escapesUp_uppercaseChars _),
      fun h => h ▸ escapesUp_uppercaseChars _⟩
  cases p <;> cases q <;> simp [PathUp, uppercasePath, htext, eq_comm]

theorem takes_iff {rx : RegexCrate} {r : StoreRoute} {req : RequestAttrs} :
    takes (pathTakes rx) r req = true ↔ Takes rx r req := by
  simp only [takes, Bool.and_eq_true, Bool.or_eq_true, List.isEmpty_iff, List.any_eq_true,
    List.all_eq_true]
  constructor
  · rintro ⟨hhost, hpath, hmethod, hheaders⟩
    exact ⟨hhost, by simpa [pathUp_iff] using hpath, hmethod, hheaders⟩
  · rintro ⟨hhost, hpath, hmethod, hheaders⟩
    exact ⟨hhost, by simpa [pathUp_iff] using hpath, hmethod, hheaders⟩

/-! ## Order -/

instance : TransCmp fun a b : StoreRoute => compare b.priority a.priority :=
  inferInstanceAs (TransCmp fun a b => compareOn StoreRoute.priority b a)

instance : TransCmp routeCmp :=
  inferInstanceAs (TransCmp (compareLex (fun a b : StoreRoute => compare b.priority a.priority)
    (compareLex (compareOn StoreRoute.workspace) (compareOn StoreRoute.name))))

theorem routeCmp_lt : routeCmp a b = .lt ↔ Before a b := by
  simp only [routeCmp, Before, Ordering.then_eq_lt, compare_lt_iff_lt, compare_eq_iff_eq]
  constructor
  · rintro (h | ⟨h, h'⟩)
    · exact .inl h
    · exact .inr ⟨h.symm, h'⟩
  · rintro (h | ⟨h, h'⟩)
    · exact .inl h
    · exact .inr ⟨h.symm, h'⟩

theorem routeCmp_eq (h : routeCmp a b = .eq) : (a.workspace, a.name) = (b.workspace, b.name) := by
  simp only [routeCmp, Ordering.then_eq_eq, compare_eq_iff_eq] at h
  rw [h.2.1, h.2.2]

theorem before_asymm (h : Before a b) : ¬ Before b a := by
  rw [← routeCmp_lt] at h ⊢
  have hswap : routeCmp b a = (routeCmp a b).swap := Std.OrientedCmp.eq_swap
  rw [hswap, h]
  simp

/-! ## Which routes are served -/

theorem getElem?_servicesOf (snap : StoreSnapshot) (w n : String) :
    (servicesOf snap)[(w, n)]? =
      snap.services.reverse.find? fun s => (s.workspace, s.name) = (w, n) := by
  rw [servicesOf, getElem?_collect, ← List.map_reverse, List.find?_map]
  simp [Function.comp_def]

theorem contains_servicesOf {snap : StoreSnapshot} {w n : String} :
    (servicesOf snap).contains (w, n) = true ↔
      ∃ s ∈ snap.services, s.workspace = w ∧ s.name = n := by
  rw [TreeMap.contains_eq_isSome_getElem?, getElem?_servicesOf, List.find?_isSome]
  simp

theorem mem_servedRoutes {snap : StoreSnapshot} {r : StoreRoute} :
    r ∈ servedRoutes snap ↔ Served snap r := by
  simp only [servedRoutes, mem_sortBy, List.mem_filter, isServed, Bool.and_eq_true,
    contains_servicesOf, Option.isNone_iff_eq_none, Served]

theorem compiledRule_isSome (sha256 : String → List UInt8) {snap : StoreSnapshot}
    {r : StoreRoute} (h : Served snap r) : ∃ rule, compiledRule sha256 snap r = some rule := by
  have hs := contains_servicesOf.mpr h.2.1
  rw [TreeMap.contains_eq_isSome_getElem?] at hs
  obtain ⟨service, hget⟩ := Option.isSome_iff_exists.mp hs
  exact ⟨_, by rw [compiledRule, hget]; rfl⟩

/-! ## One route's entries -/

theorem headerMatches_lowercase (headers : List (String × String)) (h : KvMatch) :
    headerMatches headers ⟨toAsciiLowercase h.name, h.value⟩ = headerMatches headers h := by
  simp [headerMatches]

theorem matches_expand (req : RequestAttrs) (r : StoreRoute) :
    (∃ m ∈ expand r, Matcher.matches m req regexes = true) ↔
      ((r.paths.isEmpty || r.paths.any fun p => pathMatches regexes (uppercasePath p) req.path) &&
      ((r.methods.isEmpty || r.methods.any fun m => eqIgnoreAsciiCase m req.method) &&
      r.headers.all (headerMatches req.headers))) = true := by
  have hany : pathMatches regexes (.pathPrefix "/") req.path = true := rfl
  -- an empty list stands for one match that accepts anything
  by_cases hp : r.paths.isEmpty <;> by_cases hm : r.methods.isEmpty <;>
    simp [expand, hp, hm, Matcher.matches, methodMatches, headerMatches_lowercase, hany] <;> grind

/-- A route has an entry that accepts the request exactly when it takes it. -/
theorem routeEntries_any (req : RequestAttrs) (r : StoreRoute) (i : Nat) :
    ((routeEntries r i).any fun e =>
      hostMatches e.1 req.host && Matcher.matches e.2.1 req regexes) =
      takes (pathMatches regexes) r req := by
  rw [Bool.eq_iff_iff, takes, Bool.and_eq_true, ← matches_expand, List.any_eq_true]
  by_cases hh : r.hosts.isEmpty
  · simp [routeEntries, hh, hostMatches]
  · simp [routeEntries, hh, hostMatches]
    grind

theorem routeEntries_position {r : StoreRoute} {i : Nat} {e : Option String × RouteMatch × Nat}
    (h : e ∈ routeEntries r i) : e.2.2 = i := by
  obtain ⟨m, -, hm⟩ := List.mem_flatMap.mp h
  split at hm
  · simp at hm
    rw [hm]
  · obtain ⟨host, -, rfl⟩ := List.mem_map.mp hm
    rfl

/-! ## The loop -/

section
variable (sha256 : String → List UInt8) (snap : StoreSnapshot)

/-- The table of `routes` whose first rule stands at `n`. -/
def tableFrom (n : Nat) : List StoreRoute → List (Option String × RouteMatch × Nat)
  | [] => []
  | r :: rest => routeEntries r n ++ tableFrom (n + 1) rest

theorem foldl_compileRoute (routes : List StoreRoute) (b : Build)
    (h : ∀ r ∈ routes, Served snap r) :
    (routes.foldl (compileRoute sha256 snap (servicesOf snap) (consumerTable snap)) b).rules =
      b.rules ++ routes.filterMap (compiledRule sha256 snap) ∧
    (routes.foldl (compileRoute sha256 snap (servicesOf snap) (consumerTable snap)) b).table =
      b.table ++ tableFrom b.rules.length routes := by
  induction routes generalizing b with
  | nil => simp [tableFrom]
  | cons r rest ih =>
    obtain ⟨rule, hrule⟩ := compiledRule_isSome sha256 (h r (by simp))
    have hrule' := hrule
    rw [compiledRule, Option.map_eq_some_iff] at hrule'
    obtain ⟨service, hget, rfl⟩ := hrule'
    have hstep : compileRoute sha256 snap (servicesOf snap) (consumerTable snap) b r =
        { clusters := b.clusters.insertIfNew (clusterKey sha256 service) (clusterOf service)
          rules := b.rules ++ [ruleOf sha256 snap (consumerTable snap) r service]
          table := b.table ++ routeEntries r b.rules.length } := by
      rw [compileRoute, hget]
    obtain ⟨hr, ht⟩ := ih _ fun r' hr' => h r' (List.mem_cons_of_mem r hr')
    rw [List.foldl_cons, hr, ht, hstep]
    constructor
    · rw [List.filterMap_cons_some hrule]
      simp
    · simp [tableFrom]

/-- The first entry of the table that accepts stands at the position of the first
route that takes. `done` stands before this stretch of the table. -/
theorem find?_tableFrom (regexes : RegexMap) (req : RequestAttrs) (routes done : List StoreRoute) :
    ((tableFrom done.length routes).find? fun e =>
        hostMatches e.1 req.host && Matcher.matches e.2.1 req regexes).bind (fun e =>
      (done ++ routes)[e.2.2]?) = routes.find? fun r => takes (pathMatches regexes) r req := by
  induction routes generalizing done with
  | nil => rfl
  | cons r rest ih =>
    have hany := routeEntries_any regexes req r done.length
    rw [tableFrom, List.find?_append]
    by_cases ht : takes (pathMatches regexes) r req = true
    · rw [ht, List.any_eq_true] at hany
      obtain ⟨e, he⟩ := Option.isSome_iff_exists.mp (List.find?_isSome.mpr hany)
      have hpos : e.2.2 = done.length := routeEntries_position (List.mem_of_find?_eq_some he)
      rw [List.find?_cons_of_pos (p := fun r => takes (pathMatches regexes) r req) ht, he]
      simp [hpos]
    · have hnone : (routeEntries r done.length).find? (fun e =>
          hostMatches e.1 req.host && Matcher.matches e.2.1 req regexes) = none := by
        rw [List.find?_eq_none]
        intro e he hacc
        apply ht
        rw [← hany, List.any_eq_true]
        exact ⟨e, he, hacc⟩
      rw [List.find?_cons_of_neg (p := fun r => takes (pathMatches regexes) r req) ht, hnone,
        ← ih (done ++ [r])]
      simp

theorem buildOf_rules :
    (buildOf sha256 snap).rules = (servedRoutes snap).filterMap (compiledRule sha256 snap) := by
  have := (foldl_compileRoute sha256 snap (servedRoutes snap) ⟨∅, [], []⟩
    fun r hr => mem_servedRoutes.mp hr).1
  simpa [buildOf] using this

theorem buildOf_table : (buildOf sha256 snap).table = tableFrom 0 (servedRoutes snap) := by
  have := (foldl_compileRoute sha256 snap (servedRoutes snap) ⟨∅, [], []⟩
    fun r hr => mem_servedRoutes.mp hr).2
  simpa [buildOf] using this

/-! ## The configuration -/

variable {settings : StoreSettings} {port i : Nat}

/-- A bound port's table is that of one of the listeners bound to it. -/
theorem ports_compile (hp : port ∈ settings.httpPorts) :
    ∃ i, settings.httpPorts[i]? = some port ∧ (compile sha256 snap settings).ports[port]? =
      some ((buildOf sha256 snap).table.map fun e =>
        { listener := i, hostname := e.1, matcher := e.2.1, rule := e.2.2 }) := by
  have hkeys : port ∈ (((settings.httpPorts.map (listenerOf (buildOf sha256 snap).rules)).zipIdx.map
      fun p => (p.1.port, (buildOf sha256 snap).table.map fun e =>
        ({ listener := p.2, hostname := e.1, matcher := e.2.1, rule := e.2.2 } :
          PortEntry))).map Prod.fst) := by
    obtain ⟨i, hi⟩ := List.getElem?_of_mem hp
    rw [List.map_map, List.mem_map]
    refine ⟨(listenerOf (buildOf sha256 snap).rules port, i), ?_, rfl⟩
    rw [List.mk_mem_zipIdx_iff_getElem?, List.getElem?_map, hi]
    rfl
  obtain ⟨entries, hmem, hget⟩ := exists_of_mem_collect compare hkeys
  obtain ⟨⟨listener, i⟩, hl, heq⟩ := List.mem_map.mp hmem
  rw [List.mk_mem_zipIdx_iff_getElem?, List.getElem?_map, Option.map_eq_some_iff] at hl
  obtain ⟨q, hq, rfl⟩ := hl
  obtain ⟨rfl, rfl⟩ := Prod.mk.inj heq
  exact ⟨i, hq, hget⟩

theorem listeners_compile (hi : settings.httpPorts[i]? = some port) :
    (compile sha256 snap settings).listeners[i]? =
      some (listenerOf (buildOf sha256 snap).rules port) := by
  simp [compile, hi]

/-- What a bound port picks: the first entry of the table that accepts, and the
rule that stands at its position. -/
theorem matchPortWith_table (hp : port ∈ settings.httpPorts) (req : RequestAttrs)
    (regexes : RegexMap) :
    ∃ i listener, matchPortWith (compile sha256 snap settings) port req regexes =
      ((tableFrom 0 (servedRoutes snap)).find? fun e =>
        hostMatches e.1 req.host && Matcher.matches e.2.1 req regexes).bind fun e =>
      ((servedRoutes snap)[e.2.2]?.bind (compiledRule sha256 snap)).map fun rule =>
        { listenerIndex := i, listener,
          entry := { listener := i, hostname := e.1, matcher := e.2.1, rule := e.2.2 }, rule } := by
  obtain ⟨i, hi, hports⟩ := ports_compile sha256 snap hp
  refine ⟨i, listenerOf (buildOf sha256 snap).rules port, ?_⟩
  simp only [matchPortWith, hports, List.find?_map, Option.bind_eq_bind, Option.bind_some,
    Function.comp_def, entryMatches, buildOf_table]
  cases (tableFrom 0 (servedRoutes snap)).find? fun e =>
      hostMatches e.1 req.host && Matcher.matches e.2.1 req regexes with
  | none => rfl
  | some e =>
    have hsome : ∀ r ∈ servedRoutes snap, ∃ rule, compiledRule sha256 snap r = some rule :=
      fun r hr => compiledRule_isSome sha256 (mem_servedRoutes.mp hr)
    simp only [Option.map_some, Option.bind_some, listeners_compile sha256 snap hi, listenerOf,
      buildOf_rules, getElem?_filterMap hsome]
    cases (servedRoutes snap)[e.2.2]?.bind (compiledRule sha256 snap) <;> rfl

/-- The rule a bound port picks, for any regex map. -/
theorem matchPortWith_compile (hp : port ∈ settings.httpPorts)
    (req : RequestAttrs) (regexes : RegexMap) :
    (matchPortWith (compile sha256 snap settings) port req regexes).map PortMatch.rule =
      ((servedRoutes snap).find? fun r => takes (pathMatches regexes) r req).bind
        (compiledRule sha256 snap) := by
  obtain ⟨i, listener, htable⟩ := matchPortWith_table sha256 snap hp req regexes
  have hfind := find?_tableFrom regexes req (servedRoutes snap) []
  rw [← hfind, htable, Option.map_bind, Option.bind_assoc]
  simp [Function.comp_def]

/-- The route whose rule stands at the winning entry's position. -/
def pickedRoute (m : Option PortMatch) : Option StoreRoute :=
  m.bind fun m => (servedRoutes snap)[m.entry.rule]?

theorem pickedRoute_compile (hp : port ∈ settings.httpPorts)
    (req : RequestAttrs) (regexes : RegexMap) :
    pickedRoute snap (matchPortWith (compile sha256 snap settings) port req regexes) =
      (servedRoutes snap).find? fun r => takes (pathMatches regexes) r req := by
  obtain ⟨i, listener, htable⟩ := matchPortWith_table sha256 snap hp req regexes
  rw [pickedRoute, htable, ← find?_tableFrom regexes req (servedRoutes snap) [], Option.bind_assoc]
  congr 1
  funext e
  cases hk : (servedRoutes snap)[e.2.2]? with
  | none => simp [hk]
  | some r =>
    obtain ⟨rule, hrule⟩ :=
      compiledRule_isSome sha256 (mem_servedRoutes.mp (List.mem_of_getElem? hk))
    simp [hk, hrule]

/-! ## The regex map of the configuration itself -/

theorem mem_tableFrom {routes : List StoreRoute} {r : StoreRoute} (hr : r ∈ routes) (n : Nat) :
    ∃ k, ∀ e ∈ routeEntries r k, e ∈ tableFrom n routes := by
  induction routes generalizing n with
  | nil => cases hr
  | cons r' rest ih =>
    rcases List.mem_cons.mp hr with rfl | hr
    · exact ⟨n, fun e he => List.mem_append_left _ he⟩
    · obtain ⟨k, hk⟩ := ih hr (n + 1)
      exact ⟨k, fun e he => List.mem_append_right _ (hk e he)⟩

variable {m : RouteMatch}

theorem routeEntries_of_expand {r : StoreRoute} (hm : m ∈ expand r) (k : Nat) :
    ∃ e ∈ routeEntries r k, e.2.1 = m := by
  by_cases hh : r.hosts = []
  · exact ⟨(none, m, k), List.mem_flatMap.mpr ⟨m, hm, by simp [hh]⟩, rfl⟩
  · obtain ⟨host, hhost⟩ := List.exists_mem_of_ne_nil _ hh
    exact ⟨(some host, m, k), List.mem_flatMap.mpr ⟨m, hm, by simp [hh, hhost]⟩, rfl⟩

theorem expand_of_path {r : StoreRoute} {p : PathMatch} (hp : p ∈ r.paths) :
    ∃ m ∈ expand r, m.path = uppercasePath p := by
  have hne : r.paths.isEmpty = false := by
    rw [List.isEmpty_eq_false_iff]
    exact List.ne_nil_of_mem hp
  by_cases hm : r.methods = []
  · refine ⟨{ path := uppercasePath p, headers := r.headers.map fun h =>
      ⟨toAsciiLowercase h.name, h.value⟩, query := [], method := none }, ?_, rfl⟩
    simp only [expand, hne, hm]
    exact List.mem_flatMap.mpr ⟨_, List.mem_map.mpr ⟨p, hp, rfl⟩, by simp⟩
  · obtain ⟨method, hmethod⟩ := List.exists_mem_of_ne_nil _ hm
    refine ⟨{ path := uppercasePath p, headers := r.headers.map fun h =>
      ⟨toAsciiLowercase h.name, h.value⟩, query := [], method := some method }, ?_, rfl⟩
    simp only [expand, hne, List.isEmpty_eq_false_iff.mpr hm]
    exact List.mem_flatMap.mpr ⟨_, List.mem_map.mpr ⟨p, hp, rfl⟩, by simp [hmethod]⟩

/-- Every match of a served route stands in the port tables. -/
theorem mem_portEntries (hp : port ∈ settings.httpPorts)
    {r : StoreRoute} (hr : r ∈ servedRoutes snap) (hm : m ∈ expand r) :
    ∃ e ∈ portEntries (compile sha256 snap settings), e.matcher = m := by
  obtain ⟨i, -, hports⟩ := ports_compile sha256 snap hp
  obtain ⟨k, hk⟩ := mem_tableFrom hr 0
  obtain ⟨e, he, rfl⟩ := routeEntries_of_expand hm k
  rw [buildOf_table] at hports
  refine ⟨{ listener := i, hostname := e.1, matcher := e.2.1, rule := e.2.2 }, ?_, rfl⟩
  apply List.mem_flatMap.mpr
  exact ⟨_, TreeMap.mem_toList_iff_getElem?_eq_some.mpr hports,
    List.mem_map.mpr ⟨e, hk e he, rfl⟩⟩

theorem takes_compileRegexes (rx : RegexCrate) (hp : port ∈ settings.httpPorts) {r : StoreRoute}
    (hr : r ∈ servedRoutes snap) (req : RequestAttrs) :
    takes (pathMatches (compileRegexes rx (compile sha256 snap settings)).1) r req =
      takes (pathTakes rx) r req := by
  have hpath : ∀ p ∈ r.paths, pathMatches (compileRegexes rx (compile sha256 snap settings)).1
      (uppercasePath p) req.path = pathTakes rx (uppercasePath p) req.path := by
    intro p hpm
    cases p with
    | exact v => rfl
    | pathPrefix v => rfl
    | regex pattern =>
      obtain ⟨m, hm, hmp⟩ := expand_of_path hpm
      obtain ⟨e, he, rfl⟩ := mem_portEntries sha256 snap hp hr hm
      have hget := compileRegexes_getElem? rx he hmp
      simp only [uppercasePath, pathMatches, pathTakes, hget]
      cases compilePathRegex rx pattern <;> rfl
  have hany : (r.paths.any fun p => pathMatches (compileRegexes rx
      (compile sha256 snap settings)).1 (uppercasePath p) req.path) =
      r.paths.any fun p => pathTakes rx (uppercasePath p) req.path := by
    rw [Bool.eq_iff_iff, List.any_eq_true, List.any_eq_true]
    exact exists_congr fun p => and_congr_right fun hpm => by rw [hpath p hpm]
  simp only [takes, hany]

/-- The rule a bound port picks on the compiled configuration, its own regexes
compiled: that of the first served route, in order, that takes the request. -/
theorem rule_compile (rx : RegexCrate) (hp : port ∈ settings.httpPorts) (req : RequestAttrs) :
    (matchPortWith (compile sha256 snap settings) port req
      (compileRegexes rx (compile sha256 snap settings)).1).map PortMatch.rule =
      ((servedRoutes snap).find? fun r => takes (pathTakes rx) r req).bind
        (compiledRule sha256 snap) := by
  rw [matchPortWith_compile sha256 snap hp]
  congr 1
  apply List.find?_congr
  intro r hr
  exact takes_compileRegexes sha256 snap rx hp hr req

theorem route_compile (rx : RegexCrate) (hp : port ∈ settings.httpPorts) (req : RequestAttrs) :
    pickedRoute snap (matchPortWith (compile sha256 snap settings) port req
      (compileRegexes rx (compile sha256 snap settings)).1) =
      (servedRoutes snap).find? fun r => takes (pathTakes rx) r req := by
  rw [pickedRoute_compile sha256 snap hp]
  apply List.find?_congr
  intro r hr
  exact takes_compileRegexes sha256 snap rx hp hr req

end

/-! ## Which route wins -/

section
variable {rx : RegexCrate} {snap : StoreSnapshot} {req : RequestAttrs} {r r' : StoreRoute}

/-- The compiler's whole order: `Before`, and rows that share priority,
workspace and name in the order of the rows. -/
def Ahead (snap : StoreSnapshot) (a b : StoreRoute) : Prop :=
  Before a b ∨ (routeCmp a b = .eq ∧ snap.routes.idxOf a < snap.routes.idxOf b)

theorem ahead_asymm (h : Ahead snap r r') : ¬ Ahead snap r' r := by
  have hswap : routeCmp r' r = (routeCmp r r').swap := Std.OrientedCmp.eq_swap
  rintro (h' | ⟨heq', hlt'⟩) <;> rcases h with h | ⟨heq, hlt⟩
  · exact before_asymm h h'
  · rw [← routeCmp_lt, hswap, heq] at h'
    cases h'
  · rw [← routeCmp_lt] at h
    rw [hswap, h] at heq'
    cases heq'
  · omega

/-- The first served route that takes the request is ahead of every other. -/
theorem ahead_of_find? (h : (servedRoutes snap).find? (fun r => takes (pathTakes rx) r req) = some r)
    (hs : Served snap r') (ht : takes (pathTakes rx) r' req = true) (hne : r' ≠ r) :
    Ahead snap r r' := by
  have hserved : ∀ x, Served snap x → isServed (servicesOf snap) x = true := by
    intro x hx
    have := mem_servedRoutes.mpr hx
    rw [servedRoutes, mem_sortBy, List.mem_filter] at this
    exact this.2
  have hr : Served snap r := mem_servedRoutes.mp (List.mem_of_find?_eq_some h)
  have hmem : r' ∈ snap.routes.filter (isServed (servicesOf snap)) :=
    List.mem_filter.mpr ⟨hs.1, hserved r' hs⟩
  rcases find?_sortBy h hmem ht hne with hlt | ⟨heq, hidx⟩
  · exact .inl (routeCmp_lt.mp hlt)
  · exact .inr ⟨heq, (idxOf_filter_lt (hserved r hr) (hserved r' hs)).mp hidx⟩

theorem before_of_ahead (hu : (snap.routes.map fun r => (r.workspace, r.name)).Nodup)
    (hr : r ∈ snap.routes) (hr' : r' ∈ snap.routes) (hne : r' ≠ r) (h : Ahead snap r r') :
    Before r r' := by
  rcases h with h | ⟨heq, -⟩
  · exact h
  · exact absurd (List.inj_on_of_nodup_map hu hr' hr (routeCmp_eq heq).symm) hne

theorem find?_servedRoutes_iff (hu : (snap.routes.map fun r => (r.workspace, r.name)).Nodup) :
    (servedRoutes snap).find? (fun r => takes (pathTakes rx) r req) = some r ↔
      First rx snap req r := by
  have hfirst : ∀ r, (servedRoutes snap).find? (fun r => takes (pathTakes rx) r req) = some r →
      First rx snap req r := by
    intro r h
    have hr : Served snap r := mem_servedRoutes.mp (List.mem_of_find?_eq_some h)
    have ht := List.find?_some (p := fun r => takes (pathTakes rx) r req) h
    refine ⟨hr, takes_iff.mp ht, ?_⟩
    intro r' hs ht hne
    exact before_of_ahead hu hr.1 hs.1 hne (ahead_of_find? h hs (takes_iff.mpr ht) hne)
  refine ⟨hfirst r, ?_⟩
  intro h
  cases hf : (servedRoutes snap).find? fun r => takes (pathTakes rx) r req with
  | none =>
    have := List.find?_eq_none.mp hf r (mem_servedRoutes.mpr h.served)
    exact absurd (takes_iff.mpr h.takes) this
  | some r₀ =>
    have h₀ := hfirst r₀ hf
    by_cases hne : r₀ = r
    · rw [hne]
    · have hb := h.first r₀ h₀.served h₀.takes hne
      have hb' := h₀.first r h.served h.takes (Ne.symm hne)
      exact absurd hb' (before_asymm hb)

end

/-- A bound port picks the rule of the first route, in the order priority
descending, workspace, name, among those served that take the request, and
nothing exactly when there is none. -/
theorem compile_routes_to_first (rx : RegexCrate) (sha256 : String → List UInt8)
    (snap : StoreSnapshot) (settings : StoreSettings)
    (hu : (snap.routes.map fun r => (r.workspace, r.name)).Nodup)
    {port : Nat} (hp : port ∈ settings.httpPorts) (req : RequestAttrs) :
    let config := compile sha256 snap settings
    let picked := matchPortWith config port req (compileRegexes rx config).1
    (∀ rule, picked.map PortMatch.rule = some rule ↔
      ∃ r, First rx snap req r ∧ compiledRule sha256 snap r = some rule) ∧
    (picked = none ↔ ∀ r, Served snap r → ¬ Takes rx r req) := by
  intro config picked
  simp only [← takes_iff, Bool.not_eq_true]
  have hrule : picked.map PortMatch.rule = _ := rule_compile sha256 snap rx hp req
  constructor
  · intro rule
    rw [hrule, Option.bind_eq_some_iff]
    exact exists_congr fun r => and_congr_left fun _ => find?_servedRoutes_iff hu
  · rw [← Option.map_eq_none_iff (f := PortMatch.rule), hrule]
    constructor
    · intro hnone r hs
      cases hf : (servedRoutes snap).find? fun r => takes (pathTakes rx) r req with
      | none => simpa using List.find?_eq_none.mp hf r (mem_servedRoutes.mpr hs)
      | some r₀ =>
        have hs₀ := mem_servedRoutes.mp (List.mem_of_find?_eq_some hf)
        obtain ⟨rule, hr₀⟩ := compiledRule_isSome sha256 hs₀
        rw [hf, Option.bind_some, hr₀] at hnone
        cases hnone
    · intro h
      have hf : (servedRoutes snap).find? (fun r => takes (pathTakes rx) r req) = none := by
        rw [List.find?_eq_none]
        intro r hr
        simp [h r (mem_servedRoutes.mp hr)]
      rw [hf]
      rfl

/-! ## A shop with one route -/

/-- No certificate is digested below. -/
def noDigest : String → List UInt8 := fun _ => []

def ordersService (workspace : String) : StoreService where
  workspace := workspace
  name := "orders"
  protocol := .http
  host := "orders.internal"
  port := 8080
  connectTimeoutMs := none
  readTimeoutMs := none
  tlsVerify := true
  tlsCaPem := none
  tlsSni := none

def routeFor (workspace name : String) (hosts : List String) : StoreRoute where
  workspace := workspace
  name := name
  service := "orders"
  hosts := hosts
  paths := [.pathPrefix "/v1"]
  methods := ["GET"]
  headers := []
  stripPath := false
  priority := 0

def shop : StoreSnapshot where
  services := [ordersService "shop"]
  routes := [routeFor "shop" "api" ["*.shop.test"]]

def getOrders : RequestAttrs where
  host := "api.shop.test"
  path := "/v1/orders"
  method := "GET"
  headers := []
  query := []

/-- A path with an escape, ahead of a route that takes it too. -/
def escapedRoute : StoreRoute :=
  { routeFor "shop" "escaped" [] with paths := [.exact "/v1/a%2fb"], priority := 1 }

def busyShop : StoreSnapshot :=
  { shop with routes := [routeFor "shop" "api" ["*.shop.test"], escapedRoute] }

theorem compile_routes_to_first_shop :
    Takes noRegex (routeFor "shop" "api" ["*.shop.test"]) { getOrders with path := "/v1/a%2Fb" } ∧
    ∃ rule, compiledRule noDigest busyShop escapedRoute = some rule ∧
      (matchPortWith (compile noDigest busyShop {}) 80 { getOrders with path := "/v1/a%2Fb" }
        (compileRegexes noRegex (compile noDigest busyShop {})).1).map PortMatch.rule =
        some rule := by
  have hserved : Served busyShop escapedRoute :=
    ⟨by simp [busyShop], ⟨ordersService "shop", by simp [busyShop, shop], rfl, rfl⟩, by decide⟩
  obtain ⟨rule, hrule⟩ := compiledRule_isSome noDigest hserved
  refine ⟨takes_iff.mp (by decide +kernel), rule, hrule, ?_⟩
  refine ((compile_routes_to_first noRegex noDigest busyShop {} (by decide) (by decide) _).1
    rule).mpr ⟨escapedRoute, ⟨hserved, takes_iff.mp (by decide +kernel), ?_⟩, hrule⟩
  intro r' hs _ hne
  have hmem : r' = routeFor "shop" "api" ["*.shop.test"] ∨ r' = escapedRoute := by
    simpa [busyShop] using hs.1
  obtain rfl := hmem.resolve_right hne
  exact .inl (by decide)

end Gapura.Core.StoreRouting
