import Gapura.Core.Path
import Gapura.Core.Translate.Backends
import Gapura.Lib.Stateful

/-! # From an HTTPRoute's rules to the rules served

Any value that is not supported refuses the whole route. A backend reference
that does not resolve does not: the rule keeps a backend without a cluster and
the first such error becomes the route's ResolvedRefs condition. The clusters
resolved before a refusal stay in the shared table. -/
namespace Gapura.Core.Translate
open Lib.Text Lib.Stateful Input Status
open Std (TreeMap)

def rateLimitAnnotation : String := "gapura.dev/rate-limit"

def rateLimitByAnnotation : String := "gapura.dev/rate-limit-by"

/-- Why a whole route is refused. -/
structure Unsupported where
  message : String
  deriving DecidableEq, Repr

/-! ## Matches -/

def checkPathRegex (env : Env) (pattern : String) : Except String Unit :=
  match Matcher.compilePathRegex env.regex pattern with
  | .ok _ => .ok ()
  | .error _ => .error (env.regexError pattern)

/-- A value in the form a request's path is normalised to, which is what it is
compared with. A value with a `;` is refused: requests are also matched without
their path parameters. -/
def normalizedPath (env : Env) (kind value : String) : Except Unsupported String :=
  if value.toList.contains ';' then
    .error ⟨"path match " ++ kind ++ " value " ++ env.debug value ++ " contains ;, which servlet " ++
      "backends read as path parameters, so it cannot be matched safely"⟩
  else match Path.normalizePath value with
    | .ok p => .ok p
    | .error why => .error ⟨"path match " ++ kind ++ " " ++ env.debug value ++ " can never match: " ++
        "the gateway refuses such a request path (" ++ why ++ ")"⟩

/-- `/foo/` becomes `/foo`, and `/` stays `/`. -/
def normalizePrefix (p : String) : String :=
  let stem := p.toList.rdropWhile (· == '/')
  if stem.isEmpty then "/" else String.ofList stem

def compilePath (env : Env) (p : HttpPathMatch) : Except Unsupported PathMatch :=
  let value := p.value.getD "/"
  match p.type.getD "PathPrefix" with
  | "Exact" => do return .exact (← normalizedPath env "Exact" value)
  | "PathPrefix" => do return .pathPrefix (normalizePrefix (← normalizedPath env "PathPrefix" value))
  | "RegularExpression" =>
    match checkPathRegex env value with
    | .ok () => .ok (.regex value)
    | .error e => .error ⟨"path match RegularExpression " ++ env.debug value ++
        " does not compile: " ++ e⟩
  | other => .error ⟨"path match type " ++ other ++ " is not supported"⟩

/-- No path at all is every path. -/
def matchPath (env : Env) : Option HttpPathMatch → Except Unsupported PathMatch
  | none => .ok (.pathPrefix "/")
  | some p => compilePath env p

/-- A later header whose name differs in case only is ignored altogether. -/
def compileHeader (headers : List KvMatch) (h : HttpValueMatch) :
    Except Unsupported (List KvMatch) :=
  let name := toAsciiLowercase h.name
  if headers.any (·.name == name) then .ok headers
  else if h.type.getD "Exact" != "Exact" then
    .error ⟨"header match type RegularExpression is not supported"⟩
  else .ok (headers ++ [{ name, value := h.value }])

def compileQuery (q : HttpValueMatch) : Except Unsupported KvMatch :=
  if q.type.getD "Exact" != "Exact" then
    .error ⟨"query param match type RegularExpression is not supported"⟩
  else .ok { name := q.name, value := q.value }

def compileMatch (env : Env) (m : HttpRouteMatch) : Except Unsupported RouteMatch := do
  let path ← matchPath env m.path
  let headers ← m.headers.foldlM compileHeader []
  let query ← m.queryParams.mapM compileQuery
  return { path, headers, query, method := m.method.map toAsciiUppercase }

/-! ## Filters -/

def headerOps : Option HeaderModifier → HeaderOps
  | none => {}
  | some m =>
    { set := m.set.map fun h => (h.name, h.value)
      add := m.add.map fun h => (h.name, h.value)
      remove := m.remove }

def pathRewrite : Option PathModifier → Except Unsupported (Option PathRewrite)
  | none => .ok none
  | some p => match p.type with
    | "ReplaceFullPath" => .ok (some (.replaceFullPath (p.replaceFullPath.getD "/")))
    | "ReplacePrefixMatch" => .ok (some (.replacePrefixMatch (p.replacePrefixMatch.getD "/")))
    | other => .error ⟨"path modifier type " ++ other ++ " is not supported"⟩

def redirect : Option RequestRedirect → Except Unsupported Redirect
  | none => .error ⟨"RequestRedirect filter without requestRedirect body"⟩
  | some r => do
    let status := r.statusCode.getD 302
    if !([301, 302, 303, 307, 308].contains status) then
      .error ⟨"redirect statusCode " ++ toString status ++
        " is not supported, use one of 301, 302, 303, 307, 308"⟩
    return { scheme := r.scheme, hostname := r.hostname, port := r.port, status,
             path := ← pathRewrite r.path }

def rewrite : Option UrlRewrite → Except Unsupported Rewrite
  | none => .error ⟨"URLRewrite filter without urlRewrite body"⟩
  | some r => do return { hostname := r.hostname, path := ← pathRewrite r.path }

def whole (n d : Int) : Bool := decide (0 < d) && n == d

/-- Every request is copied in full, so a weight or a share other than the whole
is refused. -/
def mirror (mirrorCluster : Option String) :
    Option HttpRequestMirrorFilter → Except Unsupported (Option Mirror)
  | none => .error ⟨"RequestMirror filter without requestMirror body"⟩
  | some m =>
    if m.backendRef.weight.any (· != 1) then
      .error ⟨"RequestMirror backendRef weight is not supported: every request is mirrored"⟩
    else if m.percent.any (· != 100) ||
        m.fraction.any fun f => !whole f.numerator (f.denominator.getD 100) then
      .error ⟨"RequestMirror percent and fraction are not supported: every request is " ++
        "mirrored, so only 100% (or leaving both out) is accepted"⟩
    else .ok (mirrorCluster.map fun cluster => { cluster })

def compileFilter (mirrorCluster : Option String) (out : Filters) (f : HttpRouteFilter) :
    Except Unsupported Filters :=
  match f.type with
  | "RequestHeaderModifier" => .ok { out with requestHeaders := headerOps f.requestHeaderModifier }
  | "ResponseHeaderModifier" =>
    .ok { out with responseHeaders := headerOps f.responseHeaderModifier }
  | "RequestRedirect" => do return { out with redirect := some (← redirect f.requestRedirect) }
  | "URLRewrite" => do return { out with rewrite := some (← rewrite f.urlRewrite) }
  | "RequestMirror" => do return { out with mirror := ← mirror mirrorCluster f.requestMirror }
  | other => .error ⟨"filter type " ++ other ++ " is not supported"⟩

/-- The rule's filters in order, each type at most once; `acc` holds the types
seen so far. -/
def addFilter (mirrorCluster : Option String) (acc : List String × Filters)
    (f : HttpRouteFilter) : Except Unsupported (List String × Filters) :=
  if acc.1.contains f.type then
    .error ⟨"filter " ++ f.type ++ " may only appear once per rule"⟩
  else do return (f.type :: acc.1, ← compileFilter mirrorCluster acc.2 f)

def replacesPrefix : PathRewrite → Bool
  | .replacePrefixMatch _ => true
  | .replaceFullPath _ => false

/-- `prefixOnly` says that every match of the rule is a path prefix, without
which there is no prefix to replace. -/
def compileFilters (filters : List HttpRouteFilter) (prefixOnly : Bool)
    (mirrorCluster : Option String) : Except Unsupported Filters := do
  let (_, out) ← filters.foldlM (addFilter mirrorCluster) ([], {})
  if out.redirect.isSome && out.rewrite.isSome then
    .error ⟨"RequestRedirect and URLRewrite cannot be combined in one rule"⟩
  else if !prefixOnly && ((out.rewrite.bind (·.path)).any replacesPrefix ||
      (out.redirect.bind (·.path)).any replacesPrefix) then
    .error ⟨"ReplacePrefixMatch needs every match of the rule to be a PathPrefix match: " ++
      "with an Exact or RegularExpression path the prefix to replace is undefined"⟩
  else return out

/-! ## Timeouts and limits -/

/-- The unit a text starts with, in milliseconds, and what follows it. -/
def unitOf : List Char → Option (Nat × List Char)
  | 'm' :: 's' :: rest => some (1, rest)
  | 'h' :: rest => some (3600000, rest)
  | 'm' :: rest => some (60000, rest)
  | 's' :: rest => some (1000, rest)
  | _ => none

/-- At most `parts` parts more, each one to five digits and a unit. The sum of
four parts cannot overflow. -/
def sumMillis : Nat → List Char → Option Nat
  | _, [] => some 0
  | 0, _ :: _ => none
  | parts + 1, cs =>
    let digits := cs.takeWhile Char.isDigit
    if digits.isEmpty || decide (5 < digits.length) then none
    else do
      let (multiplier, rest) ← unitOf (cs.drop digits.length)
      let total ← sumMillis parts rest
      return digits.foldl (fun n c => 10 * n + (c.toNat - 48)) 0 * multiplier + total

def parseMillis (s : String) : Option Nat :=
  if s.isEmpty then none else sumMillis 4 s.toList

def parseTimeout (env : Env) : Option String → Except Unsupported (Option Nat)
  | none => .ok none
  | some s => match parseMillis s with
    | some ms => .ok (some ms)
    | none => .error ⟨"invalid timeout " ++ env.debug s⟩

def parseRateLimit (value : String) : Option RateLimit := do
  let (count, unit) ← splitOnce "/" value
  let limit ← (parseUnsigned 32 (trim count)).filter (0 < ·)
  let windowMs ← match trim unit with
    | "s" => some 1000
    | "min" => some 60000
    | "h" => some 3600000
    | _ => none
  return { limit, windowMs, limitBy := .ip }

/-- The limit of the first backend Service that carries the annotation, none
when it asks to count by anything but the client address. -/
def rateLimitOf (snap : Snapshot) (routeNs : String) (refs : List HttpBackendRef) :
    Option RateLimit := do
  let (svc, value) ← refs.findSome? fun b => do
    let svc ← snap.services[(⟨b.namespace.getD routeNs, b.name⟩ : ObjectRef)]?
    let value ← svc.metadata.annotations[ rateLimitAnnotation]?
    return (svc, value)
  if svc.metadata.annotations[ rateLimitByAnnotation]?.any (· != "ip") then none
  else parseRateLimit value

/-! ## Rules -/

/-- What compiling a route changes: the shared clusters, and the first
reference that did not resolve. -/
structure Refs where
  clusters : ClusterTable
  firstRefError : Option Rejection := none

abbrev CompileM := Comp Unsupported Refs

/-- Resolves a reference, `none` when that fails. -/
def resolveRef (snap : Snapshot) (rref : ObjectRef) (b : HttpBackendRef) :
    CompileM (Option String) :=
  update fun s => match resolve b rref snap s.clusters with
    | .ok (key, clusters) => (some key, { s with clusters })
    | .error rejection =>
      (none, { s with firstRefError := s.firstRefError.or (some rejection) })

/-- A backend with filters of its own refuses the route: to forward without them
would skip what they ask for. -/
def compileBackend (snap : Snapshot) (rref : ObjectRef) (b : HttpBackendRef) :
    CompileM WeightedBackend := do
  answer <| if b.filters.isEmpty then .ok () else
    .error ⟨"backendRefs[].filters are not supported (backend " ++ b.name ++ " has " ++
      ", ".intercalate b.filters ++ "); move the filters to the rule's filters"⟩
  let cluster ← resolveRef snap rref b
  return { cluster, weight := (b.weight.getD 1).toNat }

def mirrorRef (r : HttpRouteRule) : Option HttpBackendRef :=
  ((r.filters.find? (·.type == "RequestMirror")).bind (·.requestMirror)).map (·.backendRef)

/-- A mirror that does not resolve is dropped, and the rule still serves. -/
def resolveMirror (snap : Snapshot) (rref : ObjectRef) (r : HttpRouteRule) :
    CompileM (Option String) :=
  match mirrorRef r with
  | some b => resolveRef snap rref b
  | none => pure none

def isPrefix : PathMatch → Bool
  | .pathPrefix _ => true
  | _ => false

/-- The match a rule without any has: every path. -/
def rawMatches (r : HttpRouteRule) : List HttpRouteMatch :=
  if r.matches.isEmpty then [{}] else r.matches

def compileRule (env : Env) (snap : Snapshot) (route : HttpRoute) (rref : ObjectRef)
    (rule : HttpRouteRule × Nat) : CompileM RouteRule := do
  let (r, index) := rule
  let compiled ← answer ((rawMatches r).mapM (compileMatch env))
  let mirrorCluster ← resolveMirror snap rref r
  let filters ← answer
    (compileFilters r.filters (compiled.all fun m => isPrefix m.path) mirrorCluster)
  let backends ← r.backendRefs.mapM (compileBackend snap rref)
  let requestMs ← answer (parseTimeout env (r.timeouts.bind (·.request)))
  let backendRequestMs ← answer (parseTimeout env (r.timeouts.bind (·.backendRequest)))
  return {
    route := rref.text
    ruleIndex := index
    creationTimestamp := route.metadata.creationTimestamp.getD ""
    «matches» := compiled
    filters
    backends
    timeouts := { requestMs, backendRequestMs, connectMs := none }
    rateLimit := rateLimitOf snap rref.namespace r.backendRefs
    plugins := [] }

structure Compiled where
  rules : List RouteRule
  /-- The same for every parent. -/
  resolvedRefs : Condition

def resolvedRefsCondition (firstRefError : Option Rejection) (generation : Option Int) :
    Condition :=
  match firstRefError with
  | none => ⟨.resolvedRefs, .true, .resolvedRefs, "All references resolved", generation⟩
  | some r => ⟨.resolvedRefs, .false, r.reason, r.message, generation⟩

/-- What a route no listener admits is given: no rules, and references that read
as resolved. -/
def Compiled.notAdmitted (generation : Option Int) : Compiled :=
  ⟨[], resolvedRefsCondition none generation⟩

def compileRules (env : Env) (snap : Snapshot) (route : HttpRoute) (rref : ObjectRef) :
    CompileM (List RouteRule) :=
  route.rules.zipIdx.mapM (compileRule env snap route rref)

def compile (env : Env) (snap : Snapshot) (route : HttpRoute) (rref : ObjectRef)
    (clusters : ClusterTable) : Except Unsupported Compiled × ClusterTable :=
  let run := compileRules env snap route rref { clusters }
  (run.1.map fun rules =>
    ⟨rules, resolvedRefsCondition run.2.firstRefError route.metadata.generation⟩, run.2.clusters)

/-! ## What compiling leaves behind -/

/-- The clusters a rule sends requests to. -/
def clusterRefs (rule : RouteRule) : List String :=
  rule.backends.filterMap (·.cluster) ++ (rule.filters.mirror.map (·.cluster)).toList

/-- A cluster of the table, for a Service port that routes of `ns` may send to. -/
def Reaches (snap : Snapshot) (ns : String) (clusters : ClusterTable) (key : String) : Prop :=
  clusters.contains key = true ∧ ∃ sref port, Names snap ns key sref port

theorem Grows.contains {snap : Snapshot} {t t' : ClusterTable} (h : Grows snap t t') {key : String}
    (hkey : t.contains key = true) : t'.contains key = true := by
  rw [TreeMap.contains_eq_isSome_getElem?, Option.isSome_iff_exists] at hkey ⊢
  obtain ⟨c, hc⟩ := hkey
  exact ⟨c, h.kept key c hc⟩

/-- The table of one state is grown into that of another. -/
def RefsGrow (snap : Snapshot) (s s' : Refs) : Prop := Grows snap s.clusters s'.clusters

instance (snap : Snapshot) : Std.Refl (RefsGrow snap) := ⟨fun s => .refl snap s.clusters⟩

instance (snap : Snapshot) : IsTrans Refs (RefsGrow snap) := ⟨fun _ _ _ h h' => Grows.trans h h'⟩

section Compile
variable {env : Env} {snap : Snapshot} {route : HttpRoute} {rref : ObjectRef}

theorem reaches_stable (key : String) :
    Stable (RefsGrow snap) fun s => Reaches snap rref.namespace s.clusters key :=
  fun _ _ hgrow hkey => ⟨hgrow.contains hkey.1, hkey.2⟩

/-- The key of a reference that resolved, if it did. -/
def KeyReaches (snap : Snapshot) (ns : String) (key : Option String) (s : Refs) : Prop :=
  ∀ k ∈ key, Reaches snap ns s.clusters k

theorem keyReaches_stable (key : Option String) :
    Stable (RefsGrow snap) (KeyReaches snap rref.namespace key) :=
  fun s s' hgrow hkey k hk => reaches_stable k s s' hgrow (hkey k hk)

variable (b : HttpBackendRef) {mirrorCluster : Option String} {filters : List HttpRouteFilter}
  (source : HttpRouteRule × Nat)

theorem resolveRef_along :
    Along (RefsGrow snap) (resolveRef snap rref b) (KeyReaches snap rref.namespace) := by
  intro s
  simp only [resolveRef, after_update, result_update]
  cases hres : resolve b rref snap s.clusters with
  | error rejection =>
    refine ⟨Grows.refl snap s.clusters, fun key hkey => ?_⟩
    cases hkey
    exact fun k hk => nomatch hk
  | ok out =>
    obtain ⟨key, clusters⟩ := out
    obtain ⟨hgrows, hin, hnames⟩ := resolve_eq_ok hres
    refine ⟨hgrows, fun key' hkey => ?_⟩
    cases hkey
    intro k hk
    obtain rfl : key = k := by simpa using hk
    exact ⟨hin, hnames⟩

theorem compileBackend_along : Along (RefsGrow snap) (compileBackend snap rref b) fun backend =>
      KeyReaches snap rref.namespace backend.cluster := by
  refine ((Along.answer _).bind (fun _ => fun _ _ _ h => h) fun _ =>
    (resolveRef_along b).bind keyReaches_stable fun cluster => Along.pure _).weaken ?_
  rintro backend s ⟨-, -, cluster, hcluster, rfl⟩
  exact hcluster

theorem resolveMirror_along (r : HttpRouteRule) :
    Along (RefsGrow snap) (resolveMirror snap rref r) (KeyReaches snap rref.namespace) := by
  unfold resolveMirror
  cases mirrorRef r with
  | none =>
    refine (Along.pure none).weaken fun key s hkey k hk => ?_
    rw [hkey] at hk
    cases hk
  | some b => exact resolveRef_along b

theorem compileFilter_mirror {out out' : Filters}
    {f : HttpRouteFilter} (h : compileFilter mirrorCluster out f = .ok out') :
    out'.mirror = out.mirror ∨ out'.mirror = mirrorCluster.map fun cluster => { cluster } := by
  unfold compileFilter at h
  split at h
  · cases h
    exact .inl rfl
  · cases h
    exact .inl rfl
  · obtain ⟨r, -, h⟩ := Lib.Checks.bind_eq_ok.mp h
    cases h
    exact .inl rfl
  · obtain ⟨r, -, h⟩ := Lib.Checks.bind_eq_ok.mp h
    cases h
    exact .inl rfl
  · obtain ⟨m, hm, h⟩ := Lib.Checks.bind_eq_ok.mp h
    cases h
    right
    unfold mirror at hm
    split at hm
    · cases hm
    · split at hm
      · cases hm
      · split at hm
        · cases hm
        · cases hm
          rfl
  · cases h

theorem foldlM_addFilter_mirror {acc acc' : List String × Filters}
    (h : filters.foldlM (addFilter mirrorCluster) acc = .ok acc') :
    acc'.2.mirror = acc.2.mirror ∨
      acc'.2.mirror = mirrorCluster.map fun cluster => { cluster } := by
  induction filters generalizing acc with
  | nil =>
    cases h
    exact .inl rfl
  | cons f filters ih =>
    rw [List.foldlM_cons] at h
    obtain ⟨mid, hmid, h⟩ := Lib.Checks.bind_eq_ok.mp h
    unfold addFilter at hmid
    split at hmid
    · cases hmid
    · obtain ⟨out, hout, hmid⟩ := Lib.Checks.bind_eq_ok.mp hmid
      cases hmid
      rcases ih h with hkept | hnew
      · rw [hkept]
        exact compileFilter_mirror hout
      · exact .inr hnew

theorem compileFilters_mirror {prefixOnly : Bool} {out : Filters}
    (h : compileFilters filters prefixOnly mirrorCluster = .ok out) :
    ∀ m ∈ out.mirror, mirrorCluster = some m.cluster := by
  unfold compileFilters at h
  obtain ⟨⟨seen, out'⟩, hfold, h⟩ := Lib.Checks.bind_eq_ok.mp h
  simp only at h
  split at h
  · cases h
  split at h
  · cases h
  cases h
  intro m hm
  rcases foldlM_addFilter_mirror hfold with hnone | hsome
  · rw [hnone] at hm
    cases hm
  · rw [hsome] at hm
    obtain ⟨cluster, hcluster, rfl⟩ := Option.map_eq_some_iff.mp hm
    exact hcluster

/-- A rule of the route: its names, its place, and clusters it may send to. -/
structure RuleOf (snap : Snapshot) (rref : ObjectRef) (source : HttpRouteRule × Nat)
    (rule : RouteRule) (s : Refs) : Prop where
  route : rule.route = rref.text
  index : rule.ruleIndex = source.2
  reaches : ∀ key ∈ clusterRefs rule, Reaches snap rref.namespace s.clusters key

theorem ruleOf_stable (rule : RouteRule) : Stable (RefsGrow snap) (RuleOf snap rref source rule) :=
  fun s s' hgrow h => ⟨h.route, h.index, fun key hkey =>
    reaches_stable key s s' hgrow (h.reaches key hkey)⟩

theorem compileRule_along :
    Along (RefsGrow snap) (compileRule env snap route rref source) (RuleOf snap rref source) := by
  obtain ⟨r, index⟩ := source
  have hbackend : ∀ backend : WeightedBackend,
      Stable (RefsGrow snap) (KeyReaches snap rref.namespace backend.cluster) :=
    fun backend => keyReaches_stable backend.cluster
  have hbackends := Along.mapM_forall (l := r.backendRefs) hbackend
    fun b _ => compileBackend_along b
  have hpure : ∀ {p : Prop}, Stable (RefsGrow snap) fun _ => p := fun _ _ _ h => h
  refine ((Along.answer _).bind (fun _ => hpure) fun compiled =>
    (resolveMirror_along r).bind keyReaches_stable fun key =>
    (Along.answer _).bind (fun _ => hpure) fun filters =>
    hbackends.bind (fun _ s s' hgrow h b hb => hbackend b s s' hgrow (h b hb)) fun backends =>
    (Along.answer _).bind (fun _ => hpure) fun requestMs =>
    (Along.answer _).bind (fun _ => hpure) fun backendRequestMs => Along.pure _).weaken ?_
  rintro rule s ⟨compiled, -, key, hkey, filters, hfilters, backends, hbs, -, -, -, -, rfl⟩
  refine ⟨rfl, rfl, fun k hk => ?_⟩
  rcases List.mem_append.mp hk with hk | hk
  · obtain ⟨backend, hmem, hcluster⟩ := List.mem_filterMap.mp hk
    exact hbs backend hmem k hcluster
  · obtain ⟨m, hm, rfl⟩ := Option.map_eq_some_iff.mp (Option.mem_toList.mp hk)
    exact hkey _ (compileFilters_mirror hfilters m hm)

/-- What the rules of a route that compiled are, in the table compiling left. -/
structure CompiledRules (snap : Snapshot) (rref : ObjectRef) (clusters : ClusterTable)
    (rules : List RouteRule) : Prop where
  route : ∀ rule ∈ rules, rule.route = rref.text
  indices : rules.map (·.ruleIndex) = List.range rules.length
  reaches : ∀ rule ∈ rules, ∀ key ∈ clusterRefs rule, Reaches snap rref.namespace clusters key

theorem compile_spec (env : Env) (snap : Snapshot) (route : HttpRoute) (rref : ObjectRef)
    (clusters : ClusterTable) :
    Grows snap clusters (compile env snap route rref clusters).2 ∧
      ∀ c, (compile env snap route rref clusters).1 = .ok c →
        CompiledRules snap rref (compile env snap route rref clusters).2 c.rules := by
  have hrun := Along.mapM (l := route.rules.zipIdx) ruleOf_stable
    (fun source _ => compileRule_along source : ∀ source ∈ route.rules.zipIdx,
      Along (RefsGrow snap) (compileRule env snap route rref source) (RuleOf snap rref source))
    { clusters }
  refine ⟨hrun.1, fun c hc => ?_⟩
  obtain ⟨rules, hrules, rfl⟩ : ∃ rules, (compileRules env snap route rref { clusters }).1 =
      .ok rules ∧ _ = c := by
    cases hres : (compileRules env snap route rref { clusters }).1 with
    | error e => simp [compile, hres, Except.map] at hc
    | ok rules => exact ⟨rules, rfl, by simpa [compile, hres, Except.map] using hc⟩
  have hall := hrun.2 rules hrules
  obtain ⟨hlen, hget⟩ := List.forall₂_iff_get.mp hall
  have hsource : ∀ i (hi : i < rules.length), ∃ source : HttpRouteRule × Nat, source.2 = i ∧
      RuleOf snap rref source rules[i] (compileRules env snap route rref { clusters }).2 := by
    intro i hi
    refine ⟨route.rules.zipIdx.get ⟨i, by omega⟩, by simp, hget i (by omega) hi⟩
  refine ⟨fun rule hrule => ?_, List.ext_getElem (by simp) fun i hi hi' => ?_,
    fun rule hrule => ?_⟩
  · obtain ⟨i, hi, rfl⟩ := List.getElem_of_mem hrule
    obtain ⟨source, -, h⟩ := hsource i hi
    exact h.route
  · obtain ⟨source, rfl, h⟩ := hsource i (by simpa using hi)
    simpa using h.index
  · obtain ⟨i, hi, rfl⟩ := List.getElem_of_mem hrule
    obtain ⟨source, -, h⟩ := hsource i hi
    exact h.reaches

end Compile

end Gapura.Core.Translate
