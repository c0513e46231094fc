import Gapura.Core.Credentials
import Gapura.Core.Matcher

/-! # Compiling store rows into a configuration

Kong's shape: a route names a service and a service names an upstream, and a
route accepts any of its hosts, any of its paths and any of its methods. The
compiler filters the routes, orders them, and writes one table entry for each
combination, one rule for each route. -/
namespace Gapura.Core.Store
open Lib.Text Lib.Ordered
open Std (TreeMap)

structure StoreService where
  workspace : String
  name : String
  protocol : Protocol
  host : String
  port : Nat
  connectTimeoutMs : Option Nat
  readTimeoutMs : Option Nat
  tlsVerify : Bool
  tlsCaPem : Option String
  tlsSni : Option String
  deriving DecidableEq, Repr

/-- An empty list accepts anything; `headers` must all hold. -/
structure StoreRoute where
  workspace : String
  name : String
  service : String
  hosts : List String
  paths : List PathMatch
  methods : List String
  headers : List KvMatch
  stripPath : Bool
  priority : Int
  deriving DecidableEq, Repr

/-- A policy on one route, on one service's routes, or on the workspace. -/
structure StorePlugin where
  workspace : String
  route : Option String
  service : Option String
  plugin : Plugin
  deriving DecidableEq, Repr

/-- A limit, attached as a policy is, and to one consumer or to everyone. -/
structure StoreRateLimit where
  workspace : String
  route : Option String
  service : Option String
  consumer : Option String
  limit : RateLimit
  deriving DecidableEq, Repr

structure StoreCredential where
  keyHash : String
  consumer : String
  workspace : String
  deriving DecidableEq, Repr

structure StoreConsumer where
  workspace : String
  username : String
  groups : List String
  deriving DecidableEq, Repr

structure StoreSnapshot where
  services : List StoreService
  routes : List StoreRoute
  plugins : List StorePlugin := []
  credentials : List StoreCredential := []
  rateLimits : List StoreRateLimit := []
  consumers : List StoreConsumer := []
  deriving DecidableEq, Repr

structure StoreSettings where
  httpPorts : List Nat := [80]
  deriving DecidableEq, Repr

/-! ## Which routes are served -/

def stripsARegex (route : StoreRoute) : Bool :=
  route.stripPath && route.paths.any fun p => match p with
    | .regex _ => true
    | _ => false

def namesPathParameters (route : StoreRoute) : Bool :=
  route.paths.any fun p => match p with
    | .exact v | .pathPrefix v => v.toList.contains ';'
    | .regex _ => false

def matchesGatewayHeader (route : StoreRoute) : Bool :=
  route.headers.any fun h => Credentials.gatewayHeaders.any fun g => eqIgnoreAsciiCase h.name g

/-- Why `compile` leaves a route out. -/
def refusal (route : StoreRoute) : Option String :=
  if matchesGatewayHeader route then
    some "it matches on a header the gateway sets itself; remove that header match to serve it"
  else if namesPathParameters route then
    some ("an exact or prefix path contains ;, which servlet backends read as path " ++
      "parameters; remove the ; to serve it")
  else if stripsARegex route then
    some ("it strips the matched path, and a regular expression has no prefix to strip; turn " ++
      "off strip path or use prefix and exact paths to serve it")
  else none

abbrev Services := TreeMap (String × String) StoreService pairCmp

/-- By workspace and name together; of two rows with one key the later counts. -/
def servicesOf (snap : StoreSnapshot) : Services :=
  collect pairCmp (snap.services.map fun s => ((s.workspace, s.name), s))

def isServed (services : Services) (route : StoreRoute) : Bool :=
  services.contains (route.workspace, route.service) && (refusal route).isNone

/-- Highest priority first, then workspace, then name. -/
def routeCmp (a b : StoreRoute) : Ordering :=
  (compare b.priority a.priority).then
    ((compare a.workspace b.workspace).then (compare a.name b.name))

def servedRoutes (snap : StoreSnapshot) : List StoreRoute :=
  sortBy routeCmp (snap.routes.filter (isServed (servicesOf snap)))

/-! ## One route's matches -/

/-- `path` with the hex digits of every `%XX` escape in uppercase. A `%` that
two hex digits do not follow is left alone. -/
def uppercaseChars : List Char → List Char
  | [] => []
  | c :: rest =>
    if c = '%' then
      match rest with
      | a :: b :: rest =>
        if a.isHexDigit && b.isHexDigit then
          '%' :: a.toUpper :: b.toUpper :: uppercaseChars rest
        else '%' :: uppercaseChars (a :: b :: rest)
      | [a] => '%' :: uppercaseChars [a]
      | [] => ['%']
    else c :: uppercaseChars rest

theorem uppercaseChars_cons {c : Char} (hc : c ≠ '%') (rest : List Char) :
    uppercaseChars (c :: rest) = c :: uppercaseChars rest := by
  rw [uppercaseChars.eq_def]
  simp only [if_neg hc]

theorem uppercaseChars_escape {a b : Char} (ha : a.isHexDigit = true) (hb : b.isHexDigit = true)
    (rest : List Char) : uppercaseChars ('%' :: a :: b :: rest) =
      '%' :: a.toUpper :: b.toUpper :: uppercaseChars rest := by
  rw [uppercaseChars.eq_def]
  simp [ha, hb]

def uppercaseEscapes (path : String) : String := String.ofList (uppercaseChars path.toList)

/-- Exact and prefix paths in the form a request's path is normalised to; a
regex as its author wrote it. -/
def uppercasePath : PathMatch → PathMatch
  | .exact v => .exact (uppercaseEscapes v)
  | .pathPrefix v => .pathPrefix (uppercaseEscapes v)
  | .regex v => .regex v

/-- One match for each path and method: the lists are alternatives, a match is
a conjunction. -/
def expand (route : StoreRoute) : List RouteMatch :=
  let paths := if route.paths.isEmpty then [.pathPrefix "/"] else route.paths.map uppercasePath
  let methods := if route.methods.isEmpty then [none] else route.methods.map some
  let headers := route.headers.map fun h => ⟨toAsciiLowercase h.name, h.value⟩
  paths.flatMap fun path => methods.map fun method => { path, headers, query := [], method }

/-! ## One route's policies and limits -/

abbrev ConsumerTable := TreeMap String (List String)

def consumerTable (snap : StoreSnapshot) : ConsumerTable :=
  collect compare (snap.consumers.map fun c =>
    (Credentials.consumerId c.workspace c.username, c.groups.insertionSort (· ≤ ·)))

def hasConsumer (consumers : ConsumerTable) (workspace name : String) : Bool :=
  consumers.contains (Credentials.consumerId workspace name)

/-- 2 on the route itself, 1 on its service, 0 on the whole workspace. -/
def rank (workspace : String) (onRoute onService : Option String) (route : StoreRoute) :
    Option Nat :=
  if workspace != route.workspace then none
  else match onRoute, onService with
    | some r, _ => if r == route.name then some 2 else none
    | none, some s => if s == route.service then some 1 else none
    | none, none => some 0

/-- A policy of rank `r` among the ones chosen so far: it takes the place of
one of its kind that is less specific. -/
def place (r : Nat) (p : Plugin) : List (Nat × Plugin) → List (Nat × Plugin)
  | [] => [(r, p)]
  | c :: rest =>
    if c.2.kind == p.kind then if c.1 < r then (r, p) :: rest else c :: rest
    else c :: place r p rest

def choose (route : StoreRoute) (chosen : List (Nat × Plugin)) (p : StorePlugin) :
    List (Nat × Plugin) :=
  match rank p.workspace p.route p.service route with
  | none => chosen
  | some r => place r p.plugin chosen

/-- The workspace a policy names consumers in, and an anonymous consumer only
while the workspace has it. -/
def stamp (route : StoreRoute) (consumers : ConsumerTable) : Plugin → Plugin
  | .keyAuth policy =>
    if route.workspace.isEmpty then .keyAuth policy
    else .keyAuth { policy with workspace := some route.workspace }
  | .auth policy =>
    .auth {
      anonymous := policy.anonymous.filter (hasConsumer consumers route.workspace)
      workspace := if route.workspace.isEmpty then none else some route.workspace }
  | .jwt policy =>
    if policy.consumerClaim.isSome && !route.workspace.isEmpty then
      .jwt { policy with workspace := some route.workspace }
    else .jwt policy
  | other => other

/-- The policies on one route, the most specific of each kind. -/
def pluginsFor (all : List StorePlugin) (route : StoreRoute) (consumers : ConsumerTable) :
    List Plugin :=
  (all.foldl (choose route) []).map fun c => stamp route consumers c.2

def betterLimit (route : StoreRoute) (chosen : Option (Nat × RateLimit)) (l : StoreRateLimit) :
    Option (Nat × RateLimit) :=
  if l.consumer.isSome then chosen
  else match rank l.workspace l.route l.service route with
    | none => chosen
    | some r => if chosen.all fun c => c.1 < r then some (r, l.limit) else chosen

/-- The most specific limit on everyone, the first of two equally specific. -/
def limitOnEveryone (all : List StoreRateLimit) (route : StoreRoute) : Option RateLimit :=
  (all.foldl (betterLimit route) none).map Prod.snd

/-- `workspace/name`, the bare name without workspaces. -/
def routeId (route : StoreRoute) : String :=
  if route.workspace.isEmpty then route.name else route.workspace ++ "/" ++ route.name

/-- A consumer's limits so far, and how specific the one held for each consumer
and route is. -/
structure Limits where
  out : TreeMap String ConsumerRateLimits
  held : TreeMap (String × String) Nat pairCmp

/-- The limit `l` of consumer `consumer`, on one route it may apply to. -/
def holdLimit (l : StoreRateLimit) (consumer : String) (acc : Limits) (route : StoreRoute) :
    Limits :=
  match rank l.workspace l.route l.service route with
  | none => acc
  | some r =>
    let id := routeId route
    if (acc.held[(consumer, id)]?).all fun best => best < r then
      let entry := acc.out.getD consumer {}
      { out := acc.out.insert consumer { entry with routes := entry.routes.insert id l.limit }
        held := acc.held.insert (consumer, id) r }
    else acc

def consumerLimit (routes : List StoreRoute) (acc : Limits) (l : StoreRateLimit) : Limits :=
  match l.consumer with
  | none => acc
  | some username =>
    let consumer := Credentials.consumerId l.workspace username
    if l.route.isNone && l.service.isNone then
      let entry := acc.out.getD consumer {}
      { acc with out := acc.out.insert consumer { entry with any := entry.any.or (some l.limit) } }
    else routes.foldl (holdLimit l consumer) acc

def consumerRateLimits (all : List StoreRateLimit) (routes : List StoreRoute) :
    TreeMap String ConsumerRateLimits :=
  (all.foldl (consumerLimit routes) ⟨∅, ∅⟩).out

/-! ## Clusters -/

/-- A service's own SNI, else its host. -/
def sni (service : StoreService) : String :=
  match service.tlsSni with
  | some sni => if sni.isEmpty then service.host else sni
  | none => service.host

def caPem (service : StoreService) : Option String :=
  service.tlsCaPem.filter fun pem => !pem.isEmpty

/-- Where a service's traffic goes: its address, and for HTTPS every TLS
setting that is not the default, so that services that differ in one never
share a pool. -/
def clusterKey (sha256 : String → List UInt8) (service : StoreService) : String :=
  let address := service.host ++ ":" ++ toString service.port
  match service.protocol with
  | .http => address
  | .https =>
    let settings :=
      (if sni service != service.host then ["sni=" ++ sni service] else []) ++
      (match caPem service with
        | some pem => ["ca=" ++ hex ((sha256 pem).take 8)]
        | none => []) ++
      (if service.tlsVerify then [] else ["insecure"])
    if settings.isEmpty then "https://" ++ address
    else "https://" ++ address ++ "?" ++ "&".intercalate settings

/-- The host, with the port only when it is not the protocol's default. -/
def upstreamAuthority (service : StoreService) : String :=
  let defaultPort := match service.protocol with
    | .https => 443
    | .http => 80
  if service.port == defaultPort then service.host
  else service.host ++ ":" ++ toString service.port

def clusterOf (service : StoreService) : Cluster where
  endpoints := []
  tls := match service.protocol with
    | .https => some
      { sni := sni service, caPem := caPem service, insecure := !service.tlsVerify }
    | .http => none
  resolve := some { host := service.host, port := service.port }

/-! ## Compiling -/

/-- The one rule a route becomes. -/
def ruleOf (sha256 : String → List UInt8) (snap : StoreSnapshot) (consumers : ConsumerTable)
    (route : StoreRoute) (service : StoreService) : RouteRule where
  route := routeId route
  ruleIndex := 0
  creationTimestamp := ""
  «matches» := expand route
  filters := {
    rewrite := some {
      hostname := some (upstreamAuthority service)
      path := if route.stripPath then some (.replacePrefixMatch "/") else none } }
  backends := [{ cluster := some (clusterKey sha256 service), weight := 1 }]
  timeouts := {
    connectMs := service.connectTimeoutMs
    backendRequestMs := service.readTimeoutMs
    requestMs := none }
  rateLimit := limitOnEveryone snap.rateLimits route
  plugins := pluginsFor snap.plugins route consumers

/-- The table entries of a route whose rule stands at `position`. -/
def routeEntries (route : StoreRoute) (position : Nat) :
    List (Option String × RouteMatch × Nat) :=
  (expand route).flatMap fun m =>
    if route.hosts.isEmpty then [(none, m, position)]
    else route.hosts.map fun host => (some host, m, position)

/-- What the loop over the ordered routes builds. -/
structure Build where
  clusters : TreeMap String Cluster
  rules : List RouteRule
  table : List (Option String × RouteMatch × Nat)

def compileRoute (sha256 : String → List UInt8) (snap : StoreSnapshot) (services : Services)
    (consumers : ConsumerTable) (b : Build) (route : StoreRoute) : Build :=
  match services[(route.workspace, route.service)]? with
  -- the source indexes the map here, and only routes it holds come this far
  | none => b
  | some service =>
    { clusters := b.clusters.insertIfNew (clusterKey sha256 service) (clusterOf service)
      rules := b.rules ++ [ruleOf sha256 snap consumers route service]
      table := b.table ++ routeEntries route b.rules.length }

def buildOf (sha256 : String → List UInt8) (snap : StoreSnapshot) : Build :=
  (servedRoutes snap).foldl
    (compileRoute sha256 snap (servicesOf snap) (consumerTable snap)) ⟨∅, [], []⟩

def listenerOf (rules : List RouteRule) (port : Nat) : ListenerConfig where
  id := "store/http:" ++ toString port
  port := port
  clientPort := none
  protocol := .http
  hostname := none
  tls := none
  rules := rules

/-- One listener per bound port, every route on all of them. -/
def compile (sha256 : String → List UInt8) (snap : StoreSnapshot) (settings : StoreSettings) :
    Config :=
  let b := buildOf sha256 snap
  let listeners := settings.httpPorts.map (listenerOf b.rules)
  { listeners
    ports := collect compare (listeners.zipIdx.map fun (listener, index) =>
      (listener.port, b.table.map fun (hostname, matcher, rule) =>
        { listener := index, hostname, matcher, rule }))
    clusters := b.clusters
    credentials := collect compare (snap.credentials.map fun c => (c.keyHash, c.consumer))
    credentialWorkspaces := collect compare
      ((snap.credentials.filter fun c => !c.workspace.isEmpty).map fun c =>
        (c.keyHash, c.workspace))
    consumerRateLimits := consumerRateLimits snap.rateLimits (servedRoutes snap)
    consumers := consumerTable snap }

end Gapura.Core.Store
