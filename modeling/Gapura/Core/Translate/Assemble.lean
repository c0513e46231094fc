import Gapura.Core.Translate.Routes

/-! # Translating a snapshot

GatewayClasses are accepted, listeners built, routes attached; then the
programmed listeners are emitted, moved to the ports they serve on, and merged
into one sorted table per port. -/
namespace Gapura.Core.Translate
open Lib.Text Input Status
open Lib.Ordered (sortBy)
open Std (TreeMap TransCmp)

/-! ## Precedence -/

/-- What orders the entries of a port, the most specific first. -/
structure Key where
  hostKind : Nat
  hostLen : Nat
  pathKind : Nat
  pathLen : Nat
  method : Nat
  headers : Nat
  query : Nat
  created : String
  route : String
  ruleIndex : Nat
  listener : String
  deriving Inhabited, DecidableEq, Repr

def pathRank : PathMatch → Nat × Nat
  | .exact p => (2, len p)
  | .pathPrefix p => (1, len p)
  | .regex p => (0, len p)

def key (hostname : Option String) (matcher : RouteMatch) (rule : RouteRule) (listenerId : String) :
    Key :=
  { hostKind := (Hostname.specificity hostname).1
    hostLen := (Hostname.specificity hostname).2
    pathKind := (pathRank matcher.path).1
    pathLen := (pathRank matcher.path).2
    method := matcher.method.isSome.toNat
    headers := matcher.headers.length
    query := matcher.query.length
    created := rule.creationTimestamp
    route := rule.route
    ruleIndex := rule.ruleIndex
    listener := listenerId }

/-- The larger first. -/
def descending (f : Key → Nat) (a b : Key) : Ordering := compareOn f b a

instance (f : Key → Nat) : TransCmp (descending f) :=
  @TransCmp.opposite Key (compareOn f) _

def Key.cmp : Key → Key → Ordering :=
  compareLex (descending Key.hostKind) <| compareLex (descending Key.hostLen) <|
  compareLex (descending Key.pathKind) <| compareLex (descending Key.pathLen) <|
  compareLex (descending Key.method) <| compareLex (descending Key.headers) <|
  compareLex (descending Key.query) <| compareLex (compareOn Key.created) <|
  compareLex (compareOn Key.route) <| compareLex (compareOn Key.ruleIndex)
    (compareOn Key.listener)

instance : TransCmp Key.cmp := by unfold Key.cmp; infer_instance

/-- The rule an entry points at and the id of its listener. -/
def entryRule (listeners : List ListenerConfig) (e : PortEntry) : Option (RouteRule × String) := do
  let l ← listeners[e.listener]?
  let rule ← l.rules[e.rule]?
  return (rule, l.id)

/-- Every entry points at a rule, so the default is not reached. -/
def entryKey (listeners : List ListenerConfig) (e : PortEntry) : Key :=
  ((entryRule listeners e).map fun p => key e.hostname e.matcher p.1 p.2).getD default

def entryCmp (listeners : List ListenerConfig) (a b : PortEntry) : Ordering :=
  Key.cmp (entryKey listeners a) (entryKey listeners b)

instance (listeners : List ListenerConfig) : TransCmp (entryCmp listeners) where
  eq_swap := by
    unfold entryCmp
    exact Std.OrientedCmp.eq_swap
  isLE_trans := by
    unfold entryCmp
    exact TransCmp.isLE_trans

def sortPortTable (listeners : List ListenerConfig) (entries : List PortEntry) : List PortEntry :=
  sortBy (entryCmp listeners) entries

/-! ## Emitting listeners -/

/-- A programmed listener with what the loop collects beside it. -/
structure Emitted where
  listener : ListenerConfig
  /-- Its Gateway carries an address override. -/
  overridden : Bool
  table : List MatchEntry

def emit (settings : Settings) (gw : GatewayBuild) (l : ListenerBuild) : Option Emitted :=
  if gw.rejected.isNone && l.programmed then
    -- a programmed listener has a supported protocol
    l.protocol.map fun protocol =>
      { listener :=
          { id := gw.ref.text ++ "/" ++ l.name, port := l.port, clientPort := none, protocol
            hostname := l.hostname, tls := l.tls, rules := l.rules }
        overridden := settings.gatewayAddressOverrides.contains gw.ref.text
        table := l.table }
  else none

def emitted (settings : Settings) (gateways : List GatewayBuild) : List Emitted :=
  gateways.flatMap fun gw => gw.listeners.filterMap (emit settings gw)

/-- The slot of an emitted listener, its Gateway read off the id. -/
def Emitted.slot (e : Emitted) : RemapSlot :=
  { gateway := gatewayOf e.listener.id
    https := e.listener.protocol == .https
    port := e.listener.port
    overridden := e.overridden }

def moved (l : ListenerConfig) : Option Nat → ListenerConfig
  | some p => { l with clientPort := some l.port, port := p }
  | none => l

def remapOverriddenListeners (es : List Emitted) (settings : Settings) : List ListenerConfig :=
  List.zipWith moved (es.map (·.listener)) (remapTargets (es.map Emitted.slot) settings)

/-- The entries of one listener in its port's table. -/
def indexed (listener : Nat) (entries : List MatchEntry) : List PortEntry :=
  entries.map fun e => { listener, hostname := e.hostname, matcher := e.matcher, rule := e.rule }

def pushTable (ports : TreeMap Nat (List PortEntry))
    (p : (ListenerConfig × List MatchEntry) × Nat) : TreeMap Nat (List PortEntry) :=
  ports.insert p.1.1.port (ports[p.1.1.port]?.getD [] ++ indexed p.2 p.1.2)

/-- One table per port over every emitted listener. -/
def portTables (listeners : List ListenerConfig) (tables : List (List MatchEntry)) :
    TreeMap Nat (List PortEntry) :=
  (listeners.zip tables).zipIdx.foldl pushTable ∅

/-- The clusters some emitted rule sends to. -/
def usedClusters (es : List Emitted) : List String :=
  es.flatMap fun e => e.listener.rules.flatMap clusterRefs

/-! ## Gateway status -/

def addressesFor (settings : Settings) (ref : ObjectRef) : List String :=
  (settings.gatewayAddressOverrides[ref.text]?).getD settings.gatewayAddresses

/-- IP addresses compare parsed, hostnames ignoring case. -/
def sameAddress (env : Env) (published requested : String) : Bool :=
  match env.parseIp published, env.parseIp requested with
  | some p, some r => p == r
  | _, _ => eqIgnoreAsciiCase published requested

def gatewayPatch (env : Env) (settings : Settings) (gw : GatewayBuild) : StatusPatch :=
  let generation := gw.generation
  let gatewayOk := gw.rejected.isNone
  let anyProgrammed := gw.listeners.any fun l => gatewayOk && l.programmed
  let allProgrammed := gw.listeners.all fun l => gatewayOk && l.programmed
  let accepted := match gw.rejected with
    | some r => ⟨.accepted, .false, r.reason, r.message, generation⟩
    | none =>
      if allProgrammed then ⟨.accepted, .true, .accepted, "Gateway is accepted", generation⟩
      else if anyProgrammed then
        ⟨.accepted, .true, .listenersNotValid, "Some listeners are not valid", generation⟩
      else ⟨.accepted, .false, .listenersNotValid, "No listener is valid", generation⟩
  let published := addressesFor settings gw.ref
  let unassigned := gw.requestedAddresses.filter fun a => !published.any (sameAddress env · a)
  let programmed :=
    if anyProgrammed && !unassigned.isEmpty then
      ⟨.programmed, .false, .addressNotAssigned, "spec.addresses " ++ ", ".intercalate unassigned ++
        " cannot be assigned: static addresses are not supported, the Gateway is served on " ++
        debugList env.debug published, generation⟩
    else if anyProgrammed then
      ⟨.programmed, .true, .programmed, "Gateway is programmed", generation⟩
    else ⟨.programmed, .false, .invalid, "No listener is programmed", generation⟩
  .gateway gw.ref gw.uid published [accepted, programmed] (gw.listeners.map fun l =>
    { name := l.name, supportedKinds := l.supportedKinds, attachedRoutes := l.attachedRoutes
      conditions := l.conditions generation gatewayOk })

/-- An id `namespace/name/listener` in its parts. -/
def splitId (id : String) : Option (ObjectRef × String) := do
  let (ns, rest) ← splitOnce "/" id
  let (name, listener) ← splitOnce "/" rest
  return (⟨ns, name⟩, listener)

def noteCondition (effective declared : Nat) (c : Condition) : Condition :=
  if c.type = .programmed ∧ c.status = .true then
    { c with message := "Listener is programmed on port " ++ toString effective ++
        ": declared port " ++ toString declared ++ " is shared and this Gateway is individually " ++
        "addressed, so its Service must target port " ++ toString effective }
  else c

def isPatchOf (ref : ObjectRef) : StatusPatch → Bool
  | .gateway r _ _ _ _ => r = ref
  | _ => false

def notePatch (listener : String) (note : Condition → Condition) : StatusPatch → StatusPatch
  | .gateway ref uid addresses conditions ls =>
    .gateway ref uid addresses conditions <|
      match ls.findIdx? (·.name == listener) with
      | some i => ls.modify i fun s => { s with conditions := s.conditions.map note }
      | none => ls
  | p => p

/-- Says on the Programmed condition which port a moved listener serves on. -/
def noteRemappedPort (status : List StatusPatch) (l : ListenerConfig) : List StatusPatch :=
  match l.clientPort, splitId l.id with
  | some declared, some (ref, listener) => match status.findIdx? (isPatchOf ref) with
    | some i => status.modify i (notePatch listener (noteCondition l.port declared))
    | none => status
  | _, _ => status

/-! ## The whole translation -/

/-- The configuration, and the status with the Gateways' patches after what was
in it. -/
def assemble (env : Env) (settings : Settings) (gateways : List GatewayBuild)
    (clusters : ClusterTable) (status : List StatusPatch) : Config × List StatusPatch :=
  let es := emitted settings gateways
  let listeners := remapOverriddenListeners es settings
  ({ listeners
     ports := (portTables listeners (es.map (·.table))).map fun _ => sortPortTable listeners
     clusters := clusters.filter fun key _ => (usedClusters es).contains key
     credentials := ∅
     credentialWorkspaces := ∅
     consumerRateLimits := ∅
     consumers := ∅ },
   listeners.foldl noteRemappedPort (status ++ gateways.map (gatewayPatch env settings)))

/-- The classes that are ours, by name. -/
def acceptClasses (snap : Snapshot) (settings : Settings) : List (String × GatewayClass) :=
  snap.gatewayClasses.toList.filter fun p => p.2.controllerName == settings.controllerName

def classPatch (p : String × GatewayClass) : StatusPatch :=
  .gatewayClass p.1 p.2.metadata.uid
    [⟨.accepted, .true, .accepted, "Handled by Gapura", p.2.metadata.generation⟩] supportedFeatures

structure Translation where
  config : Config
  status : List StatusPatch

/-- The Gateways of ours before any route attaches. -/
def ourGateways (env : Env) (snap : Snapshot) (settings : Settings) : List GatewayBuild :=
  build env snap settings ((acceptClasses snap settings).map (·.1))

def translate (env : Env) (snap : Snapshot) (settings : Settings) : Translation :=
  let s := attach env snap settings (ourGateways env snap settings)
  let (config, status) := assemble env settings s.gateways s.clusters
    ((acceptClasses snap settings).map classPatch)
  { config, status := status ++ s.status }

end Gapura.Core.Translate
