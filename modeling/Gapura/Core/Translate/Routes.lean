import Gapura.Core.Translate.Ports

/-! # Attaching HTTPRoutes to listeners

A route attaches through its parentRefs, under the hostnames it shares with a
listener less those that a more specific listener on the same serving port
claims. What is counted on the way decides the route's Accepted condition. -/
namespace Gapura.Core.Translate
open Lib.Ordered (pairCmp)
open Input Status

/-- Counts used to pick the Accepted reason. -/
structure Outcome where
  matchingListeners : Nat := 0
  allowed : Nat := 0
  hostnameOk : Nat := 0
  /-- Listeners whose every effective hostname belongs to a more specific sibling. -/
  claimed : Nat := 0

/-! ## Siblings -/

/-- A programmed listener as yielding sees it. -/
structure Sibling where
  /-- The indices of its Gateway and of itself. -/
  pos : Nat × Nat
  /-- The port it serves on. -/
  port : Nat
  protocol : Protocol
  hostname : Option String

/-- The listener at `q`, of a Gateway with index `gi`, if it serves. -/
def siblingOf (ports : List (List (Option Nat))) (gi : Nat) (q : ListenerBuild × Nat) :
    Option Sibling :=
  match portAt ports (gi, q.2), q.1.protocol with
  | some port, some protocol => some { pos := (gi, q.2), port, protocol, hostname := q.1.hostname }
  | _, _ => none

/-- Every programmed listener of every Gateway, with the port it serves on. -/
def siblings (gateways : List GatewayBuild) (settings : Settings) : List Sibling :=
  gateways.zipIdx.flatMap fun p =>
    p.1.listeners.zipIdx.filterMap (siblingOf (servingPorts gateways settings) p.2)

/-- Strictly more specific: the kind first, then the length. -/
def moreSpecific (a b : Option String) : Bool :=
  pairCmp (Hostname.specificity a) (Hostname.specificity b) == .gt

/-- A more specific sibling on the port also matches all of `h`. -/
def claims (siblings : List Sibling) (pos : Nat × Nat) (own : ListenerBuild) (h : String) : Bool :=
  let ownPort := ((siblings.find? (·.pos == pos)).map (·.port)).getD own.port
  siblings.any fun s =>
    s.pos != pos && s.port == ownPort && some s.protocol == own.protocol &&
    moreSpecific s.hostname own.hostname && s.hostname.any fun sh => Hostname.matches sh h

/-- The hostnames no sibling claims, `none` when there were some and all of
them are claimed. -/
def yieldToSiblings (hosts : List String) (pos : Nat × Nat) (own : ListenerBuild)
    (siblings : List Sibling) : Option (List String) :=
  if hosts.isEmpty then some hosts
  else
    let kept := hosts.filter fun h => !claims siblings pos own h
    if kept.isEmpty then none else some kept

/-! ## One listener -/

def selects (pref : ParentReference) (l : ListenerBuild) : Bool :=
  pref.sectionName.all (· == l.name) && pref.port.all (· == l.port)

def admits (snap : Snapshot) (gwNs : String) (rref : ObjectRef) (l : ListenerBuild) : Bool :=
  namespaceOk l.allowed gwNs rref snap && kindOk l.allowed

/-- How far a route gets with a listener. -/
inductive Verdict where
  | unselected
  | notAllowed
  | noHostname
  | claimed
  | hosts (hosts : List String)
  deriving DecidableEq, Repr

/-- The effective hostnames of a route on a listener, before yielding and after. -/
def hostsAt (siblings : List Sibling) (pos : Nat × Nat) (route : HttpRoute) (l : ListenerBuild) :
    Verdict :=
  match Hostname.intersect l.hostname route.hostnames with
  | none => .noHostname
  | some hosts => match yieldToSiblings hosts pos l siblings with
    | none => .claimed
    | some hosts => .hosts hosts

def verdict (snap : Snapshot) (siblings : List Sibling) (gwNs : String) (pos : Nat × Nat)
    (pref : ParentReference) (rref : ObjectRef) (route : HttpRoute) (l : ListenerBuild) : Verdict :=
  if !selects pref l then .unselected
  else if !admits snap gwNs rref l then .notAllowed
  else hostsAt siblings pos route l

def Outcome.count (o : Outcome) : Verdict → Outcome
  | .unselected => o
  | .notAllowed => { o with matchingListeners := o.matchingListeners + 1 }
  | .noHostname =>
    { o with matchingListeners := o.matchingListeners + 1, allowed := o.allowed + 1 }
  | .claimed =>
    { o with matchingListeners := o.matchingListeners + 1, allowed := o.allowed + 1
             claimed := o.claimed + 1 }
  | .hosts _ =>
    { o with matchingListeners := o.matchingListeners + 1, allowed := o.allowed + 1
             hostnameOk := o.hostnameOk + 1 }

/-- Counts the route, and adds its rules when it compiled and the listener is
programmed. -/
def attachListener (compiled : Option Compiled) (hosts : List String) (l : ListenerBuild) :
    ListenerBuild :=
  let counted := { l with attachedRoutes := l.attachedRoutes + 1 }
  match compiled with
  | some c => if l.programmed then counted.addRoute c.rules hosts else counted
  | none => counted

/-! ## One Gateway -/

/-- What a route asks of every listener. -/
structure Asking where
  snap : Snapshot
  siblings : List Sibling
  rref : ObjectRef
  route : HttpRoute
  compiled : Option Compiled

/-- The key under which a route remembers a listener it attached to. -/
def listenerKey (gwRef : ObjectRef) (l : ListenerBuild) : String := gwRef.text ++ "/" ++ l.name

/-- How far the route gets with the listener at `pos` through a parentRef. -/
def Asking.verdict (ask : Asking) (pref : ParentReference) (gwRef : ObjectRef) (pos : Nat × Nat)
    (l : ListenerBuild) : Verdict :=
  Translate.verdict ask.snap ask.siblings gwRef.namespace pos pref ask.rref ask.route l

/-- One listener; `attached` holds the keys of those the route attached to
already, through this parentRef or an earlier one. -/
def attachOne (ask : Asking) (pref : ParentReference) (gwRef : ObjectRef) (pos : Nat × Nat)
    (attached : List String) (l : ListenerBuild) : ListenerBuild × List String :=
  match ask.verdict pref gwRef pos l with
  | .hosts hosts =>
    if attached.contains (listenerKey gwRef l) then (l, attached)
    else (attachListener ask.compiled hosts l, listenerKey gwRef l :: attached)
  | _ => (l, attached)

/-- The listeners from index `li` on. -/
def attachListeners (ask : Asking) (pref : ParentReference) (gwRef : ObjectRef) (gi : Nat) :
    Nat → List String → Outcome → List ListenerBuild → List ListenerBuild × List String × Outcome
  | _, attached, o, [] => ([], attached, o)
  | li, attached, o, l :: rest =>
    let one := attachOne ask pref gwRef (gi, li) attached l
    let out := attachListeners ask pref gwRef gi (li + 1) one.2
      (o.count (ask.verdict pref gwRef (gi, li) l)) rest
    (one.1 :: out.1, out.2)

theorem blank_addRoute (rules : List RouteRule) (hosts : List String) (l : ListenerBuild) :
    (l.addRoute rules hosts).blank = l.blank := by
  unfold ListenerBuild.addRoute
  induction rules generalizing l with
  | nil => rfl
  | cons rule rules ih =>
    rw [List.foldl_cons, ih]
    rfl

theorem blank_attachListener (compiled : Option Compiled) (hosts : List String)
    (l : ListenerBuild) : (attachListener compiled hosts l).blank = l.blank := by
  unfold attachListener
  cases compiled with
  | none => rfl
  | some c =>
    simp only
    split
    · exact blank_addRoute c.rules hosts _
    · rfl

variable (ask : Asking)

variable (pref : ParentReference)

variable (gwRef : ObjectRef)

theorem blank_attachOne (pos : Nat × Nat) (attached : List String)
    (l : ListenerBuild) : (attachOne ask pref gwRef pos attached l).1.blank = l.blank := by
  unfold attachOne
  split
  · split
    · rfl
    · exact blank_attachListener _ _ l
  · rfl

theorem attachListeners_blank
    (gi li : Nat) (attached : List String) (o : Outcome) (ls : List ListenerBuild) :
    (attachListeners ask pref gwRef gi li attached o ls).1.map ListenerBuild.blank =
      ls.map ListenerBuild.blank := by
  induction ls generalizing li attached o with
  | nil => rfl
  | cons l rest ih => rw [attachListeners, List.map_cons, List.map_cons, ih, blank_attachOne]

/-- Replaces the listeners by ones that only attaching routes changed. -/
def GatewayBuild.withListeners (gw : GatewayBuild) (ls : List ListenerBuild)
    (h : ls.map ListenerBuild.blank = gw.listeners.map ListenerBuild.blank) : GatewayBuild :=
  { gw with
    listeners := ls
    settled := by
      have hblank : (gw.listeners.map ListenerBuild.blank).Pairwise Compatible :=
        List.pairwise_map.mpr gw.settled
      rw [← h, List.pairwise_map] at hblank
      exact hblank }

def attachToGateway (ask : Asking) (pref : ParentReference) (gi : Nat) (gw : GatewayBuild)
    (attached : List String) : GatewayBuild × List String × Outcome :=
  let out := attachListeners ask pref gw.ref gi 0 attached {} gw.listeners
  (gw.withListeners out.1 (attachListeners_blank ..), out.2)

/-! ## All parents of a route -/

/-- The index of the Gateway of ours a parentRef names. -/
def ourGateway (gateways : List GatewayBuild) (pref : ParentReference) (rref : ObjectRef) :
    Option Nat :=
  if pref.group.getD gatewayGroup != gatewayGroup || pref.kind.getD "Gateway" != "Gateway" then none
  else gateways.findIdx? fun g =>
    g.ref.namespace == pref.namespace.getD rref.namespace && g.ref.name == pref.name

def acceptedCondition (o : Outcome) (compiled : Except Unsupported Compiled)
    (generation : Option Int) : Condition :=
  match compiled with
  | .error e => ⟨.accepted, .false, .unsupportedValue, e.message, generation⟩
  | .ok _ =>
    if 0 < o.hostnameOk then ⟨.accepted, .true, .accepted, "Route is accepted", generation⟩
    else if o.matchingListeners = 0 then
      ⟨.accepted, .false, .noMatchingParent,
        "No listener matches the parentRef sectionName/port", generation⟩
    else if o.allowed = 0 then
      ⟨.accepted, .false, .notAllowedByListeners,
        "Route is not allowed by any matching listener (namespace or kind)", generation⟩
    else if 0 < o.claimed then
      ⟨.accepted, .false, .noMatchingListenerHostname,
        "Every route hostname belongs to a more specific listener on the same port, of this " ++
        "Gateway or another one sharing the port; a request is served by the most specific " ++
        "matching listener only", generation⟩
    else
      ⟨.accepted, .false, .noMatchingListenerHostname,
        "No listener hostname intersects the route hostnames", generation⟩

def resolvedCondition (compiled : Except Unsupported Compiled) (generation : Option Int) :
    Condition :=
  match compiled with
  | .ok c => c.resolvedRefs
  | .error _ => ⟨.resolvedRefs, .true, .resolvedRefs,
      "References not evaluated because the route was rejected", generation⟩

/-- The walk over the parentRefs of one route. -/
structure Attaching where
  gateways : List GatewayBuild
  /-- Keys of the listeners the route attached to. -/
  attached : List String := []
  parents : List RouteParentStatus := []

def attachParent (ask : Asking) (compiled : Except Unsupported Compiled) (controllerName : String)
    (s : Attaching) (pref : ParentReference) : Attaching :=
  match ourGateway s.gateways pref ask.rref with
  | none => s
  | some gi => match s.gateways[gi]? with
    | none => s
    | some gw =>
      let out := attachToGateway ask pref gi gw s.attached
      { gateways := s.gateways.set gi out.1
        attached := out.2.1
        parents := s.parents ++ [{
          parentRef := pref
          controllerName
          conditions := [acceptedCondition out.2.2 compiled ask.route.metadata.generation,
            resolvedCondition compiled ask.route.metadata.generation] }] }

/-! ## All routes -/

/-- Whether a listener the route names admits it, which is asked before the
route is compiled. -/
def anyListenerAdmits (snap : Snapshot) (gateways : List GatewayBuild) (rref : ObjectRef)
    (route : HttpRoute) : Bool :=
  route.parentRefs.any fun pref =>
    ((ourGateway gateways pref rref).bind (gateways[·]?)).any fun gw =>
      gw.listeners.any fun l => selects pref l && admits snap gw.ref.namespace rref l

structure AttachState where
  gateways : List GatewayBuild
  clusters : ClusterTable
  status : List StatusPatch

/-- The rules of a route, and the clusters after compiling them. -/
def compiledFor (env : Env) (snap : Snapshot) (s : AttachState) (rref : ObjectRef)
    (route : HttpRoute) : Except Unsupported Compiled × ClusterTable :=
  if anyListenerAdmits snap s.gateways rref route then compile env snap route rref s.clusters
  else (.ok (.notAdmitted route.metadata.generation), s.clusters)

/-- The walk over the parentRefs, once the route is compiled. -/
def attachParents (snap : Snapshot) (settings : Settings) (siblings : List Sibling)
    (gateways : List GatewayBuild) (rref : ObjectRef) (route : HttpRoute)
    (compiled : Except Unsupported Compiled) : Attaching :=
  route.parentRefs.foldl
    (attachParent { snap, siblings, rref, route, compiled := compiled.toOption } compiled
      settings.controllerName)
    { gateways }

def attachRoute (env : Env) (snap : Snapshot) (settings : Settings) (siblings : List Sibling)
    (s : AttachState) (p : ObjectRef × HttpRoute) : AttachState :=
  let (rref, route) := p
  if !route.parentRefs.any fun pref => (ourGateway s.gateways pref rref).isSome then
    -- a route that left our Gateways gets an empty patch, which takes our entries out
    if route.statusParents.any (· == settings.controllerName) then
      { s with status := s.status ++ [.httpRoute rref route.metadata.uid []] }
    else s
  else
    let out := compiledFor env snap s rref route
    let walk := attachParents snap settings siblings s.gateways rref route out.1
    { gateways := walk.gateways
      clusters := out.2
      status := if walk.parents.isEmpty then s.status
        else s.status ++ [.httpRoute rref route.metadata.uid walk.parents] }

def attach (env : Env) (snap : Snapshot) (settings : Settings) (gateways : List GatewayBuild) :
    AttachState :=
  snap.httpRoutes.toList.foldl (attachRoute env snap settings (siblings gateways settings))
    { gateways, clusters := ∅, status := [] }

end Gapura.Core.Translate
