import Gapura.Core.Input
import Gapura.Lib.Json

/-! # The status writer's patches

The leader turns what translation says of an object into a merge patch on its
status, copying each condition's transition time from the live object where the
condition's status is the same. A patch here is one the writer may be handed, any
texts included. -/
namespace Gapura.Source.Status
open Lib.Json
open Core.Input (ObjectRef ParentReference RouteGroupKind)

def gatewayGroup : String := "gateway.networking.k8s.io"

inductive ConditionStatus where
  | true
  | false
  | unknown
  deriving DecidableEq, Repr

def ConditionStatus.text : ConditionStatus → String
  | .true => "True"
  | .false => "False"
  | .unknown => "Unknown"

structure Condition where
  type : String
  status : ConditionStatus
  reason : String
  message : String
  observedGeneration : Option Int
  deriving DecidableEq, Repr

structure ListenerStatus where
  name : String
  supportedKinds : List RouteGroupKind
  attachedRoutes : Nat
  conditions : List Condition
  deriving DecidableEq, Repr

structure RouteParentStatus where
  parentRef : ParentReference
  controllerName : String
  conditions : List Condition
  deriving DecidableEq, Repr

inductive StatusPatch where
  | gatewayClass (name : String) (uid : Option String) (conditions : List Condition)
      (supportedFeatures : List String)
  | gateway (ref : ObjectRef) (uid : Option String) (addresses : List String)
      (conditions : List Condition) (listeners : List ListenerStatus)
  | httpRoute (ref : ObjectRef) (uid : Option String) (parents : List RouteParentStatus)
  deriving DecidableEq, Repr

/-! ## The parts of a body -/

def integer (n : Int) : Value := .number (.integer n)

/-- The live condition whose time a condition keeps: the first of its type and
status. -/
def liveCondition (c : Condition) (live : Option Value) : Option Value :=
  ((live.bind Value.asArray).getD []).find? fun p =>
    p.index "type" = .string c.type && p.index "status" = .string c.status.text

def conditionJson (c : Condition) (lastTransitionTime : String) : Value :=
  .object (([("type", .string c.type), ("status", .string c.status.text),
      ("reason", .string c.reason), ("message", .string c.message),
      ("lastTransitionTime", .string lastTransitionTime)] : List (String × Value)) ++
    (c.observedGeneration.map fun g => ("observedGeneration", integer g)).toList)

/-- Copy the time of the live condition when its status is unchanged; otherwise
stamp `now`. -/
def stamp (conds : List Condition) (live : Option Value) (now : String) : List Value :=
  conds.map fun c => conditionJson c
    (((liveCondition c live).bind fun p => (p.index "lastTransitionTime").asStr).getD now)

/-- The API server defaults `group` and `kind`; these fields identify the parent. -/
def sameParent (a b : Value) : Bool :=
  ["namespace", "name", "sectionName", "port"].all fun k => a.get k = b.get k

/-- A parent reference with explicit defaults and without null fields. -/
def parentRefJson (p : ParentReference) : Value :=
  .object (([("group", .string (p.group.getD gatewayGroup)),
      ("kind", .string (p.kind.getD "Gateway")), ("name", .string p.name)] :
        List (String × Value)) ++
    (p.namespace.map fun ns => ("namespace", .string ns)).toList ++
    (p.sectionName.map fun s => ("sectionName", .string s)).toList ++
    (p.port.map fun (port : Nat) => ("port", integer port)).toList)

/-- The array a field holds, empty if it holds none. -/
def itemsOf (v : Value) (name : String) : List Value := ((v.get name).bind Value.asArray).getD []

def listenerJson (live : Value) (now : String) (l : ListenerStatus) : Value :=
  let prev := ((itemsOf live "listeners").find? fun x => x.index "name" = .string l.name).bind
    (·.get "conditions")
  .object [("name", .string l.name),
    ("supportedKinds", .array (l.supportedKinds.map fun k => .object
      [("group", .string (k.group.getD gatewayGroup)), ("kind", .string k.kind)])),
    ("attachedRoutes", integer l.attachedRoutes),
    ("conditions", .array (stamp l.conditions prev now))]

def ours (controllerName : String) (x : Value) : Bool :=
  x.index "controllerName" = .string controllerName

def parentJson (controllerName : String) (live : Value) (now : String) (p : RouteParentStatus) :
    Value :=
  let ref := parentRefJson p.parentRef
  let prev := ((itemsOf live "parents").find? fun x =>
    ours controllerName x && sameParent (x.index "parentRef") ref).bind (·.get "conditions")
  .object [("parentRef", ref), ("controllerName", .string p.controllerName),
    ("conditions", .array (stamp p.conditions prev now))]

/-! ## The body -/

section
variable (isIp : String → Bool) (controllerName : String)

def statusFields (p : StatusPatch) (live : Value) (now : String) : List (String × Value) :=
  match p with
  | .gatewayClass _ _ conditions supportedFeatures =>
    [("conditions", .array (stamp conditions (live.get "conditions") now)),
      ("supportedFeatures", .array (supportedFeatures.map fun f => .object [("name", .string f)]))]
  | .gateway _ _ addresses conditions listeners =>
    [("addresses", .array (addresses.map fun a => .object
        [("type", .string (if isIp a then "IPAddress" else "Hostname")), ("value", .string a)])),
      ("conditions", .array (stamp conditions (live.get "conditions") now)),
      ("listeners", .array (listeners.map (listenerJson live now)))]
  | .httpRoute _ _ parents =>
    [("parents", .array ((itemsOf live "parents").filter (fun x => !ours controllerName x) ++
        parents.map (parentJson controllerName live now)))]

/-- The merge patch's body, for the object's current status or null. -/
def body (p : StatusPatch) (live : Value) (now : String) : Value :=
  .object [("status", .object (statusFields isIp controllerName p live now))]

/-- An object after its status was written, as the API server merges it. -/
def written (p : StatusPatch) (object : Value) (now : String) : Value :=
  object.merge (body isIp controllerName p (object.index "status") now)

end

end Gapura.Source.Status
