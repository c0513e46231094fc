import Gapura.Core.Snapshot
import Gapura.Lib.Ordered

/-! # Watching the cluster

Each watched kind has a watcher: it lists the kind's objects between an `Init`
and an `InitDone`, then tells each change as it happens, and lists again whenever
it lost track. A listed object is held back until its list is complete. An object
the schema rejects, or one projected away, counts as deleted. -/
namespace Gapura.Source.Watch
open Std (TreeMap TreeSet)
open Lib.Json Lib.Ordered Core.Input

/-! ## Projection -/

def lastAppliedAnnotation : String := "kubectl.kubernetes.io/last-applied-configuration"

/-- An object as the watcher has it. Its JSON, where it has one, carries the
metadata. -/
structure DynamicObject where
  name : Option String
  generateName : Option String
  «namespace» : Option String
  fields : Option (List (String × Value))
  metadata : ∀ fs, fields = some fs → ∃ m, fs.lookup "metadata" = some (.object m) ∧
    m.lookup "name" = name.map .string ∧ m.lookup "namespace" = «namespace».map .string

def objectRef (obj : DynamicObject) : ObjectRef :=
  ⟨obj.namespace.getD "", (obj.name <|> obj.generateName).getD ""⟩

/-- The controllers that hold an entry in `status.parents`, each once. -/
def controllers (doc : Value) : List String :=
  let parents := (((doc.get "status").bind (·.get "parents")).bind Value.asArray).getD []
  (sortBy compare (parents.filterMap fun p => (p.get "controllerName").bind Value.asStr)).destutter
    (· ≠ ·)

def projectStatus (kind : Kind) (doc : Value) : Value :=
  match kind with
  | .service => doc
  | .httpRoute => doc.set "status" (.object [("parents", .array ((controllers doc).map fun c =>
      .object [("controllerName", .string c)]))])
  | _ => doc.without "status"

def projectData (kind : Kind) (doc : Value) : Option Value :=
  match kind with
  | .configMap => do
    let ca ← (doc.get "data").bind (·.get "ca.crt")
    return doc.set "data" (.object [("ca.crt", ca)])
  | .secret =>
    let data := doc.index "data"
    some (doc.set "data" (.object (["tls.crt", "tls.key", "ca.crt"].filterMap fun key =>
      (data.get key).map (key, ·))))
  | _ => some doc

/-- The document the snapshot receives for an object, or `none` when the object is
irrelevant and must be removed instead. -/
def project (kind : Kind) (obj : DynamicObject) : Option Value := do
  let fields ← obj.fields
  -- list items carry no kind
  let doc := (Value.object fields).set "kind" (.string kind.name)
  let doc := doc.modify "metadata" fun m =>
    (m.without "managedFields").modify "annotations" (·.without lastAppliedAnnotation)
  projectData kind (projectStatus kind doc)

/-! ## Changes -/

/-- One watcher event, reduced to what the snapshot needs. -/
inductive Change where
  | init (kind : String)
  | upsert (kind : String) (ref : ObjectRef) (doc : Option Value) (initial : Bool)
  | delete (kind : String) (ref : ObjectRef)
  | initDone (kind : String)

inductive Event where
  | init
  | initApply (obj : DynamicObject)
  | apply (obj : DynamicObject)
  | delete (obj : DynamicObject)
  | initDone

def changeOf (kind : Kind) : Event → Change
  | .init => .init kind.name
  | .initApply o => .upsert kind.name (objectRef o) (project kind o) true
  | .apply o => .upsert kind.name (objectRef o) (project kind o) false
  | .delete o => .delete kind.name (objectRef o)
  | .initDone => .initDone kind.name

/-! ## The state they are folded into -/

structure State where
  snapshot : Snapshot := {}
  /-- Objects known per kind, to delete what a relist no longer returns. -/
  known : TreeMap String (TreeSet ObjectRef ObjectRef.cmp) := ∅
  /-- Objects of a relist in progress, applied together at its end. -/
  pending : TreeMap String (List (ObjectRef × Option Value)) := ∅
  synced : TreeSet String := ∅
  publish : Option ObjectRef := none
  /-- Addresses of the published Service. -/
  addresses : List String := []

/-- `status.loadBalancer.ingress[*].ip`, or else `.hostname`. -/
def addressesOf (service : Value) : List String :=
  let ingress := ((service.get "status").bind (·.get "loadBalancer")).bind (·.get "ingress")
  ((ingress.bind Value.asArray).getD []).filterMap fun i =>
    (i.get "ip" <|> i.get "hostname").bind Value.asStr

/-- The known objects without one. -/
def forget (known : TreeMap String (TreeSet ObjectRef ObjectRef.cmp)) (kind : String)
    (r : ObjectRef) : TreeMap String (TreeSet ObjectRef ObjectRef.cmp) :=
  match known[kind]? with
  | some refs => known.insert kind (refs.erase r)
  | none => known

namespace State

def knows (s : State) (kind : String) (r : ObjectRef) : Bool :=
  s.known[kind]?.any (·.contains r)

def drop (s : State) (kind : String) (r : ObjectRef) : State × Bool :=
  let addresses := if kind = "Service" ∧ s.publish = some r then [] else s.addresses
  let (snapshot, removed) := s.snapshot.remove kind r
  ({ s with addresses, known := forget s.known kind r, snapshot }, removed || s.knows kind r)

def put (schema : Schema) (s : State) (kind : String) (r : ObjectRef) (doc : Option Value) :
    State × Bool :=
  let s := if kind = "Service" ∧ s.publish = some r then
      { s with addresses := (doc.map addressesOf).getD [] }
    else s
  match doc with
  | none => s.drop kind r
  | some doc =>
    match s.snapshot.insertJson schema doc with
    | .ok snapshot =>
      ({ s with snapshot, known := s.known.insert kind ((s.known.getD kind ∅).insert r) }, true)
    | .error _ => s.drop kind r

/-- One more change to a state, with whether anything changed so far. -/
def also (f : State → State × Bool) (acc : State × Bool) : State × Bool :=
  ((f acc.1).1, acc.2 || (f acc.1).2)

/-- The known objects that a relist did not return. -/
def stale (s : State) (kind : String) (items : List (ObjectRef × Option Value)) : List ObjectRef :=
  let fresh : TreeSet ObjectRef ObjectRef.cmp := .ofList (items.map (·.1)) _
  (s.known.getD kind ∅).toList.filter fun r => !fresh.contains r

/-- The state after a change, and whether the snapshot or the addresses changed. -/
def apply (schema : Schema) (s : State) : Change → State × Bool
  | .init kind => ({ s with pending := s.pending.insert kind [] }, false)
  | .upsert kind r doc true =>
    ({ s with pending := s.pending.insert kind (s.pending.getD kind [] ++ [(r, doc)]) }, false)
  | .upsert kind r doc false => s.put schema kind r doc
  | .delete kind r => s.drop kind r
  | .initDone kind =>
    let items := s.pending.getD kind []
    let acc := (s.stale kind items).foldl (fun acc r => also (·.drop kind r) acc)
      ({ s with pending := s.pending.erase kind }, false)
    let acc := items.foldl (fun acc item => also (·.put schema kind item.1 item.2) acc) acc
    ({ acc.1 with synced := acc.1.synced.insert kind }, acc.2 || !acc.1.synced.contains kind)

def new (publish : Option ObjectRef) : State := { publish }

def run (schema : Schema) (publish : Option ObjectRef) (changes : List Change) : State :=
  changes.foldl (fun s c => (s.apply schema c).1) (new publish)

end State

end Gapura.Source.Watch
