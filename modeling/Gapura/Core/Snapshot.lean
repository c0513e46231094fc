import Gapura.Core.Input
import Gapura.Lib.Json

/-! # The snapshot, object by object

A watched object enters the snapshot as a JSON document: its `kind` picks the
schema it is read by and the map it goes to, its own metadata the key. It leaves
by a kind and a reference. Whatever the ten maps, one lookup by kind and
reference sees all of it. -/
namespace Gapura.Core.Input
open Std (TreeMap TransCmp LawfulEqCmp)
open Lib.Json

/-! ## Objects -/

inductive Kind where
  | gatewayClass
  | gateway
  | httpRoute
  | referenceGrant
  | backendTlsPolicy
  | «namespace»
  | service
  | endpointSlice
  | secret
  | configMap
  deriving DecidableEq, Repr

namespace Kind

def name : Kind → String
  | .gatewayClass => "GatewayClass"
  | .gateway => "Gateway"
  | .httpRoute => "HTTPRoute"
  | .referenceGrant => "ReferenceGrant"
  | .backendTlsPolicy => "BackendTLSPolicy"
  | .namespace => "Namespace"
  | .service => "Service"
  | .endpointSlice => "EndpointSlice"
  | .secret => "Secret"
  | .configMap => "ConfigMap"

def named : String → Option Kind
  | "GatewayClass" => some .gatewayClass
  | "Gateway" => some .gateway
  | "HTTPRoute" => some .httpRoute
  | "ReferenceGrant" => some .referenceGrant
  | "BackendTLSPolicy" => some .backendTlsPolicy
  | "Namespace" => some .namespace
  | "Service" => some .service
  | "EndpointSlice" => some .endpointSlice
  | "Secret" => some .secret
  | "ConfigMap" => some .configMap
  | _ => none

/-- Kinds whose objects have a name only. -/
def clusterScoped : Kind → Bool
  | .gatewayClass | .namespace => true
  | _ => false

@[simp] theorem named_name (k : Kind) : named k.name = some k := by
  cases k <;> rfl

theorem name_of_named {text : String} {k : Kind} (h : named text = some k) : k.name = text := by
  unfold named at h
  split at h
  case h_11 => cases h
  all_goals
    cases h
    rfl

theorem name_inj {k k' : Kind} (h : k.name = k'.name) : k = k' := by
  have := named_name k
  rw [h, named_name] at this
  exact (Option.some.inj this).symm

end Kind

inductive Object where
  | gatewayClass (object : GatewayClass)
  | gateway (object : Gateway)
  | httpRoute (object : HttpRoute)
  | referenceGrant (object : ReferenceGrant)
  | backendTlsPolicy (object : BackendTlsPolicy)
  | «namespace» (object : Namespace)
  | service (object : Service)
  | endpointSlice (object : EndpointSlice)
  | secret (object : Secret)
  | configMap (object : ConfigMap)

def ObjectRef.of (m : ObjectMeta) : ObjectRef := ⟨m.namespace.getD "", m.name⟩

namespace Object

def kind : Object → Kind
  | .gatewayClass _ => .gatewayClass
  | .gateway _ => .gateway
  | .httpRoute _ => .httpRoute
  | .referenceGrant _ => .referenceGrant
  | .backendTlsPolicy _ => .backendTlsPolicy
  | .namespace _ => .namespace
  | .service _ => .service
  | .endpointSlice _ => .endpointSlice
  | .secret _ => .secret
  | .configMap _ => .configMap

def metadata : Object → ObjectMeta
  | .gatewayClass o => o.metadata
  | .gateway o => o.metadata
  | .httpRoute o => o.metadata
  | .referenceGrant o => o.metadata
  | .backendTlsPolicy o => o.metadata
  | .namespace o => o.metadata
  | .service o => o.metadata
  | .endpointSlice o => o.metadata
  | .secret o => o.metadata
  | .configMap o => o.metadata

def ref (o : Object) : ObjectRef := .of o.metadata

end Object

/-! ## In and out -/

/-- How the JSON library reads a document as an object of a kind. Only what a
snapshot's keys depend on is asked of it: the kind read is the one asked for, and
the name and namespace are those of the document's `metadata`. -/
structure Schema where
  decode : Kind → Value → Except String Object
  kind_eq : ∀ {k doc o}, decode k doc = .ok o → o.kind = k
  ref_eq : ∀ {k doc o fields}, decode k doc = .ok o →
    doc.get "metadata" = some (.object fields) →
    o.ref = ⟨((fields.lookup "namespace").bind Value.asStr).getD "",
      ((fields.lookup "name").bind Value.asStr).getD ""⟩

/-- The object of a kind that has its metadata only. -/
def Object.bare (k : Kind) (metadata : ObjectMeta) : Object :=
  match k with
  | .gatewayClass => .gatewayClass { metadata }
  | .gateway => .gateway { metadata }
  | .httpRoute => .httpRoute { metadata }
  | .referenceGrant => .referenceGrant { metadata }
  | .backendTlsPolicy => .backendTlsPolicy { metadata }
  | .namespace => .namespace { metadata }
  | .service => .service { metadata }
  | .endpointSlice => .endpointSlice { metadata }
  | .secret => .secret { metadata }
  | .configMap => .configMap { metadata }

/-- A schema that reads the metadata, which it insists on, and nothing else. -/
def bareSchema : Schema where
  decode k doc :=
    match doc.get "metadata" with
    | some (.object fields) => .ok (.bare k
        { name := ((fields.lookup "name").bind Value.asStr).getD ""
          «namespace» := (fields.lookup "namespace").bind Value.asStr })
    | _ => .error "missing field `metadata`"
  kind_eq := by
    intro k doc o h
    split at h
    · cases h
      cases k <;> rfl
    · cases h
  ref_eq := by
    intro k doc o fields h hmeta
    simp only [hmeta] at h
    cases h
    cases k <;> rfl

inductive SnapshotError where
  | missingKind
  | unsupportedKind (kind : String)
  | invalid (kind : String) (source : String)
  deriving DecidableEq, Repr

def SnapshotError.text : SnapshotError → String
  | .missingKind => "document has no `kind` field"
  | .unsupportedKind kind => s!"unsupported kind `{kind}`"
  | .invalid kind source => s!"invalid {kind}: {source}"

namespace Snapshot

def put (snap : Snapshot) : Object → Snapshot
  | .gatewayClass o =>
    { snap with gatewayClasses := snap.gatewayClasses.insert o.metadata.name o }
  | .gateway o => { snap with gateways := snap.gateways.insert (.of o.metadata) o }
  | .httpRoute o => { snap with httpRoutes := snap.httpRoutes.insert (.of o.metadata) o }
  | .referenceGrant o =>
    { snap with referenceGrants := snap.referenceGrants.insert (.of o.metadata) o }
  | .backendTlsPolicy o =>
    { snap with backendTlsPolicies := snap.backendTlsPolicies.insert (.of o.metadata) o }
  | .namespace o => { snap with namespaces := snap.namespaces.insert o.metadata.name o }
  | .service o => { snap with services := snap.services.insert (.of o.metadata) o }
  | .endpointSlice o =>
    { snap with endpointSlices := snap.endpointSlices.insert (.of o.metadata) o }
  | .secret o => { snap with secrets := snap.secrets.insert (.of o.metadata) o }
  | .configMap o => { snap with configMaps := snap.configMaps.insert (.of o.metadata) o }

/-- Insert or replace one object given as JSON. -/
def insertJson (schema : Schema) (snap : Snapshot) (doc : Value) :
    Except SnapshotError Snapshot := do
  let some kind := (doc.get "kind").bind Value.asStr | throw .missingKind
  let some k := Kind.named kind | throw (.unsupportedKind kind)
  match schema.decode k doc with
  | .ok o => return snap.put o
  | .error source => throw (.invalid kind source)

/-- Remove an object, and whether something was removed. -/
def remove (snap : Snapshot) (kind : String) (r : ObjectRef) : Snapshot × Bool :=
  match Kind.named kind with
  | some .gatewayClass =>
    ({ snap with gatewayClasses := snap.gatewayClasses.erase r.name },
      snap.gatewayClasses.contains r.name)
  | some .gateway => ({ snap with gateways := snap.gateways.erase r }, snap.gateways.contains r)
  | some .httpRoute =>
    ({ snap with httpRoutes := snap.httpRoutes.erase r }, snap.httpRoutes.contains r)
  | some .referenceGrant =>
    ({ snap with referenceGrants := snap.referenceGrants.erase r }, snap.referenceGrants.contains r)
  | some .backendTlsPolicy =>
    ({ snap with backendTlsPolicies := snap.backendTlsPolicies.erase r },
      snap.backendTlsPolicies.contains r)
  | some .namespace =>
    ({ snap with namespaces := snap.namespaces.erase r.name }, snap.namespaces.contains r.name)
  | some .service => ({ snap with services := snap.services.erase r }, snap.services.contains r)
  | some .endpointSlice =>
    ({ snap with endpointSlices := snap.endpointSlices.erase r }, snap.endpointSlices.contains r)
  | some .secret => ({ snap with secrets := snap.secrets.erase r }, snap.secrets.contains r)
  | some .configMap =>
    ({ snap with configMaps := snap.configMaps.erase r }, snap.configMaps.contains r)
  | none => (snap, false)

/-! ## One lookup over the ten maps -/

/-- The object of a kind that a reference names. One of a kind without namespaces
is named by a reference whose namespace is empty. -/
def find (snap : Snapshot) (k : Kind) (r : ObjectRef) : Option Object :=
  match k with
  | .gatewayClass =>
    if r.namespace = "" then snap.gatewayClasses[r.name]?.map .gatewayClass else none
  | .gateway => snap.gateways[r]?.map .gateway
  | .httpRoute => snap.httpRoutes[r]?.map .httpRoute
  | .referenceGrant => snap.referenceGrants[r]?.map .referenceGrant
  | .backendTlsPolicy => snap.backendTlsPolicies[r]?.map .backendTlsPolicy
  | .namespace => if r.namespace = "" then snap.namespaces[r.name]?.map .namespace else none
  | .service => snap.services[r]?.map .service
  | .endpointSlice => snap.endpointSlices[r]?.map .endpointSlice
  | .secret => snap.secrets[r]?.map .secret
  | .configMap => snap.configMaps[r]?.map .configMap

end Snapshot

/-- References of a kind without namespaces have an empty one. -/
def Scoped (k : Kind) (r : ObjectRef) : Prop := k.clusterScoped = true → r.namespace = ""

section Maps
variable {α κ : Type} {cmp : κ → κ → Ordering} [TransCmp cmp] [LawfulEqCmp cmp] [DecidableEq κ]

variable (m : TreeMap κ α cmp)

variable (key : κ)

theorem map_getElem?_insert (a : α) (wrap : α → Object) (key' : κ) :
    (m.insert key a)[key']?.map wrap = if key = key' then some (wrap a) else m[key']?.map wrap := by
  simp only [TreeMap.getElem?_insert, LawfulEqCmp.compare_eq_iff_eq]
  split <;> rfl

theorem map_getElem?_erase (wrap : α → Object) (key' : κ) :
    (m.erase key)[key']?.map wrap = if key = key' then none else m[key']?.map wrap := by
  simp only [TreeMap.getElem?_erase, LawfulEqCmp.compare_eq_iff_eq]
  split <;> rfl

end Maps

namespace Snapshot

theorem ref_eq_iff {r r' : ObjectRef} (hr : r.namespace = "") (hr' : r'.namespace = "") :
    r = r' ↔ r.name = r'.name := by
  cases r
  cases r'
  simp_all

variable {snap : Snapshot}

theorem find_put {o : Object} (hscoped : Scoped o.kind o.ref) (k : Kind) (r : ObjectRef) :
    (snap.put o).find k r = if o.kind = k ∧ o.ref = r then some o else snap.find k r := by
  by_cases hk : o.kind = k
  · subst hk
    simp only [true_and]
    cases o with
    | gatewayClass o | «namespace» o =>
      have hns : (ObjectRef.of o.metadata).namespace = "" := hscoped rfl
      by_cases hr : r.namespace = ""
      · have hname : (ObjectRef.of o.metadata).name = o.metadata.name := rfl
        simp only [put, find, Object.kind, Object.ref, Object.metadata, if_pos hr,
          map_getElem?_insert, ref_eq_iff hns hr, hname]
      · have hne : ObjectRef.of o.metadata ≠ r := fun he => hr (he ▸ hns)
        simp only [find, Object.kind, Object.ref, Object.metadata, if_neg hr, if_neg hne]
    | gateway | httpRoute | referenceGrant | backendTlsPolicy | service | endpointSlice | secret
      | configMap =>
      exact map_getElem?_insert _ _ _ _ _
  · rw [if_neg fun h => hk h.1]
    cases o <;> cases k <;> first | rfl | exact absurd rfl hk

theorem find_remove {k : Kind} {r : ObjectRef} (hscoped : Scoped k r) (k' : Kind) (r' : ObjectRef) :
    (snap.remove k.name r).1.find k' r' = if k = k' ∧ r = r' then none else snap.find k' r' := by
  unfold remove
  rw [Kind.named_name]
  by_cases hk : k = k'
  · subst hk
    simp only [true_and]
    cases k with
    | gatewayClass | «namespace» =>
      have hns : r.namespace = "" := hscoped rfl
      by_cases hr : r'.namespace = ""
      · simp only [find, if_pos hr, map_getElem?_erase, ref_eq_iff hns hr]
      · have hne : r ≠ r' := fun he => hr (he ▸ hns)
        simp only [find, if_neg hr, if_neg hne]
    | gateway | httpRoute | referenceGrant | backendTlsPolicy | service | endpointSlice | secret
      | configMap =>
      exact map_getElem?_erase _ _ _ _
  · rw [if_neg fun h => hk h.1]
    cases k <;> cases k' <;> first | rfl | exact absurd rfl hk

theorem remove_of_unnamed {kind : String} (h : Kind.named kind = none)
    (r : ObjectRef) : snap.remove kind r = (snap, false) := by
  rw [remove, h]

end Snapshot

/-! ## What a document stands for -/

/-- The object a document is accepted as. -/
def accepted (schema : Schema) (doc : Value) : Option Object :=
  (((doc.get "kind").bind Value.asStr).bind Kind.named).bind fun k => (schema.decode k doc).toOption

theorem insertJson_cases (schema : Schema) (snap : Snapshot) (doc : Value) :
    (∃ o, accepted schema doc = some o ∧ snap.insertJson schema doc = .ok (snap.put o)) ∨
      (accepted schema doc = none ∧ ∃ e, snap.insertJson schema doc = .error e) := by
  unfold accepted Snapshot.insertJson
  cases (doc.get "kind").bind Value.asStr with
  | none => exact .inr ⟨rfl, _, rfl⟩
  | some kind =>
    simp only [Option.bind_some]
    cases Kind.named kind with
    | none => exact .inr ⟨rfl, _, rfl⟩
    | some k =>
      simp only [Option.bind_some]
      cases schema.decode k doc with
      | error source => exact .inr ⟨rfl, _, rfl⟩
      | ok o => exact .inl ⟨o, rfl, rfl⟩

end Gapura.Core.Input
