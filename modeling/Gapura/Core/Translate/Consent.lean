import Gapura.Core.Status

/-! # Who may refer to what

A reference into another namespace needs a ReferenceGrant there; a listener
admits routes by namespace and by kind. -/
namespace Gapura.Core.Translate
open Input
open Std (TreeMap)

def gatewayGroup : String := "gateway.networking.k8s.io"

/-- What a grant lets in: the group, kind and namespace of the referring object. -/
structure Referrer where
  group : String
  kind : String
  «namespace» : String

/-- What is referred to. -/
structure Referent where
  group : String
  kind : String
  «namespace» : String
  name : String

def grants (g : ReferenceGrant) (source : Referrer) (dest : Referent) : Bool :=
  (g.from.any fun f =>
    f.group == source.group && f.kind == source.kind && f.namespace == source.namespace) &&
  g.to.any fun t =>
    t.group == dest.group && t.kind == dest.kind && t.name.all (· == dest.name)

/-- A ReferenceGrant in the namespace referred to lets the reference through. -/
def permits (snap : Snapshot) (source : Referrer) (dest : Referent) : Bool :=
  snap.referenceGrants.values.any fun g =>
    g.metadata.namespace == some dest.namespace && grants g source dest

def expressionMatches (e : LabelSelectorRequirement) (labels : TreeMap String String) : Bool :=
  match e.operator with
  | "In" => labels[e.key]?.any fun v => e.values.contains v
  | "NotIn" => labels[e.key]?.all fun v => !e.values.contains v
  | "Exists" => labels.contains e.key
  | "DoesNotExist" => !labels.contains e.key
  | _ => false

def selectorMatches (sel : LabelSelector) (labels : TreeMap String String) : Bool :=
  (sel.matchLabels.toList.all fun kv => labels[kv.1]? == some kv.2) &&
  sel.matchExpressions.all fun e => expressionMatches e labels

/-- `from: Same`, the default, `All`, or `Selector` over the labels of the
route's Namespace object. -/
def namespaceOk (allowed : Option AllowedRoutes) (gatewayNamespace : String) (route : ObjectRef)
    (snap : Snapshot) : Bool :=
  let namespaces := allowed.bind (·.namespaces)
  match (namespaces.bind (·.from)).getD "Same" with
  | "All" => true
  | "Same" => route.namespace == gatewayNamespace
  | "Selector" =>
    match namespaces.bind (·.selector), snap.namespaces[route.namespace]? with
    | some selector, some ns => selectorMatches selector ns.metadata.labels
    | _, _ => false
  | _ => false

/-- HTTPRoute is admitted unless `kinds` is set and does not list it. -/
def kindOk (allowed : Option AllowedRoutes) : Bool :=
  match allowed.map (·.kinds) with
  | none | some [] => true
  | some kinds => kinds.any fun k => k.kind == "HTTPRoute" && k.group.all (· == gatewayGroup)

/-- A namespace or a name the API server accepts has no slash. -/
def Slashless (s : String) : Prop := '/' ∉ s.toList

instance (s : String) : Decidable (Slashless s) := inferInstanceAs (Decidable (_ ∉ _))

/-- The namespaces of the objects have no slash. -/
def PlainNamespaces {α : Type} (m : ObjectMap α) : Prop := ∀ ref ∈ m.keys, Slashless ref.namespace

instance {α : Type} (m : ObjectMap α) : Decidable (PlainNamespaces m) :=
  inferInstanceAs (Decidable (∀ ref ∈ m.keys, Slashless ref.namespace))

variable {ref : ObjectRef} {α : Type}

variable {m : ObjectMap α}

theorem PlainNamespaces.slashless (h : PlainNamespaces m) {a : α} (ha : m[ref]? = some a) :
    Slashless ref.namespace := by
  refine h ref (TreeMap.mem_keys.mpr ?_)
  rw [TreeMap.mem_iff_isSome_getElem?, ha]
  rfl

/-- Neither have their names. -/
def PlainRefs {α : Type} (m : ObjectMap α) : Prop :=
  ∀ ref ∈ m.keys, Slashless ref.namespace ∧ Slashless ref.name

instance {α : Type} (m : ObjectMap α) : Decidable (PlainRefs m) :=
  inferInstanceAs (Decidable (∀ ref ∈ m.keys, Slashless ref.namespace ∧ Slashless ref.name))

theorem PlainRefs.slashless (h : PlainRefs m) {a : α}
    (ha : m[ref]? = some a) : Slashless ref.namespace ∧ Slashless ref.name := by
  refine h ref (TreeMap.mem_keys.mpr ?_)
  rw [TreeMap.mem_iff_isSome_getElem?, ha]
  rfl

end Gapura.Core.Translate
