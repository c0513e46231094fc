import Gapura.Core.Matcher

/-! # What translation reads

The part of the Kubernetes and Gateway API schemas that translation reads, with
the defaults of an absent field, and the snapshot of every watched object.
Objects are keyed by namespace and name, so a walk over them has one order. -/
namespace Gapura.Core.Input
open Std (TreeMap TransCmp LawfulEqCmp)
open ClientIp (IpAddr)

structure ObjectMeta where
  name : String := ""
  «namespace» : Option String := none
  generation : Option Int := none
  uid : Option String := none
  /-- RFC 3339 text. -/
  creationTimestamp : Option String := none
  labels : TreeMap String String := ∅
  annotations : TreeMap String String := ∅

/-! ## Gateways -/

structure GatewayClass where
  metadata : ObjectMeta := {}
  controllerName : String := ""

structure LocalObjectReference where
  group : Option String := none
  kind : String := ""
  name : String := ""

/-- One entry of `spec.addresses`. -/
structure GatewaySpecAddress where
  /-- `IPAddress` when absent. -/
  type : Option String := none
  value : String := ""

structure SecretObjectReference where
  group : Option String := none
  kind : Option String := none
  name : String := ""
  «namespace» : Option String := none

structure ListenerTls where
  mode : Option String := none
  certificateRefs : List SecretObjectReference := []

structure LabelSelectorRequirement where
  key : String := ""
  operator : String := ""
  values : List String := []

structure LabelSelector where
  matchLabels : TreeMap String String := ∅
  matchExpressions : List LabelSelectorRequirement := []

structure RouteNamespaces where
  /-- `Same` when absent, `All` or `Selector`. -/
  «from» : Option String := none
  selector : Option LabelSelector := none

structure RouteGroupKind where
  group : Option String := none
  kind : String := ""
  deriving DecidableEq, Repr

structure AllowedRoutes where
  namespaces : Option RouteNamespaces := none
  kinds : List RouteGroupKind := []

structure Listener where
  name : String := ""
  hostname : Option String := none
  port : Nat := 0
  protocol : String := ""
  tls : Option ListenerTls := none
  allowedRoutes : Option AllowedRoutes := none

structure Gateway where
  metadata : ObjectMeta := {}
  gatewayClassName : String := ""
  listeners : List Listener := []
  /-- `spec.infrastructure.parametersRef`. -/
  parametersRef : Option LocalObjectReference := none
  addresses : List GatewaySpecAddress := []

/-! ## Routes -/

structure ParentReference where
  group : Option String := none
  kind : Option String := none
  «namespace» : Option String := none
  name : String := ""
  sectionName : Option String := none
  port : Option Nat := none
  deriving DecidableEq, Repr

structure HttpPathMatch where
  /-- `Exact`, `PathPrefix` when absent, or `RegularExpression`. -/
  type : Option String := none
  value : Option String := none

/-- A header match or a query parameter match. -/
structure HttpValueMatch where
  type : Option String := none
  name : String := ""
  value : String := ""

structure HttpRouteMatch where
  path : Option HttpPathMatch := none
  headers : List HttpValueMatch := []
  queryParams : List HttpValueMatch := []
  method : Option String := none

structure HttpHeader where
  name : String := ""
  value : String := ""

structure HeaderModifier where
  set : List HttpHeader := []
  add : List HttpHeader := []
  remove : List String := []

structure PathModifier where
  /-- `ReplaceFullPath` or `ReplacePrefixMatch`. -/
  type : String := ""
  replaceFullPath : Option String := none
  replacePrefixMatch : Option String := none

structure RequestRedirect where
  scheme : Option String := none
  hostname : Option String := none
  path : Option PathModifier := none
  port : Option Nat := none
  statusCode : Option Nat := none

structure UrlRewrite where
  hostname : Option String := none
  path : Option PathModifier := none

structure HttpBackendRef where
  group : Option String := none
  kind : Option String := none
  name : String := ""
  «namespace» : Option String := none
  port : Option Nat := none
  weight : Option Int := none
  /-- The types of the per-backend filters; nothing else of one is read. -/
  filters : List String := []

structure Fraction where
  numerator : Int := 0
  /-- `100` when absent. -/
  denominator : Option Int := none

structure HttpRequestMirrorFilter where
  backendRef : HttpBackendRef := {}
  percent : Option Int := none
  fraction : Option Fraction := none

structure HttpRouteFilter where
  type : String := ""
  requestHeaderModifier : Option HeaderModifier := none
  responseHeaderModifier : Option HeaderModifier := none
  requestRedirect : Option RequestRedirect := none
  urlRewrite : Option UrlRewrite := none
  requestMirror : Option HttpRequestMirrorFilter := none

structure HttpRouteTimeouts where
  request : Option String := none
  backendRequest : Option String := none

structure HttpRouteRule where
  «matches» : List HttpRouteMatch := []
  filters : List HttpRouteFilter := []
  backendRefs : List HttpBackendRef := []
  timeouts : Option HttpRouteTimeouts := none

structure HttpRoute where
  metadata : ObjectMeta := {}
  parentRefs : List ParentReference := []
  hostnames : List String := []
  rules : List HttpRouteRule := []
  /-- The controllers that hold an entry in `status.parents`. -/
  statusParents : List String := []

/-! ## Grants, Services and Secrets -/

structure ReferenceGrantFrom where
  group : String := ""
  kind : String := ""
  «namespace» : String := ""

structure ReferenceGrantTo where
  group : String := ""
  kind : String := ""
  name : Option String := none

structure ReferenceGrant where
  metadata : ObjectMeta := {}
  «from» : List ReferenceGrantFrom := []
  «to» : List ReferenceGrantTo := []

structure Namespace where
  metadata : ObjectMeta := {}

structure ServicePort where
  name : Option String := none
  port : Nat := 0

structure Service where
  metadata : ObjectMeta := {}
  ports : List ServicePort := []

structure SliceEndpoint where
  addresses : List String := []
  /-- `conditions.ready`; absent means ready. -/
  ready : Option Bool := none

structure SlicePort where
  name : Option String := none
  port : Option Nat := none

structure EndpointSlice where
  metadata : ObjectMeta := {}
  addressType : Option String := none
  endpoints : List SliceEndpoint := []
  ports : List SlicePort := []

structure Secret where
  metadata : ObjectMeta := {}
  type : Option String := none
  /-- Base64, as the API server stores it. -/
  data : TreeMap String String := ∅

structure PolicyTargetRef where
  group : Option String := none
  kind : String := ""
  name : String := ""
  /-- A Service port's name. -/
  sectionName : Option String := none

structure BackendTlsValidation where
  caCertificateRefs : List LocalObjectReference := []
  wellKnownCaCertificates : Option String := none
  hostname : String := ""

structure BackendTlsPolicy where
  metadata : ObjectMeta := {}
  targetRefs : List PolicyTargetRef := []
  validation : BackendTlsValidation := {}

structure ConfigMap where
  metadata : ObjectMeta := {}
  data : TreeMap String String := ∅

/-! ## The snapshot -/

/-- `namespace/name`. -/
structure ObjectRef where
  «namespace» : String
  name : String
  deriving DecidableEq, Repr

def ObjectRef.cmp : ObjectRef → ObjectRef → Ordering :=
  compareLex (compareOn ObjectRef.namespace) (compareOn ObjectRef.name)

instance : TransCmp ObjectRef.cmp :=
  inferInstanceAs (TransCmp (compareLex (compareOn ObjectRef.namespace) (compareOn ObjectRef.name)))

instance : LawfulEqCmp ObjectRef.cmp where
  eq_of_compare {a b} h := by
    obtain ⟨hns, hname⟩ := Ordering.then_eq_eq.mp h
    cases a
    cases b
    simp only [compareOn, LawfulEqCmp.compare_eq_iff_eq] at hns hname
    rw [hns, hname]

def ObjectRef.text (r : ObjectRef) : String := r.namespace ++ "/" ++ r.name

abbrev ObjectMap (α : Type) := TreeMap ObjectRef α ObjectRef.cmp

structure Snapshot where
  gatewayClasses : TreeMap String GatewayClass := ∅
  gateways : ObjectMap Gateway := ∅
  httpRoutes : ObjectMap HttpRoute := ∅
  referenceGrants : ObjectMap ReferenceGrant := ∅
  namespaces : TreeMap String Namespace := ∅
  services : ObjectMap Service := ∅
  endpointSlices : ObjectMap EndpointSlice := ∅
  secrets : ObjectMap Secret := ∅
  backendTlsPolicies : ObjectMap BackendTlsPolicy := ∅
  configMaps : ObjectMap ConfigMap := ∅

structure Settings where
  controllerName : String := "gapura.dev/controller"
  httpPorts : List Nat := [80]
  httpsPorts : List Nat := [443]
  gatewayAddresses : List String := []
  /-- Addresses of one Gateway, by `namespace/name`. -/
  gatewayAddressOverrides : TreeMap String (List String) := ∅

/-- What translation takes from other libraries. -/
structure Env where
  regex : Matcher.RegexCrate
  /-- The text of the error a pattern is refused with. -/
  regexError : String → String
  decodeBase64 : String → Option (List UInt8)
  /-- A string as its debug output quotes it. -/
  debug : String → String
  parseIp : String → Option IpAddr

/-- Libraries that refuse everything they are asked. -/
def bareEnv : Env :=
  { regex := Matcher.noRegex
    regexError := fun _ => ""
    decodeBase64 := fun _ => none
    debug := fun s => s
    parseIp := fun _ => none }

/-- A list as its debug output writes it. -/
def debugList {α : Type} (text : α → String) (l : List α) : String :=
  "[" ++ ", ".intercalate (l.map text) ++ "]"

end Gapura.Core.Input
