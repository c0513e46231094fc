import Gapura.Core.Translate.Consent
import Gapura.Lib.Checks
import Gapura.Lib.Keys

/-! # From a backend reference to a cluster

A reference resolves to the key of a cluster built from the Service and its
EndpointSlices. All routes share one table: the first reference to a key builds
the cluster, the later ones find it. The key is the text `namespace/name:port`,
so it tells Services apart as far as their namespaces have no slash. -/
namespace Gapura.Core.Translate
open Lib.Text Lib.Keys Input Status
open Lib.Ordered (sortBy)
open Std (TreeMap)

/-! ## TLS to the backend -/

def annotation : String := "gapura.dev/backend-tls"

/-- What decides between two policies for one port: a `sectionName` that names
it, then the older policy, then the smaller name. -/
structure Rank where
  specific : Bool
  created : String
  name : String

def Rank.outranks (a b : Rank) : Bool :=
  ((compare a.specific b.specific).then
    ((compare b.created a.created).then (compare b.name a.name))) == .gt

/-- The rank of a policy through one of its targets, if that is this port. -/
def targetRank (svcRef : ObjectRef) (portName : Option String) (pref : ObjectRef)
    (policy : BackendTlsPolicy) (target : PolicyTargetRef) : Option Rank :=
  let rank := fun specific : Bool =>
    some { specific, created := policy.metadata.creationTimestamp.getD "", name := pref.name }
  if target.group.getD "" != "" || target.kind != "Service" || target.name != svcRef.name then none
  else match target.sectionName with
    | none => rank false
    | some s => if s == portName.getD "" then rank true else none

def selectPolicy (svcRef : ObjectRef) (portName : Option String) (snap : Snapshot) :
    Option (ObjectRef × BackendTlsPolicy) :=
  let better := fun (best : Option (Rank × ObjectRef × BackendTlsPolicy)) pref policy target =>
    match targetRank svcRef portName pref policy target with
    | some rank => if best.all fun b => rank.outranks b.1 then some (rank, pref, policy) else best
    | none => best
  (snap.backendTlsPolicies.toList.foldl (fun best p =>
    if p.1.namespace != svcRef.namespace then best
    else p.2.targetRefs.foldl (fun best target => better best p.1 p.2 target) best) none).map (·.2)

/-- One ConfigMap of a CA bundle, ended by a newline. -/
def caCertificate (pref : ObjectRef) (snap : Snapshot) (r : LocalObjectReference) :
    Except Rejection String :=
  let policy := "BackendTLSPolicy " ++ pref.text ++ ": "
  let group := r.group.getD ""
  if group != "" || r.kind != "ConfigMap" then
    .error ⟨.invalidKind, policy ++ "caCertificateRefs kind " ++ group ++ "/" ++ r.kind ++
      " is not supported, only core ConfigMap"⟩
  else
    let cref : ObjectRef := ⟨pref.namespace, r.name⟩
    match snap.configMaps[cref]? with
    | none => .error ⟨.backendNotFound, policy ++ "ConfigMap " ++ cref.text ++ " not found"⟩
    | some cm => match cm.data["ca.crt"]? with
      | none =>
        .error ⟨.unsupportedValue, policy ++ "ConfigMap " ++ cref.text ++ " has no ca.crt key"⟩
      | some ca =>
        if (splitOnce "-----BEGIN CERTIFICATE-----" ca).isNone then
          .error ⟨.unsupportedValue, policy ++ "ConfigMap " ++ cref.text ++
            " ca.crt is not a PEM certificate bundle"⟩
        else .ok (String.ofList (ca.toList.rdropWhile isWhiteSpace) ++ "\n")

/-- The bundle of `caCertificateRefs`, or none for the system's own. -/
def caBundle (pref : ObjectRef) (policy : BackendTlsPolicy) (snap : Snapshot) :
    Except Rejection (Option String) :=
  let v := policy.validation
  let refuse := fun why =>
    .error ⟨.unsupportedValue, "BackendTLSPolicy " ++ pref.text ++ ": " ++ why⟩
  match v.caCertificateRefs.isEmpty, v.wellKnownCaCertificates with
  | true, some "System" => .ok none
  | true, some other =>
    refuse ("wellKnownCACertificates " ++ other ++ " is not supported, use System")
  | true, none => refuse "set caCertificateRefs or wellKnownCACertificates"
  | false, some _ =>
    refuse "caCertificateRefs and wellKnownCACertificates are mutually exclusive"
  | false, none => do
    let pems ← v.caCertificateRefs.mapM (caCertificate pref snap)
    return some (String.join pems)

/-- How a Service port is dialled, `none` for plain HTTP. -/
def backendTls (svcRef : ObjectRef) (svc : Service) (portName : Option String)
    (snap : Snapshot) : Except Rejection (Option ClusterTls) := do
  let insecure ← match svc.metadata.annotations[ annotation]? with
    | none => .ok false
    | some "insecure" => .ok true
    | some other =>
      .error ⟨.unsupportedValue, "Service " ++ svcRef.text ++ ": annotation " ++ annotation ++ "=" ++
        other ++ " is not supported, use \x60insecure\x60"⟩
  match selectPolicy svcRef portName snap with
  | none =>
    if insecure then
      return some { sni := svcRef.name ++ "." ++ svcRef.namespace ++ ".svc", caPem := none, insecure }
    else return none
  | some (pref, policy) =>
    let hostname := policy.validation.hostname
    if hostname.isEmpty then
      .error ⟨.unsupportedValue,
        "BackendTLSPolicy " ++ pref.text ++ ": validation.hostname is required"⟩
    else
      let caPem ← if insecure then .ok none else caBundle pref policy snap
      return some { sni := hostname, caPem, insecure }

/-! ## Clusters -/

/-- A slice of the Service that lists addresses. -/
def sliceOf (svc : ObjectRef) (slice : EndpointSlice) : Bool :=
  slice.metadata.namespace == some svc.namespace &&
  slice.metadata.labels["kubernetes.io/service-name"]? == some svc.name &&
  slice.addressType != some "FQDN"

/-- The ready addresses of a slice, at its port of the wanted name. -/
def readyEndpoints (portName : Option String) (slice : EndpointSlice) : List Endpoint :=
  match (slice.ports.find? fun p => p.name.getD "" == portName.getD "").bind (·.port) with
  | none => []
  | some port => (slice.endpoints.filter fun e => e.ready.getD true).flatMap fun e =>
    e.addresses.map fun address => { address, port }

def endpointCmp : Endpoint → Endpoint → Ordering :=
  compareLex (compareOn Endpoint.address) (compareOn Endpoint.port)

def buildCluster (portName : Option String) (svc : ObjectRef) (snap : Snapshot) : Cluster :=
  let endpoints := (snap.endpointSlices.values.filter (sliceOf svc)).flatMap
    (readyEndpoints portName)
  { endpoints := (sortBy endpointCmp endpoints).destutter (· ≠ ·), tls := none, resolve := none }

/-- The cluster of a Service port, from the snapshot alone. -/
def serviceCluster (sref : ObjectRef) (svc : Service) (svcPort : ServicePort) (snap : Snapshot) :
    Except Rejection Cluster := do
  let tls ← backendTls sref svc svcPort.name snap
  return { buildCluster svcPort.name sref snap with tls }

abbrev ClusterTable := TreeMap String Cluster

def clusterKey (sref : ObjectRef) (port : Nat) : String := sref.text ++ ":" ++ toString port

/-- The Service port a reference names, if it may. -/
def servicePort (b : HttpBackendRef) (route : ObjectRef) (snap : Snapshot) :
    Except Rejection (ObjectRef × Service × Nat × ServicePort) :=
  let group := b.group.getD ""
  let kind := b.kind.getD "Service"
  let ns := b.namespace.getD route.namespace
  let sref : ObjectRef := ⟨ns, b.name⟩
  if group != "" || kind != "Service" then
    .error ⟨.invalidKind,
      "backendRef kind " ++ group ++ "/" ++ kind ++ " is not supported, only core Service"⟩
  else if ns != route.namespace &&
      !permits snap ⟨gatewayGroup, "HTTPRoute", route.namespace⟩ ⟨"", "Service", ns, b.name⟩ then
    .error ⟨.refNotPermitted,
      "reference to Service " ++ sref.text ++ " is not permitted by any ReferenceGrant"⟩
  else match b.port with
    | none => .error ⟨.unsupportedValue, "backendRef to Service " ++ sref.text ++ " has no port"⟩
    | some port => match snap.services[sref]? with
      | none => .error ⟨.backendNotFound, "Service " ++ sref.text ++ " not found"⟩
      | some svc => match svc.ports.find? (·.port == port) with
        | none => .error ⟨.backendNotFound,
            "Service " ++ sref.text ++ " has no port " ++ toString port⟩
        | some svcPort => .ok (sref, svc, port, svcPort)

/-- Resolves one backend reference of a route. On success the cluster is in the
table returned, under the key returned. -/
def resolve (b : HttpBackendRef) (route : ObjectRef) (snap : Snapshot) (clusters : ClusterTable) :
    Except Rejection (String × ClusterTable) := do
  let (sref, svc, port, svcPort) ← servicePort b route snap
  let key := clusterKey sref port
  if clusters.contains key then return (key, clusters)
  else
    let cluster ← serviceCluster sref svc svcPort snap
    return (key, clusters.insert key cluster)

/-! ## What a resolved reference is -/

/-- A route in namespace `ns` may send traffic to the Service. -/
def MaySend (snap : Snapshot) (ns : String) (sref : ObjectRef) : Prop :=
  sref.namespace = ns ∨
    permits snap ⟨gatewayGroup, "HTTPRoute", ns⟩ ⟨"", "Service", sref.namespace, sref.name⟩ = true

/-- The cluster built for a port of a Service of the snapshot. -/
def BuiltFor (snap : Snapshot) (sref : ObjectRef) (port : Nat) (c : Cluster) : Prop :=
  ∃ svc svcPort, snap.services[sref]? = some svc ∧
    svc.ports.find? (·.port == port) = some svcPort ∧ serviceCluster sref svc svcPort snap = .ok c

/-- The same, as what is built. -/
def builtCluster (snap : Snapshot) (sref : ObjectRef) (port : Nat) : Option Cluster := do
  let svc ← snap.services[sref]?
  let svcPort ← svc.ports.find? (·.port == port)
  (serviceCluster sref svc svcPort snap).toOption

variable {port : Nat} {snap : Snapshot} {sref route : ObjectRef} {b : HttpBackendRef}
  {t : ClusterTable}

variable {c : Cluster} {t' : ClusterTable}

theorem builtCluster_eq_some : builtCluster snap sref port = some c ↔ BuiltFor snap sref port c := by
  have hok : ∀ e : Except Rejection Cluster, e.toOption = some c ↔ e = .ok c := by
    intro e
    cases e <;> simp [Except.toOption]
  simp [builtCluster, BuiltFor, Option.bind_eq_some_iff, hok]

instance (snap : Snapshot) (sref : ObjectRef) (port : Nat) (c : Cluster) :
    Decidable (BuiltFor snap sref port c) := decidable_of_iff _ builtCluster_eq_some

theorem servicePort_eq_ok {svc : Service} {svcPort : ServicePort}
    (h : servicePort b route snap = .ok (sref, svc, port, svcPort)) :
    sref = ⟨b.namespace.getD route.namespace, b.name⟩ ∧ b.port = some port ∧
      MaySend snap route.namespace sref ∧ snap.services[sref]? = some svc ∧
      svc.ports.find? (·.port == port) = some svcPort := by
  unfold servicePort at h
  simp only at h
  split at h
  · cases h
  split at h
  · cases h
  rename_i hpermit
  split at h
  · cases h
  rename_i p hp
  split at h
  · cases h
  rename_i s hs
  split at h
  · cases h
  rename_i sp hsp
  cases h
  refine ⟨rfl, hp, ?_, hs, hsp⟩
  by_cases hns : b.namespace.getD route.namespace = route.namespace
  · exact .inl hns
  · right
    simpa [hns] using hpermit

/-- What a table went through: what was in it still is, and what is new was
built from the snapshot under its own key. -/
structure Grows (snap : Snapshot) (t t' : ClusterTable) : Prop where
  kept : ∀ (k : String) c, t[k]? = some c → t'[k]? = some c
  built : ∀ (k : String) c, t'[k]? = some c → t[k]? = some c ∨
    ∃ sref port, k = clusterKey sref port ∧ BuiltFor snap sref port c

theorem Grows.refl (snap : Snapshot) (t : ClusterTable) : Grows snap t t :=
  ⟨fun _ _ h => h, fun _ _ h => .inl h⟩

theorem Grows.trans {t'' : ClusterTable} (h : Grows snap t t')
    (h' : Grows snap t' t'') : Grows snap t t'' := by
  refine ⟨fun k c hk => h'.kept k c (h.kept k c hk), fun k c hk => ?_⟩
  rcases h'.built k c hk with hk | hnew
  · exact h.built k c hk
  · exact .inr hnew

theorem Grows.insert (hnew : t.contains (clusterKey sref port) = false)
    (hc : BuiltFor snap sref port c) : Grows snap t (t.insert (clusterKey sref port) c) := by
  constructor
  · intro k c' hk
    have hne : clusterKey sref port ≠ k := by
      rintro rfl
      rw [TreeMap.getElem?_eq_none_of_contains_eq_false hnew] at hk
      cases hk
    rw [TreeMap.getElem?_insert, if_neg (by simpa using hne)]
    exact hk
  · intro k c' hk
    rw [TreeMap.getElem?_insert] at hk
    split at hk
    · rename_i heq
      obtain rfl : c = c' := Option.some.inj hk
      exact .inr ⟨sref, port, (Std.LawfulEqCmp.compare_eq_iff_eq.mp heq).symm, hc⟩
    · exact .inl hk

/-- A key that names a Service port the route may send to. -/
structure Names (snap : Snapshot) (ns key : String) (sref : ObjectRef) (port : Nat) : Prop where
  key : key = clusterKey sref port
  consent : MaySend snap ns sref
  port : ∃ svc, snap.services[sref]? = some svc ∧ ∃ p ∈ svc.ports, p.port = port

theorem resolve_eq_ok {key : String} (h : resolve b route snap t = .ok (key, t')) :
    Grows snap t t' ∧ t'.contains key = true ∧
      ∃ sref port, Names snap route.namespace key sref port := by
  obtain ⟨⟨sref, svc, port, svcPort⟩, htarget, h⟩ := Lib.Checks.bind_eq_ok.mp h
  obtain ⟨-, -, hsend, hsvc, hport⟩ := servicePort_eq_ok htarget
  have hnames : Names snap route.namespace (clusterKey sref port) sref port :=
    ⟨rfl, hsend, svc, hsvc, svcPort, List.mem_of_find?_eq_some hport,
      by simpa using List.find?_some hport⟩
  simp only at h
  split at h
  · rename_i hin
    cases h
    exact ⟨.refl snap _, hin, sref, port, hnames⟩
  · rename_i hnew
    obtain ⟨c, hc, h⟩ := Lib.Checks.bind_eq_ok.mp h
    cases h
    refine ⟨.insert (Bool.eq_false_iff.mpr hnew) ⟨svc, svcPort, hsvc, hport, hc⟩, ?_,
      sref, port, hnames⟩
    simp

/-- Without a slash in their namespaces, Service ports have keys of their own. -/
theorem clusterKey_inj {a b : ObjectRef} {p q : Nat} (ha : Slashless a.namespace)
    (hb : Slashless b.namespace) (h : clusterKey a p = clusterKey b q) : a = b ∧ p = q := by
  have hchars := congrArg String.toList h
  simp only [clusterKey, ObjectRef.text, String.toList_append, List.append_assoc] at hchars
  obtain ⟨hns, hrest⟩ := append_cons_inj ha hb hchars
  have hdigits : ∀ n : Nat, ':' ∉ (toString n).toList := fun n hmem =>
    absurd (isDigit_of_mem_toString hmem) (by decide)
  obtain ⟨hname, hport⟩ := append_cons_inj_last (hdigits p) (hdigits q) hrest
  refine ⟨?_, toString_inj hport⟩
  cases a
  cases b
  rw [ObjectRef.mk.injEq]
  exact ⟨String.toList_inj.mp hns, String.toList_inj.mp hname⟩

end Gapura.Core.Translate
