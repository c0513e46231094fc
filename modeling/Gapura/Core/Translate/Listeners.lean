import Gapura.Core.Translate.Rules

/-! # Gateway listeners

Whether a listener is valid, the certificate it terminates TLS with, and the
conflicts between listeners of one Gateway. Routes attach to what is built here
in a later step. -/
namespace Gapura.Core.Translate
open Lib.Text Input Status

structure ListenerBuild where
  name : String
  port : Nat
  /-- In lowercase. -/
  hostname : Option String
  /-- `none` when it is not supported. -/
  protocol : Option Protocol
  allowed : Option AllowedRoutes
  tls : Option TlsBundle
  accepted : Except Rejection Unit
  resolved : Except Rejection Unit
  conflict : Option Rejection := none
  supportedKinds : List RouteGroupKind
  attachedRoutes : Nat := 0
  rules : List RouteRule := []
  table : List MatchEntry := []
  /-- An accepted listener has a supported protocol. -/
  spoken : accepted = .ok () → protocol.isSome = true

namespace ListenerBuild

/-- An `allowedRoutes.kinds` that also names a kind that is not served leaves
the others working; any other unresolved reference means nothing is served. -/
def serves (l : ListenerBuild) : Bool :=
  match l.resolved with
  | .ok () => true
  | .error r => r.reason == .invalidRouteKinds && !l.supportedKinds.isEmpty &&
    (l.protocol != some .https || l.tls.isSome)

def programmed (l : ListenerBuild) : Bool :=
  l.accepted.toBool && l.conflict.isNone && l.serves

/-- Accepted, Programmed, ResolvedRefs, Conflicted, in that order. -/
def conditions (l : ListenerBuild) (generation : Option Int) (gatewayOk : Bool) : List Condition :=
  let accepted := match l.accepted with
    | .ok () => ⟨.accepted, .true, .accepted, "Listener is accepted", generation⟩
    | .error r => ⟨.accepted, .false, r.reason, r.message, generation⟩
  let programmed := if gatewayOk && l.programmed then
      ⟨.programmed, .true, .programmed, "Listener is programmed", generation⟩
    else ⟨.programmed, .false, .invalid, "Listener is not valid", generation⟩
  let resolved := match l.resolved with
    | .ok () => ⟨.resolvedRefs, .true, .resolvedRefs, "All references resolved", generation⟩
    | .error r => ⟨.resolvedRefs, .false, r.reason, r.message, generation⟩
  let conflicted := match l.conflict with
    | none => ⟨.conflicted, .false, .noConflicts, "No conflicts", generation⟩
    | some r => ⟨.conflicted, .true, r.reason, r.message, generation⟩
  [accepted, programmed, resolved, conflicted]

end ListenerBuild

/-- The hosts of a table's entries: any host when there is no hostname. -/
def hostsOf (hostnames : List String) : List (Option String) :=
  if hostnames.isEmpty then [none] else hostnames.map some

/-- The entries of one rule, at index `idx` of its listener. -/
def ruleEntries (hosts : List (Option String)) (rule : RouteRule) (idx : Nat) : List MatchEntry :=
  hosts.flatMap fun hostname => rule.matches.map fun matcher => { hostname, matcher, rule := idx }

/-- Adds compiled rules under the effective hostnames. -/
def ListenerBuild.addRoute (l : ListenerBuild) (rules : List RouteRule) (hostnames : List String) :
    ListenerBuild :=
  rules.foldl (fun l rule =>
    { l with rules := l.rules ++ [rule]
             table := l.table ++ ruleEntries (hostsOf hostnames) rule l.rules.length }) l

/-! ## Certificates -/

/-- One base64 field of a Secret, which must read as PEM of the kind. -/
def pemField (env : Env) (secret : Secret) (key marker : String) : Except Rejection String :=
  let refuse := fun why => .error ⟨.invalidCertificateRef, why⟩
  match secret.data[key]? with
  | none => refuse ("Secret " ++ secret.metadata.name ++ " has no " ++ key)
  | some raw => match env.decodeBase64 (trim raw) with
    | none => refuse (key ++ " is not valid base64")
    | some bytes => match String.fromUTF8? ⟨bytes.toArray⟩ with
      | none => refuse (key ++ " is not UTF-8 PEM")
      | some text =>
        if (splitOnce "-----BEGIN" text).isNone || (splitOnce marker text).isNone then
          refuse (key ++ " is not a PEM " ++ marker)
        else .ok text

def resolveTls (env : Env) (l : Listener) (gwRef : ObjectRef) (snap : Snapshot) :
    Except Rejection TlsBundle :=
  let refuse := fun why => .error ⟨.invalidCertificateRef, why⟩
  match l.tls with
  | none => refuse "HTTPS listener requires tls.certificateRefs"
  | some tls => match tls.certificateRefs.head? with
    | none => refuse "tls.certificateRefs is empty"
    | some cref =>
      let kind := cref.kind.getD "Secret"
      let group := cref.group.getD ""
      let sref : ObjectRef := ⟨cref.namespace.getD gwRef.namespace, cref.name⟩
      if kind != "Secret" || group != "" then
        refuse ("certificateRef kind " ++ group ++ "/" ++ kind ++
          " is not supported, only core Secret")
      else if sref.namespace != gwRef.namespace &&
          !permits snap ⟨gatewayGroup, "Gateway", gwRef.namespace⟩
            ⟨"", "Secret", sref.namespace, sref.name⟩ then
        .error ⟨.refNotPermitted,
          "reference to Secret " ++ sref.text ++ " is not permitted by any ReferenceGrant"⟩
      else match snap.secrets[sref]? with
        | none => refuse ("Secret " ++ sref.text ++ " not found")
        | some secret =>
          if secret.type != some "kubernetes.io/tls" then
            refuse ("Secret " ++ sref.text ++ " must have type kubernetes.io/tls")
          else do
            let certPem ← pemField env secret "tls.crt" "CERTIFICATE"
            let keyPem ← pemField env secret "tls.key" "PRIVATE KEY"
            return { secret := sref.text, certPem, keyPem }

/-! ## One listener -/

def httpRouteKind : RouteGroupKind := { group := some gatewayGroup, kind := "HTTPRoute" }

def isHttpRoute (k : RouteGroupKind) : Bool := k.kind == "HTTPRoute" && k.group.all (· == gatewayGroup)

/-- The kinds a listener supports, and whether every kind asked for is one. -/
def supportedKinds (allowed : Option AllowedRoutes) : List RouteGroupKind × Bool :=
  match allowed.map (·.kinds) with
  | none | some [] => ([httpRouteKind], true)
  | some kinds => (if kinds.any isHttpRoute then [httpRouteKind] else [], kinds.all isHttpRoute)

def protocolOf : String → Option Protocol
  | "HTTP" => some .http
  | "HTTPS" => some .https
  | _ => none

def passthrough (l : Listener) : Bool := (l.tls.bind (·.mode)).any (· != "Terminate")

/-- The ports bound for a protocol. -/
def boundPorts (settings : Settings) : Option Protocol → List Nat
  | some .https => settings.httpsPorts
  | _ => settings.httpPorts

def accept (settings : Settings) (l : Listener) : Except Rejection Unit :=
  let protocol := protocolOf l.protocol
  let bound := boundPorts settings protocol
  if protocol.isNone then
    .error ⟨.unsupportedProtocol,
      "protocol " ++ l.protocol ++ " is not supported, use HTTP or HTTPS"⟩
  else if !bound.contains l.port then
    .error ⟨.portUnavailable, "port " ++ toString l.port ++ " is not bound for " ++ l.protocol ++
      " by this deployment, bound ports: " ++ debugList toString bound⟩
  else if protocol == some .https && passthrough l then
    .error ⟨.unsupportedProtocol, "TLS passthrough is not supported in v0.1"⟩
  else .ok ()

theorem protocolOf_of_accept {settings : Settings} {l : Listener}
    (h : accept settings l = .ok ()) : (protocolOf l.protocol).isSome = true := by
  unfold accept at h
  simp only at h
  split at h
  · cases h
  · rename_i hsome
    simpa [Option.isSome_iff_ne_none] using hsome

/-- The certificate of a listener that terminates TLS, or why there is none. -/
def listenerTls (env : Env) (l : Listener) (gwRef : ObjectRef) (snap : Snapshot) :
    Except Rejection (Option TlsBundle) :=
  if protocolOf l.protocol == some .https && !passthrough l then
    (resolveTls env l gwRef snap).map some
  else .ok none

def buildListener (env : Env) (gwRef : ObjectRef) (snap : Snapshot) (settings : Settings)
    (l : Listener) : ListenerBuild :=
  let protocol := protocolOf l.protocol
  let kinds := supportedKinds l.allowedRoutes
  let tls := listenerTls env l gwRef snap
  { name := l.name
    port := l.port
    hostname := l.hostname.map toAsciiLowercase
    protocol
    allowed := l.allowedRoutes
    tls := tls.toOption.join
    accepted := accept settings l
    resolved :=
      if !kinds.2 then
        .error ⟨.invalidRouteKinds, "only HTTPRoute is supported in allowedRoutes.kinds"⟩
      else tls.map fun _ => ()
    supportedKinds := if protocol.isNone then [] else kinds.1
    spoken := protocolOf_of_accept }

/-! ## Conflicts -/

/-- Why two listeners of a Gateway cannot both serve. -/
def clash (a b : ListenerBuild) : Option Rejection :=
  let both := "listeners " ++ a.name ++ " and " ++ b.name ++ " share port " ++ toString a.port
  if a.port ≠ b.port then none
  else if a.protocol ≠ b.protocol then
    some ⟨.protocolConflict, both ++ " with different protocols"⟩
  else if a.hostname = b.hostname then
    some ⟨.hostnameConflict, both ++ " and hostname " ++ a.hostname.getD "(none)"⟩
  else none

/-- The first conflict found of a listener is the one it reports. -/
def mark (r : Rejection) (l : ListenerBuild) : ListenerBuild :=
  { l with conflict := l.conflict.or (some r) }

def markPair (ls : List ListenerBuild) (p : Nat × Nat) : List ListenerBuild :=
  match ls[p.1]?, ls[p.2]? with
  | some a, some b => match clash a b with
    | some r => (ls.modify p.1 (mark r)).modify p.2 (mark r)
    | none => ls
  | _, _ => ls

/-- The pairs `i < j` below `n`, by `i` and then by `j`. -/
def pairs (n : Nat) : List (Nat × Nat) :=
  (List.range n).flatMap fun i => (List.range' (i + 1) (n - (i + 1))).map fun j => (i, j)

def detectConflicts (ls : List ListenerBuild) : List ListenerBuild :=
  (pairs ls.length).foldl markPair ls

/-- The fields of a listener that attaching routes does not touch. -/
def ListenerBuild.blank (l : ListenerBuild) : ListenerBuild :=
  { l with attachedRoutes := 0, rules := [], table := [] }

/-- Two listeners of one Gateway that can both serve. -/
def Compatible (a b : ListenerBuild) : Prop :=
  a.conflict = none → b.conflict = none → clash a b = none

theorem clash_eq_none {a b : ListenerBuild} :
    clash a b = none ↔ a.port = b.port → a.protocol = b.protocol ∧ a.hostname ≠ b.hostname := by
  unfold clash
  simp only
  split
  · rename_i hport
    simp [hport]
  · rename_i hport
    have hport : a.port = b.port := by simpa using hport
    split
    · rename_i hprotocol
      simp [hport, hprotocol]
    · rename_i hprotocol
      have hprotocol : a.protocol = b.protocol := by simpa using hprotocol
      split <;> simp_all

/-- What marking does to a list: conflicts are added and nothing else changes. -/
structure Marks (ls ls' : List ListenerBuild) : Prop where
  length : ls'.length = ls.length
  each : ∀ (k : Nat) l, ls[k]? = some l → ∃ l', ls'[k]? = some l' ∧
    l' = { l with conflict := l'.conflict } ∧ (l'.conflict = none → l.conflict = none)

variable (ls : List ListenerBuild)

theorem Marks.refl : Marks ls ls :=
  ⟨rfl, fun _ l hl => ⟨l, hl, rfl, id⟩⟩

theorem Marks.trans {ls ls' ls'' : List ListenerBuild} (h : Marks ls ls') (h' : Marks ls' ls'') :
    Marks ls ls'' := by
  refine ⟨h'.length.trans h.length, fun k l hl => ?_⟩
  obtain ⟨l', hl', heq, hnone⟩ := h.each k l hl
  obtain ⟨l'', hl'', heq', hnone'⟩ := h'.each k l' hl'
  refine ⟨l'', hl'', ?_, fun hc => hnone (hnone' hc)⟩
  rw [heq', heq]

theorem Marks.before {ls ls' : List ListenerBuild} (h : Marks ls ls') {k : Nat}
    {l' : ListenerBuild} (hl' : ls'[k]? = some l') : ∃ l, ls[k]? = some l ∧
      l' = { l with conflict := l'.conflict } ∧ (l'.conflict = none → l.conflict = none) := by
  obtain ⟨hk, -⟩ := List.getElem?_eq_some_iff.mp hl'
  have hl := List.getElem?_eq_getElem (h.length ▸ hk)
  obtain ⟨l'', hl'', heq, hnone⟩ := h.each k _ hl
  obtain rfl : l'' = l' := Option.mem_unique hl'' hl'
  exact ⟨_, hl, heq, hnone⟩

theorem marks_modify (i : Nat) (r : Rejection) : Marks ls (ls.modify i (mark r)) := by
  refine ⟨by simp, fun k l hl => ?_⟩
  rw [List.getElem?_modify, hl]
  by_cases hik : i = k
  · exact ⟨mark r l, by simp [hik], rfl, fun hc => by simp [mark] at hc⟩
  · exact ⟨l, by simp [hik], rfl, id⟩

theorem marks_markPair (p : Nat × Nat) : Marks ls (markPair ls p) := by
  unfold markPair
  split
  · split
    · exact (marks_modify ls _ _).trans (marks_modify _ _ _)
    · exact .refl ls
  · exact .refl ls

theorem marks_foldl (ps : List (Nat × Nat)) (ls : List ListenerBuild) :
    Marks ls (ps.foldl markPair ls) := by
  induction ps generalizing ls with
  | nil => exact .refl ls
  | cons p ps ih => exact (marks_markPair ls p).trans (ih _)

/-- A pair that was looked at is settled from then on. -/
theorem compatible_markPair {ls : List ListenerBuild} {i j : Nat} {a b : ListenerBuild}
    (ha : (markPair ls (i, j))[i]? = some a) (hb : (markPair ls (i, j))[j]? = some b) :
    Compatible a b := by
  intro hca hcb
  have hmarks := marks_markPair ls (i, j)
  obtain ⟨a₀, ha₀, -⟩ := hmarks.before ha
  obtain ⟨b₀, hb₀, -⟩ := hmarks.before hb
  simp only [markPair, ha₀, hb₀] at ha hb
  cases hclash : clash a₀ b₀ with
  | none =>
    simp only [hclash, ha₀, hb₀, Option.some.injEq] at ha hb
    rw [← ha, ← hb]
    exact hclash
  | some r =>
    -- the mark of `j` stands last, so `b` carries a conflict
    simp only [hclash, List.getElem?_modify] at hb
    obtain ⟨b₁, -, rfl⟩ := Option.map_eq_some_iff.mp hb
    simp [mark] at hcb

theorem Compatible.of_marks {ls ls' : List ListenerBuild} (h : Marks ls ls') {i j : Nat}
    (hc : ∀ a b, ls[i]? = some a → ls[j]? = some b → Compatible a b) {a' b' : ListenerBuild}
    (ha : ls'[i]? = some a') (hb : ls'[j]? = some b') : Compatible a' b' := by
  obtain ⟨a, ha, hae, han⟩ := h.before ha
  obtain ⟨b, hb, hbe, hbn⟩ := h.before hb
  intro hca hcb
  rw [hae, hbe]
  exact hc a b ha hb (han hca) (hbn hcb)

theorem mem_pairs {n i j : Nat} : (i, j) ∈ pairs n ↔ i < j ∧ j < n := by
  simp only [pairs, List.mem_flatMap, List.mem_range, List.mem_map, List.mem_range'_1,
    Prod.mk.injEq]
  constructor
  · rintro ⟨i', hi', j', hj', rfl, rfl⟩
    omega
  · rintro ⟨hij, hjn⟩
    exact ⟨i, by omega, j, by omega, rfl, rfl⟩

theorem detectConflicts_pairwise : (detectConflicts ls).Pairwise Compatible := by
  rw [List.pairwise_iff_getElem]
  intro i j hi hj hij
  have hlen : (detectConflicts ls).length = ls.length := (marks_foldl _ ls).length
  obtain ⟨before, after, hsplit⟩ :=
    List.append_of_mem (mem_pairs.mpr ⟨hij, (by omega : j < ls.length)⟩)
  -- the pair is settled when its turn comes, and later marks keep it so
  have hrun : detectConflicts ls =
      after.foldl markPair (markPair (before.foldl markPair ls) (i, j)) := by
    rw [detectConflicts, hsplit, List.foldl_append, List.foldl_cons]
  refine Compatible.of_marks (i := i) (j := j) (hrun ▸ marks_foldl after _)
    (fun a b ha hb => compatible_markPair ha hb) ?_ ?_
  · exact List.getElem?_eq_getElem hi
  · exact List.getElem?_eq_getElem hj

/-! ## Gateways -/

structure GatewayBuild where
  ref : ObjectRef
  uid : Option String
  generation : Option Int
  listeners : List ListenerBuild
  /-- The Gateway itself is refused, whatever its listeners say. -/
  rejected : Option Rejection
  /-- The `spec.addresses` values. -/
  requestedAddresses : List String
  /-- Listeners that cannot both serve are marked. -/
  settled : listeners.Pairwise Compatible

/-- A Gateway with a parameter reference or an address of another type is refused. -/
def rejection (gw : Gateway) : Option Rejection :=
  match gw.parametersRef with
  | some r => some ⟨.invalidParameters, "spec.infrastructure.parametersRef " ++ r.group.getD "" ++
      "/" ++ r.kind ++ " " ++ r.name ++ " is not supported"⟩
  | none =>
    ((gw.addresses.map fun a => a.type.getD "IPAddress").find? fun t =>
      !(t == "IPAddress" || t == "Hostname")).map fun t =>
        ⟨.unsupportedAddress,
          "spec.addresses type " ++ t ++ " is not supported, use IPAddress or Hostname"⟩

def buildGateway (env : Env) (snap : Snapshot) (settings : Settings)
    (p : ObjectRef × Gateway) : GatewayBuild :=
  { ref := p.1
    uid := p.2.metadata.uid
    generation := p.2.metadata.generation
    listeners := detectConflicts (p.2.listeners.map (buildListener env p.1 snap settings))
    rejected := rejection p.2
    requestedAddresses := p.2.addresses.map (·.value)
    settled := detectConflicts_pairwise _ }

/-- The Gateways of our classes, in the order of the snapshot. -/
def build (env : Env) (snap : Snapshot) (settings : Settings) (classes : List String) :
    List GatewayBuild :=
  (snap.gateways.toList.filter fun p => classes.contains p.2.gatewayClassName).map
    (buildGateway env snap settings)

section Build
variable {env : Env} {snap : Snapshot} {settings : Settings} {classes : List String}

theorem gateway_of_mem_build {gw : GatewayBuild} (h : gw ∈ build env snap settings classes) :
    ∃ gateway, snap.gateways[gw.ref]? = some gateway ∧
      gw = buildGateway env snap settings (gw.ref, gateway) := by
  obtain ⟨⟨gref, gateway⟩, hmem, rfl⟩ := List.mem_map.mp h
  have hin := (List.mem_filter.mp hmem).1
  exact ⟨gateway, Std.TreeMap.mem_toList_iff_getElem?_eq_some.mp hin, rfl⟩

theorem nodup_refs_build : ((build env snap settings classes).map (·.ref)).Nodup := by
  have hkeys : (snap.gateways.toList.map (·.1)).Nodup := by
    rw [Std.TreeMap.map_fst_toList_eq_keys]
    exact Std.TreeMap.nodup_keys
  rw [build, List.map_map]
  exact hkeys.sublist (List.Sublist.map Prod.fst List.filter_sublist)

/-- A listener of a Gateway is what was built for the declared one, apart from
the conflicts found. -/
theorem listener_of_buildGateway {p : ObjectRef × Gateway} {li : Nat} {l : ListenerBuild}
    (h : (buildGateway env snap settings p).listeners[li]? = some l) :
    ∃ declared, p.2.listeners[li]? = some declared ∧
      l = { buildListener env p.1 snap settings declared with conflict := l.conflict } := by
  obtain ⟨built, hbuilt, heq, -⟩ := (marks_foldl _ _).before h
  rw [List.getElem?_map, Option.map_eq_some_iff] at hbuilt
  obtain ⟨declared, hdeclared, rfl⟩ := hbuilt
  exact ⟨declared, hdeclared, heq⟩

end Build

end Gapura.Core.Translate
