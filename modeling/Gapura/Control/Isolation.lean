import Gapura.Control.Services
import Gapura.Core.StoreLimits

/-! # Workspaces do not reach into each other

Two snapshots that agree on one workspace's rows, whatever else they hold,
compile that workspace's routes alike: the rules, the consumers' own limits and
what a key of the workspace opens. Clusters are shared between workspaces, and
a route's cluster is still the one of its own service, because the key says all
a cluster carries. -/
namespace Gapura.Control.Isolation
open Lib.Ordered Gapura.Core Core.Store Core.StoreRouting Core.StoreWorkspace Core.StoreAttached
  Core.StoreLimits Core.StoreClusters
open Services (Validated)
open Std (TreeMap)

variable {snap snap' : StoreSnapshot} {w u : String} {r : StoreRoute}

/-- What the writers of the rows keep: names without a `/`, hosts and SNIs as
`service` validates them, bundles told apart by their digests' first bytes,
and one row per key. -/
structure Sound (anchors : String → Option Nat) (ipAddr : String → Bool)
    (sha256 : String → List UInt8) (snap : StoreSnapshot) : Prop where
  routes : ∀ r ∈ snap.routes, Plain r.workspace ∧ Plain r.name
  limits : ∀ l ∈ snap.rateLimits, Plain l.workspace ∧ ∀ u ∈ l.consumer, Plain u
  consumers : ∀ c ∈ snap.consumers, Plain c.workspace ∧ Plain c.username
  anonymous : ∀ p ∈ snap.plugins, ∀ policy, p.plugin = .auth policy →
    ∀ name ∈ policy.anonymous, Plain name
  services : ∀ s ∈ snap.services, Validated anchors ipAddr s
  bundles : ∀ s ∈ snap.services, ∀ s' ∈ snap.services, ∀ pem ∈ caPem s, ∀ pem' ∈ caPem s',
    (sha256 pem).take 8 = (sha256 pem').take 8 → pem = pem'
  hashes : (snap.credentials.map StoreCredential.keyHash).Nodup

/-! ## A consumer's own limits -/

variable {α β : Type}

variable {l : List α} {key : α → String} {value : α → β}

theorem flatMap_filter_of {p : α → Bool} {f : α → List β}
    (h : ∀ a ∈ l, p a = false → f a = []) : (l.filter p).flatMap f = l.flatMap f := by
  induction l with
  | nil => rfl
  | cons a rest ih =>
    have hrest := ih fun b hb => h b (List.mem_cons_of_mem a hb)
    cases ha : p a with
    | true => rw [List.filter_cons_of_pos ha, List.flatMap_cons, List.flatMap_cons, hrest]
    | false =>
      rw [List.filter_cons_of_neg (by simp [ha]), List.flatMap_cons, h a List.mem_cons_self ha,
        hrest, List.nil_append]

theorem ownedBy_of_ne {l : StoreRateLimit} (hw : Plain w) (hu : Plain u)
    (hl : Plain l.workspace ∧ ∀ u ∈ l.consumer, Plain u) (h : l.workspace ≠ w) :
    ownedBy (Credentials.consumerId w u) l = false := by
  rw [← Bool.not_eq_true, ownedBy_iff hw hu hl]
  exact fun hown => h hown.1

/-- The limits of a workspace's consumer on one of its routes are read off the
workspace's rows. -/
theorem heldOn_restrict (hroutes : ∀ r ∈ snap.routes, Plain r.workspace ∧ Plain r.name)
    (hlimits : ∀ l ∈ snap.rateLimits, Plain l.workspace ∧ ∀ u ∈ l.consumer, Plain u)
    (hr : Served snap r) (hu : Plain u) :
    heldOn (consumerRateLimits (restrict r.workspace snap).rateLimits
        (servedRoutes (restrict r.workspace snap))) (Credentials.consumerId r.workspace u)
        (routeId r) =
      heldOn (consumerRateLimits snap.rateLimits (servedRoutes snap))
        (Credentials.consumerId r.workspace u) (routeId r) := by
  have hw := (hroutes r hr.1).1
  have hoffers : ∀ l, ownOffers (servedRoutes (restrict r.workspace snap))
      (Credentials.consumerId r.workspace u) (routeId r) l =
      ownOffers (servedRoutes snap) (Credentials.consumerId r.workspace u) (routeId r) l := by
    intro l
    have hfilter : (servedRoutes (restrict r.workspace snap)).filter
        (fun r' => routeId r' == routeId r) =
        (servedRoutes snap).filter fun r' => routeId r' == routeId r := by
      rw [servedRoutes_restrict, List.filter_filter]
      apply List.filter_congr
      intro r' hr'
      by_cases hid : routeId r' = routeId r
      · have hmem := mem_servedRoutes.mp hr'
        have := (routeId_inj (hroutes r' hmem.1) (hroutes r hr.1) hid).1
        simp [hid, this]
      · simp [hid]
    rw [ownOffers, ownOffers, offers, offers, hfilter]
  rw [heldOn_consumerRateLimits, heldOn_consumerRateLimits, funext hoffers]
  congr 2
  apply flatMap_filter_of
  intro l hl hne
  rw [ownOffers, ownedBy_of_ne hw hu (hlimits l hl) (by simpa using hne)]
  rfl

theorem heldAny_restrict (hlimits : ∀ l ∈ snap.rateLimits, Plain l.workspace ∧
      ∀ u ∈ l.consumer, Plain u) (hw : Plain w) (hu : Plain u) (routes routes' : List StoreRoute) :
    heldAny (consumerRateLimits (restrict w snap).rateLimits routes)
        (Credentials.consumerId w u) =
      heldAny (consumerRateLimits snap.rateLimits routes') (Credentials.consumerId w u) := by
  rw [heldAny_consumerRateLimits, heldAny_consumerRateLimits, restrict, List.find?_filter]
  congr 1
  apply List.find?_congr
  intro l hl
  by_cases hlw : l.workspace = w
  · simp [hlw, Bool.beq_eq_decide_eq]
  · rw [ownedBy_of_ne hw hu (hlimits l hl) hlw]
    simp

/-! ## Keys -/

theorem find?_of_nodup [DecidableEq β] {key : α → β}
    (h : (l.map key).Nodup) {a : α} (ha : a ∈ l) : l.find? (fun b => key b = key a) = some a := by
  have hsome : (l.find? fun b => key b = key a).isSome := by
    rw [List.find?_isSome]
    exact ⟨a, ha, by simp⟩
  obtain ⟨b, hb⟩ := Option.isSome_iff_exists.mp hsome
  have hkey : key b = key a := by simpa using List.find?_some hb
  rw [hb, List.inj_on_of_nodup_map h (List.mem_of_find?_eq_some hb) ha hkey]

/-- What a digest's row says, looked up from the end. -/
theorem getElem?_collect_of_nodup (h : (l.map key).Nodup) {a : α} (ha : a ∈ l) :
    (collect compare (l.map fun a => (key a, value a)))[key a]? = some (value a) := by
  have hrev : (l.reverse.map key).Nodup := by
    rw [List.map_reverse]
    exact List.nodup_reverse.mpr h
  have hfind := find?_of_nodup hrev (List.mem_reverse.mpr ha)
  rw [getElem?_collect, ← List.map_reverse, List.find?_map]
  have hcomp : ((fun p : String × β => decide (p.1 = key a)) ∘ fun a => (key a, value a)) =
      fun b => decide (key b = key a) := rfl
  rw [hcomp, hfind]
  rfl

theorem exists_of_getElem?_collect
    {k : String} {v : β} (h : (collect compare (l.map fun a => (key a, value a)))[k]? = some v) :
    ∃ a ∈ l, key a = k ∧ value a = v := by
  rw [getElem?_collect, ← List.map_reverse, List.find?_map, Option.map_map,
    Option.map_eq_some_iff] at h
  obtain ⟨a, ha, hv⟩ := h
  exact ⟨a, by simpa using List.mem_of_find?_eq_some ha, by simpa using List.find?_some ha, hv⟩

/-- A key opens a workspace's routes exactly when the workspace has its row. -/
theorem identify_compile (sha256 : String → List UInt8) (settings : StoreSettings)
    (hashes : (snap.credentials.map StoreCredential.keyHash).Nodup) (presented : Option String)
    (w : String) :
    Credentials.identify sha256 (compile sha256 snap settings) presented (some w) =
      match Credentials.presentedKey presented with
      | none => .error .missing
      | some key => match (restrict w snap).credentials.find? fun c =>
          !w.isEmpty && c.keyHash = Credentials.keyDigest sha256 key with
        | some c => .ok c.consumer
        | none => .error .unknown := by
  unfold Credentials.identify
  cases Credentials.presentedKey presented with
  | none => rfl
  | some key =>
    simp only [Option.any_some]
    generalize Credentials.keyDigest sha256 key = digest
    have hworkspaces : (compile sha256 snap settings).credentialWorkspaces =
        collect compare ((snap.credentials.filter fun c => !c.workspace.isEmpty).map fun c =>
          (c.keyHash, c.workspace)) := rfl
    have hcredentials : (compile sha256 snap settings).credentials =
        collect compare (snap.credentials.map fun c => (c.keyHash, c.consumer)) := rfl
    rw [hworkspaces, hcredentials]
    cases hfind : (restrict w snap).credentials.find? fun c =>
        !w.isEmpty && c.keyHash = digest with
    | some c =>
      have hc := List.find?_some hfind
      rw [Bool.and_eq_true, decide_eq_true_iff] at hc
      obtain ⟨hmem, hcw⟩ := List.mem_filter.mp (List.mem_of_find?_eq_some hfind)
      have hcw : c.workspace = w := eq_of_beq hcw
      have hlive : c ∈ snap.credentials.filter fun c => !c.workspace.isEmpty :=
        List.mem_filter.mpr ⟨hmem, by rw [hcw]; exact hc.1⟩
      have hnodup : ((snap.credentials.filter fun c => !c.workspace.isEmpty).map
          StoreCredential.keyHash).Nodup :=
        hashes.sublist (List.filter_sublist.map StoreCredential.keyHash)
      rw [← hc.2, getElem?_collect_of_nodup hnodup hlive, getElem?_collect_of_nodup hashes hmem,
        hcw]
      simp
    | none =>
      have hother : (collect compare ((snap.credentials.filter fun c => !c.workspace.isEmpty).map
          fun c => (c.keyHash, c.workspace)))[digest]? ≠ some w := by
        intro hsome
        obtain ⟨c, hc, hkey, hcw⟩ := exists_of_getElem?_collect hsome
        obtain ⟨hmem, hlive⟩ := List.mem_filter.mp hc
        have hnone := List.find?_eq_none.mp hfind c
          (List.mem_filter.mpr ⟨hmem, by simp [hcw]⟩)
        apply hnone
        rw [Bool.and_eq_true, decide_eq_true_iff, ← hcw]
        exact ⟨hlive, hkey⟩
      simp [hother]

/-! ## Two snapshots -/

variable {anchors : String → Option Nat} {ipAddr : String → Bool} {sha256 : String → List UInt8}

theorem Sound.compiledRule (h : Sound anchors ipAddr sha256 snap) (hr : Plain r.workspace) :
    StoreRouting.compiledRule sha256 (restrict r.workspace snap) r =
      StoreRouting.compiledRule sha256 snap r :=
  compiledRule_restrict_of sha256 fun p hp policy hpolicy name hname =>
    hasConsumer_restrict_plain hr h.consumers (h.anonymous p hp policy hpolicy name hname)

theorem serviceOf_restrict : serviceOf (restrict r.workspace snap) r = serviceOf snap r :=
  getElem?_servicesOf_restrict r.service

theorem served_restrict (hr : Served snap r) : Served (restrict r.workspace snap) r := by
  rw [← mem_servedRoutes, servedRoutes_restrict, List.mem_filter]
  exact ⟨mem_servedRoutes.mpr hr, by simp⟩

theorem served_of_restrict (hr : Served (restrict w snap) r) : Served snap r := by
  rw [← mem_servedRoutes, servedRoutes_restrict, List.mem_filter] at hr
  exact mem_servedRoutes.mp hr.1

/-- A cluster is a service's own: it resolves the service's host, and for HTTPS has the
service's name, bundle and verification. An empty name or bundle is none. -/
structure Owned (service : StoreService) (c : Cluster) : Prop where
  resolve : c.resolve = some { host := service.host, port := service.port }
  http : service.protocol = .http → c.tls = none
  https : service.protocol = .https → ∃ tls, c.tls = some tls ∧
    tls.sni = (service.tlsSni.filter (· ≠ "")).getD service.host ∧
    tls.caPem = service.tlsCaPem.filter (· ≠ "") ∧ tls.insecure = !service.tlsVerify

theorem owned_clusterOf (service : StoreService) : Owned service (clusterOf service) where
  resolve := rfl
  http h := by simp [clusterOf, h]
  https h := by
    have hempty : ∀ text : String, (!text.isEmpty) = decide (text ≠ "") := by
      intro text
      rw [Bool.eq_iff_iff]
      simp
    refine ⟨{ sni := sni service, caPem := caPem service, insecure := !service.tlsVerify },
      by simp [clusterOf, h], ?_, by simp [caPem, hempty], rfl⟩
    cases hname : service.tlsSni with
    | none => simp [sni, hname]
    | some name => by_cases hn : name = "" <;> simp [sni, hname, hn, Option.filter]

/-- What a configuration holds for a route: its rule on every listener, and
under the key the rule's backend names, the cluster of the route's own service. -/
structure Compiles (sha256 : String → List UInt8) (snap : StoreSnapshot) (config : Config)
    (r : StoreRoute) (rule : RouteRule) (service : StoreService) : Prop where
  compiled : compiledRule sha256 snap r = some rule
  listed : ∀ l ∈ config.listeners, rule ∈ l.rules
  owned : serviceOf snap r = some service
  backend : rule.backends = [{ cluster := some (clusterKey sha256 service), weight := 1 }]
  cluster : ∃ c, config.clusters[clusterKey sha256 service]? = some c ∧ Owned service c

theorem Sound.compiles (h : Sound anchors ipAddr sha256 snap) (hr : Served snap r)
    (settings : StoreSettings) {rule : RouteRule}
    (hrule : StoreRouting.compiledRule sha256 snap r = some rule) {service : StoreService}
    (hservice : serviceOf snap r = some service) :
    Compiles sha256 snap (compile sha256 snap settings) r rule service where
  compiled := hrule
  listed := rule_mem_compile sha256 hr hrule
  owned := hservice
  backend := by
    obtain ⟨found, hfound, rfl⟩ := Option.map_eq_some_iff.mp hrule
    have : some found = some service := hfound.symm.trans hservice
    rw [Option.some.inj this]
    rfl
  cluster := ⟨clusterOf service,
    clusters_compile (fun s hs => (h.services s hs).spelled) h.bundles hr hservice,
    owned_clusterOf service⟩

/-- Rows of other workspaces change nothing for a workspace: not its routes'
rules, not their clusters, not its consumers' limits, not what its keys open. -/
theorem workspace_isolated {anchors : String → Option Nat} {ipAddr : String → Bool}
    {sha256 : String → List UInt8} (h : Sound anchors ipAddr sha256 snap)
    (h' : Sound anchors ipAddr sha256 snap') (hagree : restrict w snap = restrict w snap')
    (hr : Served snap r) (hw : r.workspace = w) (settings settings' : StoreSettings) :
    ∃ rule service, Served snap' r ∧
      Compiles sha256 snap (compile sha256 snap settings) r rule service ∧
      Compiles sha256 snap' (compile sha256 snap' settings') r rule service ∧
      (∀ u, Plain u →
        heldOn (compile sha256 snap settings).consumerRateLimits
            (Credentials.consumerId w u) rule.route =
          heldOn (compile sha256 snap' settings').consumerRateLimits
            (Credentials.consumerId w u) rule.route ∧
        heldAny (compile sha256 snap settings).consumerRateLimits (Credentials.consumerId w u) =
          heldAny (compile sha256 snap' settings').consumerRateLimits
            (Credentials.consumerId w u)) ∧
      ∀ presented,
        Credentials.identify sha256 (compile sha256 snap settings) presented (some w) =
          Credentials.identify sha256 (compile sha256 snap' settings') presented (some w) := by
  subst hw
  have hplain := (h.routes r hr.1).1
  have hr' : Served snap' r := served_of_restrict (hagree ▸ served_restrict hr)
  obtain ⟨rule, hrule⟩ := compiledRule_isSome sha256 hr
  have hrule' : compiledRule sha256 snap' r = some rule := by
    rw [← h'.compiledRule hplain, ← hagree, h.compiledRule hplain, hrule]
  obtain ⟨service, hservice, hruleOf⟩ := Option.map_eq_some_iff.mp hrule
  have hservice : serviceOf snap r = some service := hservice
  have hservice' : serviceOf snap' r = some service := by
    rw [← serviceOf_restrict, ← hagree, serviceOf_restrict, hservice]
  have hroute : rule.route = routeId r := by
    rw [← hruleOf]
    rfl
  refine ⟨rule, service, hr', h.compiles hr settings hrule hservice,
    h'.compiles hr' settings' hrule' hservice', ?_, ?_⟩
  · intro u hu
    have hon := heldOn_restrict h.routes h.limits hr hu
    have hany := heldAny_restrict h.limits hplain hu [] (servedRoutes snap)
    rw [hagree] at hon hany
    rw [hroute]
    exact ⟨hon.symm.trans (heldOn_restrict h'.routes h'.limits hr' hu),
      hany.symm.trans (heldAny_restrict h'.limits hplain hu [] (servedRoutes snap'))⟩
  · intro presented
    rw [identify_compile sha256 settings h.hashes, identify_compile sha256 settings' h'.hashes,
      hagree]

/-! ## A neighbour of the same names -/

/-- No bundle is read, and no text is an address of either family. -/
def noAnchors : String → Option Nat := fun _ => none

def noAddress : String → Bool := fun _ => false

/-- Every workspace's payments go to one host, under one bundle: one cluster. -/
def payService (workspace : String) : StoreService where
  workspace := workspace
  name := "pay"
  protocol := .https
  host := "pay.test"
  port := 443
  connectTimeoutMs := none
  readTimeoutMs := none
  tlsVerify := true
  tlsCaPem := some "pay-ca"
  tlsSni := none

def payInput : Services.ServiceInput where
  name := "pay"
  protocol := "https"
  host := "pay.test"
  port := 443

def payRoute (workspace : String) : StoreRoute where
  workspace := workspace
  name := "orders"
  service := "pay"
  hosts := []
  paths := []
  methods := []
  headers := []
  stripPath := false
  priority := 0

def alone : StoreSnapshot where
  services := [payService "eu"]
  routes := [payRoute "eu"]
  credentials := [⟨"00", "ana", "eu"⟩]
  consumers := [⟨"eu", "ana", []⟩]

/-- The same rows, beside another workspace's of the same names. -/
def besides : StoreSnapshot where
  services := [payService "us", payService "eu"]
  routes := [payRoute "us", payRoute "eu"]
  credentials := [⟨"00", "ana", "eu"⟩, ⟨"01", "ana", "us"⟩]
  consumers := [⟨"eu", "ana", []⟩, ⟨"us", "ana", []⟩]

theorem validated_pay (workspace : String) :
    Validated noAnchors noAddress (payService workspace) := by
  have h : (Services.service noAnchors noAddress payInput .create).toOption.map
      (fun out => (out.1.host, out.1.tls.sni)) = some ("pay.test", none) := by decide +kernel
  cases hok : Services.service noAnchors noAddress payInput .create with
  | error e =>
    rw [hok] at h
    cases h
  | ok out =>
    rw [hok] at h
    obtain ⟨hhost, hsni⟩ := Prod.mk.inj (Option.some.inj h)
    exact ⟨payInput, .create, out, hok, hhost.symm, hsni.symm⟩

theorem workspace_isolated_eu : ∃ rule service, Served besides (payRoute "eu") ∧
    Compiles noDigest alone (compile noDigest alone {}) (payRoute "eu") rule service ∧
    Compiles noDigest besides (compile noDigest besides {}) (payRoute "eu") rule service ∧
    (∀ u, Plain u →
      heldOn (compile noDigest alone {}).consumerRateLimits
          (Credentials.consumerId "eu" u) rule.route =
        heldOn (compile noDigest besides {}).consumerRateLimits
          (Credentials.consumerId "eu" u) rule.route ∧
      heldAny (compile noDigest alone {}).consumerRateLimits (Credentials.consumerId "eu" u) =
        heldAny (compile noDigest besides {}).consumerRateLimits
          (Credentials.consumerId "eu" u)) ∧
    ∀ presented,
      Credentials.identify noDigest (compile noDigest alone {}) presented (some "eu") =
        Credentials.identify noDigest (compile noDigest besides {}) presented (some "eu") := by
  have halone : Sound noAnchors noAddress noDigest alone :=
    { routes := by simp [alone, payRoute, Plain]
      limits := by simp [alone]
      consumers := by simp [alone, Plain]
      anonymous := by simp [alone]
      services := by simpa [alone] using validated_pay "eu"
      bundles := by simp [alone, payService, caPem]
      hashes := by simp [alone] }
  have hbesides : Sound noAnchors noAddress noDigest besides :=
    { routes := by simp [besides, payRoute, Plain]
      limits := by simp [besides]
      consumers := by simp [besides, Plain]
      anonymous := by simp [besides]
      services := by simpa [besides] using ⟨validated_pay "us", validated_pay "eu"⟩
      bundles := by simp [besides, payService, caPem]
      hashes := by simp [besides] }
  have hserved : Served alone (payRoute "eu") :=
    ⟨by simp [alone], ⟨payService "eu", by simp [alone], rfl, rfl⟩, rfl⟩
  exact workspace_isolated halone hbesides (by decide) hserved rfl {} {}

end Gapura.Control.Isolation
