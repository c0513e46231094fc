import Gapura.Core.Translate.Tables

/-! # Nothing crosses a namespace without consent

Every listener served was declared by a Gateway of the snapshot. The routes on
it are ones it admits and that name it, the Services their rules send to and the
Secret its certificate is from are in the same namespace or granted. The table of
clusters is shared by all routes, so this rests on keys telling Services apart. -/
namespace Gapura.Core.Translate
open Lib.Checks (bind_eq_ok)
open Input Status
open Std (TreeMap)

instance (snap : Snapshot) (ns : String) (sref : ObjectRef) : Decidable (MaySend snap ns sref) :=
  inferInstanceAs (Decidable (_ ∨ _))

/-- A Gateway in namespace `ns` may terminate TLS with the Secret. -/
def MayUse (snap : Snapshot) (ns : String) (sref : ObjectRef) : Prop :=
  sref.namespace = ns ∨
    permits snap ⟨gatewayGroup, "Gateway", ns⟩ ⟨"", "Secret", sref.namespace, sref.name⟩ = true

/-! ## Certificates -/

/-- A bundle read from a Secret that Gateways of `ns` may use. -/
def BundleFrom (env : Env) (snap : Snapshot) (ns : String) (bundle : TlsBundle) : Prop :=
  ∃ sref secret, snap.secrets[sref]? = some secret ∧ MayUse snap ns sref ∧
    bundle.secret = sref.text ∧ pemField env secret "tls.crt" "CERTIFICATE" = .ok bundle.certPem ∧
    pemField env secret "tls.key" "PRIVATE KEY" = .ok bundle.keyPem

variable {bundle : TlsBundle} {gwRef : ObjectRef}

theorem resolveTls_eq_ok {env : Env} {l : Listener} {snap : Snapshot}
    (h : resolveTls env l gwRef snap = .ok bundle) :
    BundleFrom env snap gwRef.namespace bundle := by
  unfold resolveTls at h
  simp only at h
  split at h
  · cases h
  split at h
  · cases h
  rename_i cref hcref
  split at h
  · cases h
  split at h
  · cases h
  rename_i hpermit
  split at h
  · cases h
  rename_i secret hsecret
  split at h
  · cases h
  obtain ⟨certPem, hcert, h⟩ := bind_eq_ok.mp h
  obtain ⟨keyPem, hkey, h⟩ := bind_eq_ok.mp h
  cases h
  refine ⟨_, secret, hsecret, ?_, rfl, hcert, hkey⟩
  by_cases hns : cref.namespace.getD gwRef.namespace = gwRef.namespace
  · exact .inl hns
  · right
    simpa [hns] using hpermit

theorem bundle_of_buildListener {env : Env} {snap : Snapshot} {settings : Settings} {l : Listener}
    (h : (buildListener env gwRef snap settings l).tls = some bundle) :
    BundleFrom env snap gwRef.namespace bundle := by
  have hjoin : (listenerTls env l gwRef snap).toOption.join = some bundle := h
  unfold listenerTls at hjoin
  split at hjoin
  · cases hres : resolveTls env l gwRef snap with
    | error r => simp [hres, Except.map, Except.toOption] at hjoin
    | ok b =>
      obtain rfl : b = bundle := by simpa [hres, Except.map, Except.toOption] using hjoin
      exact resolveTls_eq_ok hres
  · simp [Except.toOption] at hjoin

/-! ## Where a served listener is from -/

section Origin
variable {env : Env} {snap : Snapshot} {settings : Settings} {k : Nat} {pos : Nat × Nat}
  {gw : GatewayBuild} {l : ListenerBuild} {cfg : ListenerConfig} {atts : List Att}

/-- The Gateway and the listener it declares. -/
theorem Serves.declared (h : Serves env snap settings k pos gw l cfg atts) :
    ∃ gateway declared, snap.gateways[gw.ref]? = some gateway ∧ declared ∈ gateway.listeners ∧
      l.blank = { buildListener env gw.ref snap settings declared with conflict := l.conflict } := by
  have hran : Ran env snap _ _ _ (attached env snap settings) := attached_ran
  obtain ⟨gw₀, hgw₀, hshape⟩ := hran.shape.symm.gateway h.emits.gateway
  obtain ⟨l₀, hl₀, hblank⟩ := listener_of_shape hshape h.emits.listener
  obtain ⟨gateway, hgateway, hbuilt⟩ := gateway_of_mem_build (List.mem_of_getElem? hgw₀)
  have href : gw₀.ref = gw.ref := congrArg Shape.ref hshape
  rw [hbuilt] at hl₀
  obtain ⟨declared, hdeclared, hl₀⟩ := listener_of_buildGateway hl₀
  refine ⟨gateway, declared, href ▸ hgateway, List.mem_of_getElem? hdeclared, ?_⟩
  have hconflict : l₀.conflict = l.conflict := by
    show l₀.blank.conflict = l.blank.conflict
    rw [hblank]
  rw [← hblank, ← hconflict, hl₀, href]
  rfl

/-- A parentRef that names a listener of a Gateway. -/
structure NamesListener (pref : ParentReference) (ns : String) (gref : ObjectRef) (l : Listener) :
    Prop where
  kind : pref.group.getD gatewayGroup = gatewayGroup ∧ pref.kind.getD "Gateway" = "Gateway"
  gateway : gref = ⟨pref.namespace.getD ns, pref.name⟩
  sectionName : ∀ s, pref.sectionName = some s → s = l.name
  port : ∀ p, pref.port = some p → p = l.port

/-- A route on the listener is one it admits and that names it. -/
theorem Serves.admitted (h : Serves env snap settings k pos gw l cfg atts) {a : Att}
    (ha : a ∈ atts) {declared : Listener}
    (hl : l.blank = { buildListener env gw.ref snap settings declared with conflict := l.conflict }) :
    namespaceOk declared.allowedRoutes gw.ref.namespace a.rref snap = true ∧
      kindOk declared.allowedRoutes = true ∧
      ∃ pref ∈ a.route.parentRefs, NamesListener pref a.rref.namespace gw.ref declared := by
  have hran : Ran env snap _ _ _ (attached env snap settings) := attached_ran
  obtain ⟨pref, hpref, ht⟩ := (h.carries.genuine a ha).takes
  obtain ⟨hours, gw₁, l₁, hgw₁, hl₁, hverdict⟩ := ht.congr hran.shape
  obtain rfl : gw₁ = gw := Option.mem_unique hgw₁ h.emits.gateway
  obtain rfl : l₁ = l := Option.mem_unique hl₁ h.emits.listener
  obtain ⟨hselects, hadmits, -⟩ := admits_of_hosts hverdict
  obtain ⟨gw', hgw', href, hkind⟩ := gateway_of_ourGateway hours
  obtain rfl : gw' = gw₁ := Option.mem_unique hgw' hgw₁
  have hallowed : l₁.allowed = declared.allowedRoutes := congrArg ListenerBuild.allowed hl
  have hname : l₁.name = declared.name := congrArg ListenerBuild.name hl
  have hport : l₁.port = declared.port := congrArg ListenerBuild.port hl
  simp only [admits, Bool.and_eq_true, hallowed] at hadmits
  simp only [selects, Bool.and_eq_true, Option.all_eq_true, beq_iff_eq, hname, hport] at hselects
  exact ⟨hadmits.1, hadmits.2, pref, hpref, hkind, href, hselects.1, hselects.2⟩

/-- A cluster a rule sends to, as the Service port behind it. -/
theorem Serves.sends (h : Serves env snap settings k pos gw l cfg atts)
    (hplain : PlainNamespaces snap.services) {a : Att} (ha : a ∈ atts) {rule : RouteRule}
    (hrule : rule ∈ a.rules) {key : String} (hkey : key ∈ clusterRefs rule) :
    ∃ sref port c, key = clusterKey sref port ∧ MaySend snap a.rref.namespace sref ∧
      (translate env snap settings).config.clusters[key]? = some c ∧ BuiltFor snap sref port c ∧
      ∀ sref' port', snap.services.contains sref' = true → key = clusterKey sref' port' →
        sref' = sref ∧ port' = port := by
  have hran : Ran env snap _ _ _ (attached env snap settings) := attached_ran
  obtain ⟨hin, sref, port, hnames⟩ := (h.carries.genuine a ha).rules.reaches rule hrule key hkey
  obtain ⟨svc, hsvc, -⟩ := hnames.port
  rw [TreeMap.contains_eq_isSome_getElem?, Option.isSome_iff_exists] at hin
  obtain ⟨c, hc⟩ := hin
  have hmem : rule ∈ cfg.rules := by
    rw [h.rules]
    exact List.mem_flatMap.mpr ⟨a, ha, hrule⟩
  refine ⟨sref, port, c, hnames.key, hnames.consent, getElem?_clusters.mpr
    ⟨hc, cfg, List.mem_of_getElem? h.emits.config, rule, hmem, hkey⟩,
    hran.built.built_of_key hplain hsvc (hnames.key ▸ hc), fun sref' port' hin' hkey' => ?_⟩
  rw [TreeMap.contains_eq_isSome_getElem?, Option.isSome_iff_exists] at hin'
  obtain ⟨svc', hsvc'⟩ := hin'
  exact clusterKey_inj (hplain.slashless hsvc') (hplain.slashless hsvc)
    (hkey'.symm.trans hnames.key)

end Origin

/-- Every listener served is a declared one. Its certificate is from a Secret its
Gateway may use, its rules are of routes that it admits and that name it, and
they send to Services the route may send to. -/
theorem nothing_without_consent (env : Env) (snap : Snapshot) (settings : Settings)
    (hroutes : PlainNamespaces snap.httpRoutes) (hservices : PlainNamespaces snap.services) :
    let config := (translate env snap settings).config
    ∀ cfg ∈ config.listeners, ∃ (gref : ObjectRef) (gateway : Gateway) (declared : Listener),
      snap.gateways[gref]? = some gateway ∧ declared ∈ gateway.listeners ∧
      cfg.id = gref.text ++ "/" ++ declared.name ∧
      (∀ bundle, cfg.tls = some bundle → BundleFrom env snap gref.namespace bundle) ∧
      ∀ rule ∈ cfg.rules,
        (∃ rref, snap.httpRoutes.contains rref = true ∧ rule.route = rref.text) ∧
        ∀ (rref : ObjectRef) (route : HttpRoute), snap.httpRoutes[rref]? = some route →
          rule.route = rref.text →
          namespaceOk declared.allowedRoutes gref.namespace rref snap = true ∧
          kindOk declared.allowedRoutes = true ∧
          (∃ pref ∈ route.parentRefs, NamesListener pref rref.namespace gref declared) ∧
          ∀ key ∈ clusterRefs rule, ∃ sref port c, key = clusterKey sref port ∧
            MaySend snap rref.namespace sref ∧ config.clusters[key]? = some c ∧
            BuiltFor snap sref port c ∧
            ∀ sref' port', snap.services.contains sref' = true → key = clusterKey sref' port' →
              sref' = sref ∧ port' = port := by
  intro config cfg hcfg
  obtain ⟨k, hk⟩ := List.getElem?_of_mem hcfg
  obtain ⟨pos, gw, l, atts, hserves, -⟩ := serves_of_getElem hk
  obtain ⟨gateway, declared, hgateway, hdeclared, hl⟩ := hserves.declared
  have hname : l.name = declared.name := congrArg ListenerBuild.name hl
  have htls : l.tls = (buildListener env gw.ref snap settings declared).tls := by
    show l.blank.tls = _
    rw [hl]
  refine ⟨gw.ref, gateway, declared, hgateway, hdeclared, hname ▸ hserves.emits.id, ?_, ?_⟩
  · intro bundle hbundle
    rw [hserves.emits.tls, htls] at hbundle
    exact bundle_of_buildListener hbundle
  · intro rule hrule
    obtain ⟨a, ha, hmem, htext⟩ := hserves.exists_of_rule hrule
    have hroute := hserves.route ha
    constructor
    · refine ⟨a.rref, ?_, htext⟩
      rw [TreeMap.contains_eq_isSome_getElem?, hroute]
      rfl
    · intro rref route hroute' htext'
      -- the text of a reference names one route
      obtain rfl : a.rref = rref := text_inj (hroutes.slashless hroute) (hroutes.slashless hroute')
        (htext.symm.trans htext')
      obtain rfl : a.route = route := Option.mem_unique hroute hroute'
      obtain ⟨hns, hkind, hpref⟩ := hserves.admitted ha hl
      exact ⟨hns, hkind, hpref, fun key hkey => hserves.sends hservices ha hmem hkey⟩

/-- One of the rules sends to another namespace, which the grant there lets it. -/
theorem nothing_without_consent_cart :
    PlainNamespaces cartSnapshot.httpRoutes ∧ PlainNamespaces cartSnapshot.services ∧
    (∃ cfg ∈ (translate bareEnv cartSnapshot {}).config.listeners, ∃ rule ∈ cfg.rules,
      "bank/pay:80" ∈ clusterRefs rule) ∧
    ¬ MaySend { cartSnapshot with referenceGrants := ∅ } "shop" ⟨"bank", "pay"⟩ ∧
    ∀ cfg ∈ (translate bareEnv cartSnapshot {}).config.listeners, ∀ rule ∈ cfg.rules,
      rule.route = "shop/cart" → ∀ key ∈ clusterRefs rule, ∃ sref port,
        key = clusterKey sref port ∧ MaySend cartSnapshot "shop" sref := by
  have hroutes : PlainNamespaces cartSnapshot.httpRoutes := by decide +kernel
  have hservices : PlainNamespaces cartSnapshot.services := by decide +kernel
  have hroute : cartSnapshot.httpRoutes[(⟨"shop", "cart"⟩ : ObjectRef)]? = some cartRoute := rfl
  refine ⟨hroutes, hservices, by decide +kernel, by decide +kernel,
    fun cfg hcfg rule hrule htext key hkey => ?_⟩
  obtain ⟨gref, gateway, declared, -, -, -, -, hrules⟩ :=
    nothing_without_consent bareEnv cartSnapshot {} hroutes hservices cfg hcfg
  obtain ⟨-, -, -, hsends⟩ := (hrules rule hrule).2 ⟨"shop", "cart"⟩ _ hroute htext
  obtain ⟨sref, port, c, hkey, hsend, -⟩ := hsends key hkey
  exact ⟨sref, port, hkey, hsend⟩

/-- With slashes in namespaces: the only Service behind the cluster that the route
of `a/b` sends to is one of namespace `a`, and nothing grants that. -/
theorem cluster_without_consent :
    let config := (translate bareEnv slashSnapshot {}).config
    ∃ cfg ∈ config.listeners, ∃ rule ∈ cfg.rules, rule.route = (⟨"a/b", "second"⟩ : ObjectRef).text ∧
      ∃ key ∈ clusterRefs rule, ∃ c, config.clusters[key]? = some c ∧
        BuiltFor slashSnapshot ⟨"a", "b/c"⟩ 80 c ∧ ¬ BuiltFor slashSnapshot ⟨"a/b", "c"⟩ 80 c ∧
        ¬ MaySend slashSnapshot "a/b" ⟨"a", "b/c"⟩ := by
  have hrule : ∃ cfg ∈ (translate bareEnv slashSnapshot {}).config.listeners, ∃ rule ∈ cfg.rules,
      rule.route = (⟨"a/b", "second"⟩ : ObjectRef).text ∧ "a/b/c:80" ∈ clusterRefs rule := by
    decide +kernel
  obtain ⟨cfg, hcfg, rule, hmem, htext, hkey⟩ := hrule
  refine ⟨cfg, hcfg, rule, hmem, htext, "a/b/c:80", hkey,
    ⟨[], some { sni := "b/c.a.svc", caPem := none, insecure := true }, none⟩, ?_, ?_, ?_, ?_⟩
  · decide +kernel
  · decide +kernel
  · decide +kernel
  · decide +kernel

end Gapura.Core.Translate
