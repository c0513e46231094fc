import Gapura.Core.Translate.Precedence

/-! # What a route's status says is served

The status of a route counts the listeners a parentRef gets to; the rules go to
those that are programmed and that the route did not attach to before. A route
with a rule in the configuration has an accepted parent, and an accepted parent's
listeners carry every rule of the route, as long as the keys that a route
remembers listeners by tell them apart. -/
namespace Gapura.Core.Translate
open Lib.Keys Input Status
open Std (TreeMap)

instance (p : RouteParentStatus) : Decidable (isAccepted p) :=
  inferInstanceAs (Decidable (∃ c ∈ p.conditions, c.type = .accepted ∧ c.status = .true))

/-! ## The patches of a route -/

/-- The parents a patch lists, if it is one of the route. -/
def parentsIn (rref : ObjectRef) : StatusPatch → Option (List RouteParentStatus)
  | .httpRoute ref _ parents => if ref = rref then some parents else none
  | _ => none

def routePatches (status : List StatusPatch) (rref : ObjectRef) : List (List RouteParentStatus) :=
  status.filterMap (parentsIn rref)

theorem mem_routePatches {status : List StatusPatch} {rref : ObjectRef}
    {parents : List RouteParentStatus} :
    parents ∈ routePatches status rref ↔ ∃ uid, .httpRoute rref uid parents ∈ status := by
  rw [routePatches, List.mem_filterMap]
  constructor
  · intro h
    obtain ⟨patch, hpatch, hsome⟩ := h
    cases patch with
    | gatewayClass name uid conditions features => cases hsome
    | gateway ref uid addresses conditions listeners => cases hsome
    | httpRoute ref uid parents' =>
      simp only [parentsIn] at hsome
      split at hsome
      · rename_i href
        obtain rfl := Option.some.inj hsome
        exact ⟨uid, href ▸ hpatch⟩
      · cases hsome
  · intro h
    obtain ⟨uid, hpatch⟩ := h
    exact ⟨_, hpatch, if_pos rfl⟩

theorem filterMap_modify {α β : Type} {f : α → Option β} {g : α → α} (h : ∀ a, f (g a) = f a)
    (l : List α) (i : Nat) : (l.modify i g).filterMap f = l.filterMap f := by
  induction l generalizing i with
  | nil => simp
  | cons a rest ih =>
    cases i with
    | zero => simp [List.filterMap_cons, h]
    | succ i => simp [List.filterMap_cons, ih]

/-- Noting a port touches no route's patch. -/
theorem routePatches_noteRemappedPort (status : List StatusPatch) (l : ListenerConfig)
    (rref : ObjectRef) :
    routePatches (noteRemappedPort status l) rref = routePatches status rref := by
  unfold noteRemappedPort
  split
  · split
    · refine filterMap_modify (fun patch => ?_) status _
      cases patch <;> rfl
    · rfl
  · rfl

/-- A route's patches are those that attaching made. -/
theorem routePatches_translate (env : Env) (snap : Snapshot) (settings : Settings)
    (rref : ObjectRef) : routePatches (translate env snap settings).status rref =
      routePatches (attached env snap settings).status rref := by
  have hnoted : ∀ (listeners : List ListenerConfig) (status : List StatusPatch),
      routePatches (listeners.foldl noteRemappedPort status) rref = routePatches status rref := by
    intro listeners
    induction listeners with
    | nil => exact fun _ => rfl
    | cons l rest ih => exact fun status => (ih _).trans (routePatches_noteRemappedPort status l rref)
  have hothers : routePatches ((acceptClasses snap settings).map classPatch ++
      (attached env snap settings).gateways.map (gatewayPatch env settings)) rref = [] := by
    rw [routePatches, List.filterMap_eq_nil_iff]
    intro patch hpatch
    rcases List.mem_append.mp hpatch with hpatch | hpatch
    · obtain ⟨p, -, rfl⟩ := List.mem_map.mp hpatch
      rfl
    · obtain ⟨gw, -, rfl⟩ := List.mem_map.mp hpatch
      rfl
  calc routePatches (translate env snap settings).status rref
      = routePatches ((translate env snap settings).config.listeners.foldl noteRemappedPort
          ((acceptClasses snap settings).map classPatch ++
            (attached env snap settings).gateways.map (gatewayPatch env settings))) rref ++
        routePatches (attached env snap settings).status rref := List.filterMap_append
    _ = routePatches (attached env snap settings).status rref := by
      rw [hnoted, hothers, List.nil_append]

/-! ## Keys of listeners -/

theorem listenerKey_inj {a b : ObjectRef} {l l' : ListenerBuild}
    (ha : Slashless a.namespace ∧ Slashless a.name) (hb : Slashless b.namespace ∧ Slashless b.name)
    (h : listenerKey a l = listenerKey b l') : a = b ∧ l.name = l'.name := by
  have hchars := congrArg String.toList h
  simp only [listenerKey, ObjectRef.text, String.toList_append, List.append_assoc] at hchars
  obtain ⟨hns, hrest⟩ := append_cons_inj ha.1 hb.1 hchars
  obtain ⟨hname, hlistener⟩ := append_cons_inj ha.2 hb.2 hrest
  refine ⟨?_, String.toList_inj.mp hlistener⟩
  cases a
  cases b
  rw [ObjectRef.mk.injEq]
  exact ⟨String.toList_inj.mp hns, String.toList_inj.mp hname⟩

/-- Listener names are unique within each Gateway. -/
def NamesApart (snap : Snapshot) : Prop :=
  ∀ p ∈ snap.gateways.toList, (p.2.listeners.map (·.name)).Nodup

instance (snap : Snapshot) : Decidable (NamesApart snap) :=
  inferInstanceAs (Decidable (∀ p ∈ snap.gateways.toList, (p.2.listeners.map (·.name)).Nodup))

theorem Marks.names {ls ls' : List ListenerBuild} (h : Marks ls ls') :
    ls'.map (·.name) = ls.map (·.name) := by
  refine List.ext_getElem (by simpa using h.length) fun i hi' hi => ?_
  have hi : i < ls.length := by simpa using hi
  obtain ⟨l', hl', heq, -⟩ := h.each i ls[i] (List.getElem?_eq_getElem hi)
  have hname : l'.name = ls[i].name := by rw [heq]
  obtain ⟨_, rfl⟩ := List.getElem?_eq_some_iff.mp hl'
  rw [List.getElem_map, List.getElem_map, hname]

section Keys
variable {env : Env} {snap : Snapshot} {settings : Settings}

theorem nodup_names (hnames : NamesApart snap) {gw : GatewayBuild}
    (hgw : gw ∈ ourGateways env snap settings) : (gw.listeners.map (·.name)).Nodup := by
  obtain ⟨gateway, hgateway, hbuilt⟩ := gateway_of_mem_build hgw
  have hmarks : Marks (gateway.listeners.map (buildListener env gw.ref snap settings))
      gw.listeners := by
    rw [hbuilt]
    exact marks_foldl _ _
  have hmem : (gw.ref, gateway) ∈ snap.gateways.toList :=
    TreeMap.mem_toList_iff_getElem?_eq_some.mpr hgateway
  have hdeclared := hnames _ hmem
  rw [hmarks.names, List.map_map]
  exact hdeclared

theorem keysApart_ourGateways (hplain : PlainRefs snap.gateways) (hnames : NamesApart snap) :
    KeysApart (ourGateways env snap settings) := by
  intro pos pos' gw gw' l l' hgw hl hgw' hl' hkey
  have hmem := List.mem_of_getElem? hgw
  have hmem' := List.mem_of_getElem? hgw'
  obtain ⟨gateway, hgateway, -⟩ := gateway_of_mem_build hmem
  obtain ⟨gateway', hgateway', -⟩ := gateway_of_mem_build hmem'
  obtain ⟨href, hname⟩ := listenerKey_inj (hplain.slashless hgateway)
    (hplain.slashless hgateway') hkey
  -- one reference stands at one index, and so does one name
  have hgi : pos.1 = pos'.1 := by
    obtain ⟨hlt, -⟩ := List.getElem?_eq_some_iff.mp hgw
    have hrefs : ((ourGateways env snap settings).map (·.ref)).Nodup := nodup_refs_build
    refine (List.getElem?_inj (by simpa using hlt) hrefs).mp ?_
    rw [List.getElem?_map, List.getElem?_map, hgw, hgw']
    exact congrArg some href
  obtain rfl : gw = gw' := by
    rw [hgi, hgw'] at hgw
    exact (Option.some.inj hgw).symm
  have hli : pos.2 = pos'.2 := by
    obtain ⟨hlt, -⟩ := List.getElem?_eq_some_iff.mp hl
    refine (List.getElem?_inj (by simpa using hlt) (nodup_names hnames hmem)).mp ?_
    rw [List.getElem?_map, List.getElem?_map, hl, hl']
    exact congrArg some hname
  exact Prod.ext hgi hli

end Keys

/-! ## Status and rules -/

/-- Some hostname the route has on the listener is left to it. -/
def Unclaimed (siblings : List Sibling) (pos : Nat × Nat) (route : HttpRoute)
    (l : ListenerBuild) : Prop :=
  ∃ hosts, Hostname.intersect l.hostname route.hostnames = some hosts ∧
    (hosts = [] ∨ ∃ h ∈ hosts, claims siblings pos l h = false)

theorem hostsAt_of_unclaimed {siblings : List Sibling} {pos : Nat × Nat} {route : HttpRoute}
    {l : ListenerBuild} (h : Unclaimed siblings pos route l) :
    ∃ hosts, hostsAt siblings pos route l = .hosts hosts := by
  obtain ⟨hosts, hshared, hleft⟩ := h
  have hkept : ∃ kept, yieldToSiblings hosts pos l siblings = some kept := by
    unfold yieldToSiblings
    rcases hleft with hnone | ⟨h, hmem, hfree⟩
    · exact ⟨hosts, by simp [hnone]⟩
    · have hin : h ∈ hosts.filter fun h => !claims siblings pos l h :=
        List.mem_filter.mpr ⟨hmem, by simp [hfree]⟩
      rw [if_neg (by simpa using List.ne_nil_of_mem hmem)]
      simp only
      rw [if_neg (by simpa using List.ne_nil_of_mem hin)]
      exact ⟨_, rfl⟩
  obtain ⟨kept, hkept⟩ := hkept
  refine ⟨kept, ?_⟩
  simp only [hostsAt, hshared, hkept]

section Honest
variable {env : Env} {snap : Snapshot} {settings : Settings} {rref : ObjectRef} {route : HttpRoute}

variable {parents : List RouteParentStatus}

/-- What a route's patch lists, from the snapshot alone. -/
theorem parentsOf_patch (hservices : PlainNamespaces snap.services)
    (hroute : snap.httpRoutes[rref]? = some route)
    (h : parents ∈ routePatches (translate env snap settings).status rref) :
    ParentsOf env snap (siblings (ourGateways env snap settings) settings)
      (ourGateways env snap settings) ∅ rref route parents := by
  have hran : Ran env snap _ _ _ (attached env snap settings) := attached_ran
  rw [routePatches_translate] at h
  obtain ⟨uid, hpatch⟩ := mem_routePatches.mp h
  obtain ⟨route', t, hmem, hfilled, hparents⟩ := hran.patched rref uid parents hpatch
  have hsame := TreeMap.mem_toList_iff_getElem?_eq_some.mp hmem
  obtain rfl : route' = route := Option.mem_unique hsame hroute
  refine ⟨fun parent hparent => ?_, hparents.named⟩
  rw [← compile_of_filled hservices hfilled]
  exact hparents.each parent hparent

/-- A route with a rule on a listener has a patch, and each patch it has accepts
one of its parents. -/
theorem accepted_of_rule (hroutes : PlainNamespaces snap.httpRoutes)
    (hservices : PlainNamespaces snap.services) (hroute : snap.httpRoutes[rref]? = some route)
    {cfg : ListenerConfig} (hcfg : cfg ∈ (translate env snap settings).config.listeners)
    {rule : RouteRule} (hrule : rule ∈ cfg.rules) (htext : rule.route = rref.text) :
    routePatches (translate env snap settings).status rref ≠ [] ∧
      ∀ parents ∈ routePatches (translate env snap settings).status rref,
        ∃ parent ∈ parents, isAccepted parent := by
  have hran : Ran env snap _ _ _ (attached env snap settings) := attached_ran
  obtain ⟨k, hk⟩ := List.getElem?_of_mem hcfg
  obtain ⟨pos, gw, l, atts, hserves, -⟩ := serves_of_getElem hk
  obtain ⟨a, ha, -, htext'⟩ := hserves.exists_of_rule hrule
  have hsource := hserves.route ha
  obtain rfl : a.rref = rref := text_inj (hroutes.slashless hsource) (hroutes.slashless hroute)
    (htext'.symm.trans htext)
  obtain rfl : a.route = route := Option.mem_unique hsource hroute
  obtain ⟨pref, hpref, ht⟩ := (hserves.carries.genuine a ha).takes
  constructor
  · have hmem : (a.rref, a.route) ∈ snap.httpRoutes.toList :=
      TreeMap.mem_toList_iff_getElem?_eq_some.mpr hroute
    obtain ⟨uid, parents, hpatch⟩ := hran.named _ hmem pref hpref pos.1 ht.1
    rw [routePatches_translate]
    exact List.ne_nil_of_mem (mem_routePatches.mpr ⟨uid, hpatch⟩)
  · intro parents hparents
    have hlisted := parentsOf_patch hservices hroute hparents
    obtain ⟨parent, hparent, rfl⟩ := hlisted.named pref hpref pos.1 ht.1
    obtain ⟨-, gi, hours, haccepted⟩ := hlisted.each parent hparent
    obtain ⟨c, hcompiled, -⟩ := hserves.rules_of_mem hroutes hservices ha
    obtain rfl : gi = pos.1 := Option.mem_unique hours ht.1
    exact ⟨parent, hparent, haccepted.mpr ⟨⟨c, hcompiled⟩, pos.2, a.hosts, ht⟩⟩

/-- A programmed listener that an accepted parent gets to carries the route. -/
theorem carries_of_accepted (hgateways : PlainRefs snap.gateways) (hnames : NamesApart snap)
    (hroutes : PlainNamespaces snap.httpRoutes) (hservices : PlainNamespaces snap.services)
    (hroute : snap.httpRoutes[rref]? = some route)
    (hparents : parents ∈ routePatches (translate env snap settings).status rref)
    {parent : RouteParentStatus} (hparent : parent ∈ parents) (haccepted : isAccepted parent)
    {pos : Nat × Nat} {gw : GatewayBuild} {l : ListenerBuild}
    (hgw : (ourGateways env snap settings)[pos.1]? = some gw)
    (href : gw.ref = ⟨parent.parentRef.namespace.getD rref.namespace, parent.parentRef.name⟩)
    (hrejected : gw.rejected = none) (hl : gw.listeners[pos.2]? = some l)
    (hprogrammed : l.programmed = true) (hselects : selects parent.parentRef l = true)
    (hadmits : admits snap gw.ref.namespace rref l = true)
    (hleft : Unclaimed (siblings (ourGateways env snap settings) settings) pos route l) :
    ∃ cfg ∈ (translate env snap settings).config.listeners,
      cfg.id = gw.ref.text ++ "/" ++ l.name ∧
      ∃ c, (compile env snap route rref ∅).1 = .ok c ∧
        cfg.rules.filter (fun rule => rule.route = rref.text) = c.rules := by
  have hran : Ran env snap _ _ _ (attached env snap settings) := attached_ran
  obtain ⟨hpref, gi, hours, hiff⟩ := (parentsOf_patch hservices hroute hparents).each parent hparent
  obtain ⟨⟨c, hcompiled⟩, -⟩ := hiff.mp haccepted
  -- the parentRef names this Gateway, so the route gets to this listener
  obtain ⟨gw', hgw', href', -⟩ := gateway_of_ourGateway hours
  have hgi : pos.1 = gi := by
    obtain ⟨hlt, -⟩ := List.getElem?_eq_some_iff.mp hgw
    have hrefs : ((ourGateways env snap settings).map (·.ref)).Nodup := nodup_refs_build
    refine (List.getElem?_inj (by simpa using hlt) hrefs).mp ?_
    rw [List.getElem?_map, List.getElem?_map, hgw, hgw']
    exact congrArg some (href.trans href'.symm)
  obtain ⟨hosts, hhosts⟩ := hostsAt_of_unclaimed hleft
  have htakes : Takes snap (siblings (ourGateways env snap settings) settings)
      (ourGateways env snap settings) rref route route.parentRefs pos hosts := by
    refine ⟨parent.parentRef, hpref, hgi ▸ hours, gw, l, hgw, hl, ?_⟩
    simp [verdict, hselects, hadmits, hhosts]
  -- its listener is served, and has the rules
  obtain ⟨gw₁, hgw₁, hshape⟩ := hran.shape.gateway hgw
  obtain ⟨l₁, hl₁, hblank⟩ := listener_of_shape hshape hl
  have hprogrammed₁ : l₁.programmed = true := (programmed_of_blank hblank).trans hprogrammed
  have hplaced : (pos, gw₁, l₁) ∈ placedListeners (attached env snap settings).gateways :=
    mem_placedListeners.mpr ⟨hgw₁, hl₁, (congrArg Shape.rejected hshape).trans hrejected,
      hprogrammed₁⟩
  obtain ⟨k, hk⟩ := List.getElem?_of_mem hplaced
  obtain ⟨cfg, atts, hserves, -⟩ := serves_of_placed hk
  have hmem : (rref, route) ∈ snap.httpRoutes.toList :=
    TreeMap.mem_toList_iff_getElem?_eq_some.mpr hroute
  obtain ⟨t, hfilled, htaken⟩ := hserves.carries.taken (keysApart_ourGateways hgateways hnames)
    hprogrammed₁ _ hmem hosts htakes
  obtain ⟨a, ha, hsource⟩ := htaken c ((compile_of_filled hservices hfilled).trans hcompiled)
  cases hsource
  refine ⟨cfg, List.mem_of_getElem? hserves.emits.config, ?_,
    hserves.rules_of_mem hroutes hservices ha⟩
  have hname : l₁.name = l.name := by
    show l₁.blank.name = l.blank.name
    rw [hblank]
  rw [hserves.emits.id, hname, show gw₁.ref = gw.ref from congrArg Shape.ref hshape]

end Honest

/-- A route's rules are in the configuration only if a parent of its patch says
so, and a parent that does stands for every listener it gets to. -/
theorem status_honest (env : Env) (snap : Snapshot) (settings : Settings)
    (hgateways : PlainRefs snap.gateways) (hnames : NamesApart snap)
    (hroutes : PlainNamespaces snap.httpRoutes) (hservices : PlainNamespaces snap.services)
    {rref : ObjectRef} {route : HttpRoute} (hroute : snap.httpRoutes[rref]? = some route) :
    let out := translate env snap settings
    ((∃ cfg ∈ out.config.listeners, ∃ rule ∈ cfg.rules, rule.route = rref.text) →
      routePatches out.status rref ≠ [] ∧
      ∀ parents ∈ routePatches out.status rref, ∃ parent ∈ parents, isAccepted parent) ∧
    (∀ parents ∈ routePatches out.status rref, ∀ parent ∈ parents, isAccepted parent →
      ∀ (pos : Nat × Nat) (gw : GatewayBuild) (l : ListenerBuild),
        (ourGateways env snap settings)[pos.1]? = some gw →
        gw.ref = ⟨parent.parentRef.namespace.getD rref.namespace, parent.parentRef.name⟩ →
        gw.rejected = none → gw.listeners[pos.2]? = some l → l.programmed = true →
        selects parent.parentRef l = true → admits snap gw.ref.namespace rref l = true →
        Unclaimed (siblings (ourGateways env snap settings) settings) pos route l →
        ∃ cfg ∈ out.config.listeners, cfg.id = gw.ref.text ++ "/" ++ l.name ∧
          ∃ c, (compile env snap route rref ∅).1 = .ok c ∧
            cfg.rules.filter (fun rule => rule.route = rref.text) = c.rules) := by
  constructor
  · intro h
    obtain ⟨cfg, hcfg, rule, hrule, htext⟩ := h
    exact accepted_of_rule hroutes hservices hroute hcfg hrule htext
  · intro parents hparents parent hparent haccepted pos gw l hgw href hrejected hl hprogrammed
      hselects hadmits hleft
    exact carries_of_accepted hgateways hnames hroutes hservices hroute hparents hparent haccepted
      hgw href hrejected hl hprogrammed hselects hadmits hleft

/-- The cart is served, and its one parent says so. -/
theorem status_honest_cart :
    let out := translate bareEnv cartSnapshot {}
    (∃ cfg ∈ out.config.listeners, ∃ rule ∈ cfg.rules, rule.route = "shop/cart") ∧
    routePatches out.status ⟨"shop", "cart"⟩ ≠ [] ∧
    ∀ parents ∈ routePatches out.status ⟨"shop", "cart"⟩, ∃ parent ∈ parents, isAccepted parent := by
  have hserved : ∃ cfg ∈ (translate bareEnv cartSnapshot {}).config.listeners,
      ∃ rule ∈ cfg.rules, rule.route = (ObjectRef.mk "shop" "cart").text := by decide +kernel
  have hroute : cartSnapshot.httpRoutes[ObjectRef.mk "shop" "cart"]? = some cartRoute := rfl
  have hhonest := status_honest bareEnv cartSnapshot {} (by decide +kernel) (by decide +kernel)
    (by decide +kernel) (by decide +kernel) hroute
  exact ⟨hserved, hhonest.1 hserved⟩

/-- Gateways `b/c` of namespace `a` and `c` of namespace `a/b`, and a route that
names both. -/
def slashGateways : Snapshot :=
  { gatewayClasses := gapuraClass
    gateways := TreeMap.ofList [(⟨"a", "b/c"⟩, httpGateway [openListener]),
      (⟨"a/b", "c"⟩, httpGateway [openListener])] _
    httpRoutes := TreeMap.ofList [(⟨"shop", "cart"⟩,
      ({ parentRefs := [{ «namespace» := some "a", name := "b/c" },
           { «namespace» := some "a/b", name := "c" }]
         rules := [{}] } : HttpRoute))] _ }

/-- Both parents are accepted, and the second Gateway's listener, which is
programmed, selected, open to the route and not claimed, has none of its rules. -/
theorem accepted_without_rules :
    let out := translate bareEnv slashGateways {}
    let ours := ourGateways bareEnv slashGateways {}
    NamesApart slashGateways ∧
    routePatches out.status ⟨"shop", "cart"⟩ ≠ [] ∧
    (∀ parents ∈ routePatches out.status ⟨"shop", "cart"⟩,
      parents.length = 2 ∧ ∀ parent ∈ parents, isAccepted parent) ∧
    (∀ gw ∈ ours, gw.rejected = none ∧ ∀ l ∈ gw.listeners, l.programmed = true ∧
      selects { «namespace» := some "a/b", name := "c" } l = true ∧
      admits slashGateways gw.ref.namespace ⟨"shop", "cart"⟩ l = true ∧
      Hostname.intersect l.hostname [] = some []) ∧
    ours.map (·.ref) = [⟨"a", "b/c"⟩, ⟨"a/b", "c"⟩] ∧
    out.config.listeners.map (fun l => l.rules.length) = [1, 0] := by
  refine ⟨by decide +kernel, by decide +kernel, by decide +kernel, by decide +kernel,
    by decide +kernel, by decide +kernel⟩

end Gapura.Core.Translate
