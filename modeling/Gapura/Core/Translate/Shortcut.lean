import Gapura.Core.Translate.Tables

/-! # Leaving out the compilation of a route no listener admits

Compiling a route adds to the table of clusters that all routes share, so leaving
it out could show in what other routes are given. It does not, as long as cluster
keys tell Services apart: what the route would have added is what any other route
would add under that key, and keys no rule names are left out of the
configuration. -/
namespace Gapura.Core.Translate
open Input Status
open Std (TreeMap)

/-! ## The variant that compiles every route -/

/-- `attachRoute` without asking first whether a listener admits the route. -/
def attachRouteAlways (env : Env) (snap : Snapshot) (settings : Settings) (siblings : List Sibling)
    (s : AttachState) (p : ObjectRef × HttpRoute) : AttachState :=
  let (rref, route) := p
  if !route.parentRefs.any fun pref => (ourGateway s.gateways pref rref).isSome then
    if route.statusParents.any (· == settings.controllerName) then
      { s with status := s.status ++ [.httpRoute rref route.metadata.uid []] }
    else s
  else s.walked snap settings siblings rref route (compile env snap route rref s.clusters)

def attachAlways (env : Env) (snap : Snapshot) (settings : Settings)
    (gateways : List GatewayBuild) : AttachState :=
  snap.httpRoutes.toList.foldl (attachRouteAlways env snap settings (siblings gateways settings))
    { gateways, clusters := ∅, status := [] }

def translateAlways (env : Env) (snap : Snapshot) (settings : Settings) : Translation :=
  let s := attachAlways env snap settings (ourGateways env snap settings)
  let (config, status) := assemble env settings s.gateways s.clusters
    ((acceptClasses snap settings).map classPatch)
  { config, status := status ++ s.status }

section Always
variable {env : Env} {snap : Snapshot} {settings : Settings} {siblings : List Sibling}

theorem attachRouteAlways_step (env : Env) (snap : Snapshot) (settings : Settings)
    (siblings : List Sibling) (s : AttachState) (rref : ObjectRef) (route : HttpRoute) :
    RouteStep env snap siblings s (attachRouteAlways env snap settings siblings s (rref, route))
      rref route := by
  unfold attachRouteAlways
  simp only
  split
  · rename_i hnone
    have hours : ∀ pref ∈ route.parentRefs, ourGateway s.gateways pref rref = none := by
      simpa using hnone
    split
    · exact .skip hours rfl rfl (.inr ⟨_, rfl⟩)
    · exact .skip hours rfl rfl (.inl rfl)
  · exact walk_step (fun c hc => compile_refs hc) (compile_spec env snap route rref s.clusters).1
      fun _ _ _ => rfl

variable {gs : List GatewayBuild} {ls : List ListenerBuild} {key : String}

theorem attachAlways_ran (hfresh : Fresh gs) :
    Ran env snap (Translate.siblings gs settings) gs snap.httpRoutes.toList
      (attachAlways env snap settings gs) :=
  Lib.Stateful.foldl_prefix (.start hfresh)
    (fun _ p s h => h.step (attachRouteAlways_step env snap settings _ s p.1 p.2)) _

/-! ## A route that no listener admits changes no listener -/

theorem attachListeners_unadmitted {ask : Asking} {pref : ParentReference} {gwRef : ObjectRef}
    {gi li : Nat} {attached : List String} {o : Outcome}
    (h : ∀ l ∈ ls, (selects pref l && admits ask.snap gwRef.namespace ask.rref l) = false) :
    (attachListeners ask pref gwRef gi li attached o ls).1 = ls := by
  induction ls generalizing li attached o with
  | nil => rfl
  | cons l rest ih =>
    have hone : attachOne ask pref gwRef (gi, li) attached l = (l, attached) := by
      rcases attachOne_cases ask pref gwRef (gi, li) attached l with ⟨hsame, -⟩ | ⟨hosts, hv, -⟩
      · exact hsame
      · obtain ⟨hselects, hadmits, -⟩ := admits_of_hosts hv
        have hrefused := h l List.mem_cons_self
        rw [hselects, hadmits] at hrefused
        cases hrefused
    rw [attachListeners, hone, ih fun l' hl' => h l' (List.mem_cons_of_mem _ hl')]

theorem withListeners_self {gw : GatewayBuild}
    (h : ls.map ListenerBuild.blank = gw.listeners.map ListenerBuild.blank)
    (hls : ls = gw.listeners) : gw.withListeners ls h = gw := by
  subst hls
  rfl

theorem attachParents_unadmitted {rref : ObjectRef} {route : HttpRoute}
    (h : anyListenerAdmits snap gs rref route = false) (compiled : Except Unsupported Compiled) :
    (attachParents snap settings siblings gs rref route compiled).gateways = gs := by
  unfold attachParents
  have hprefs : ∀ pref ∈ route.parentRefs, ∀ gi gw, ourGateway gs pref rref = some gi →
      gs[gi]? = some gw → ∀ l ∈ gw.listeners,
        (selects pref l && admits snap gw.ref.namespace rref l) = false := by
    intro pref hpref gi gw hours hgw l hl
    have hnone := List.any_eq_false.mp h pref hpref
    simp only [hours, Option.bind_some, hgw, Option.any_some, List.any_eq_true, not_exists,
      not_and] at hnone
    exact Bool.eq_false_iff.mpr (hnone l hl)
  refine List.foldlRecOn route.parentRefs _ (motive := fun s : Attaching => s.gateways = gs) rfl ?_
  intro s hs pref hpref
  unfold attachParent
  simp only [hs]
  split
  · exact hs
  · rename_i gi hours
    split
    · exact hs
    · rename_i gw hgw
      have hsame : (attachToGateway { snap, siblings, rref, route, compiled := compiled.toOption }
          pref gi gw s.attached).1 = gw :=
        withListeners_self (attachListeners_blank ..)
          (attachListeners_unadmitted (hprefs pref hpref gi gw hours hgw))
      rw [hsame]
      exact List.ext_getElem? fun i => by
        rw [List.getElem?_set]
        split
        · rename_i heq
          subst heq
          split
          · exact hgw.symm
          · rename_i hlt
            rw [List.getElem?_eq_none (by omega)]
        · rfl

/-! ## Both runs side by side -/

/-- The same Gateways, and clusters that compiling filled. -/
structure Alike (snap : Snapshot) (s s' : AttachState) : Prop where
  gateways : s.gateways = s'.gateways
  filled : Grows snap ∅ s.clusters
  filled' : Grows snap ∅ s'.clusters

theorem Alike.step (hplain : PlainNamespaces snap.services) {s s' : AttachState}
    (h : Alike snap s s') (p : ObjectRef × HttpRoute) :
    Alike snap (attachRoute env snap settings siblings s p)
      (attachRouteAlways env snap settings siblings s' p) := by
  obtain ⟨rref, route⟩ := p
  have hgrows := (attachRoute_step env snap settings siblings s rref route).grows
  have hgrows' := (attachRouteAlways_step env snap settings siblings s' rref route).grows
  refine ⟨?_, h.filled.trans hgrows, h.filled'.trans hgrows'⟩
  unfold attachRoute attachRouteAlways AttachState.walked
  simp only [h.gateways]
  split
  · split
    · rfl
    · exact h.gateways
  · simp only
    unfold compiledFor
    rw [h.gateways]
    split
    · rw [compile_of_filled hplain h.filled, compile_of_filled hplain h.filled']
    · rename_i hrefused
      have hnone := Bool.eq_false_iff.mpr hrefused
      rw [attachParents_unadmitted hnone, attachParents_unadmitted hnone]

theorem attached_alike (hplain : PlainNamespaces snap.services) (gs : List GatewayBuild) :
    Alike snap (attach env snap settings gs) (attachAlways env snap settings gs) :=
  List.foldl_rel ⟨rfl, .refl snap ∅, .refl snap ∅⟩ fun p _ _ _ h => h.step hplain p

/-! ## The clusters that are served -/

/-- A cluster some served rule sends to is in the table. -/
theorem Ran.used {done : List (ObjectRef × HttpRoute)} {s : AttachState}
    (h : Ran env snap siblings gs done s)
    (hkey : key ∈ usedClusters (emitted settings s.gateways)) : s.clusters.contains key = true := by
  obtain ⟨e, he, hkey⟩ := List.mem_flatMap.mp hkey
  obtain ⟨rule, hrule, hkey⟩ := List.mem_flatMap.mp hkey
  obtain ⟨gw, hgw, he⟩ := List.mem_flatMap.mp he
  obtain ⟨l, hl, he⟩ := List.mem_filterMap.mp he
  have hrules : e.listener.rules = l.rules := by
    unfold emit at he
    split at he
    · obtain ⟨protocol, -, rfl⟩ := Option.map_eq_some_iff.mp he
      rfl
    · cases he
  obtain ⟨gi, hgi⟩ := List.getElem?_of_mem hgw
  obtain ⟨li, hli⟩ := List.getElem?_of_mem hl
  obtain ⟨atts, hcarries⟩ : ∃ atts, Carries env snap siblings gs done s.clusters (gi, li) l atts :=
    h.carries hgi hli
  rw [hrules, hcarries.holds.rules] at hrule
  obtain ⟨a, ha, hrule⟩ := List.mem_flatMap.mp hrule
  exact ((hcarries.genuine a ha).rules.reaches rule hrule key hkey).1

/-- One key, one cluster, whichever run built it. -/
theorem filled_agree (hplain : PlainNamespaces snap.services) {t t' : ClusterTable}
    (h : Grows snap ∅ t) (h' : Grows snap ∅ t') (hkey : t.contains key = true)
    (hkey' : t'.contains key = true) : t[key]? = t'[key]? := by
  rw [TreeMap.contains_eq_isSome_getElem?, Option.isSome_iff_exists] at hkey hkey'
  obtain ⟨c, hc⟩ := hkey
  obtain ⟨c', hc'⟩ := hkey'
  obtain ⟨sref, port, rfl, hbuilt⟩ := h.from_empty hc
  obtain ⟨svc, -, hsvc, -⟩ := id hbuilt
  have hbuilt' := h'.built_of_key hplain hsvc hc'
  rw [← builtCluster_eq_some] at hbuilt hbuilt'
  rw [hc, hc', ← hbuilt, ← hbuilt']

end Always

/-- The same configuration; cluster tables are compared by what they hold. -/
structure SameConfig (a b : Config) : Prop where
  tables : { a with clusters := ∅ } = { b with clusters := ∅ }
  clusters : ∀ key : String, a.clusters[key]? = b.clusters[key]?

/-- Clusters that no served rule sends to do not show. -/
theorem assemble_same (env : Env) (settings : Settings) (gateways : List GatewayBuild)
    (status : List StatusPatch) {t t' : ClusterTable}
    (h : ∀ key ∈ usedClusters (emitted settings gateways), t[key]? = t'[key]?) :
    SameConfig (assemble env settings gateways t status).1
      (assemble env settings gateways t' status).1 := by
  refine ⟨rfl, fun key => ?_⟩
  have hfilter : ∀ t : ClusterTable, (assemble env settings gateways t status).1.clusters[key]? =
      t[key]?.filter fun _ => (usedClusters (emitted settings gateways)).contains key :=
    fun t => TreeMap.getElem?_filter'
  rw [hfilter, hfilter]
  by_cases hused : key ∈ usedClusters (emitted settings gateways)
  · rw [h key hused]
  · have hnone : ∀ c : Option Cluster, (c.filter fun _ =>
        (usedClusters (emitted settings gateways)).contains key) = none := by
      intro c
      cases c with
      | none => rfl
      | some c => simp [hused]
    rw [hnone, hnone]

/-- Leaving out the compilation of routes that no listener admits does not change
the configuration. -/
theorem shortcut_same_config (env : Env) (snap : Snapshot) (settings : Settings)
    (hservices : PlainNamespaces snap.services) :
    SameConfig (translate env snap settings).config (translateAlways env snap settings).config := by
  have halike : Alike snap (attached env snap settings)
      (attachAlways env snap settings (ourGateways env snap settings)) :=
    attached_alike hservices _
  have hran : Ran env snap _ _ _ (attached env snap settings) := attached_ran
  have hran' : Ran env snap _ _ _
      (attachAlways env snap settings (ourGateways env snap settings)) :=
    attachAlways_ran fresh_ourGateways
  unfold translateAlways
  simp only [← halike.gateways]
  refine assemble_same env settings _ _ fun key hused => ?_
  have hused' : key ∈ usedClusters (emitted settings
      (attachAlways env snap settings (ourGateways env snap settings)).gateways) :=
    halike.gateways ▸ hused
  exact filled_agree hservices halike.filled halike.filled' (hran.used hused) (hran'.used hused')

/-- Of the two routes one is admitted, and the two agree. -/
theorem shortcut_same_config_cart : PlainNamespaces cartSnapshot.services ∧
    anyListenerAdmits cartSnapshot (ourGateways bareEnv cartSnapshot {}) ⟨"shop", "cart"⟩
      cartRoute = true ∧
    anyListenerAdmits cartSnapshot (ourGateways bareEnv cartSnapshot {}) ⟨"shop", "stray"⟩
      strayRoute = false ∧
    (attachAlways bareEnv cartSnapshot {} (ourGateways bareEnv cartSnapshot {})).clusters.contains
      "shop/stray:80" = true ∧
    SameConfig (translate bareEnv cartSnapshot {}).config
      (translateAlways bareEnv cartSnapshot {}).config := by
  have hservices : PlainNamespaces cartSnapshot.services := by decide +kernel
  exact ⟨hservices, by decide +kernel, by decide +kernel, by decide +kernel,
    shortcut_same_config bareEnv cartSnapshot {} hservices⟩

/-- A Gateway of namespace `a/b` that admits its own namespace only. The route of
namespace `a`, which is not admitted, refers to a Service with the key of the one
that the admitted route refers to. -/
def slashUnadmitted : Snapshot :=
  { gatewayClasses := gapuraClass
    gateways := TreeMap.ofList [(⟨"a/b", "edge"⟩, httpGateway [webListener])] _
    httpRoutes := TreeMap.ofList [
      (⟨"a", "first"⟩,
        ({ parentRefs := [{ «namespace» := some "a/b", name := "edge" }]
           rules := [{ backendRefs := [{ name := "b/c", port := some 80 }] }] } : HttpRoute)),
      (⟨"a/b", "second"⟩,
        ({ parentRefs := [{ name := "edge" }]
           rules := [{ backendRefs := [{ name := "c", port := some 80 }] }] } : HttpRoute))] _
    services := TreeMap.ofList [(⟨"a", "b/c"⟩, tlsService), (⟨"a/b", "c"⟩, plainService)] _ }

/-- Compiling the route that is not admitted would give the admitted one the other
Service's cluster. -/
theorem shortcut_shows_in_clusters :
    (translate bareEnv slashUnadmitted {}).config.clusters["a/b/c:80"]? = some ⟨[], none, none⟩ ∧
    (translateAlways bareEnv slashUnadmitted {}).config.clusters["a/b/c:80"]? =
      some ⟨[], some { sni := "b/c.a.svc", caPem := none, insecure := true }, none⟩ := by
  refine ⟨by decide +kernel, by decide +kernel⟩

end Gapura.Core.Translate
