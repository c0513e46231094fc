import Gapura.Core.Translate.RouteStatus

/-! # What a route's status says of its references

A route that no listener admits is not compiled, and its status says that all its
references resolve. Compiling it might have said otherwise. -/
namespace Gapura.Core.Translate
open Lib.Stateful Input Status
open Std (TreeMap)

/-! ## References that resolved -/

/-- The references of a rule, its mirror's first. -/
def ruleRefs (r : HttpRouteRule) : List HttpBackendRef := (mirrorRef r).toList ++ r.backendRefs

/-- The reference resolved in a table that grew into this one. -/
def ResolvedIn (snap : Snapshot) (rref : ObjectRef) (b : HttpBackendRef)
    (t : ClusterTable) : Prop :=
  ∃ before key after, Grows snap before t ∧ resolve b rref snap before = .ok (key, after)

/-- The table grew, and no error that was noted is forgotten. -/
def RefsKeep (snap : Snapshot) (s s' : Refs) : Prop :=
  RefsGrow snap s s' ∧ (s'.firstRefError = none → s.firstRefError = none)

instance (snap : Snapshot) : Std.Refl (RefsKeep snap) := ⟨fun s => ⟨refl s, id⟩⟩

instance (snap : Snapshot) : IsTrans Refs (RefsKeep snap) :=
  ⟨fun _ _ _ h h' => ⟨Grows.trans h.1 h'.1, fun hnone => h.2 (h'.2 hnone)⟩⟩

/-- If no error is noted, the references resolved. -/
def NotedOr (snap : Snapshot) (rref : ObjectRef) (bs : List HttpBackendRef) (s : Refs) : Prop :=
  s.firstRefError = none → ∀ b ∈ bs, ResolvedIn snap rref b s.clusters

section Refs
variable {env : Env} {snap : Snapshot} {route : HttpRoute} {rref : ObjectRef}

theorem notedOr_stable (bs : List HttpBackendRef) :
    Stable (RefsKeep snap) (NotedOr snap rref bs) := by
  intro s s' hkeep h hnone b hb
  obtain ⟨before, key, after, hgrows, hres⟩ := h (hkeep.2 hnone) b hb
  exact ⟨before, key, after, hgrows.trans hkeep.1, hres⟩

variable (b : HttpBackendRef)

theorem resolveRef_noted :
    Along (RefsKeep snap) (resolveRef snap rref b) fun _ => NotedOr snap rref [b] := by
  intro s
  have hgrows : RefsGrow snap s (after (resolveRef snap rref b) s) := (resolveRef_along b s).1
  simp only [resolveRef, after_update, result_update] at hgrows ⊢
  cases hres : resolve b rref snap s.clusters with
  | error rejection =>
    simp only [hres] at hgrows
    refine ⟨⟨hgrows, fun hnone => ?_⟩, fun _ _ hnone => ?_⟩
    · cases herror : s.firstRefError <;> simp [herror] at hnone
    · cases herror : s.firstRefError <;> simp [herror] at hnone
  | ok out =>
    simp only [hres] at hgrows
    refine ⟨⟨hgrows, id⟩, fun _ _ _ b' hb' => ?_⟩
    obtain rfl := List.mem_singleton.mp hb'
    exact ⟨s.clusters, out.1, out.2, hgrows, hres⟩

theorem compileBackend_noted :
    Along (RefsKeep snap) (compileBackend snap rref b) fun _ => NotedOr snap rref [b] := by
  refine ((Along.answer _).bind (fun _ => fun _ _ _ h => h) fun _ =>
    (resolveRef_noted b).bind (fun _ => notedOr_stable [b]) fun _ => Along.pure _).weaken ?_
  intro _ s h
  obtain ⟨-, -, -, hnoted, -⟩ := h
  exact hnoted

theorem resolveMirror_noted (r : HttpRouteRule) :
    Along (RefsKeep snap) (resolveMirror snap rref r) fun _ =>
      NotedOr snap rref (mirrorRef r).toList := by
  unfold resolveMirror
  cases mirrorRef r with
  | none => exact (Along.pure none).weaken fun _ s _ _ b hb => nomatch hb
  | some b => exact resolveRef_noted b

theorem compileRule_noted (source : HttpRouteRule × Nat) :
    Along (RefsKeep snap) (compileRule env snap route rref source) fun _ =>
      NotedOr snap rref (ruleRefs source.1) := by
  obtain ⟨r, index⟩ := source
  have hpure : ∀ {p : Prop}, Stable (RefsKeep snap) fun _ => p := fun _ _ _ h => h
  have hbackend : ∀ b ∈ r.backendRefs, Along (RefsKeep snap) (compileBackend snap rref b) fun _ =>
      NotedOr snap rref [b] := fun b _ => compileBackend_noted b
  have hbackends := Along.mapM (fun b (_ : WeightedBackend) => notedOr_stable [b]) hbackend
  refine ((Along.answer _).bind (fun _ => hpure) fun compiled =>
    (resolveMirror_noted r).bind (fun _ => notedOr_stable _) fun key =>
    (Along.answer _).bind (fun _ => hpure) fun filters =>
    hbackends.bind (fun bs s s' hkeep h => h.imp fun b _ hb => notedOr_stable [b] s s' hkeep hb)
      fun backends =>
    (Along.answer _).bind (fun _ => hpure) fun requestMs =>
    (Along.answer _).bind (fun _ => hpure) fun backendRequestMs => Along.pure _).weaken ?_
  intro rule s h hnone b hb
  obtain ⟨compiled, -, key, hmirror, filters, -, backends, hbs, -⟩ := h
  rcases List.mem_append.mp hb with hb | hb
  · exact hmirror hnone b hb
  · obtain ⟨i, hi, rfl⟩ := List.getElem_of_mem hb
    obtain ⟨hlen, hget⟩ := List.forall₂_iff_get.mp hbs
    exact hget i hi (by rw [← hlen]; exact hi) hnone _ (List.mem_singleton.mpr rfl)

/-- A route whose condition is True had every reference resolved. -/
theorem resolved_of_compile {clusters : ClusterTable} (hfilled : Grows snap ∅ clusters)
    {c : Compiled} (hc : (compile env snap route rref clusters).1 = .ok c)
    (htrue : c.resolvedRefs.status = .true) {r : HttpRouteRule} (hr : r ∈ route.rules)
    {b : HttpBackendRef} (hb : b ∈ ruleRefs r) :
    ∃ t key t', Grows snap ∅ t ∧ resolve b rref snap t = .ok (key, t') := by
  have hrun := Along.mapM (l := route.rules.zipIdx)
    (fun source (_ : RouteRule) => notedOr_stable (ruleRefs source.1))
    (fun source _ => compileRule_noted source : ∀ source ∈ route.rules.zipIdx,
      Along (RefsKeep snap) (compileRule env snap route rref source) fun _ =>
        NotedOr snap rref (ruleRefs source.1)) { clusters }
  cases hres : (compileRules env snap route rref { clusters }).1 with
  | error e => simp [compile, hres, Except.map] at hc
  | ok rules =>
    obtain rfl : _ = c := by simpa [compile, hres, Except.map] using hc
    have hnone : (compileRules env snap route rref { clusters }).2.firstRefError = none := by
      cases herror : (compileRules env snap route rref { clusters }).2.firstRefError with
      | none => rfl
      | some e => simp [herror, resolvedRefsCondition] at htrue
    obtain ⟨i, hi, rfl⟩ := List.getElem_of_mem hr
    obtain ⟨hlen, hget⟩ := List.forall₂_iff_get.mp (hrun.2 rules hres)
    have hnoted := hget i (by simpa using hi) (by rw [← hlen]; simpa using hi)
    obtain ⟨before, key, after, hgrows, hresolve⟩ := hnoted hnone b (by simpa using hb)
    -- what an earlier table holds is still in the last one, which compiling filled
    refine ⟨before, key, after, ⟨fun k x hx => by simp at hx, fun k x hx => .inr ?_⟩, hresolve⟩
    exact (hfilled.trans hrun.1.1).from_empty (hgrows.kept k x hx)

end Refs

/-! ## The patch of one route -/

section Patch
variable {env : Env} {snap : Snapshot} {settings : Settings} {siblings : List Sibling}
  {rref : ObjectRef} {route : HttpRoute}

theorem routePatches_append (a b : List StatusPatch) (rref : ObjectRef) :
    routePatches (a ++ b) rref = routePatches a rref ++ routePatches b rref :=
  List.filterMap_append

theorem routePatches_other {p : ObjectRef × HttpRoute} (h : p.1 ≠ rref) (s : AttachState) :
    routePatches (attachRoute env snap settings siblings s p).status rref =
      routePatches s.status rref := by
  have hone : ∀ uid parents, routePatches [.httpRoute p.1 uid parents] rref = [] := by
    intro uid parents
    simp [routePatches, parentsIn, h]
  obtain ⟨ref, r⟩ := p
  unfold attachRoute
  simp only
  split
  · split
    · rw [routePatches_append, hone, List.append_nil]
    · rfl
  · split
    · rfl
    · rw [routePatches_append, hone, List.append_nil]

theorem routePatches_others {l : List (ObjectRef × HttpRoute)} (h : rref ∉ l.map Prod.fst)
    (s : AttachState) : routePatches (l.foldl (attachRoute env snap settings siblings) s).status
      rref = routePatches s.status rref := by
  refine List.foldlRecOn l _ (motive := fun s' : AttachState =>
    routePatches s'.status rref = routePatches s.status rref) rfl ?_
  intro s' hs' p hp
  have hne : p.1 ≠ rref := fun heq => h (List.mem_map.mpr ⟨p, hp, heq⟩)
  rw [routePatches_other hne, hs']

variable {gs : List GatewayBuild} {parent : RouteParentStatus}

/-- The conditions of each parent: what it accepts, then what the references are. -/
theorem conditions_of_parent {compiled : Except Unsupported Compiled}
    (h : parent ∈ (attachParents snap settings siblings gs rref route compiled).parents) :
    ∃ o, parent.conditions = [acceptedCondition o compiled route.metadata.generation,
      resolvedCondition compiled route.metadata.generation] := by
  unfold attachParents at h
  revert h
  refine List.foldlRecOn route.parentRefs _ (motive := fun s : Attaching =>
    parent ∈ s.parents → ∃ o, parent.conditions =
      [acceptedCondition o compiled route.metadata.generation,
        resolvedCondition compiled route.metadata.generation]) (fun h => nomatch h) ?_
  intro s hs pref _ h
  unfold attachParent at h
  split at h
  · exact hs h
  · split at h
    · exact hs h
    · rcases List.mem_append.mp h with h | h
      · exact hs h
      · obtain rfl := List.mem_singleton.mp h
        exact ⟨_, rfl⟩

/-- The ResolvedRefs condition of a parent. -/
def resolvedRefsOf (parent : RouteParentStatus) : Option Condition :=
  parent.conditions.find? (·.type = .resolvedRefs)

theorem resolvedRefsOf_parent {c : Compiled} (htype : c.resolvedRefs.type = .resolvedRefs)
    (h : parent ∈ (attachParents snap settings siblings gs rref route (.ok c)).parents) :
    resolvedRefsOf parent = some c.resolvedRefs := by
  obtain ⟨o, hconditions⟩ := conditions_of_parent h
  simp [resolvedRefsOf, hconditions, acceptedCondition_type, resolvedCondition, htype]

/-- What is left of the run when the route's turn comes. -/
def stateBefore (env : Env) (snap : Snapshot) (settings : Settings) (rref : ObjectRef) :
    AttachState :=
  (snap.httpRoutes.toList.takeWhile (·.1 ≠ rref)).foldl
    (attachRoute env snap settings (Translate.siblings (ourGateways env snap settings) settings))
    { gateways := ourGateways env snap settings, clusters := ∅, status := [] }

theorem split_at_route (hroute : snap.httpRoutes[rref]? = some route) :
    ∃ rest, snap.httpRoutes.toList =
        snap.httpRoutes.toList.takeWhile (·.1 ≠ rref) ++ (rref, route) :: rest ∧
      rref ∉ rest.map Prod.fst := by
  have hmem : (rref, route) ∈ snap.httpRoutes.toList :=
    TreeMap.mem_toList_iff_getElem?_eq_some.mpr hroute
  have hnodup : (snap.httpRoutes.toList.map Prod.fst).Nodup := by
    rw [TreeMap.map_fst_toList_eq_keys]
    exact TreeMap.nodup_keys
  generalize snap.httpRoutes.toList = l at hmem hnodup
  induction l with
  | nil => cases hmem
  | cons p l ih =>
    rw [List.map_cons, List.nodup_cons] at hnodup
    rcases List.mem_cons.mp hmem with rfl | hmem
    · exact ⟨l, by simp, hnodup.1⟩
    · have hne : p.1 ≠ rref := by
        intro heq
        exact hnodup.1 (heq ▸ List.mem_map.mpr ⟨_, hmem, rfl⟩)
      obtain ⟨rest, hrest, hnot⟩ := ih hmem hnodup.2
      refine ⟨rest, ?_, hnot⟩
      rw [List.takeWhile_cons_of_pos (by simpa using hne), List.cons_append, ← hrest]

theorem not_mem_before : rref ∉ (snap.httpRoutes.toList.takeWhile (·.1 ≠ rref)).map Prod.fst := by
  intro h
  obtain ⟨p, hp, heq⟩ := List.mem_map.mp h
  have hne := List.mem_takeWhile_imp hp
  simp only [ne_eq, decide_not, Bool.not_eq_eq_eq_not, Bool.not_true,
    decide_eq_false_iff_not] at hne
  exact hne heq

/-- A route that names one of our Gateways has one patch, with the parents of its
own turn. -/
theorem routePatches_of_ours (hroute : snap.httpRoutes[rref]? = some route)
    (hours : ∃ pref ∈ route.parentRefs,
      (ourGateway (stateBefore env snap settings rref).gateways pref rref).isSome = true) :
    let s := stateBefore env snap settings rref
    let walk := attachParents snap settings
      (Translate.siblings (ourGateways env snap settings) settings) s.gateways rref route
      (compiledFor env snap s rref route).1
    routePatches (translate env snap settings).status rref = [walk.parents] ∧
      walk.parents ≠ [] := by
  intro s walk
  obtain ⟨rest, hsplit, hrest⟩ := split_at_route hroute
  obtain ⟨pref, hpref, hsome⟩ := hours
  have hrefs : ∀ c, (compiledFor env snap s rref route).1 = .ok c →
      c.resolvedRefs.type = .resolvedRefs := fun c hc => compiledFor_refs hc
  have hwalk := attachParents_progress snap settings
    (Translate.siblings (ourGateways env snap settings) settings) s.gateways rref route hrefs
  have hne : walk.parents ≠ [] := by
    obtain ⟨gi, hgi⟩ := Option.isSome_iff_exists.mp hsome
    obtain ⟨parent, hparent, -⟩ := hwalk.named pref hpref gi hgi
    exact List.ne_nil_of_mem hparent
  refine ⟨?_, hne⟩
  have hany : (!route.parentRefs.any fun pref => (ourGateway s.gateways pref rref).isSome) =
      false := by
    rw [Bool.not_eq_false', List.any_eq_true]
    exact ⟨pref, hpref, hsome⟩
  have hturn : (attachRoute env snap settings
      (Translate.siblings (ourGateways env snap settings) settings) s (rref, route)).status =
      s.status ++ [.httpRoute rref route.metadata.uid walk.parents] := by
    unfold attachRoute
    simp only [hany]
    exact if_neg (by simpa using hne)
  have hbefore : routePatches s.status rref = [] := by
    exact routePatches_others not_mem_before _
  rw [routePatches_translate, attached, attach, hsplit, List.foldl_append, List.foldl_cons,
    routePatches_others hrest]
  show routePatches (attachRoute env snap settings _ s (rref, route)).status rref = _
  rw [hturn, routePatches_append, hbefore]
  simp [routePatches, parentsIn]

theorem anyListenerAdmits_congr {gs' : List GatewayBuild} (h : SameShape gs gs') :
    anyListenerAdmits snap gs' rref route = anyListenerAdmits snap gs rref route := by
  have hone : ∀ {gs gs' : List GatewayBuild}, SameShape gs gs' →
      anyListenerAdmits snap gs rref route = true →
        anyListenerAdmits snap gs' rref route = true := by
    intro gs gs' h hadmits
    unfold anyListenerAdmits at hadmits ⊢
    rw [List.any_eq_true] at hadmits ⊢
    obtain ⟨pref, hpref, hany⟩ := hadmits
    refine ⟨pref, hpref, ?_⟩
    rw [Option.any_eq_true] at hany ⊢
    obtain ⟨gw, hgw, hany⟩ := hany
    obtain ⟨gi, hours, hget⟩ := Option.bind_eq_some_iff.mp hgw
    obtain ⟨gw', hgw', hshape⟩ := h.gateway hget
    refine ⟨gw', Option.bind_eq_some_iff.mpr ⟨gi, (ourGateway_congr h pref rref).trans hours, hgw'⟩,
      ?_⟩
    rw [List.any_eq_true] at hany ⊢
    obtain ⟨l, hl, hadmits⟩ := hany
    obtain ⟨li, hli⟩ := List.getElem?_of_mem hl
    obtain ⟨l', hl', hblank⟩ := listener_of_shape hshape hli
    refine ⟨l', List.mem_of_getElem? hl', ?_⟩
    rw [show gw'.ref = gw.ref from congrArg Shape.ref hshape]
    show (selects pref l'.blank && admits snap gw.ref.namespace rref l'.blank) = true
    rw [hblank]
    exact hadmits
  rw [Bool.eq_iff_iff]
  exact ⟨hone h.symm, hone h⟩

theorem stateBefore_ran : Ran env snap
    (Translate.siblings (ourGateways env snap settings) settings) (ourGateways env snap settings)
    (snap.httpRoutes.toList.takeWhile (·.1 ≠ rref)) (stateBefore env snap settings rref) :=
  ran_routes env snap settings _ fresh_ourGateways _

end Patch

/-- The condition that compiling gives, when it differs from the one of a route that
was not compiled. -/
theorem resolvedRefs_true_iff {env : Env} {snap : Snapshot} {route : HttpRoute} {rref : ObjectRef}
    {clusters : ClusterTable} {c : Compiled}
    (hc : (compile env snap route rref clusters).1 = .ok c) :
    (Compiled.notAdmitted route.metadata.generation).resolvedRefs = c.resolvedRefs ↔
      c.resolvedRefs.status = .true := by
  cases hres : (compileRules env snap route rref { clusters }).1 with
  | error e => simp [compile, hres, Except.map] at hc
  | ok rules =>
    obtain rfl : _ = c := by simpa [compile, hres, Except.map] using hc
    cases (compileRules env snap route rref { clusters }).2.firstRefError <;>
      simp [Compiled.notAdmitted, resolvedRefsCondition]

/-- The status of a route with supported rules gives it the ResolvedRefs condition it
would compile to, if and only if a listener admits it or all its references resolve. -/
theorem resolved_refs_iff (env : Env) (snap : Snapshot) (settings : Settings) {rref : ObjectRef}
    {route : HttpRoute} (hroute : snap.httpRoutes[rref]? = some route) {pref : ParentReference}
    (hpref : pref ∈ route.parentRefs)
    (hours : (ourGateway (ourGateways env snap settings) pref rref).isSome = true) {c : Compiled}
    (hc : (compile env snap route rref (stateBefore env snap settings rref).clusters).1 = .ok c) :
    (∃ parents, routePatches (translate env snap settings).status rref = [parents] ∧
      parents ≠ [] ∧
      ((∀ parent ∈ parents, resolvedRefsOf parent = some c.resolvedRefs) ↔
        anyListenerAdmits snap (ourGateways env snap settings) rref route = true ∨
          c.resolvedRefs.status = .true)) ∧
    (c.resolvedRefs.status = .true → ∀ r ∈ route.rules, ∀ b ∈ ruleRefs r,
      ∃ t key t', Grows snap ∅ t ∧ resolve b rref snap t = .ok (key, t')) := by
  have hran : Ran env snap _ _ _ (stateBefore env snap settings rref) := stateBefore_ran
  refine ⟨?_, fun htrue r hr b hb => resolved_of_compile hran.built hc htrue hr hb⟩
  have hsome :
      (ourGateway (stateBefore env snap settings rref).gateways pref rref).isSome = true := by
    rw [ourGateway_congr hran.shape]
    exact hours
  obtain ⟨hpatches, hne⟩ := routePatches_of_ours hroute ⟨pref, hpref, hsome⟩
  refine ⟨_, hpatches, hne, ?_⟩
  have hadmits : anyListenerAdmits snap (stateBefore env snap settings rref).gateways rref route =
      anyListenerAdmits snap (ourGateways env snap settings) rref route :=
    anyListenerAdmits_congr hran.shape
  unfold compiledFor
  rw [hadmits]
  split
  · rename_i hadmitted
    rw [hc]
    exact ⟨fun _ => .inl hadmitted, fun _ parent hparent =>
      resolvedRefsOf_parent (compile_refs hc) hparent⟩
  · rename_i hrefused
    rw [← resolvedRefs_true_iff hc]
    have hparent : ∀ parent ∈ (attachParents snap settings
        (siblings (ourGateways env snap settings) settings)
        (stateBefore env snap settings rref).gateways rref route
        (.ok (Compiled.notAdmitted route.metadata.generation))).parents,
        resolvedRefsOf parent = some (Compiled.notAdmitted route.metadata.generation).resolvedRefs :=
      fun parent hparent => resolvedRefsOf_parent (resolvedRefsCondition_type _ _) hparent
    constructor
    · intro hall
      have hne' := hne
      unfold compiledFor at hne'
      rw [hadmits, if_neg hrefused] at hne'
      obtain ⟨parent, hmem⟩ := List.exists_mem_of_ne_nil _ hne'
      exact .inr (Option.some.inj ((hparent parent hmem).symm.trans (hall parent hmem)))
    · intro hor parent hmem
      rcases hor with hadmitted | hsame
      · exact absurd hadmitted hrefused
      · rw [hparent parent hmem, hsame]

/-- No listener admits the route and its references resolve, so its status gives it the
condition it would compile to. -/
theorem resolved_refs_iff_cart :
    anyListenerAdmits cartSnapshot (ourGateways bareEnv cartSnapshot {}) ⟨"shop", "stray"⟩
      strayRoute = false ∧
    ∃ c, (compile bareEnv cartSnapshot strayRoute ⟨"shop", "stray"⟩
        (stateBefore bareEnv cartSnapshot {} ⟨"shop", "stray"⟩).clusters).1 = .ok c ∧
      c.resolvedRefs.status = .true ∧
      ∃ parents, routePatches (translate bareEnv cartSnapshot {}).status ⟨"shop", "stray"⟩ =
        [parents] ∧ ∀ parent ∈ parents, resolvedRefsOf parent = some c.resolvedRefs := by
  have hsome : (compile bareEnv cartSnapshot strayRoute ⟨"shop", "stray"⟩
      (stateBefore bareEnv cartSnapshot {} ⟨"shop", "stray"⟩).clusters).1.toOption.map
        (·.resolvedRefs.status) = some .true := by decide +kernel
  have hroute : cartSnapshot.httpRoutes[ObjectRef.mk "shop" "stray"]? = some strayRoute := rfl
  refine ⟨by decide +kernel, ?_⟩
  cases hc : (compile bareEnv cartSnapshot strayRoute ⟨"shop", "stray"⟩
      (stateBefore bareEnv cartSnapshot {} ⟨"shop", "stray"⟩).clusters).1 with
  | error e =>
    rw [hc] at hsome
    cases hsome
  | ok c =>
    rw [hc] at hsome
    have htrue : c.resolvedRefs.status = .true := Option.some.inj hsome
    obtain ⟨⟨parents, hpatches, -, hiff⟩, -⟩ := resolved_refs_iff bareEnv cartSnapshot {} hroute
      List.mem_cons_self (by decide +kernel) hc
    exact ⟨c, rfl, htrue, parents, hpatches, hiff.mpr (.inr htrue)⟩

/-- A route of another namespace, to a Service that does not exist, on a Gateway that
admits its own namespace only. -/
def danglingSnapshot : Snapshot :=
  { gatewayClasses := gapuraClass
    gateways := TreeMap.ofList [(⟨"infra", "edge"⟩, httpGateway [webListener])] _
    httpRoutes := TreeMap.ofList [(⟨"shop", "cart"⟩, routeTo "cart")] _ }

/-- Its status says that all references resolved; compiled, it would say which one
did not. -/
theorem dangling_reads_resolved :
    routePatches (translate bareEnv danglingSnapshot {}).status ⟨"shop", "cart"⟩ ≠ [] ∧
    (∀ parents ∈ routePatches (translate bareEnv danglingSnapshot {}).status ⟨"shop", "cart"⟩,
      ∀ parent ∈ parents, resolvedRefsOf parent =
        some ⟨.resolvedRefs, .true, .resolvedRefs, "All references resolved", none⟩) ∧
    (compile bareEnv danglingSnapshot (routeTo "cart") ⟨"shop", "cart"⟩
        (stateBefore bareEnv danglingSnapshot {} ⟨"shop", "cart"⟩).clusters).1.toOption.map
      (·.resolvedRefs) =
        some ⟨.resolvedRefs, .false, .backendNotFound, "Service shop/cart not found", none⟩ := by
  refine ⟨by decide +kernel, by decide +kernel, by decide +kernel⟩

end Gapura.Core.Translate
