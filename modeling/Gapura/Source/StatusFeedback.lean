import Gapura.Core.Intersection
import Gapura.Core.Translate.ResolvedRefs
import Gapura.Source.StatusPatches
import Gapura.Source.Watch

/-! # Status that is written is watched

What the writer writes into an HTTPRoute comes back through its watcher: the
translation reads which controllers hold an entry in `status.parents`. A route
that no longer names one of our Gateways but holds our entries gets an empty
patch, which takes them out; then there is nothing to say of it any more. So the
status of one round is all it takes: the next translation has the same
configuration and the same patches but for the empty ones, and the one after
that is the same. -/
namespace Gapura.Source.Status
open Std (TreeMap)
open Lib.Json Core.Input Core.Translate

/-! ## Routes read again -/

/-- The snapshot with the controllers that hold an entry of each route read again. -/
def reread (snap : Snapshot) (holders : ObjectRef → List String) : Snapshot :=
  { snap with
    httpRoutes := snap.httpRoutes.map fun r route => { route with statusParents := holders r } }

/-- Not an empty patch. -/
def speaks : Core.Status.StatusPatch → Bool
  | .httpRoute _ _ [] => false
  | _ => true

/-- Without the empty patches. -/
def mute (s : AttachState) : AttachState := { s with status := s.status.filter speaks }

section Reread
variable {env : Env} {snap : Snapshot} {settings : Settings} {siblings : List Sibling}
  {routes : ObjectMap HttpRoute} {rref : ObjectRef} {route : HttpRoute} {held : List String}

/-- Nothing about a route but what it asks of a listener matters to attaching it. -/
theorem attachListeners_congr {ask ask' : Asking} (hverdict : ask.verdict = ask'.verdict)
    (hcompiled : ask.compiled = ask'.compiled) (pref : ParentReference) (gwRef : ObjectRef)
    (gi li : Nat) (attached : List String) (o : Outcome) (ls : List ListenerBuild) :
    attachListeners ask pref gwRef gi li attached o ls =
      attachListeners ask' pref gwRef gi li attached o ls := by
  induction ls generalizing li attached o with
  | nil => rfl
  | cons l rest ih => simp only [attachListeners, attachOne, hverdict, hcompiled, ih]

theorem attachToGateway_congr {ask ask' : Asking} (hverdict : ask.verdict = ask'.verdict)
    (hcompiled : ask.compiled = ask'.compiled) (pref : ParentReference) (gi : Nat)
    (gw : GatewayBuild) (attached : List String) :
    attachToGateway ask pref gi gw attached = attachToGateway ask' pref gi gw attached := by
  have hout := attachListeners_congr hverdict hcompiled pref gw.ref gi 0 attached {} gw.listeners
  simp only [attachToGateway, hout]

theorem attachParents_reread (gs : List GatewayBuild) (compiled : Except Unsupported Compiled) :
    attachParents { snap with httpRoutes := routes } settings siblings gs rref
        { route with statusParents := held } compiled =
      attachParents snap settings siblings gs rref route compiled := by
  let ask : Asking := ⟨snap, siblings, rref, route, compiled.toOption⟩
  let ask' : Asking := ⟨{ snap with httpRoutes := routes }, siblings, rref,
    { route with statusParents := held }, compiled.toOption⟩
  have hparent : attachParent ask' compiled settings.controllerName =
      attachParent ask compiled settings.controllerName := by
    funext s pref
    have hverdict : ask'.verdict = ask.verdict := rfl
    have hcompiled : ask'.compiled = ask.compiled := rfl
    simp only [attachParent, attachToGateway_congr hverdict hcompiled]
    rfl
  exact congrArg (fun f => route.parentRefs.foldl f { gateways := gs }) hparent

/-- Does a route name one of these Gateways? -/
def Names (gs : List GatewayBuild) (rref : ObjectRef) (route : HttpRoute) : Prop :=
  ∃ pref ∈ route.parentRefs, (ourGateway gs pref rref).isSome = true

theorem names_congr {gs gs' : List GatewayBuild} (h : SameShape gs gs') :
    Names gs' rref route ↔ Names gs rref route := by
  simp only [Names, ourGateway_congr h]

/-- A route's turn: one that names a Gateway of ours is attached as its spec says,
and any other gets an empty patch where our entry is held. -/
theorem attachRoute_cases (env : Env) (snap : Snapshot) (settings : Settings)
    (siblings : List Sibling) (s : AttachState) (rref : ObjectRef) (route : HttpRoute) :
    (Names s.gateways rref route ∧ attachRoute env snap settings siblings s (rref, route) =
      s.walked snap settings siblings rref route (compiledFor env snap s rref route)) ∨
    (¬ Names s.gateways rref route ∧ attachRoute env snap settings siblings s (rref, route) =
      if settings.controllerName ∈ route.statusParents then
        { s with status := s.status ++ [.httpRoute rref route.metadata.uid []] } else s) := by
  have hany : (route.parentRefs.any fun pref => (ourGateway s.gateways pref rref).isSome) = true ↔
      Names s.gateways rref route := List.any_eq_true
  by_cases hnames : Names s.gateways rref route
  · refine .inl ⟨hnames, ?_⟩
    simp only [attachRoute, hany.mpr hnames]
    rfl
  · refine .inr ⟨hnames, ?_⟩
    have hfalse := Bool.eq_false_iff.mpr (mt hany.mp hnames)
    simp [attachRoute, hfalse]

variable (s : AttachState)

theorem walked_reread (out : Except Unsupported Compiled × ClusterTable) :
    (mute s).walked { snap with httpRoutes := routes } settings siblings rref
        { route with statusParents := held } out =
      mute (s.walked snap settings siblings rref route out) := by
  simp only [AttachState.walked, attachParents_reread, mute]
  split
  · rfl
  · rename_i hparents
    have hspeaks : speaks (.httpRoute rref route.metadata.uid
        (attachParents snap settings siblings s.gateways rref route out.1).parents) = true := by
      cases hcases : (attachParents snap settings siblings s.gateways rref route out.1).parents with
      | nil => exact absurd (by rw [hcases]; rfl) hparents
      | cons => rfl
    simp [List.filter_append, hspeaks]

/-- One turn in both runs. Where no entry of ours is held by a route that names no
Gateway of ours, the second run says what the first does but for empty patches. -/
theorem attachRoute_reread
    (hquiet : ¬ Names s.gateways rref route → settings.controllerName ∉ held) :
    attachRoute env { snap with httpRoutes := routes } settings siblings (mute s)
        (rref, { route with statusParents := held }) =
      mute (attachRoute env snap settings siblings s (rref, route)) := by
  obtain ⟨hnames, hfirst⟩ | ⟨hnames, hfirst⟩ :=
    attachRoute_cases env snap settings siblings s rref route
  · obtain ⟨-, hsecond⟩ | ⟨hnot, -⟩ := attachRoute_cases env { snap with httpRoutes := routes }
      settings siblings (mute s) rref { route with statusParents := held }
    · rw [hsecond, hfirst, ← walked_reread]
      rfl
    · exact absurd hnames hnot
  · obtain ⟨hyes, -⟩ | ⟨-, hsecond⟩ := attachRoute_cases env { snap with httpRoutes := routes }
      settings siblings (mute s) rref { route with statusParents := held }
    · exact absurd hyes hnames
    · rw [hsecond, if_neg (hquiet hnames), hfirst]
      split
      · simp [mute, List.filter_append, speaks]
      · rfl

end Reread

section Runs
variable {env : Env} {snap : Snapshot} {settings : Settings} {holders : ObjectRef → List String}

/-- Routes that name no Gateway of ours hold no entry of ours. -/
def Quiet (env : Env) (snap : Snapshot) (settings : Settings)
    (holders : ObjectRef → List String) : Prop :=
  ∀ rref route, snap.httpRoutes[rref]? = some route →
    ¬ Names (ourGateways env snap settings) rref route → settings.controllerName ∉ holders rref

theorem foldl_reread {siblings : List Sibling} {gs : List GatewayBuild} (hfresh : Fresh gs)
    (l : List (ObjectRef × HttpRoute))
    (hquiet : ∀ p ∈ l, ¬ Names gs p.1 p.2 → settings.controllerName ∉ holders p.1) :
    (l.map fun p => (p.1, { p.2 with statusParents := holders p.1 })).foldl
        (attachRoute env (reread snap holders) settings siblings) ⟨gs, ∅, []⟩ =
      mute (l.foldl (attachRoute env snap settings siblings) ⟨gs, ∅, []⟩) := by
  induction l using List.reverseRecOn with
  | nil => rfl
  | append_singleton l p ih =>
    obtain ⟨hbefore, hlast⟩ := List.forall_mem_append.mp hquiet
    have hshape := (ran_routes env snap settings siblings hfresh l).shape
    rw [List.map_append, List.foldl_append, ih hbefore, List.foldl_append]
    refine attachRoute_reread _ fun hnot => hlast p (List.mem_singleton_self p) ?_
    exact fun hnames => hnot ((names_congr hshape).mpr hnames)

theorem attach_reread (h : Quiet env snap settings holders) :
    attach env (reread snap holders) settings (ourGateways env snap settings) =
      mute (attach env snap settings (ourGateways env snap settings)) := by
  have hlist : (reread snap holders).httpRoutes.toList =
      snap.httpRoutes.toList.map fun p => (p.1, { p.2 with statusParents := holders p.1 }) :=
    TreeMap.toList_map
  unfold attach
  rw [hlist]
  refine foldl_reread fresh_ourGateways _ fun p hp => ?_
  exact h p.1 p.2 (TreeMap.mem_toList_iff_getElem?_eq_some.mp hp)

/-- Patches of GatewayClasses and Gateways are none of routes. -/
theorem speaks_assembled (env : Env) (settings : Settings) (gs : List GatewayBuild)
    (clusters : ClusterTable) (classes : List (String × GatewayClass)) :
    ∀ p ∈ (assemble env settings gs clusters (classes.map classPatch)).2, speaks p = true := by
  refine List.foldlRecOn (remapOverriddenListeners (emitted settings gs) settings) noteRemappedPort
    (motive := fun status => ∀ p ∈ status, speaks p = true) ?_ fun status hstatus l _ => ?_
  · refine List.forall_mem_append.mpr ⟨?_, ?_⟩
    · rw [List.forall_mem_map]
      exact fun _ _ => rfl
    · rw [List.forall_mem_map]
      exact fun _ _ => rfl
  · refine forall_noteRemappedPort (fun p _ _ _ hp => ?_) hstatus l
    cases p <;> exact hp

/-- The translation of what was read again. -/
theorem translate_reread (h : Quiet env snap settings holders) :
    translate env (reread snap holders) settings =
      { translate env snap settings with
        status := (translate env snap settings).status.filter speaks } := by
  have hattach : attach env (reread snap holders) settings
      (ourGateways env (reread snap holders) settings) =
      mute (attach env snap settings (ourGateways env snap settings)) := attach_reread h
  simp only [Core.Translate.translate, hattach, mute, List.filter_append,
    List.filter_eq_self.mpr (speaks_assembled _ _ _ _ _)]
  rfl

/-! ## The patches of a route -/

theorem routePatches_of_not_names {rref : ObjectRef} {route : HttpRoute}
    (hroute : snap.httpRoutes[rref]? = some route)
    (hnames : ¬ Names (ourGateways env snap settings) rref route) :
    routePatches (Core.Translate.translate env snap settings).status rref =
      if settings.controllerName ∈ route.statusParents then [[]] else [] := by
  obtain ⟨rest, hsplit, hrest⟩ := split_at_route hroute
  have hbefore : routePatches (stateBefore env snap settings rref).status rref = [] :=
    routePatches_others not_mem_before _
  have hturn := attachRoute_cases env snap settings
    (siblings (ourGateways env snap settings) settings) (stateBefore env snap settings rref) rref
    route
  rw [routePatches_translate, attached, attach, hsplit, List.foldl_append, List.foldl_cons,
    routePatches_others hrest]
  show routePatches (attachRoute env snap settings _ (stateBefore env snap settings rref)
    (rref, route)).status rref = _
  rcases hturn with ⟨hyes, -⟩ | ⟨-, hturn⟩
  · exact absurd ((names_congr stateBefore_ran.shape).mp hyes) hnames
  · rw [hturn]
    split
    · rw [routePatches_append, hbefore]
      simp [routePatches, parentsIn]
    · exact hbefore

end Runs

/-! ## The objects -/

section Objects
variable (isIp : String → Bool) (controllerName : String) (now : String)

/-- The live HTTPRoutes after one patch was written. -/
def writeTo (objects : ObjectRef → Value) (p : Core.Status.StatusPatch) : ObjectRef → Value :=
  match p with
  | .httpRoute rref _ _ =>
    Function.update objects rref (written isIp controllerName (.of p) (objects rref) now)
  | _ => objects

/-- The live HTTPRoutes after a round of patches was written. -/
def writeAll (objects : ObjectRef → Value) (status : List Core.Status.StatusPatch) :
    ObjectRef → Value :=
  status.foldl (writeTo isIp controllerName now) objects

variable {isIp controllerName now}

/-- What the snapshot has of `status.parents` is what the objects have. -/
def Live (snap : Snapshot) (objects : ObjectRef → Value) : Prop :=
  ∀ rref route, snap.httpRoutes[rref]? = some route →
    route.statusParents = Watch.controllers (objects rref)

theorem mem_controllers {doc : Value} {name : String} : name ∈ Watch.controllers doc ↔
    ∃ x ∈ itemsOf (doc.index "status") "parents", x.get "controllerName" = some (.string name) := by
  have hitems : (((doc.get "status").bind (·.get "parents")).bind Value.asArray).getD [] =
      itemsOf (doc.index "status") "parents" := by
    unfold itemsOf Value.index
    cases doc.get "status" with
    | none => rfl
    | some v => rfl
  unfold Watch.controllers
  simp only [hitems, Core.Hostname.mem_destutter_ne, Lib.Ordered.mem_sortBy, List.mem_filterMap]
  refine exists_congr fun x => and_congr_right fun _ => ?_
  cases x.get "controllerName" with
  | none => simp
  | some v => cases v <;> simp [Value.asStr]

/-- An empty patch takes our entries out. -/
theorem not_ours_written (rref : ObjectRef) (uid : Option String) (object : Value) :
    controllerName ∉ Watch.controllers
      (written isIp controllerName (.of (.httpRoute rref uid [])) object now) := by
  have hitems : itemsOf ((object.index "status").merge (.object (statusFields isIp controllerName
      (.of (.httpRoute rref uid [])) (object.index "status") now))) "parents" = _ :=
    itemsOf_merged _ _ _ rfl
  rw [mem_controllers, index_written, hitems]
  intro ⟨x, hx, hname⟩
  rw [List.mem_append, List.mem_filter] at hx
  rcases hx with ⟨-, hother⟩ | hnone
  · simp [ours, Value.index, hname] at hother
  · cases hnone

variable {objects : ObjectRef → Value}

/-- A route whose patches are all empty holds an entry of ours after a round only
if it has no patch and held one before. -/
theorem ours_writeAll {rref : ObjectRef} {status : List Core.Status.StatusPatch}
    (hempty : ∀ parents ∈ routePatches status rref, parents = [])
    (h : controllerName ∈ Watch.controllers (writeAll isIp controllerName now objects status rref)) :
    routePatches status rref = [] ∧ controllerName ∈ Watch.controllers (objects rref) := by
  induction status using List.reverseRecOn with
  | nil => exact ⟨rfl, h⟩
  | append_singleton status p ih =>
    rw [routePatches_append] at hempty ⊢
    rw [writeAll, List.foldl_concat] at h
    obtain ⟨hbefore, hlast⟩ := List.forall_mem_append.mp hempty
    have hother : routePatches [p] rref = [] → controllerName ∈ Watch.controllers
        (writeAll isIp controllerName now objects status rref) →
        routePatches status rref ++ routePatches [p] rref = [] ∧
          controllerName ∈ Watch.controllers (objects rref) := by
      intro hnone hheld
      rw [hnone, List.append_nil]
      exact ih hbefore hheld
    cases p with
    | gatewayClass | gateway => exact hother rfl h
    | httpRoute ref uid parents =>
      by_cases href : rref = ref
      · subst href
        obtain rfl : parents = [] := hlast parents (by simp [routePatches, parentsIn])
        simp only [writeTo, Function.update_self] at h
        exact absurd h (not_ours_written rref uid _)
      · refine hother (by simp [routePatches, parentsIn, Ne.symm href]) ?_
        rw [writeTo, Function.update_of_ne href] at h
        exact h

/-- Other controllers may have written their entries since, not ours. -/
def SameHolders (controllerName : String) (objects objects' : ObjectRef → Value) : Prop :=
  ∀ rref, controllerName ∈ Watch.controllers (objects' rref) ↔
    controllerName ∈ Watch.controllers (objects rref)

/-- The snapshot with the live objects' holders. -/
def rewatch (snap : Snapshot) (objects : ObjectRef → Value) : Snapshot :=
  reread snap fun rref => Watch.controllers (objects rref)

theorem live_rewatch (snap : Snapshot) (objects : ObjectRef → Value) :
    Live (rewatch snap objects) objects := by
  intro rref route hroute
  rw [rewatch, reread, TreeMap.getElem?_map] at hroute
  obtain ⟨old, -, rfl⟩ := Option.map_eq_some_iff.mp hroute
  rfl

/-- Once a round was written, no route that names no Gateway of ours holds our
entry. -/
theorem quiet_of_written {env : Env} {snap : Snapshot} {settings : Settings}
    {objects' : ObjectRef → Value} (hlive : Live snap objects)
    (hwritten : SameHolders settings.controllerName (writeAll isIp settings.controllerName now objects
      (Core.Translate.translate env snap settings).status) objects') :
    Quiet env snap settings fun rref => Watch.controllers (objects' rref) := by
  intro rref route hroute hnames hheld
  have hpatches := routePatches_of_not_names hroute hnames
  obtain ⟨hnone, hbefore⟩ := ours_writeAll (by rw [hpatches]; split <;> simp)
    ((hwritten rref).mp hheld)
  rw [hpatches, if_pos (by rwa [hlive rref route hroute])] at hnone
  cases hnone

end Objects

/-- Writing a translation's status and watching it come back changes nothing that is
served, and of the status only that empty patches are gone; writing that changes
nothing at all. Whatever other controllers write meanwhile, the status of a
cluster that does not change is written in at most two rounds. -/
theorem status_feedback_settles (env : Env) (snap : Snapshot) (settings : Settings)
    (isIp : String → Bool) (now later : String) (objects objects' objects'' : ObjectRef → Value)
    (hlive : Live snap objects)
    (hwritten : SameHolders settings.controllerName (writeAll isIp settings.controllerName now objects
      (Core.Translate.translate env snap settings).status) objects')
    (hagain : SameHolders settings.controllerName
      (writeAll isIp settings.controllerName later objects'
        (Core.Translate.translate env (rewatch snap objects') settings).status) objects'') :
    let first := Core.Translate.translate env snap settings
    let second := Core.Translate.translate env (rewatch snap objects') settings
    second.config = first.config ∧ second.status = first.status.filter speaks ∧
      Core.Translate.translate env (rewatch (rewatch snap objects') objects'') settings =
        second := by
  intro first second
  have hsecond : second = { first with status := first.status.filter speaks } :=
    translate_reread (quiet_of_written hlive hwritten)
  have hthird : Core.Translate.translate env (rewatch (rewatch snap objects') objects'') settings =
      { second with status := second.status.filter speaks } :=
    translate_reread (quiet_of_written (live_rewatch snap objects') hagain)
  refine ⟨by rw [hsecond], by rw [hsecond], ?_⟩
  rw [hthird, hsecond, List.filter_filter]
  simp only [Bool.and_self]

/-- A route that left our Gateways, with our entry still in its status. -/
def leftRoute : Value :=
  .object [("status", .object [("parents", .array
    [.object [("controllerName", .string "gapura.dev/controller")], foreignEntry])])]

def leftSnapshot : Snapshot :=
  rewatch { httpRoutes := TreeMap.ofList [(⟨"shop", "cart"⟩, {})] _ } fun _ => leftRoute

theorem status_feedback_settles_left :
    let objects := fun _ => leftRoute
    let first := Core.Translate.translate bareEnv leftSnapshot {}
    let objects' := writeAll (fun _ => false) "gapura.dev/controller" "now" objects first.status
    let second := Core.Translate.translate bareEnv (rewatch leftSnapshot objects') {}
    let objects'' := writeAll (fun _ => false) "gapura.dev/controller" "later" objects' second.status
    first.status = [.httpRoute ⟨"shop", "cart"⟩ none []] ∧ second.status = [] ∧
      Core.Translate.translate bareEnv (rewatch (rewatch leftSnapshot objects') objects'') {} =
        second := by
  intro objects first objects' second objects''
  have hlive : Live leftSnapshot objects := live_rewatch _ _
  obtain ⟨-, hsecond, hthird⟩ := status_feedback_settles bareEnv leftSnapshot {} (fun _ => false)
    "now" "later" objects objects' objects'' hlive (fun _ => Iff.rfl) fun _ => Iff.rfl
  have hfirst : first.status = [.httpRoute ⟨"shop", "cart"⟩ none []] := by
    decide
  refine ⟨hfirst, ?_, hthird⟩
  rw [show second.status = first.status.filter speaks from hsecond, hfirst]
  rfl

end Gapura.Source.Status
