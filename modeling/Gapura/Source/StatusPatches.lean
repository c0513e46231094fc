import Gapura.Core.Translate.ResolvedRefs
import Gapura.Source.StatusMerge

/-! # The patches of a translation

A translation's conditions have a fixed set of types and reasons, which the writer
is handed as texts. The patches of a translation are told apart as the writer needs
them to be, as long as the listeners of each Gateway have distinct names and the
parentRefs of each route name distinct parents: what the leader writes for a
snapshot then stays as it is for as long as the snapshot does. -/
namespace Gapura.Source.Status
open Lib.Json
open Core.Input (Env ParentReference HttpRoute ObjectRef Snapshot Settings GatewayClass
  bareEnv)
open Core.Translate

/-! ## Texts -/

def typeText : Core.Status.ConditionType → String
  | .accepted => "Accepted"
  | .programmed => "Programmed"
  | .resolvedRefs => "ResolvedRefs"
  | .conflicted => "Conflicted"

def reasonText : Core.Status.Reason → String
  | .accepted => "Accepted"
  | .programmed => "Programmed"
  | .resolvedRefs => "ResolvedRefs"
  | .noConflicts => "NoConflicts"
  | .invalid => "Invalid"
  | .invalidParameters => "InvalidParameters"
  | .listenersNotValid => "ListenersNotValid"
  | .portUnavailable => "PortUnavailable"
  | .unsupportedProtocol => "UnsupportedProtocol"
  | .invalidCertificateRef => "InvalidCertificateRef"
  | .invalidRouteKinds => "InvalidRouteKinds"
  | .refNotPermitted => "RefNotPermitted"
  | .hostnameConflict => "HostnameConflict"
  | .protocolConflict => "ProtocolConflict"
  | .notAllowedByListeners => "NotAllowedByListeners"
  | .noMatchingListenerHostname => "NoMatchingListenerHostname"
  | .noMatchingParent => "NoMatchingParent"
  | .unsupportedValue => "UnsupportedValue"
  | .backendNotFound => "BackendNotFound"
  | .invalidKind => "InvalidKind"
  | .unsupportedAddress => "UnsupportedAddress"
  | .addressNotAssigned => "AddressNotAssigned"

def ConditionStatus.of : Core.Status.ConditionStatus → ConditionStatus
  | .true => .true
  | .false => .false

def Condition.of (c : Core.Status.Condition) : Condition where
  type := typeText c.type
  status := .of c.status
  reason := reasonText c.reason
  message := c.message
  observedGeneration := c.observedGeneration

def ListenerStatus.of (l : Core.Status.ListenerStatus) : ListenerStatus where
  name := l.name
  supportedKinds := l.supportedKinds
  attachedRoutes := l.attachedRoutes
  conditions := l.conditions.map .of

def RouteParentStatus.of (p : Core.Status.RouteParentStatus) : RouteParentStatus where
  parentRef := p.parentRef
  controllerName := p.controllerName
  conditions := p.conditions.map .of

/-- A patch as the writer is handed it. -/
def StatusPatch.of : Core.Status.StatusPatch → StatusPatch
  | .gatewayClass name uid conditions features =>
    .gatewayClass name uid (conditions.map .of) features
  | .gateway ref uid addresses conditions listeners =>
    .gateway ref uid addresses (conditions.map .of) (listeners.map .of)
  | .httpRoute ref uid parents => .httpRoute ref uid (parents.map .of)

theorem typeText_injective : typeText.Injective := by
  intro a b h
  cases a <;> cases b <;> first | rfl | simp [typeText] at h

/-- The texts tell conditions apart as their types do. -/
theorem nodup_types {conds : List Core.Status.Condition} :
    (conds.map fun c => (Condition.of c).type).Nodup ↔ (conds.map (·.type)).Nodup := by
  rw [← List.nodup_map_iff typeText_injective, List.map_map]
  rfl

theorem separate_gateway {controllerName : String} {ref : ObjectRef} {uid : Option String}
    {addresses : List String} {conditions : List Core.Status.Condition}
    {listeners : List Core.Status.ListenerStatus} :
    Separate controllerName (.of (.gateway ref uid addresses conditions listeners)) ↔
      (conditions.map (·.type)).Nodup ∧ (listeners.map (·.name)).Nodup ∧
        ∀ l ∈ listeners, (l.conditions.map (·.type)).Nodup := by
  simp only [Separate, StatusPatch.of, ListenerStatus.of, List.forall_mem_map, List.map_map,
    Function.comp_def, nodup_types]

/-! ## Classes and Gateways -/

theorem separate_classPatch (controllerName : String) (p : String × GatewayClass) :
    Separate controllerName (.of (classPatch p)) :=
  List.nodup_singleton _

theorem types_conditions (l : ListenerBuild) (generation : Option Int) (gatewayOk : Bool) :
    (l.conditions generation gatewayOk).map (·.type) =
      [.accepted, .programmed, .resolvedRefs, .conflicted] := by
  simp only [ListenerBuild.conditions, List.map_cons, List.map_nil, List.cons.injEq, and_true]
  refine ⟨?_, ?_, ?_, ?_⟩ <;> split <;> rfl

theorem gatewayPatch_shape (env : Env) (settings : Settings) (gw : GatewayBuild) :
    ∃ addresses accepted programmed, accepted.type = .accepted ∧ programmed.type = .programmed ∧
      gatewayPatch env settings gw = .gateway gw.ref gw.uid addresses [accepted, programmed]
        (gw.listeners.map fun l =>
          { name := l.name, supportedKinds := l.supportedKinds, attachedRoutes := l.attachedRoutes
            conditions := l.conditions gw.generation gw.rejected.isNone }) := by
  refine ⟨_, _, _, ?_, ?_, rfl⟩
  · repeat' split
    all_goals rfl
  · repeat' split
    all_goals rfl

theorem separate_gatewayPatch (controllerName : String) (env : Env) (settings : Settings)
    {gw : GatewayBuild} (hnames : (gw.listeners.map (·.name)).Nodup) :
    Separate controllerName (.of (gatewayPatch env settings gw)) := by
  obtain ⟨addresses, accepted, programmed, haccepted, hprogrammed, hpatch⟩ :=
    gatewayPatch_shape env settings gw
  rw [hpatch]
  refine separate_gateway.mpr ⟨?_, ?_, ?_⟩
  · simp [haccepted, hprogrammed]
  · rw [List.map_map]
    exact hnames
  · intro l hl
    obtain ⟨l, -, rfl⟩ := List.mem_map.mp hl
    rw [types_conditions]
    simp

/-- Attaching routes renames no listener. -/
theorem names_of_shape {gw gw' : GatewayBuild} (h : gw'.shape = gw.shape) :
    gw'.listeners.map (·.name) = gw.listeners.map (·.name) := by
  have hlisteners : gw'.listeners.map ListenerBuild.blank = gw.listeners.map ListenerBuild.blank :=
    congrArg Shape.listeners h
  have hnames := congrArg (List.map ListenerBuild.name) hlisteners
  rw [List.map_map, List.map_map] at hnames
  exact hnames

/-! ## Notes on moved listeners -/

theorem mem_modify {α : Type} {f : α → α} {l : List α} {i : Nat} {a : α} (h : a ∈ l.modify i f) :
    ∃ b ∈ l, a = b ∨ a = f b := by
  obtain ⟨j, hj⟩ := List.getElem?_of_mem h
  rw [List.getElem?_modify] at hj
  obtain ⟨b, hb, hab⟩ := Option.map_eq_some_iff.mp hj
  refine ⟨b, List.mem_of_getElem? hb, ?_⟩
  split at hab
  · exact .inr hab.symm
  · exact .inl hab.symm

theorem map_modify {α β : Type} {f : α → α} {g : α → β} (h : ∀ a, g (f a) = g a) (l : List α)
    (i : Nat) : (l.modify i f).map g = l.map g := by
  rw [← List.filterMap_eq_map]
  exact filterMap_modify (f := some ∘ g) (fun a => congrArg some (h a)) l i

section Notes
variable {controllerName : String}

theorem types_note (effective declared : Nat) (conds : List Core.Status.Condition) :
    (conds.map (noteCondition effective declared)).map (·.type) = conds.map (·.type) := by
  rw [List.map_map]
  refine List.map_congr_left fun c _ => ?_
  show (noteCondition effective declared c).type = c.type
  unfold noteCondition
  split <;> rfl

theorem separate_notePatch {p : Core.Status.StatusPatch} (h : Separate controllerName (.of p))
    (listener : String) (effective declared : Nat) :
    Separate controllerName (.of (notePatch listener (noteCondition effective declared) p)) := by
  cases p with
  | gateway ref uid addresses conditions listeners =>
    obtain ⟨hconditions, hnames, hlisteners⟩ := separate_gateway.mp h
    refine separate_gateway.mpr ⟨hconditions, ?_, ?_⟩
    · split
      · rw [map_modify fun _ => by rfl]
        exact hnames
      · exact hnames
    · split
      · intro l hl
        obtain ⟨l, hmem, rfl | rfl⟩ := mem_modify hl
        · exact hlisteners l hmem
        · rw [types_note]
          exact hlisteners l hmem
      · exact hlisteners
  | _ => exact h

/-- What a note leaves as it was is so of every patch after the notes. -/
theorem forall_noteRemappedPort {P : Core.Status.StatusPatch → Prop}
    (hnote : ∀ p listener effective declared, P p →
      P (notePatch listener (noteCondition effective declared) p))
    {status : List Core.Status.StatusPatch} (h : ∀ p ∈ status, P p) (l : Core.ListenerConfig) :
    ∀ p ∈ noteRemappedPort status l, P p := by
  unfold noteRemappedPort
  split
  · split
    · intro p hp
      obtain ⟨q, hq, rfl | rfl⟩ := mem_modify hp
      · exact h p hq
      · exact hnote q _ _ _ (h q hq)
    · exact h
  · exact h

end Notes

/-! ## Routes -/

/-- The parentRefs of each route name distinct parents. -/
def ParentsApart (snap : Snapshot) : Prop :=
  ∀ p ∈ snap.httpRoutes.toList, (p.2.parentRefs.map identity).Nodup

instance (snap : Snapshot) : Decidable (ParentsApart snap) :=
  inferInstanceAs (Decidable (∀ p ∈ snap.httpRoutes.toList, (p.2.parentRefs.map identity).Nodup))

section Routes
variable {env : Env} {snap : Snapshot} {settings : Settings} {siblings : List Sibling}
  {rref : ObjectRef} {route : HttpRoute}

theorem separate_route {controllerName : String} {uid : Option String}
    {parents : List Core.Status.RouteParentStatus} :
    Separate controllerName (.of (.httpRoute rref uid parents)) ↔
      (parents.map fun p => identity p.parentRef).Nodup ∧
        ∀ p ∈ parents, p.controllerName = controllerName ∧ (p.conditions.map (·.type)).Nodup := by
  simp only [Separate, StatusPatch.of, RouteParentStatus.of, List.forall_mem_map, List.map_map,
    Function.comp_def, nodup_types]

/-- A walk lists parentRefs of the route, each once and in order, under our name. -/
theorem parents_of_walk (snap : Snapshot) (settings : Settings) (siblings : List Sibling)
    (gs : List GatewayBuild) (rref : ObjectRef) (route : HttpRoute)
    (compiled : Except Unsupported Compiled) :
    let parents := (attachParents snap settings siblings gs rref route compiled).parents
    (parents.map (·.parentRef)).Sublist route.parentRefs ∧
      ∀ parent ∈ parents, parent.controllerName = settings.controllerName := by
  refine Lib.Stateful.foldl_prefix (p := fun done (s : Attaching) =>
    (s.parents.map (·.parentRef)).Sublist done ∧
      ∀ parent ∈ s.parents, parent.controllerName = settings.controllerName)
    (s := { gateways := gs }) ⟨.slnil, by simp⟩ ?_ route.parentRefs
  intro done pref s ⟨hrefs, hname⟩
  have hkept : (s.parents.map (·.parentRef)).Sublist (done ++ [pref]) :=
    hrefs.trans (List.sublist_append_left _ _)
  unfold attachParent
  split
  · exact ⟨hkept, hname⟩
  · split
    · exact ⟨hkept, hname⟩
    · refine ⟨?_, ?_⟩
      · rw [List.map_append]
        exact hrefs.append (.refl _)
      · refine List.forall_mem_append.mpr ⟨hname, ?_⟩
        simp

theorem separate_walk (gs : List GatewayBuild) {compiled : Except Unsupported Compiled}
    (hrefs : ∀ c, compiled = .ok c → c.resolvedRefs.type = .resolvedRefs)
    (hapart : (route.parentRefs.map identity).Nodup) (uid : Option String) :
    Separate settings.controllerName (.of (.httpRoute rref uid
      (attachParents snap settings siblings gs rref route compiled).parents)) := by
  obtain ⟨hsublist, hname⟩ := parents_of_walk snap settings siblings gs rref route compiled
  refine separate_route.mpr ⟨?_, fun parent hparent => ⟨hname parent hparent, ?_⟩⟩
  · have hidentities := hapart.sublist (hsublist.map identity)
    rwa [List.map_map] at hidentities
  · obtain ⟨o, hconditions⟩ := conditions_of_parent hparent
    simp [hconditions, acceptedCondition_type, resolvedCondition_type hrefs]

theorem separate_attachRoute {s : AttachState}
    (h : ∀ p ∈ s.status, Separate settings.controllerName (.of p))
    (hapart : (route.parentRefs.map identity).Nodup) :
    ∀ p ∈ (attachRoute env snap settings siblings s (rref, route)).status,
      Separate settings.controllerName (.of p) := by
  unfold attachRoute
  simp only
  split
  · split
    · refine List.forall_mem_append.mpr ⟨h, List.forall_mem_singleton.mpr ?_⟩
      exact separate_route.mpr ⟨List.nodup_nil, by simp⟩
    · exact h
  · simp only
    split
    · exact h
    · refine List.forall_mem_append.mpr ⟨h, List.forall_mem_singleton.mpr ?_⟩
      exact separate_walk _ (fun c hc => compiledFor_refs hc) hapart _

theorem separate_attached (hparents : ParentsApart snap) :
    ∀ p ∈ (attached env snap settings).status, Separate settings.controllerName (.of p) := by
  refine List.foldlRecOn snap.httpRoutes.toList _ (motive := fun s : AttachState =>
    ∀ p ∈ s.status, Separate settings.controllerName (.of p)) (by simp) ?_
  intro s hs p hp
  exact separate_attachRoute hs (hparents p hp)

/-! ## All patches -/

theorem separate_translate (hnames : NamesApart snap) (hparents : ParentsApart snap) :
    ∀ p ∈ (translate env snap settings).status, Separate settings.controllerName (.of p) := by
  refine List.forall_mem_append.mpr ⟨?_, separate_attached hparents⟩
  refine List.foldlRecOn (translate env snap settings).config.listeners noteRemappedPort
    (motive := fun status => ∀ p ∈ status, Separate settings.controllerName (.of p)) ?_
    fun status hstatus l _ => forall_noteRemappedPort
      (P := fun p => Separate settings.controllerName (.of p))
      (fun _ _ _ _ hp => separate_notePatch hp _ _ _) hstatus l
  refine List.forall_mem_append.mpr ⟨?_, ?_⟩
  · intro p hp
    obtain ⟨c, -, rfl⟩ := List.mem_map.mp hp
    exact separate_classPatch _ c
  · intro p hp
    obtain ⟨gw, hgw, rfl⟩ := List.mem_map.mp hp
    have hran : Ran env snap _ _ _ (attached env snap settings) := attached_ran
    obtain ⟨gi, hgi⟩ := List.getElem?_of_mem hgw
    obtain ⟨gw₀, hgw₀, hshape⟩ := hran.shape.symm.gateway hgi
    refine separate_gatewayPatch _ env settings ?_
    rw [← names_of_shape hshape]
    exact nodup_names hnames (List.mem_of_getElem? hgw₀)

end Routes

/-- What is written for a translation is what would be written again: for each of
its patches, any object and any times, the body computed after a write is the body
that was written. -/
theorem translated_status_settles (env : Env) (snap : Snapshot) (settings : Settings)
    (isIp : String → Bool) (hnames : NamesApart snap) (hparents : ParentsApart snap)
    (p : Core.Status.StatusPatch) (hp : p ∈ (translate env snap settings).status) (object : Value)
    (now later : String) :
    let patch := StatusPatch.of p
    body isIp settings.controllerName patch
        ((written isIp settings.controllerName patch object now).index "status") later =
      body isIp settings.controllerName patch (object.index "status") now :=
  body_written (separate_translate hnames hparents p hp) object now later

theorem translated_status_settles_cart :
    (translate bareEnv cartSnapshot {}).status.length = 5 ∧
    ∀ p ∈ (translate bareEnv cartSnapshot {}).status,
      body (fun _ => false) "gapura.dev/controller" (.of p) ((written (fun _ => false)
          "gapura.dev/controller" (.of p) routeObject "now").index "status") "later" =
        body (fun _ => false) "gapura.dev/controller" (.of p) (routeObject.index "status") "now" :=
  ⟨by decide, fun p hp => translated_status_settles bareEnv cartSnapshot {} _ (by decide)
    (by decide) p hp routeObject "now" "later"⟩

end Gapura.Source.Status
