import Gapura.Core.Translate.Listeners
import Gapura.Lib.Allocation

/-! # The ports listeners serve on

The listeners of a Gateway with an address of its own move to a bound port that
no programmed listener declares, all those of one protocol and one declared port
to the same. Attaching routes asks for these ports before the listeners are
emitted, so the allocation runs in two places. -/
namespace Gapura.Core.Translate
open Lib.Allocation Input

/-- A programmed listener as the remap sees it. -/
structure RemapSlot where
  /-- `namespace/name` of its Gateway. -/
  gateway : String
  https : Bool
  /-- The declared port. -/
  port : Nat
  /-- Its Gateway carries an address override. -/
  overridden : Bool
  deriving DecidableEq, Repr

/-- What one allocation is made for. -/
structure RemapGroup where
  gateway : String
  https : Bool
  port : Nat
  deriving DecidableEq, Repr

def RemapSlot.group (s : RemapSlot) : RemapGroup := ⟨s.gateway, s.https, s.port⟩

def remapPool (settings : Settings) (group : RemapGroup) : List Nat :=
  if group.https then settings.httpsPorts else settings.httpPorts

/-- What the allocation is asked for: the group of each slot that may move. -/
def remapGroups (slots : List RemapSlot) : List (Option RemapGroup) :=
  slots.map fun s => if s.overridden then some s.group else none

/-- The port each slot moves to, `none` where it keeps its declared port. -/
def remapTargets (slots : List RemapSlot) (settings : Settings) : List (Option Nat) :=
  assign (remapPool settings) { taken := slots.map (·.port) } (remapGroups slots)

/-- The slot of a listener, from its Gateway's reference. -/
def slotOf (settings : Settings) (ref : ObjectRef) (l : ListenerBuild) : RemapSlot :=
  { gateway := ref.text
    https := l.protocol == some .https
    port := l.port
    overridden := settings.gatewayAddressOverrides.contains ref.text }

/-- The slots of one Gateway, each with the indices of its listener. -/
def gatewaySlots (settings : Settings) (p : GatewayBuild × Nat) : List ((Nat × Nat) × RemapSlot) :=
  if p.1.rejected.isSome then []
  else p.1.listeners.zipIdx.filterMap fun q =>
    if q.1.programmed then some ((p.2, q.2), slotOf settings p.1.ref q.1) else none

def placedSlots (gateways : List GatewayBuild) (settings : Settings) :
    List ((Nat × Nat) × RemapSlot) :=
  gateways.zipIdx.flatMap (gatewaySlots settings)

/-- The port of every programmed listener, indexed as the Gateways and their
listeners are. Each index is written at most once. -/
def servingPorts (gateways : List GatewayBuild) (settings : Settings) : List (List (Option Nat)) :=
  let placed := placedSlots gateways settings
  let ports := (placed.zip (remapTargets (placed.map (·.2)) settings)).map fun p =>
    (p.1.1, p.2.getD p.1.2.port)
  gateways.mapIdx fun gi gw => gw.listeners.mapIdx fun li _ => ports.lookup (gi, li)

def portAt (ports : List (List (Option Nat))) (pos : Nat × Nat) : Option Nat :=
  (ports[pos.1]?.bind (·[pos.2]?)).join

/-- The `namespace/name` of a listener id `namespace/name/listener`, up to its
second slash; an id without one stands for itself. -/
def gatewayOf (id : String) : String :=
  let ns := id.toList.takeWhile (· != '/')
  match id.toList.dropWhile (· != '/') with
  | [] => id
  | _ :: rest =>
    if rest.contains '/' then String.ofList (ns ++ '/' :: rest.takeWhile (· != '/')) else id

/-! ## Where slots end up -/

section Targets
variable {slots : List RemapSlot} {settings : Settings} {s s' : RemapSlot} {p : Nat}

/-- Where a slot goes, once every slot has been served. -/
def targetOf (slots : List RemapSlot) (settings : Settings) (s : RemapSlot) : Option Nat :=
  if s.overridden then
    ((Alloc.run (remapPool settings) { taken := slots.map (·.port) }
      (remapGroups slots)).groups.lookup s.group).join
  else none

theorem remapTargets_eq (slots : List RemapSlot) (settings : Settings) :
    remapTargets slots settings = slots.map (targetOf slots settings) := by
  rw [remapTargets, assign_eq]
  nth_rewrite 2 [remapGroups]
  rw [List.map_map]
  refine List.map_congr_left fun s _ => ?_
  unfold targetOf
  simp only [Function.comp]
  split <;> rfl

theorem sound_remap (slots : List RemapSlot) (settings : Settings) :
    Sound (remapPool settings) (slots.map (·.port))
      (Alloc.run (remapPool settings) { taken := slots.map (·.port) } (remapGroups slots)) :=
  (sound_start _).run _

section
variable (h : targetOf slots settings s = some p)

include h

theorem lookup_of_targetOf : s.overridden = true ∧
    (Alloc.run (remapPool settings) { taken := slots.map (·.port) }
      (remapGroups slots)).groups.lookup s.group = some (some p) := by
  unfold targetOf at h
  split at h
  · rename_i hov
    exact ⟨hov, Option.join_eq_some_iff.mp h⟩
  · cases h

theorem targetOf_mem : p ∈ remapPool settings s.group ∧ p ∉ slots.map (·.port) := by
  obtain ⟨hpool, hfree, -⟩ :=
    (sound_remap slots settings).given _ _ (lookup_of_targetOf h).2
  exact ⟨hpool, hfree⟩

theorem group_eq_of_targetOf (h' : targetOf slots settings s' = some p) : s.group = s'.group :=
  (sound_remap slots settings).apart _ _ _ (lookup_of_targetOf h).2 (lookup_of_targetOf h').2

end

theorem targetOf_congr (hgroup : s.group = s'.group) (hov : s.overridden = s'.overridden) :
    targetOf slots settings s = targetOf slots settings s' := by
  unfold targetOf
  rw [hgroup, hov]

end Targets

/-! ## Which listeners have a port -/

/-- Looking up a key finds its value, where a key has only one. -/
theorem lookup_eq_some_iff_of_functional {α β : Type} [BEq α] [LawfulBEq α] {l : List (α × β)}
    (h : ∀ a b b', (a, b) ∈ l → (a, b') ∈ l → b = b') {a : α} {b : β} :
    l.lookup a = some b ↔ (a, b) ∈ l := by
  have hfind : ∀ {b : β}, l.lookup a = some b → (a, b) ∈ l := by
    intro b hb
    obtain ⟨l₁, l₂, rfl, -⟩ := List.lookup_eq_some_iff.mp hb
    simp
  refine ⟨hfind, fun hmem => ?_⟩
  cases hlookup : l.lookup a with
  | some b' => rw [h a b b' hmem (hfind hlookup)]
  | none =>
    have := List.lookup_eq_none_iff.mp hlookup _ hmem
    simp at this

section Placed
variable {gateways : List GatewayBuild} {settings : Settings} {pos : Nat × Nat}

/-- The programmed listeners of Gateways that are not refused, with their indices. -/
def placedListeners (gateways : List GatewayBuild) :
    List ((Nat × Nat) × GatewayBuild × ListenerBuild) :=
  gateways.zipIdx.flatMap fun p =>
    if p.1.rejected.isSome then []
    else p.1.listeners.zipIdx.filterMap fun q =>
      if q.1.programmed then some ((p.2, q.2), p.1, q.1) else none

theorem mem_placedListeners {gw : GatewayBuild} {l : ListenerBuild} :
    (pos, gw, l) ∈ placedListeners gateways ↔ gateways[pos.1]? = some gw ∧
      gw.listeners[pos.2]? = some l ∧ gw.rejected = none ∧ l.programmed = true := by
  obtain ⟨gi, li⟩ := pos
  simp only [placedListeners, List.mem_flatMap, Prod.exists, List.mem_zipIdx_iff_getElem?]
  constructor
  · rintro ⟨gw', gi', hgw, hmem⟩
    split at hmem
    · cases hmem
    · rename_i hrejected
      simp only [List.mem_filterMap, Prod.exists, List.mem_zipIdx_iff_getElem?] at hmem
      obtain ⟨l', li', hl, hsome⟩ := hmem
      split at hsome
      · rename_i hprogrammed
        cases hsome
        exact ⟨hgw, hl, by simpa using hrejected, hprogrammed⟩
      · cases hsome
  · rintro ⟨hgw, hl, hrejected, hprogrammed⟩
    refine ⟨gw, gi, hgw, ?_⟩
    simp only [hrejected, Option.isSome_none, Bool.false_eq_true, if_false, List.mem_filterMap,
      Prod.exists, List.mem_zipIdx_iff_getElem?]
    exact ⟨l, li, hl, by simp [hprogrammed]⟩

theorem placedSlots_eq : placedSlots gateways settings =
    (placedListeners gateways).map fun x => (x.1, slotOf settings x.2.1.ref x.2.2) := by
  rw [placedSlots, placedListeners, List.map_flatMap]
  refine List.flatMap_congr fun p _ => ?_
  unfold gatewaySlots
  split
  · rfl
  · rw [List.map_filterMap]
    refine List.filterMap_congr fun q _ => ?_
    split <;> rfl

theorem mem_placedSlots {slot : RemapSlot} :
    (pos, slot) ∈ placedSlots gateways settings ↔ ∃ gw l, gateways[pos.1]? = some gw ∧
      gw.listeners[pos.2]? = some l ∧ gw.rejected = none ∧ l.programmed = true ∧
      slot = slotOf settings gw.ref l := by
  rw [placedSlots_eq]
  simp only [List.mem_map, Prod.exists, Prod.mk.injEq, mem_placedListeners]
  constructor
  · rintro ⟨gi, li, gw, l, ⟨hgw, hl, hrejected, hprogrammed⟩, rfl, rfl⟩
    exact ⟨gw, l, hgw, hl, hrejected, hprogrammed, rfl⟩
  · rintro ⟨gw, l, hgw, hl, hrejected, hprogrammed, rfl⟩
    exact ⟨_, _, gw, l, ⟨hgw, hl, hrejected, hprogrammed⟩, rfl, rfl⟩

/-- A position determines its slot. -/
theorem slot_unique {slot slot' : RemapSlot} (h : (pos, slot) ∈ placedSlots gateways settings)
    (h' : (pos, slot') ∈ placedSlots gateways settings) : slot = slot' := by
  obtain ⟨gw, l, hgw, hl, -, -, rfl⟩ := mem_placedSlots.mp h
  obtain ⟨gw', l', hgw', hl', -, -, rfl⟩ := mem_placedSlots.mp h'
  obtain rfl : gw = gw' := Option.mem_unique hgw hgw'
  obtain rfl : l = l' := Option.mem_unique hl hl'
  rfl

/-- The port a slot serves on. -/
def servedPort (gateways : List GatewayBuild) (settings : Settings) (slot : RemapSlot) : Nat :=
  (targetOf ((placedSlots gateways settings).map (·.2)) settings slot).getD slot.port

theorem portAt_servingPorts {p : Nat} :
    portAt (servingPorts gateways settings) pos = some p ↔ ∃ slot,
      (pos, slot) ∈ placedSlots gateways settings ∧ servedPort gateways settings slot = p := by
  have hports : ((placedSlots gateways settings).zip (remapTargets
      ((placedSlots gateways settings).map (·.2)) settings)).map
        (fun q => (q.1.1, q.2.getD q.1.2.port)) =
      (placedSlots gateways settings).map fun q => (q.1, servedPort gateways settings q.2) := by
    rw [remapTargets_eq, List.map_map]
    refine List.ext_getElem (by simp) fun i _ _ => ?_
    simp [servedPort]
  have hlookup : ∀ q : Nat, ((placedSlots gateways settings).map fun q =>
      (q.1, servedPort gateways settings q.2)).lookup pos = some q ↔ ∃ slot,
        (pos, slot) ∈ placedSlots gateways settings ∧ servedPort gateways settings slot = q := by
    intro q
    rw [lookup_eq_some_iff_of_functional]
    · simp only [List.mem_map, Prod.mk.injEq]
      constructor
      · rintro ⟨⟨pos', slot⟩, hmem, rfl, rfl⟩
        exact ⟨slot, hmem, rfl⟩
      · rintro ⟨slot, hmem, rfl⟩
        exact ⟨(pos, slot), hmem, rfl, rfl⟩
    · simp only [List.mem_map, Prod.mk.injEq]
      rintro a b b' ⟨⟨pos, slot⟩, hmem, rfl, rfl⟩ ⟨⟨pos', slot'⟩, hmem', rfl, rfl⟩
      rw [slot_unique hmem hmem']
  rw [← hlookup, portAt, servingPorts]
  simp only [hports, List.getElem?_mapIdx]
  constructor
  · intro h
    cases hgw : gateways[pos.1]? with
    | none => simp [hgw] at h
    | some gw => cases hl : gw.listeners[pos.2]? with
      | none => simp [hgw, hl] at h
      | some l => simpa [hgw, hl] using h
  · intro h
    obtain ⟨slot, hmem, -⟩ := (hlookup p).mp h
    obtain ⟨gw, l, hgw, hl, -⟩ := mem_placedSlots.mp hmem
    simp [hgw, hl, h]

/-! ## What attaching routes leaves as it is -/

/-- A Gateway without what attaching routes adds to its listeners. -/
structure Shape where
  ref : ObjectRef
  uid : Option String
  generation : Option Int
  listeners : List ListenerBuild
  rejected : Option Status.Rejection
  requestedAddresses : List String

def GatewayBuild.shape (gw : GatewayBuild) : Shape :=
  { ref := gw.ref, uid := gw.uid, generation := gw.generation
    listeners := gw.listeners.map ListenerBuild.blank
    rejected := gw.rejected, requestedAddresses := gw.requestedAddresses }

def shapeSlots (settings : Settings) (p : Shape × Nat) : List ((Nat × Nat) × RemapSlot) :=
  if p.1.rejected.isSome then []
  else p.1.listeners.zipIdx.filterMap fun q =>
    if q.1.programmed then some ((p.2, q.2), slotOf settings p.1.ref q.1) else none

theorem gatewaySlots_eq (p : GatewayBuild × Nat) :
    gatewaySlots settings p = shapeSlots settings (p.1.shape, p.2) := by
  unfold gatewaySlots shapeSlots
  simp only [GatewayBuild.shape, List.zipIdx_map, List.filterMap_map]
  rfl

/-- The slots are those of the shapes. -/
theorem placedSlots_congr {gateways' : List GatewayBuild}
    (h : gateways'.map GatewayBuild.shape = gateways.map GatewayBuild.shape) :
    placedSlots gateways' settings = placedSlots gateways settings := by
  have hshapes : ∀ gs : List GatewayBuild, placedSlots gs settings =
      (gs.map GatewayBuild.shape).zipIdx.flatMap (shapeSlots settings) := by
    intro gs
    rw [placedSlots, List.zipIdx_map, List.flatMap_map]
    exact List.flatMap_congr fun p _ => gatewaySlots_eq p
  rw [hshapes, hshapes, h]

end Placed

/-! ## Reading the Gateway off a listener's id -/

theorem takeWhile_slash {a b : List Char} (ha : '/' ∉ a) :
    (a ++ '/' :: b).takeWhile (· != '/') = a ∧ (a ++ '/' :: b).dropWhile (· != '/') = '/' :: b := by
  have hall : ∀ c ∈ a, (c != '/') = true := by
    intro c hc
    simpa using fun h : c = '/' => ha (h ▸ hc)
  constructor
  · rw [List.takeWhile_append_of_pos hall]
    simp
  · rw [List.dropWhile_append_of_pos hall]
    simp

theorem gatewayOf_id {r : ObjectRef} (hns : Slashless r.namespace) (hname : Slashless r.name)
    (listener : String) : gatewayOf (r.text ++ "/" ++ listener) = r.text := by
  have hchars : (r.text ++ "/" ++ listener).toList =
      r.namespace.toList ++ '/' :: (r.name.toList ++ '/' :: listener.toList) := by
    simp [ObjectRef.text]
  unfold gatewayOf
  simp only [hchars, (takeWhile_slash hns).1, (takeWhile_slash hns).2, (takeWhile_slash hname).1]
  rw [if_pos (by simp), ← String.toList_inj]
  simp [ObjectRef.text]

end Gapura.Core.Translate
