import Gapura.Core.Translate.Assemble

/-! # The ports asked for are the ports served

Attaching routes asks which port each listener will serve on; emitting the
listeners decides it. The two rebuild the slots in different places, one from
the Gateways' references and one from the listener ids, and allocate apart.
They agree as long as the parts of an id have no slash, and what they agree on
keeps a Gateway's listeners apart. -/
namespace Gapura.Core.Translate
open Input Status
open Std (TreeMap)

variable {settings : Settings} {gateways : List GatewayBuild}

/-! ## Both passes walk the same listeners -/

variable {gw : GatewayBuild} {l : ListenerBuild} {pos : Nat × Nat} {k : Nat} {cfg : ListenerConfig}
  {listeners : List ListenerConfig}

theorem emitted_eq : emitted settings gateways =
    (placedListeners gateways).filterMap fun x => emit settings x.2.1 x.2.2 := by
  rw [placedListeners, List.filterMap_flatMap]
  have hfst : emitted settings gateways = gateways.zipIdx.flatMap fun p =>
      p.1.listeners.filterMap (emit settings p.1) := by
    rw [emitted, ← List.zipIdx_map_fst 0 gateways, List.flatMap_map, List.zipIdx_map_fst]
  rw [hfst]
  refine List.flatMap_congr fun p _ => ?_
  split
  · rename_i hrejected
    have hnone : ∀ l, emit settings p.1 l = none := by
      intro l
      obtain ⟨r, hr⟩ := Option.isSome_iff_exists.mp hrejected
      simp [emit, hr]
    simp [hnone]
  · rw [List.filterMap_filterMap]
    conv_lhs => rw [← List.zipIdx_map_fst 0 p.1.listeners]
    rw [List.filterMap_map]
    refine List.filterMap_congr fun q _ => ?_
    split
    · rfl
    · rename_i hprogrammed
      simp [emit, hprogrammed]

/-- What is emitted for a programmed listener, before it moves. -/
theorem emit_of_placed (settings : Settings) (h : (pos, gw, l) ∈ placedListeners gateways) :
    ∃ e, emit settings gw l = some e ∧
      e.listener.id = gw.ref.text ++ "/" ++ l.name ∧ e.listener.port = l.port ∧
      e.listener.clientPort = none ∧ l.protocol = some e.listener.protocol ∧
      e.listener.hostname = l.hostname ∧ e.listener.tls = l.tls ∧ e.listener.rules = l.rules ∧
      e.overridden = settings.gatewayAddressOverrides.contains gw.ref.text ∧ e.table = l.table := by
  obtain ⟨-, -, hrejected, hprogrammed⟩ := mem_placedListeners.mp h
  have haccepted : l.accepted = .ok () := by
    simp only [ListenerBuild.programmed, Bool.and_eq_true] at hprogrammed
    cases hacc : l.accepted with
    | ok u => rfl
    | error r => simp [hacc, Except.toBool] at hprogrammed
  obtain ⟨protocol, hprotocol⟩ := Option.isSome_iff_exists.mp (l.spoken haccepted)
  simp only [emit, hrejected, hprogrammed, hprotocol]
  exact ⟨_, rfl, rfl, rfl, rfl, rfl, rfl, rfl, rfl, rfl, rfl⟩

theorem slot_of_emit {e : Emitted} (hns : Slashless gw.ref.namespace)
    (hname : Slashless gw.ref.name) (h : (pos, gw, l) ∈ placedListeners gateways)
    (he : emit settings gw l = some e) : e.slot = slotOf settings gw.ref l := by
  obtain ⟨e', he', hid, hport, -, hprotocol, -, -, -, hov, -⟩ := emit_of_placed settings h
  obtain rfl : e' = e := Option.mem_unique he' he
  unfold Emitted.slot slotOf
  rw [hid, gatewayOf_id hns hname, hport, hov, hprotocol]
  simp

theorem getElem?_emitted (k : Nat) : (emitted settings gateways)[k]? =
    (placedListeners gateways)[k]?.bind fun x => emit settings x.2.1 x.2.2 := by
  rw [emitted_eq]
  refine Lib.Ordered.getElem?_filterMap (fun x hx => ?_) k
  obtain ⟨e, he, -⟩ := emit_of_placed settings hx
  exact ⟨e, he⟩

/-- No part of a Gateway's name has a slash. -/
def PlainNames (gateways : List GatewayBuild) : Prop :=
  ∀ gw ∈ gateways, Slashless gw.ref.namespace ∧ Slashless gw.ref.name

/-- The slots read off the ids are those of the references. -/
theorem slots_agree (settings : Settings) (hplain : PlainNames gateways) :
    (emitted settings gateways).map Emitted.slot =
      (placedSlots gateways settings).map (·.2) := by
  refine List.ext_getElem? fun k => ?_
  rw [List.getElem?_map, getElem?_emitted, placedSlots_eq, List.map_map, List.getElem?_map]
  cases hx : (placedListeners gateways)[k]? with
  | none => rfl
  | some x =>
    obtain ⟨pos, gw, l⟩ := x
    have hmem := List.mem_of_getElem? hx
    obtain ⟨e, he, -⟩ := emit_of_placed settings hmem
    obtain ⟨hns, hname⟩ := hplain gw (List.mem_of_getElem? (mem_placedListeners.mp hmem).1)
    simp [he, slot_of_emit hns hname hmem he]

/-! ## What is emitted -/

theorem remapOverriddenListeners_eq (es : List Emitted) (settings : Settings) :
    remapOverriddenListeners es settings =
      es.map fun e => moved e.listener (targetOf (es.map Emitted.slot) settings e.slot) := by
  rw [remapOverriddenListeners, remapTargets_eq]
  refine List.ext_getElem (by simp) fun i _ _ => ?_
  simp

/-- The listener at `pos` is emitted `k`-th, as `cfg`. -/
structure Emits (gateways : List GatewayBuild) (listeners : List ListenerConfig) (k : Nat)
    (pos : Nat × Nat) (gw : GatewayBuild) (l : ListenerBuild) (cfg : ListenerConfig) : Prop where
  gateway : gateways[pos.1]? = some gw
  listener : gw.listeners[pos.2]? = some l
  order : ((placedListeners gateways).map (·.1))[k]? = some pos
  config : listeners[k]? = some cfg
  id : cfg.id = gw.ref.text ++ "/" ++ l.name
  protocol : l.protocol = some cfg.protocol
  hostname : cfg.hostname = l.hostname
  tls : cfg.tls = l.tls
  rules : cfg.rules = l.rules

/-- Where the slot of a listener goes. -/
def moveOf (settings : Settings) (gateways : List GatewayBuild) (gw : GatewayBuild)
    (l : ListenerBuild) : Option Nat :=
  targetOf ((placedSlots gateways settings).map (·.2)) settings (slotOf settings gw.ref l)

/-- A listener as it is served, its slot moved where it goes. -/
abbrev ServedAs (settings : Settings) (gateways : List GatewayBuild) :
    Nat → Nat × Nat → GatewayBuild → ListenerBuild → ListenerConfig → Prop :=
  Emits gateways (remapOverriddenListeners (emitted settings gateways) settings)

/-- Wherever its slot goes, a programmed listener is emitted. -/
theorem emits_of_order (settings : Settings) (h : (placedListeners gateways)[k]? = some (pos, gw, l)) :
    ∃ e, emit settings gw l = some e ∧ (emitted settings gateways)[k]? = some e ∧
      ServedAs settings gateways k pos gw l
        (moved e.listener
          (targetOf ((emitted settings gateways).map Emitted.slot) settings e.slot)) := by
  have hmem := List.mem_of_getElem? h
  obtain ⟨hgw, hl, -, -⟩ := mem_placedListeners.mp hmem
  obtain ⟨e, he, hid, -, -, hprotocol, hhost, htls, hrules, -, -⟩ := emit_of_placed settings hmem
  have hget : (emitted settings gateways)[k]? = some e := by
    rw [getElem?_emitted, h]
    exact he
  have hcfg : (remapOverriddenListeners (emitted settings gateways) settings)[k]? = some
      (moved e.listener (targetOf ((emitted settings gateways).map Emitted.slot) settings e.slot)) := by
    rw [remapOverriddenListeners_eq, List.getElem?_map, hget]
    rfl
  have horder : ((placedListeners gateways).map (·.1))[k]? = some pos := by simp [h]
  refine ⟨e, he, hget, ?_⟩
  generalize targetOf ((emitted settings gateways).map Emitted.slot) settings e.slot = move at hcfg ⊢
  cases move with
  | none => exact ⟨hgw, hl, horder, hcfg, hid, hprotocol, hhost, htls, hrules⟩
  | some p => exact ⟨hgw, hl, horder, hcfg, hid, hprotocol, hhost, htls, hrules⟩

theorem emits_of_placed (settings : Settings) (hplain : PlainNames gateways)
    (h : (placedListeners gateways)[k]? = some (pos, gw, l)) :
    ∃ cfg, ServedAs settings gateways k pos gw l cfg ∧
      cfg.port = (moveOf settings gateways gw l).getD l.port ∧
      cfg.clientPort = (moveOf settings gateways gw l).map fun _ => l.port := by
  have hmem := List.mem_of_getElem? h
  obtain ⟨e, he, -, hemits⟩ := emits_of_order settings h
  obtain ⟨e', he', -, hport, hclient, -⟩ := emit_of_placed settings hmem
  obtain rfl : e = e' := Option.mem_unique he he'
  obtain ⟨hns, hname⟩ := hplain gw (List.mem_of_getElem? hemits.gateway)
  refine ⟨_, hemits, ?_⟩
  rw [slots_agree settings hplain, slot_of_emit hns hname hmem he]
  show (moved e.listener (moveOf settings gateways gw l)).port = _ ∧
    (moved e.listener (moveOf settings gateways gw l)).clientPort = _
  cases moveOf settings gateways gw l with
  | none => exact ⟨hport, hclient⟩
  | some p => exact ⟨rfl, congrArg some hport⟩

theorem placed_of_emits (h : Emits gateways listeners k pos gw l cfg) :
    (placedListeners gateways)[k]? = some (pos, gw, l) := by
  have horder := h.order
  rw [List.getElem?_map, Option.map_eq_some_iff] at horder
  obtain ⟨⟨pos', gw', l'⟩, hx, rfl⟩ := horder
  obtain ⟨hgw, hl, -, -⟩ := mem_placedListeners.mp (List.mem_of_getElem? hx)
  obtain rfl : gw' = gw := Option.mem_unique hgw h.gateway
  obtain rfl : l' = l := Option.mem_unique hl h.listener
  exact hx

/-- An emitted listener, where it went and from where. -/
theorem Emits.moved {settings : Settings} (hplain : PlainNames gateways)
    (h : ServedAs settings gateways k pos gw l cfg) :
    cfg.port = (moveOf settings gateways gw l).getD l.port ∧
      cfg.clientPort = (moveOf settings gateways gw l).map fun _ => l.port := by
  obtain ⟨cfg', h', hport, hclient⟩ := emits_of_placed settings hplain (placed_of_emits h)
  obtain rfl : cfg' = cfg := Option.mem_unique h'.config h.config
  exact ⟨hport, hclient⟩

section
variable (h : Emits gateways listeners k pos gw l cfg)

include h

theorem Emits.slot_mem : slotOf settings gw.ref l ∈ (placedSlots gateways settings).map (·.2) := by
  rw [placedSlots_eq, List.map_map]
  exact List.mem_map.mpr ⟨_, List.mem_of_getElem? (placed_of_emits h), rfl⟩

theorem Emits.port_mem : l.port ∈ ((placedSlots gateways settings).map (·.2)).map (·.port) :=
  List.mem_map.mpr ⟨_, h.slot_mem, rfl⟩

theorem Emits.group :
    (slotOf settings gw.ref l).group = ⟨gw.ref.text, cfg.protocol == .https, l.port⟩ := by
  simp [slotOf, RemapSlot.group, h.protocol]

end

theorem protocol_eq_of_https {a b : Protocol} (h : (a == .https) = (b == .https)) : a = b := by
  cases a <;> cases b <;> first | rfl | cases h

theorem text_inj {a b : ObjectRef} (ha : Slashless a.namespace) (hb : Slashless b.namespace)
    (h : a.text = b.text) : a = b := by
  have hchars := congrArg String.toList h
  simp only [ObjectRef.text, String.toList_append, List.append_assoc] at hchars
  obtain ⟨hns, hname⟩ := Lib.Keys.append_cons_inj ha hb hchars
  cases a
  cases b
  rw [ObjectRef.mk.injEq]
  exact ⟨String.toList_inj.mp hns, String.toList_inj.mp hname⟩

theorem Compatible.symm {a b : ListenerBuild} (h : Compatible a b) : Compatible b a := by
  intro hb ha
  have := clash_eq_none.mp (h ha hb)
  refine clash_eq_none.mpr fun hport => ?_
  obtain ⟨hprotocol, hhost⟩ := this hport.symm
  exact ⟨hprotocol.symm, hhost.symm⟩

variable {l' : ListenerBuild} {cfg' : ListenerConfig} {gw' : GatewayBuild}

theorem compatible_of_ne {li li' : Nat} (hl : gw.listeners[li]? = some l)
    (hl' : gw.listeners[li']? = some l') (hne : li ≠ li') : Compatible l l' := by
  obtain ⟨hlt, rfl⟩ := List.getElem?_eq_some_iff.mp hl
  obtain ⟨hlt', rfl⟩ := List.getElem?_eq_some_iff.mp hl'
  have hpairs := List.pairwise_iff_getElem.mp gw.settled
  rcases Nat.lt_or_gt_of_ne hne with h | h
  · exact hpairs li li' hlt hlt' h
  · exact (hpairs li' li hlt' hlt h).symm

theorem conflict_of_programmed (h : l.programmed = true) : l.conflict = none := by
  simp only [ListenerBuild.programmed, Bool.and_eq_true, Option.isNone_iff_eq_none] at h
  exact h.1.2

/-- Two emitted listeners of one Gateway that end on one port. -/
theorem Emits.apart (hplain : PlainNames gateways) {k' gi li li' : Nat}
    (h : ServedAs settings gateways k (gi, li) gw l cfg)
    (h' : ServedAs settings gateways k' (gi, li') gw' l' cfg') (hne : li ≠ li')
    (hport : cfg.port = cfg'.port) : cfg.protocol = cfg'.protocol ∧ cfg.hostname ≠ cfg'.hostname := by
  obtain rfl : gw = gw' := Option.mem_unique h.gateway h'.gateway
  have hprogrammed := (mem_placedListeners.mp (List.mem_of_getElem? (placed_of_emits h))).2.2.2
  have hprogrammed' := (mem_placedListeners.mp (List.mem_of_getElem? (placed_of_emits h'))).2.2.2
  have hclash := compatible_of_ne h.listener h'.listener hne (conflict_of_programmed hprogrammed)
    (conflict_of_programmed hprogrammed')
  -- the same final port is the same declared port, whether or not they moved
  have hdeclared : l.port = l'.port := by
    rw [(h.moved hplain).1, (h'.moved hplain).1] at hport
    cases hmove : moveOf settings gateways gw l with
    | none => cases hmove' : moveOf settings gateways gw l' with
      | none => simpa [hmove, hmove'] using hport
      | some p' =>
        have hp : l.port = p' := by simpa [hmove, hmove'] using hport
        exact absurd (hp ▸ h.port_mem) (targetOf_mem hmove').2
    | some p => cases hmove' : moveOf settings gateways gw l' with
      | none =>
        have hp : p = l'.port := by simpa [hmove, hmove'] using hport
        exact absurd (hp ▸ h'.port_mem) (targetOf_mem hmove).2
      | some p' =>
        have hp : p = p' := by simpa [hmove, hmove'] using hport
        subst hp
        have hgroup := group_eq_of_targetOf hmove hmove'
        exact congrArg RemapGroup.port hgroup
  obtain ⟨hprotocol, hhost⟩ := clash_eq_none.mp hclash hdeclared
  rw [h.protocol, h'.protocol] at hprotocol
  rw [h.hostname, h'.hostname]
  exact ⟨Option.some.inj hprotocol, hhost⟩

/-! ## The two passes agree -/

theorem portAt_iff_emits (hplain : PlainNames gateways) {p : Nat} :
    portAt (servingPorts gateways settings) pos = some p ↔ ∃ k gw l cfg,
      ServedAs settings gateways k pos gw l cfg ∧ cfg.port = p := by
  rw [portAt_servingPorts]
  constructor
  · rintro ⟨slot, hslot, rfl⟩
    rw [placedSlots_eq] at hslot
    obtain ⟨⟨pos', gw, l⟩, hmem, heq⟩ := List.mem_map.mp hslot
    cases heq
    obtain ⟨k, hk⟩ := List.getElem?_of_mem hmem
    obtain ⟨cfg, hemits, hport, -⟩ := emits_of_placed settings hplain hk
    exact ⟨k, gw, l, cfg, hemits, hport⟩
  · rintro ⟨k, gw, l, cfg, hemits, rfl⟩
    refine ⟨slotOf settings gw.ref l, ?_, (hemits.moved hplain).1.symm⟩
    rw [placedSlots_eq]
    exact List.mem_map.mpr ⟨_, List.mem_of_getElem? (placed_of_emits hemits), rfl⟩

theorem Emits.same_port (hplain : PlainNames gateways) {k' gi li li' : Nat}
    (h : ServedAs settings gateways k (gi, li) gw l cfg)
    (h' : ServedAs settings gateways k' (gi, li') gw' l' cfg')
    (hprotocol : cfg.protocol = cfg'.protocol) (hdeclared : l.port = l'.port) :
    cfg.port = cfg'.port := by
  obtain rfl : gw = gw' := Option.mem_unique h.gateway h'.gateway
  have hgroup : (slotOf settings gw.ref l).group = (slotOf settings gw.ref l').group := by
    rw [h.group, h'.group, hprotocol, hdeclared]
  have hmove : moveOf settings gateways gw l = moveOf settings gateways gw l' :=
    targetOf_congr hgroup rfl
  rw [(h.moved hplain).1, (h'.moved hplain).1, hmove, hdeclared]

/-- A listener that moved: to a bound port of its protocol, which nothing
declares and only its own group goes to. -/
theorem Emits.remapped (hrefs : (gateways.map (·.ref)).Nodup) (hplain : PlainNames gateways)
    {d : Nat} (h : ServedAs settings gateways k pos gw l cfg) (hclient : cfg.clientPort = some d) :
    d = l.port ∧ cfg.port ∈ boundPorts settings (some cfg.protocol) ∧
      ∀ k' pos' gw' l' cfg', ServedAs settings gateways k' pos' gw' l' cfg' →
        cfg.port ≠ l'.port ∧ (cfg'.clientPort.isSome = true → cfg'.port = cfg.port →
          pos'.1 = pos.1 ∧ cfg'.protocol = cfg.protocol ∧ l'.port = l.port) := by
  obtain ⟨hport, hmoved⟩ := h.moved hplain
  rw [hclient] at hmoved
  obtain ⟨p, hmove, rfl⟩ := Option.map_eq_some_iff.mp hmoved.symm
  obtain rfl : cfg.port = p := by simpa [hmove] using hport
  obtain ⟨hpool, hfree⟩ := targetOf_mem hmove
  refine ⟨rfl, ?_, fun k' pos' gw' l' cfg' h' => ⟨fun heq => hfree (heq ▸ h'.port_mem), ?_⟩⟩
  · rw [h.group] at hpool
    cases hprotocol : cfg.protocol <;> simpa [remapPool, boundPorts, hprotocol] using hpool
  · intro hclient' hsame
    obtain ⟨hport', hmoved'⟩ := h'.moved hplain
    cases hmove' : moveOf settings gateways gw' l' with
    | none => simp [hmoved', hmove'] at hclient'
    | some p' =>
      obtain rfl : cfg.port = p' := by simpa [hmove', hsame] using hport'
      have hgroup := group_eq_of_targetOf hmove hmove'
      rw [h.group, h'.group, RemapGroup.mk.injEq] at hgroup
      obtain ⟨htext, hhttps, hdeclared⟩ := hgroup
      have hmem := List.mem_of_getElem? h.gateway
      have hmem' := List.mem_of_getElem? h'.gateway
      have href : gw.ref = gw'.ref := text_inj (hplain gw hmem).1 (hplain gw' hmem').1 htext
      refine ⟨?_, (protocol_eq_of_https hhttps).symm, hdeclared.symm⟩
      -- distinct references stand at distinct indices
      obtain ⟨hlt, -⟩ := List.getElem?_eq_some_iff.mp h'.gateway
      refine (List.getElem?_inj (by simpa using hlt) hrefs).mp ?_
      rw [List.getElem?_map, List.getElem?_map, h.gateway, h'.gateway]
      simp [href]

/-- The ports known while routes attach are the ports the emitted listeners
serve on, for every list of Gateways. -/
theorem serving_ports_agree (env : Env) (settings : Settings) (gateways : List GatewayBuild)
    (clusters : ClusterTable) (status : List StatusPatch)
    (hrefs : (gateways.map (·.ref)).Nodup) (hplain : PlainNames gateways) :
    let config := (assemble env settings gateways clusters status).1
    let emits := Emits gateways config.listeners
    config.listeners.length = (placedListeners gateways).length ∧
    (∀ pos p, portAt (servingPorts gateways settings) pos = some p ↔
      ∃ k gw l cfg, emits k pos gw l cfg ∧ cfg.port = p) ∧
    (∀ k k' gi li li' gw gw' l l' cfg cfg', emits k (gi, li) gw l cfg →
      emits k' (gi, li') gw' l' cfg' → cfg.protocol = cfg'.protocol → l.port = l'.port →
      cfg.port = cfg'.port) ∧
    (∀ k pos gw l cfg d, emits k pos gw l cfg → cfg.clientPort = some d →
      d = l.port ∧ cfg.port ∈ boundPorts settings (some cfg.protocol) ∧
      ∀ k' pos' gw' l' cfg', emits k' pos' gw' l' cfg' → cfg.port ≠ l'.port ∧
        (cfg'.clientPort.isSome = true → cfg'.port = cfg.port →
          pos'.1 = pos.1 ∧ cfg'.protocol = cfg.protocol ∧ l'.port = l.port)) ∧
    (∀ k pos gw l cfg, emits k pos gw l cfg → cfg.clientPort = none → cfg.port = l.port) ∧
    (∀ k pos gw l cfg, emits k pos gw l cfg →
      settings.gatewayAddressOverrides.contains gw.ref.text = false →
      cfg.port = l.port ∧ cfg.clientPort = none) ∧
    (∀ k k' gi li li' gw gw' l l' cfg cfg', emits k (gi, li) gw l cfg →
      emits k' (gi, li') gw' l' cfg' → li ≠ li' → cfg.port = cfg'.port →
      cfg.protocol = cfg'.protocol ∧ cfg.hostname ≠ cfg'.hostname) := by
  refine ⟨?_, fun pos p => portAt_iff_emits hplain, ?_, ?_, ?_, ?_, ?_⟩
  · have hlen := congrArg List.length (slots_agree settings hplain)
    simpa [assemble, remapOverriddenListeners_eq, placedSlots_eq] using hlen
  · intro k k' gi li li' gw gw' l l' cfg cfg' h h' hprotocol hdeclared
    exact h.same_port hplain h' hprotocol hdeclared
  · intro k pos gw l cfg d h hclient
    exact h.remapped hrefs hplain hclient
  · intro k pos gw l cfg h hclient
    obtain ⟨hport, hmoved⟩ : cfg.port = (moveOf settings gateways gw l).getD l.port ∧ _ :=
      Emits.moved hplain h
    rw [hclient] at hmoved
    rw [hport, Option.map_eq_none_iff.mp hmoved.symm]
    rfl
  · intro k pos gw l cfg h hov
    obtain ⟨hport, hmoved⟩ : cfg.port = (moveOf settings gateways gw l).getD l.port ∧ _ :=
      Emits.moved hplain h
    have hstay : moveOf settings gateways gw l = none := by
      simp [moveOf, targetOf, slotOf, hov]
    rw [hport, hmoved, hstay]
    exact ⟨rfl, rfl⟩
  · intro k k' gi li li' gw gw' l l' cfg cfg' h h' hne hport
    exact h.apart hplain h' hne hport

def httpGateway (listeners : List Listener) : Gateway := { gatewayClassName := "gapura", listeners }

def webListener : Listener := { name := "web", port := 80, protocol := "HTTP" }

def gapuraClass : TreeMap String GatewayClass :=
  TreeMap.ofList [("gapura", ({ controllerName := "gapura.dev/controller" } : GatewayClass))]

/-- Two Gateways that declare port 80. -/
def twoGateways : Snapshot :=
  { gatewayClasses := gapuraClass
    gateways := TreeMap.ofList [(⟨"infra", "own"⟩, httpGateway [webListener]),
      (⟨"infra", "shared"⟩, httpGateway [webListener])] _ }

/-- The first has an address of its own, and a second port is bound. -/
def ownAddress : Settings :=
  { httpPorts := [80, 10000]
    gatewayAddressOverrides := TreeMap.ofList [("infra/own", ["192.0.2.1"])] }

/-- The Gateway with its own address is served on the second port. -/
theorem serving_ports_agree_own :
    portAt (servingPorts (ourGateways bareEnv twoGateways ownAddress) ownAddress) (0, 0) =
      some 10000 ∧
    ∃ k gw l cfg, Emits (ourGateways bareEnv twoGateways ownAddress)
      (assemble bareEnv ownAddress (ourGateways bareEnv twoGateways ownAddress) ∅ []).1.listeners
      k (0, 0) gw l cfg ∧ cfg.port = 10000 := by
  have hport : portAt (servingPorts (ourGateways bareEnv twoGateways ownAddress) ownAddress)
      (0, 0) = some 10000 := by decide +kernel
  obtain ⟨-, hagree, -⟩ := serving_ports_agree bareEnv ownAddress
    (ourGateways bareEnv twoGateways ownAddress) ∅ [] (by decide +kernel)
    (by unfold PlainNames; decide +kernel)
  exact ⟨hport, (hagree (0, 0) 10000).mp hport⟩

end Gapura.Core.Translate
