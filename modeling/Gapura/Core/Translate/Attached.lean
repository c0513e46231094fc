import Gapura.Core.Translate.Routes

/-! # What attaching a route does to the listeners

One route goes through three loops: over its parentRefs, over the listeners of
the Gateway each names, and over its rules. A listener it gets to is taken once
and keeps everything else. Which listeners those are is settled before the walk
begins, since attaching changes nothing that a verdict looks at. -/
namespace Gapura.Core.Translate
open Input Status

/-! ## One listener at a time -/

section Loop
variable {ask : Asking} {pref : ParentReference} {gwRef : ObjectRef}

theorem attachOne_cases (ask : Asking) (pref : ParentReference) (gwRef : ObjectRef)
    (pos : Nat × Nat) (attached : List String) (l : ListenerBuild) :
    (attachOne ask pref gwRef pos attached l = (l, attached) ∧
      ∀ hosts, ask.verdict pref gwRef pos l = .hosts hosts → listenerKey gwRef l ∈ attached) ∨
    ∃ hosts, ask.verdict pref gwRef pos l = .hosts hosts ∧ listenerKey gwRef l ∉ attached ∧
      attachOne ask pref gwRef pos attached l =
        (attachListener ask.compiled hosts l, listenerKey gwRef l :: attached) := by
  unfold attachOne
  split
  · rename_i hosts hverdict
    split
    · rename_i hin
      exact .inl ⟨rfl, fun _ _ => by simpa using hin⟩
    · rename_i hout
      exact .inr ⟨hosts, hverdict, by simpa using hout, rfl⟩
  · rename_i hverdict
    exact .inl ⟨rfl, fun hosts h => absurd h (hverdict hosts)⟩

theorem hostnameOk_count (o : Outcome) (v : Verdict) :
    0 < (o.count v).hostnameOk ↔ 0 < o.hostnameOk ∨ ∃ hosts, v = .hosts hosts := by
  cases v <;> simp [Outcome.count]

/-- What the loop over the listeners does. A listener is changed only if the
route gets to it and its key is new, and then its key is remembered. -/
structure Looped (ask : Asking) (pref : ParentReference) (gwRef : ObjectRef) (gi li : Nat)
    (attached : List String) (o : Outcome) (ls : List ListenerBuild)
    (out : List ListenerBuild × List String × Outcome) : Prop where
  kept : ∀ key ∈ attached, key ∈ out.2.1
  each : ∀ (k : Nat) l, ls[k]? = some l → out.1[k]? = some l ∨
    ∃ hosts, ask.verdict pref gwRef (gi, li + k) l = .hosts hosts ∧
      listenerKey gwRef l ∉ attached ∧ out.1[k]? = some (attachListener ask.compiled hosts l)
  marked : ∀ (k : Nat) l hosts, ls[k]? = some l →
    ask.verdict pref gwRef (gi, li + k) l = .hosts hosts → listenerKey gwRef l ∈ out.2.1
  source : ∀ key ∈ out.2.1, key ∈ attached ∨ ∃ (k : Nat) (l : ListenerBuild) (hosts : List String),
    ls[k]? = some l ∧ ask.verdict pref gwRef (gi, li + k) l = .hosts hosts ∧
      key = listenerKey gwRef l ∧ key ∉ attached ∧
      out.1[k]? = some (attachListener ask.compiled hosts l)
  counted : 0 < out.2.2.hostnameOk ↔ 0 < o.hostnameOk ∨
    ∃ (k : Nat) (l : ListenerBuild) (hosts : List String), ls[k]? = some l ∧
      ask.verdict pref gwRef (gi, li + k) l = .hosts hosts

/-- One listener more, in front. -/
theorem Looped.cons {gi li : Nat} {attached : List String} {o : Outcome} {l : ListenerBuild}
    {rest : List ListenerBuild} {out : List ListenerBuild × List String × Outcome}
    (hrest : Looped ask pref gwRef gi (li + 1) (attachOne ask pref gwRef (gi, li) attached l).2
      (o.count (ask.verdict pref gwRef (gi, li) l)) rest out) :
    Looped ask pref gwRef gi li attached o (l :: rest)
      ((attachOne ask pref gwRef (gi, li) attached l).1 :: out.1, out.2) := by
  have hnext : ∀ k : Nat, li + 1 + k = li + (k + 1) := fun k => by omega
  have hone := attachOne_cases ask pref gwRef (gi, li) attached l
  generalize attachOne ask pref gwRef (gi, li) attached l = one at hone hrest ⊢
  -- the first listener only adds to the keys, so a key new to the rest is new
  have hgrow : ∀ key ∈ attached, key ∈ one.2 := by
    rcases hone with ⟨rfl, -⟩ | ⟨hosts, -, -, rfl⟩
    · exact fun key h => h
    · exact fun key h => List.mem_cons_of_mem _ h
  refine ⟨fun key h => hrest.kept key (hgrow key h), ?_, ?_, ?_, ?_⟩
  · intro k l' hl'
    cases k with
    | zero =>
      obtain rfl : l = l' := by simpa using hl'
      rcases hone with ⟨rfl, -⟩ | ⟨hosts, hverdict, hnew, rfl⟩
      · exact .inl rfl
      · exact .inr ⟨hosts, hverdict, hnew, rfl⟩
    | succ k =>
      rcases hrest.each k l' (by simpa using hl') with hsame | ⟨hosts, hverdict, hnew, hchanged⟩
      · exact .inl hsame
      · exact .inr ⟨hosts, hnext k ▸ hverdict, fun h => hnew (hgrow _ h), hchanged⟩
  · intro k l' hosts hl' hverdict
    cases k with
    | zero =>
      obtain rfl : l = l' := by simpa using hl'
      refine hrest.kept _ ?_
      rcases hone with ⟨rfl, hin⟩ | ⟨hosts, -, -, rfl⟩
      · exact hin hosts hverdict
      · exact List.mem_cons_self
    | succ k => exact hrest.marked k l' hosts (by simpa using hl') ((hnext k).symm ▸ hverdict)
  · intro key hkey
    rcases hrest.source key hkey with hin | ⟨k, l', hosts, hl', hverdict, rfl, hnew, hchanged⟩
    · rcases hone with ⟨rfl, -⟩ | ⟨hosts, hverdict, hnew, rfl⟩
      · exact .inl hin
      · rcases List.mem_cons.mp hin with rfl | hin
        · exact .inr ⟨0, l, hosts, rfl, hverdict, rfl, hnew, rfl⟩
        · exact .inl hin
    · exact .inr ⟨k + 1, l', hosts, by simpa using hl', hnext k ▸ hverdict, rfl,
        fun h => hnew (hgrow _ h), hchanged⟩
  · rw [hrest.counted, hostnameOk_count, or_assoc]
    refine or_congr Iff.rfl ⟨?_, ?_⟩
    · rintro (⟨hosts, hverdict⟩ | ⟨k, l', hosts, hl', hverdict⟩)
      · exact ⟨0, l, hosts, rfl, hverdict⟩
      · exact ⟨k + 1, l', hosts, by simpa using hl', hnext k ▸ hverdict⟩
    · rintro ⟨k, l', hosts, hl', hverdict⟩
      cases k with
      | zero =>
        obtain rfl : l = l' := by simpa using hl'
        exact .inl ⟨hosts, hverdict⟩
      | succ k => exact .inr ⟨k, l', hosts, by simpa using hl', (hnext k).symm ▸ hverdict⟩

theorem attachListeners_looped (ask : Asking) (pref : ParentReference) (gwRef : ObjectRef)
    (gi li : Nat) (attached : List String) (o : Outcome) (ls : List ListenerBuild) :
    Looped ask pref gwRef gi li attached o ls
      (attachListeners ask pref gwRef gi li attached o ls) := by
  induction ls generalizing li attached o with
  | nil =>
    exact ⟨fun _ h => h, fun k l h => by simp at h, fun k l _ h => by simp at h,
      fun key h => .inl h, by simp [attachListeners]⟩
  | cons l rest ih => exact .cons (ih (li + 1) _ _)

end Loop

/-! ## One parentRef at a time -/

def listenerAt (gs : List GatewayBuild) (pos : Nat × Nat) : Option ListenerBuild :=
  gs[pos.1]?.bind (·.listeners[pos.2]?)

variable {l : ListenerBuild} {pos : Nat × Nat} {gw' : GatewayBuild} {rref : ObjectRef}
  {hosts : List String} {route : HttpRoute} {siblings : List Sibling} {snap : Snapshot}

theorem listenerAt_eq_some {gs : List GatewayBuild} :
    listenerAt gs pos = some l ↔ ∃ gw, gs[pos.1]? = some gw ∧ gw.listeners[pos.2]? = some l :=
  Option.bind_eq_some_iff

/-- Gateways that differ only in what attaching routes adds. -/
def SameShape (gs gs' : List GatewayBuild) : Prop :=
  gs'.map GatewayBuild.shape = gs.map GatewayBuild.shape

theorem SameShape.gateway {gs gs' : List GatewayBuild} (h : SameShape gs gs') {gi : Nat}
    {gw : GatewayBuild} (hgw : gs[gi]? = some gw) :
    ∃ gw', gs'[gi]? = some gw' ∧ gw'.shape = gw.shape := by
  have hshape : (gs'.map GatewayBuild.shape)[gi]? = some gw.shape := by
    rw [h, List.getElem?_map, hgw]
    rfl
  rw [List.getElem?_map, Option.map_eq_some_iff] at hshape
  exact hshape

theorem SameShape.symm {gs gs' : List GatewayBuild} (h : SameShape gs gs') : SameShape gs' gs :=
  Eq.symm h

theorem SameShape.trans {gs gs' gs'' : List GatewayBuild} (h : SameShape gs gs')
    (h' : SameShape gs' gs'') : SameShape gs gs'' :=
  Eq.trans h' h

/-- A Gateway of the same shape has, at each index, a listener that differs only
in what attaching adds. -/
theorem listener_of_shape {gw : GatewayBuild} (h : gw'.shape = gw.shape) {li : Nat}
    (hl : gw.listeners[li]? = some l) :
    ∃ l', gw'.listeners[li]? = some l' ∧ l'.blank = l.blank := by
  have hlisteners : gw'.listeners.map ListenerBuild.blank = gw.listeners.map ListenerBuild.blank :=
    congrArg Shape.listeners h
  have hblank : (gw'.listeners.map ListenerBuild.blank)[li]? = some l.blank := by
    rw [hlisteners, List.getElem?_map, hl]
    rfl
  rw [List.getElem?_map, Option.map_eq_some_iff] at hblank
  exact hblank

theorem ourGateway_congr {gs gs' : List GatewayBuild} (h : SameShape gs gs')
    (pref : ParentReference) (rref : ObjectRef) :
    ourGateway gs' pref rref = ourGateway gs pref rref := by
  have hrefs : ∀ gs : List GatewayBuild, (gs.findIdx? fun g =>
      g.ref.namespace == pref.namespace.getD rref.namespace && g.ref.name == pref.name) =
      (gs.map GatewayBuild.shape).findIdx? fun sh =>
        sh.ref.namespace == pref.namespace.getD rref.namespace && sh.ref.name == pref.name := by
    intro gs
    rw [List.findIdx?_map]
    rfl
  unfold ourGateway
  rw [hrefs, hrefs, h]

theorem gateway_of_ourGateway {gs : List GatewayBuild} {pref : ParentReference}
    {gi : Nat} (h : ourGateway gs pref rref = some gi) : ∃ gw, gs[gi]? = some gw ∧
      gw.ref = ⟨pref.namespace.getD rref.namespace, pref.name⟩ ∧
      pref.group.getD gatewayGroup = gatewayGroup ∧ pref.kind.getD "Gateway" = "Gateway" := by
  unfold ourGateway at h
  split at h
  · cases h
  · rename_i hkind
    obtain ⟨hlt, hfound, -⟩ := List.findIdx?_eq_some_iff_getElem.mp h
    simp only [Bool.and_eq_true, beq_iff_eq] at hfound
    refine ⟨_, List.getElem?_eq_getElem hlt, ?_, ?_⟩
    · rw [← hfound.1, ← hfound.2]
    · simpa [not_or] using hkind

/-- A parentRef takes the route to the listener at `pos`, under `hosts`. -/
def TakesVia (snap : Snapshot) (siblings : List Sibling) (gs : List GatewayBuild)
    (rref : ObjectRef) (route : HttpRoute) (pref : ParentReference) (pos : Nat × Nat)
    (hosts : List String) : Prop :=
  ourGateway gs pref rref = some pos.1 ∧ ∃ gw l, gs[pos.1]? = some gw ∧
    gw.listeners[pos.2]? = some l ∧
    verdict snap siblings gw.ref.namespace pos pref rref route l = .hosts hosts

theorem TakesVia.congr {gs gs' : List GatewayBuild} (h : SameShape gs gs') {pref : ParentReference}
    (ht : TakesVia snap siblings gs rref route pref pos hosts) :
    TakesVia snap siblings gs' rref route pref pos hosts := by
  obtain ⟨hours, gw, l, hgw, hl, hverdict⟩ := ht
  obtain ⟨gw', hgw', hshape⟩ := h.gateway hgw
  obtain ⟨l', hl', hblank⟩ := listener_of_shape hshape hl
  refine ⟨(ourGateway_congr h pref rref).trans hours, gw', l', hgw', hl', ?_⟩
  have href : gw'.ref = gw.ref := congrArg Shape.ref hshape
  rw [href, ← hverdict]
  show verdict snap siblings gw.ref.namespace pos pref rref route l'.blank =
    verdict snap siblings gw.ref.namespace pos pref rref route l.blank
  rw [hblank]

/-- One of several parentRefs does. -/
def Takes (snap : Snapshot) (siblings : List Sibling) (gs : List GatewayBuild) (rref : ObjectRef)
    (route : HttpRoute) (prefs : List ParentReference) (pos : Nat × Nat) (hosts : List String) :
    Prop :=
  ∃ pref ∈ prefs, TakesVia snap siblings gs rref route pref pos hosts

theorem Takes.mono {gs : List GatewayBuild} {prefs prefs' : List ParentReference}
    (h : Takes snap siblings gs rref route prefs pos hosts)
    (hsub : prefs ⊆ prefs') : Takes snap siblings gs rref route prefs' pos hosts := by
  obtain ⟨pref, hpref, ht⟩ := h
  exact ⟨pref, hsub hpref, ht⟩

/-- Accepted=True. -/
def isAccepted (p : RouteParentStatus) : Prop :=
  ∃ c ∈ p.conditions, c.type = .accepted ∧ c.status = .true

/-- The walk over the parentRefs `done` of a route, from the Gateways `gs`. -/
structure Progress (ask : Asking) (compiled : Except Unsupported Compiled)
    (gs : List GatewayBuild) (done : List ParentReference) (s : Attaching) : Prop where
  shape : SameShape gs s.gateways
  each : ∀ pos gw l, gs[pos.1]? = some gw → gw.listeners[pos.2]? = some l →
    listenerAt s.gateways pos = some l ∨
    ∃ hosts, Takes ask.snap ask.siblings gs ask.rref ask.route done pos hosts ∧
      listenerKey gw.ref l ∈ s.attached ∧
      listenerAt s.gateways pos = some (attachListener ask.compiled hosts l)
  marked : ∀ pos gw l hosts, gs[pos.1]? = some gw → gw.listeners[pos.2]? = some l →
    Takes ask.snap ask.siblings gs ask.rref ask.route done pos hosts →
    listenerKey gw.ref l ∈ s.attached
  source : ∀ key ∈ s.attached, ∃ pos gw l hosts, gs[pos.1]? = some gw ∧
    gw.listeners[pos.2]? = some l ∧ key = listenerKey gw.ref l ∧
    listenerAt s.gateways pos = some (attachListener ask.compiled hosts l)
  parents : ∀ parent ∈ s.parents, parent.parentRef ∈ done ∧
    ∃ gi, ourGateway gs parent.parentRef ask.rref = some gi ∧
      (isAccepted parent ↔ (∃ c, compiled = .ok c) ∧ ∃ li hosts, TakesVia ask.snap ask.siblings gs
        ask.rref ask.route parent.parentRef (gi, li) hosts)
  named : ∀ pref ∈ done, ∀ gi, ourGateway gs pref ask.rref = some gi →
    ∃ parent ∈ s.parents, parent.parentRef = pref

theorem listenerAt_set_self {gs : List GatewayBuild} {gi li : Nat} {gw : GatewayBuild}
    (hgw : gs[gi]? = some gw) : listenerAt (gs.set gi gw') (gi, li) = gw'.listeners[li]? := by
  obtain ⟨hlt, -⟩ := List.getElem?_eq_some_iff.mp hgw
  simp [listenerAt, List.getElem?_set_self hlt]

theorem listenerAt_set_ne {gs : List GatewayBuild} {gi : Nat} (hne : pos.1 ≠ gi) :
    listenerAt (gs.set gi gw') pos = listenerAt gs pos := by
  simp [listenerAt, List.getElem?_set_ne (Ne.symm hne)]

theorem sameShape_set {gs : List GatewayBuild} {gi : Nat} {gw : GatewayBuild}
    (hgw : gs[gi]? = some gw) (h : gw'.shape = gw.shape) : SameShape gs (gs.set gi gw') := by
  unfold SameShape
  rw [List.map_set, h]
  refine List.ext_getElem? fun i => ?_
  rw [List.getElem?_set]
  split
  · rename_i heq
    subst heq
    obtain ⟨hlt, -⟩ := List.getElem?_eq_some_iff.mp hgw
    rw [if_pos (by simpa using hlt), List.getElem?_map, hgw]
    rfl
  · rfl

theorem verdict_of_blank {ask : Asking} {pref : ParentReference} {gwRef : ObjectRef}
    {l' : ListenerBuild} (h : l'.blank = l.blank) :
    ask.verdict pref gwRef pos l' = ask.verdict pref gwRef pos l := by
  show ask.verdict pref gwRef pos l'.blank = ask.verdict pref gwRef pos l.blank
  rw [h]

theorem listenerKey_of_blank {gwRef : ObjectRef} {l' : ListenerBuild} (h : l'.blank = l.blank) :
    listenerKey gwRef l' = listenerKey gwRef l := by
  show listenerKey gwRef l'.blank = listenerKey gwRef l.blank
  rw [h]

theorem acceptedCondition_type (o : Outcome) (compiled : Except Unsupported Compiled)
    (generation : Option Int) : (acceptedCondition o compiled generation).type = .accepted := by
  unfold acceptedCondition
  repeat' split
  all_goals rfl

theorem resolvedCondition_type {compiled : Except Unsupported Compiled}
    (hrefs : ∀ c, compiled = .ok c → c.resolvedRefs.type = .resolvedRefs)
    (generation : Option Int) : (resolvedCondition compiled generation).type = .resolvedRefs := by
  unfold resolvedCondition
  split
  · exact hrefs _ rfl
  · rfl

theorem isAccepted_conditions {o : Outcome} {compiled : Except Unsupported Compiled}
    {generation : Option Int} {pref : ParentReference} {name : String}
    (hrefs : ∀ c, compiled = .ok c → c.resolvedRefs.type = .resolvedRefs) :
    isAccepted { parentRef := pref, controllerName := name
                 conditions := [acceptedCondition o compiled generation,
                   resolvedCondition compiled generation] } ↔
      (∃ c, compiled = .ok c) ∧ 0 < o.hostnameOk := by
  have hresolved : (resolvedCondition compiled generation).type ≠ .accepted := by
    simp [resolvedCondition_type hrefs]
  unfold isAccepted
  simp only [List.mem_cons, List.not_mem_nil, or_false, exists_eq_or_imp, exists_eq_left, hresolved,
    false_and]
  unfold acceptedCondition
  cases compiled with
  | error e => simp
  | ok c =>
    simp only
    split
    · rename_i hok
      simp [hok]
    · rename_i hok
      simp only [hok, and_false, iff_false]
      split
      · simp
      · split
        · simp
        · split <;> simp

section Parents
variable {ask : Asking} {compiled : Except Unsupported Compiled} {gs : List GatewayBuild}
  {done : List ParentReference} {s : Attaching} {pref : ParentReference}

theorem Progress.start : Progress ask compiled gs [] { gateways := gs } where
  shape := rfl
  each pos gw l hgw hl := .inl (listenerAt_eq_some.mpr ⟨gw, hgw, hl⟩)
  marked := by
    rintro pos gw l hosts - - ⟨pref, hpref, -⟩
    cases hpref
  source key hkey := by cases hkey
  parents parent hparent := by cases hparent
  named pref hpref := by cases hpref

/-- A parentRef that names none of our Gateways changes nothing. -/
theorem Progress.skip (h : Progress ask compiled gs done s)
    (hours : ourGateway gs pref ask.rref = none) :
    Progress ask compiled gs (done ++ [pref]) s where
  shape := h.shape
  each pos gw l hgw hl := by
    rcases h.each pos gw l hgw hl with hsame | ⟨hosts, ht, hkey, hchanged⟩
    · exact .inl hsame
    · exact .inr ⟨hosts, ht.mono (List.subset_append_left ..), hkey, hchanged⟩
  marked := by
    rintro pos gw l hosts hgw hl ⟨p, hp, ht⟩
    rcases List.mem_append.mp hp with hp | hp
    · exact h.marked pos gw l hosts hgw hl ⟨p, hp, ht⟩
    · obtain rfl : p = pref := by simpa using hp
      exact absurd ht.1 (by simp [hours])
  source := h.source
  parents parent hparent := by
    obtain ⟨hdone, hrest⟩ := h.parents parent hparent
    exact ⟨List.mem_append_left _ hdone, hrest⟩
  named p hp gi hgi := by
    rcases List.mem_append.mp hp with hp | hp
    · exact h.named p hp gi hgi
    · obtain rfl : p = pref := by simpa using hp
      rw [hours] at hgi
      cases hgi

/-- A listener of the Gateway named, as the walk finds it: one the route did not
come to yet, or one it took and remembers. -/
theorem Progress.current (h : Progress ask compiled gs done s) {gi li : Nat}
    {gw gw' : GatewayBuild} {l : ListenerBuild} (hgw : gs[gi]? = some gw)
    (hl : gw.listeners[li]? = some l) (hgw' : s.gateways[gi]? = some gw') :
    gw'.listeners[li]? = some l ∨
      ∃ hosts, Takes ask.snap ask.siblings gs ask.rref ask.route done (gi, li) hosts ∧
        listenerKey gw.ref l ∈ s.attached ∧
        gw'.listeners[li]? = some (attachListener ask.compiled hosts l) := by
  have hat : listenerAt s.gateways (gi, li) = gw'.listeners[li]? := by simp [listenerAt, hgw']
  rw [← hat]
  exact h.each (gi, li) gw l hgw hl

/-- The verdict the loop asks for is the one settled beforehand. -/
theorem verdict_iff_takesVia {gi li : Nat} {gw : GatewayBuild} {l l' : ListenerBuild}
    (hours : ourGateway gs pref ask.rref = some gi) (hgw : gs[gi]? = some gw)
    (hl : gw.listeners[li]? = some l) (hblank : l'.blank = l.blank) {hosts : List String} :
    ask.verdict pref gw.ref (gi, 0 + li) l' = .hosts hosts ↔
      TakesVia ask.snap ask.siblings gs ask.rref ask.route pref (gi, li) hosts := by
  rw [Nat.zero_add, verdict_of_blank hblank]
  constructor
  · intro hverdict
    exact ⟨hours, gw, l, hgw, hl, hverdict⟩
  · rintro ⟨-, gw₁, l₁, hgw₁, hl₁, hverdict⟩
    obtain rfl : gw = gw₁ := Option.mem_unique hgw hgw₁
    obtain rfl : l = l₁ := Option.mem_unique hl hl₁
    exact hverdict

/-- One parentRef's turn: the loop over the listeners of the Gateway it names,
from how the walk found that Gateway. -/
structure Turn (ask : Asking) (gs : List GatewayBuild) (s : Attaching) (pref : ParentReference)
    (gi : Nat) (gw now : GatewayBuild) (gs' : List GatewayBuild)
    (out : List ListenerBuild × List String × Outcome) : Prop where
  ours : ourGateway gs pref ask.rref = some gi
  before : gs[gi]? = some gw
  found : s.gateways[gi]? = some now
  shape : now.shape = gw.shape
  looped : Looped ask pref gw.ref gi 0 s.attached {} now.listeners out
  here : ∀ li : Nat, listenerAt gs' (gi, li) = out.1[li]?
  elsewhere : ∀ pos : Nat × Nat, pos.1 ≠ gi → listenerAt gs' pos = listenerAt s.gateways pos

theorem attachToGateway_shape (ask : Asking) (pref : ParentReference) (gi : Nat) (gw : GatewayBuild)
    (attached : List String) : (attachToGateway ask pref gi gw attached).1.shape = gw.shape := by
  unfold GatewayBuild.shape
  rw [show (attachToGateway ask pref gi gw attached).1.listeners.map ListenerBuild.blank =
    gw.listeners.map ListenerBuild.blank from attachListeners_blank ..]
  rfl

theorem Progress.turn (h : Progress ask compiled gs done s) {gi : Nat} {gw found : GatewayBuild}
    (hours : ourGateway gs pref ask.rref = some gi) (hgw : gs[gi]? = some gw)
    (hfound : s.gateways[gi]? = some found) :
    Turn ask gs s pref gi gw found
      (s.gateways.set gi (attachToGateway ask pref gi found s.attached).1)
      ((attachToGateway ask pref gi found s.attached).1.listeners,
        (attachToGateway ask pref gi found s.attached).2) := by
  obtain ⟨found', hfound', hshape⟩ := h.shape.gateway hgw
  obtain rfl : found' = found := Option.mem_unique hfound' hfound
  refine ⟨hours, hgw, hfound, hshape, ?_, fun li => listenerAt_set_self hfound,
    fun pos hpos => listenerAt_set_ne hpos⟩
  rw [← show found'.ref = gw.ref from congrArg Shape.ref hshape]
  exact attachListeners_looped ask pref found'.ref gi 0 s.attached {} found'.listeners

section Turn
variable {gi : Nat} {gw found : GatewayBuild} {gs' : List GatewayBuild}
  {out : List ListenerBuild × List String × Outcome}

/-- A listener whose key is remembered is left alone. -/
theorem Turn.remembered (t : Turn ask gs s pref gi gw found gs' out) {pos : Nat × Nat}
    {gwp : GatewayBuild} {l : ListenerBuild} {hosts : List String} (hgwp : gs[pos.1]? = some gwp)
    (hkey : listenerKey gwp.ref l ∈ s.attached)
    (hat : listenerAt s.gateways pos = some (attachListener ask.compiled hosts l)) :
    listenerAt gs' pos = some (attachListener ask.compiled hosts l) := by
  by_cases hgi : pos.1 = gi
  · obtain ⟨gi', li⟩ := pos
    subst hgi
    obtain rfl : gw = gwp := Option.mem_unique t.before hgwp
    have hcur : found.listeners[li]? = some (attachListener ask.compiled hosts l) := by
      simpa [listenerAt, t.found] using hat
    rw [t.here]
    rcases t.looped.each li _ hcur with hsame | ⟨-, -, hfresh, -⟩
    · exact hsame
    · rw [listenerKey_of_blank (blank_attachListener _ _ l)] at hfresh
      exact absurd hkey hfresh
  · rw [t.elsewhere pos hgi]
    exact hat

theorem Turn.each (t : Turn ask gs s pref gi gw found gs' out)
    (h : Progress ask compiled gs done s) (pos : Nat × Nat) (gwp : GatewayBuild)
    (l : ListenerBuild) (hgwp : gs[pos.1]? = some gwp) (hl : gwp.listeners[pos.2]? = some l) :
    listenerAt gs' pos = some l ∨
      ∃ hosts, Takes ask.snap ask.siblings gs ask.rref ask.route (done ++ [pref]) pos hosts ∧
        listenerKey gwp.ref l ∈ out.2.1 ∧
        listenerAt gs' pos = some (attachListener ask.compiled hosts l) := by
  rcases h.each pos gwp l hgwp hl with hcur | ⟨hosts, ht, hkey, hcur⟩
  · by_cases hgi : pos.1 = gi
    · obtain ⟨gi', li⟩ := pos
      subst hgi
      obtain rfl : gw = gwp := Option.mem_unique t.before hgwp
      have hfound : found.listeners[li]? = some l := by simpa [listenerAt, t.found] using hcur
      rw [t.here]
      rcases t.looped.each li l hfound with hsame | ⟨hosts, hverdict, -, hchanged⟩
      · exact .inl hsame
      · have hvia := (verdict_iff_takesVia t.ours t.before hl rfl).mp hverdict
        exact .inr ⟨hosts, ⟨pref, by simp, hvia⟩, t.looped.marked li l hosts hfound hverdict,
          hchanged⟩
    · rw [t.elsewhere pos hgi]
      exact .inl hcur
  · exact .inr ⟨hosts, ht.mono (List.subset_append_left ..), t.looped.kept _ hkey,
      t.remembered hgwp hkey hcur⟩

theorem Turn.marked (t : Turn ask gs s pref gi gw found gs' out)
    (h : Progress ask compiled gs done s) (pos : Nat × Nat) (gwp : GatewayBuild) (l : ListenerBuild)
    (hosts : List String) (hgwp : gs[pos.1]? = some gwp) (hl : gwp.listeners[pos.2]? = some l)
    (ht : Takes ask.snap ask.siblings gs ask.rref ask.route (done ++ [pref]) pos hosts) :
    listenerKey gwp.ref l ∈ out.2.1 := by
  obtain ⟨p, hp, ht⟩ := ht
  rcases List.mem_append.mp hp with hp | hp
  · exact t.looped.kept _ (h.marked pos gwp l hosts hgwp hl ⟨p, hp, ht⟩)
  · obtain rfl : p = pref := by simpa using hp
    obtain ⟨gi', li⟩ := pos
    obtain rfl : gi = gi' := Option.mem_unique t.ours ht.1
    obtain rfl : gw = gwp := Option.mem_unique t.before hgwp
    obtain ⟨l', hl', hblank⟩ := listener_of_shape t.shape hl
    rw [← listenerKey_of_blank hblank]
    exact t.looped.marked li l' hosts hl'
      ((verdict_iff_takesVia t.ours t.before hl hblank).mpr ht)

theorem Turn.source (t : Turn ask gs s pref gi gw found gs' out)
    (h : Progress ask compiled gs done s) (key : String) (hkey : key ∈ out.2.1) :
    ∃ pos gw l hosts, gs[pos.1]? = some gw ∧ gw.listeners[pos.2]? = some l ∧
      key = listenerKey gw.ref l ∧
      listenerAt gs' pos = some (attachListener ask.compiled hosts l) := by
  rcases t.looped.source key hkey with
    hin | ⟨li, l', hosts, hl', hverdict, rfl, hfresh, hchanged⟩
  · obtain ⟨pos, gwp, l, hosts, hgwp, hl, rfl, hat⟩ := h.source key hin
    exact ⟨pos, gwp, l, hosts, hgwp, hl, rfl, t.remembered hgwp hin hat⟩
  · obtain ⟨l, hl, hblank⟩ := listener_of_shape t.shape.symm hl'
    rcases h.current t.before hl t.found with hcur | ⟨hosts', ht, hkey', hcur⟩
    · obtain rfl : l' = l := Option.mem_unique hl' hcur
      exact ⟨(gi, li), gw, l', hosts, t.before, hl, rfl, (t.here li).trans hchanged⟩
    · rw [listenerKey_of_blank hblank.symm] at hfresh
      exact absurd hkey' hfresh

/-- The count of listeners the route gets to is above zero when there is one. -/
theorem Turn.counted (t : Turn ask gs s pref gi gw found gs' out) :
    0 < out.2.2.hostnameOk ↔
      ∃ li hosts, TakesVia ask.snap ask.siblings gs ask.rref ask.route pref (gi, li) hosts := by
  rw [t.looped.counted]
  constructor
  · rintro (hzero | ⟨li, l', hosts, hl', hverdict⟩)
    · exact absurd hzero (by simp)
    · obtain ⟨l, hl, hblank⟩ := listener_of_shape t.shape.symm hl'
      exact ⟨li, hosts, (verdict_iff_takesVia t.ours t.before hl hblank.symm).mp hverdict⟩
  · rintro ⟨li, hosts, ht⟩
    obtain ⟨-, gwp, l, hgwp, hl, -⟩ := id ht
    obtain rfl : gw = gwp := Option.mem_unique t.before hgwp
    obtain ⟨l', hl', hblank⟩ := listener_of_shape t.shape hl
    exact .inr ⟨li, l', hosts, hl', (verdict_iff_takesVia t.ours t.before hl hblank).mpr ht⟩

end Turn

theorem Progress.take (h : Progress ask compiled gs done s)
    (hrefs : ∀ c, compiled = .ok c → c.resolvedRefs.type = .resolvedRefs) {gi : Nat}
    {gw gw' : GatewayBuild} (hours : ourGateway gs pref ask.rref = some gi)
    (hgw : gs[gi]? = some gw) (hgw' : s.gateways[gi]? = some gw') (name : String)
    (generation : Option Int) :
    Progress ask compiled gs (done ++ [pref])
      { gateways := s.gateways.set gi (attachToGateway ask pref gi gw' s.attached).1
        attached := (attachToGateway ask pref gi gw' s.attached).2.1
        parents := s.parents ++ [{
          parentRef := pref
          controllerName := name
          conditions := [acceptedCondition (attachToGateway ask pref gi gw' s.attached).2.2 compiled
              generation, resolvedCondition compiled generation] }] } := by
  have t := h.turn hours hgw hgw'
  constructor
  case shape => exact h.shape.trans (sameShape_set hgw' (attachToGateway_shape ..))
  case each => exact t.each h
  case marked => exact t.marked h
  case source => exact t.source h
  case parents =>
    intro parent hparent
    rcases List.mem_append.mp hparent with hparent | hparent
    · obtain ⟨hdone, hrest⟩ := h.parents parent hparent
      exact ⟨List.mem_append_left _ hdone, hrest⟩
    · obtain rfl := List.mem_singleton.mp hparent
      refine ⟨by simp, gi, hours, ?_⟩
      rw [isAccepted_conditions hrefs]
      exact and_congr Iff.rfl t.counted
  case named =>
    intro p hp gi' hgi'
    rcases List.mem_append.mp hp with hp | hp
    · obtain ⟨parent, hparent, href⟩ := h.named p hp gi' hgi'
      exact ⟨parent, List.mem_append_left _ hparent, href⟩
    · obtain rfl : p = pref := by simpa using hp
      exact ⟨_, List.mem_append_right _ List.mem_cons_self, rfl⟩

theorem Progress.step (h : Progress ask compiled gs done s)
    (hrefs : ∀ c, compiled = .ok c → c.resolvedRefs.type = .resolvedRefs) (name : String)
    (pref : ParentReference) :
    Progress ask compiled gs (done ++ [pref]) (attachParent ask compiled name s pref) := by
  have hsame := ourGateway_congr h.shape pref ask.rref
  unfold attachParent
  cases hours : ourGateway s.gateways pref ask.rref with
  | none => exact h.skip (hsame.symm.trans hours)
  | some gi =>
    obtain ⟨gw', hgw', -⟩ := gateway_of_ourGateway hours
    obtain ⟨gw, hgw, -⟩ := h.shape.symm.gateway hgw'
    simp only [hgw']
    exact h.take hrefs (hsame.symm.trans hours) hgw hgw' name _

end Parents

/-- The whole walk of one route. -/
theorem attachParents_progress {compiled : Except Unsupported Compiled} (snap : Snapshot)
    (settings : Settings) (siblings : List Sibling) (gs : List GatewayBuild) (rref : ObjectRef)
    (route : HttpRoute) (hrefs : ∀ c, compiled = .ok c → c.resolvedRefs.type = .resolvedRefs) :
    Progress { snap, siblings, rref, route, compiled := compiled.toOption } compiled gs
      route.parentRefs (attachParents snap settings siblings gs rref route compiled) :=
  Lib.Stateful.foldl_prefix Progress.start
    (fun _ pref _ h => h.step hrefs settings.controllerName pref) route.parentRefs

end Gapura.Core.Translate
