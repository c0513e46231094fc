import Gapura.Core.Translate.Attached

/-! # What attaching all routes leaves on a listener

A listener's rules are those of the routes that got to it, each route's once
and in the order of the snapshot, and its table has an entry for every match of
each rule. -/
namespace Gapura.Core.Translate
open Lib.Stateful Input Status

/-! ## Rules and their entries -/

theorem hostsOf_ne_nil (hostnames : List String) : hostsOf hostnames ≠ [] := by
  unfold hostsOf
  cases hostnames <;> simp

theorem mem_ruleEntries {hosts : List (Option String)} {rule : RouteRule} {idx : Nat}
    {e : MatchEntry} : e ∈ ruleEntries hosts rule idx ↔
      e.rule = idx ∧ e.hostname ∈ hosts ∧ e.matcher ∈ rule.matches := by
  simp only [ruleEntries, List.mem_flatMap, List.mem_map]
  constructor
  · rintro ⟨host, hhost, m, hm, rfl⟩
    exact ⟨rfl, hhost, hm⟩
  · rintro ⟨rfl, hhost, hm⟩
    exact ⟨e.hostname, hhost, e.matcher, hm, rfl⟩

theorem addRoute_eq (rules : List RouteRule) (hostnames : List String) (l : ListenerBuild) :
    l.addRoute rules hostnames = { l with
      rules := l.rules ++ rules
      table := l.table ++ (rules.zipIdx l.rules.length).flatMap fun p =>
        ruleEntries (hostsOf hostnames) p.1 p.2 } := by
  unfold ListenerBuild.addRoute
  induction rules generalizing l with
  | nil => simp
  | cons rule rules ih =>
    rw [List.foldl_cons, ih]
    simp [List.append_assoc, List.zipIdx_cons]

/-- A route on a listener: its rules, under the hostnames it kept. -/
structure Att where
  rref : ObjectRef
  route : HttpRoute
  rules : List RouteRule
  hosts : List String

/-- A listener that holds the rules of `atts`, with an entry for each match. -/
structure Holds (l : ListenerBuild) (atts : List Att) : Prop where
  rules : l.rules = atts.flatMap (·.rules)
  sound : ∀ e ∈ l.table, ∃ a ∈ atts, ∃ rule ∈ a.rules, l.rules[e.rule]? = some rule ∧
    e.hostname ∈ hostsOf a.hosts ∧ e.matcher ∈ rule.matches
  complete : ∀ (j : Nat) rule, l.rules[j]? = some rule → ∀ m ∈ rule.matches,
    ∃ e ∈ l.table, e.rule = j ∧ e.matcher = m

theorem Holds.addRoute {l : ListenerBuild} {atts : List Att} (h : Holds l atts) (a : Att) :
    Holds (l.addRoute a.rules a.hosts) (atts ++ [a]) := by
  rw [addRoute_eq]
  have hnew : ∀ (i : Nat) rule, a.rules[i]? = some rule →
      (l.rules ++ a.rules)[l.rules.length + i]? = some rule := by
    intro i rule hi
    rw [List.getElem?_append_right (by omega)]
    simpa using hi
  refine ⟨by simp [h.rules], ?_, ?_⟩
  · intro e he
    rcases List.mem_append.mp he with he | he
    · obtain ⟨a', ha', rule, hrule, hget, hhost, hm⟩ := h.sound e he
      refine ⟨a', List.mem_append_left _ ha', rule, hrule, ?_, hhost, hm⟩
      rw [List.getElem?_append_left (List.getElem?_eq_some_iff.mp hget).1]
      exact hget
    · obtain ⟨⟨rule, idx⟩, hmem, hentry⟩ := List.mem_flatMap.mp he
      obtain ⟨rfl, hhost, hm⟩ := mem_ruleEntries.mp hentry
      obtain ⟨hle, hget⟩ := List.mem_zipIdx_iff_le_and_getElem?_sub.mp hmem
      refine ⟨a, by simp, rule, List.mem_of_getElem? hget, ?_, hhost, hm⟩
      have := hnew _ rule hget
      rwa [Nat.add_sub_cancel' hle] at this
  · intro j rule hget m hm
    by_cases hj : j < l.rules.length
    · rw [List.getElem?_append_left hj] at hget
      obtain ⟨e, he, hrule, hmatch⟩ := h.complete j rule hget m hm
      exact ⟨e, List.mem_append_left _ he, hrule, hmatch⟩
    · rw [List.getElem?_append_right (by omega)] at hget
      obtain ⟨host, hhost⟩ := List.exists_mem_of_ne_nil _ (hostsOf_ne_nil a.hosts)
      refine ⟨{ hostname := host, matcher := m, rule := j }, List.mem_append_right _ ?_, rfl, rfl⟩
      refine List.mem_flatMap.mpr ⟨(rule, j), ?_, mem_ruleEntries.mpr ⟨rfl, hhost, hm⟩⟩
      exact List.mem_zipIdx_iff_le_and_getElem?_sub.mpr ⟨by omega, hget⟩

/-! ## One route -/

/-- The state a route leaves that names one of our Gateways, compiled to `out`. -/
def AttachState.walked (s : AttachState) (snap : Snapshot) (settings : Settings)
    (siblings : List Sibling) (rref : ObjectRef) (route : HttpRoute)
    (out : Except Unsupported Compiled × ClusterTable) : AttachState :=
  let walk := attachParents snap settings siblings s.gateways rref route out.1
  { gateways := walk.gateways
    clusters := out.2
    status := if walk.parents.isEmpty then s.status
      else s.status ++ [.httpRoute rref route.metadata.uid walk.parents] }

section Route
variable {env : Env} {snap : Snapshot} {settings : Settings} {siblings : List Sibling}

theorem resolvedRefsCondition_type (e : Option Rejection) (generation : Option Int) :
    (resolvedRefsCondition e generation).type = .resolvedRefs := by
  cases e <;> rfl

variable {c : Compiled} {s : AttachState} {hosts : List String}

variable {route : HttpRoute} {rref : ObjectRef}

theorem compile_refs {clusters : ClusterTable}
    (h : (compile env snap route rref clusters).1 = .ok c) :
    c.resolvedRefs.type = .resolvedRefs := by
  unfold compile at h
  simp only at h
  cases hrun : (compileRules env snap route rref { clusters }).1 with
  | error e => simp [hrun, Except.map] at h
  | ok rules =>
    simp only [hrun, Except.map, Except.ok.injEq] at h
    rw [← h]
    exact resolvedRefsCondition_type _ _

theorem compiledFor_refs
    (h : (compiledFor env snap s rref route).1 = .ok c) : c.resolvedRefs.type = .resolvedRefs := by
  unfold compiledFor at h
  split at h
  · exact compile_refs h
  · cases h
    exact resolvedRefsCondition_type _ _

theorem admits_of_hosts {gwNs : String} {pos : Nat × Nat} {pref : ParentReference} {l : ListenerBuild}
    (h : verdict snap siblings gwNs pos pref rref route l = .hosts hosts) :
    selects pref l = true ∧ admits snap gwNs rref l = true ∧
      hostsAt siblings pos route l = .hosts hosts := by
  unfold verdict at h
  split at h
  · cases h
  split at h
  · cases h
  rename_i hselects hadmits
  exact ⟨by simpa using hselects, by simpa using hadmits, h⟩

/-- A route that gets anywhere is compiled. -/
theorem compiledFor_of_takes {pos : Nat × Nat}
    (h : Takes snap siblings s.gateways rref route route.parentRefs pos hosts) :
    compiledFor env snap s rref route = compile env snap route rref s.clusters := by
  obtain ⟨pref, hpref, hours, gw, l, hgw, hl, hverdict⟩ := h
  obtain ⟨hselects, hadmits, -⟩ := admits_of_hosts hverdict
  have hany : anyListenerAdmits snap s.gateways rref route = true := by
    unfold anyListenerAdmits
    rw [List.any_eq_true]
    refine ⟨pref, hpref, ?_⟩
    rw [hours]
    simp only [Option.bind_some, hgw, Option.any_some, List.any_eq_true]
    exact ⟨l, List.mem_of_getElem? hl, by simp [hselects, hadmits]⟩
  rw [compiledFor, if_pos hany]

theorem compiledFor_grows (s : AttachState) (rref : ObjectRef) (route : HttpRoute) :
    Grows snap s.clusters (compiledFor env snap s rref route).2 := by
  unfold compiledFor
  split
  · exact (compile_spec env snap route rref s.clusters).1
  · exact .refl snap s.clusters

theorem CompiledRules.mono {t t' : ClusterTable} {rules : List RouteRule}
    (h : CompiledRules snap rref t rules) (hgrow : Grows snap t t') :
    CompiledRules snap rref t' rules :=
  ⟨h.route, h.indices, fun rule hrule key hkey =>
    ⟨hgrow.contains (h.reaches rule hrule key hkey).1, (h.reaches rule hrule key hkey).2⟩⟩

theorem programmed_of_blank {l l' : ListenerBuild} (h : l'.blank = l.blank) :
    l'.programmed = l.programmed := by
  show l'.blank.programmed = l.blank.programmed
  rw [h]

/-- The parents a route's patch lists, and which of them accept it: those that
take it somewhere, if it compiles. -/
structure ParentsOf (env : Env) (snap : Snapshot) (siblings : List Sibling)
    (gs : List GatewayBuild) (clusters : ClusterTable) (rref : ObjectRef) (route : HttpRoute)
    (parents : List RouteParentStatus) : Prop where
  each : ∀ parent ∈ parents, parent.parentRef ∈ route.parentRefs ∧
    ∃ gi, ourGateway gs parent.parentRef rref = some gi ∧
      (isAccepted parent ↔ (∃ c, (compile env snap route rref clusters).1 = .ok c) ∧
        ∃ li hosts, TakesVia snap siblings gs rref route parent.parentRef (gi, li) hosts)
  named : ∀ pref ∈ route.parentRefs, ∀ gi, ourGateway gs pref rref = some gi →
    ∃ parent ∈ parents, parent.parentRef = pref

theorem ParentsOf.congr {gs gs' : List GatewayBuild} {clusters : ClusterTable}
    {parents : List RouteParentStatus} (hshape : SameShape gs gs')
    (h : ParentsOf env snap siblings gs clusters rref route parents) :
    ParentsOf env snap siblings gs' clusters rref route parents := by
  constructor
  · intro parent hparent
    obtain ⟨hmem, gi, hours, haccepted⟩ := h.each parent hparent
    refine ⟨hmem, gi, (ourGateway_congr hshape _ _).trans hours, haccepted.trans ?_⟩
    refine and_congr Iff.rfl ⟨?_, ?_⟩
    · rintro ⟨li, hosts, ht⟩
      exact ⟨li, hosts, ht.congr hshape⟩
    · rintro ⟨li, hosts, ht⟩
      exact ⟨li, hosts, ht.congr hshape.symm⟩
  · intro pref hpref gi hours
    exact h.named pref hpref gi ((ourGateway_congr hshape.symm _ _).trans hours)

/-- The keys a route remembers listeners by tell them apart. -/
def KeysApart (gs : List GatewayBuild) : Prop :=
  ∀ (pos pos' : Nat × Nat) (gw gw' : GatewayBuild) (l l' : ListenerBuild),
    gs[pos.1]? = some gw → gw.listeners[pos.2]? = some l →
    gs[pos'.1]? = some gw' → gw'.listeners[pos'.2]? = some l' →
    listenerKey gw.ref l = listenerKey gw'.ref l' → pos = pos'

/-- What one route does, whether or not it names one of our Gateways. -/
structure RouteStep (env : Env) (snap : Snapshot) (siblings : List Sibling) (s s' : AttachState)
    (rref : ObjectRef) (route : HttpRoute) : Prop where
  shape : SameShape s.gateways s'.gateways
  grows : Grows snap s.clusters s'.clusters
  each : ∀ pos l, listenerAt s.gateways pos = some l → listenerAt s'.gateways pos = some l ∨
    ∃ hosts, Takes snap siblings s.gateways rref route route.parentRefs pos hosts ∧
      s'.clusters = (compile env snap route rref s.clusters).2 ∧
      listenerAt s'.gateways pos = some
        (attachListener (compile env snap route rref s.clusters).1.toOption hosts l)
  taken : KeysApart s.gateways → ∀ pos l hosts, listenerAt s.gateways pos = some l →
    Takes snap siblings s.gateways rref route route.parentRefs pos hosts →
    listenerAt s'.gateways pos = some
      (attachListener (compile env snap route rref s.clusters).1.toOption hosts l)
  status : (s'.status = s.status ∧
      ∀ pref ∈ route.parentRefs, ourGateway s.gateways pref rref = none) ∨
    ∃ uid parents, s'.status = s.status ++ [.httpRoute rref uid parents] ∧
      ParentsOf env snap siblings s.gateways s.clusters rref route parents

/-- The hostnames do not depend on the parentRef. -/
theorem Takes.hosts_eq {gs : List GatewayBuild} {prefs : List ParentReference} {pos : Nat × Nat}
    {hosts' : List String} (h : Takes snap siblings gs rref route prefs pos hosts)
    (h' : Takes snap siblings gs rref route prefs pos hosts') : hosts = hosts' := by
  obtain ⟨_, -, -, gw, l, hgw, hl, hverdict⟩ := h
  obtain ⟨_, -, -, gw', l', hgw', hl', hverdict'⟩ := h'
  obtain rfl : gw = gw' := Option.mem_unique hgw hgw'
  obtain rfl : l = l' := Option.mem_unique hl hl'
  obtain ⟨-, -, hhosts⟩ := admits_of_hosts hverdict
  obtain ⟨-, -, hhosts'⟩ := admits_of_hosts hverdict'
  exact Verdict.hosts.inj (hhosts.symm.trans hhosts')

theorem attachedRoutes_attachListener (compiled : Option Compiled) (hosts : List String)
    (l : ListenerBuild) :
    (attachListener compiled hosts l).attachedRoutes = l.attachedRoutes + 1 := by
  unfold attachListener
  cases compiled with
  | none => rfl
  | some c =>
    simp only
    split
    · rw [addRoute_eq]
    · rfl

theorem not_takes_of_not_ours {gs : List GatewayBuild}
    (h : ∀ pref ∈ route.parentRefs, ourGateway gs pref rref = none) {pos : Nat × Nat} :
    ¬ Takes snap siblings gs rref route route.parentRefs pos hosts := by
  rintro ⟨pref, hpref, hours, -⟩
  rw [h pref hpref] at hours
  cases hours

/-- A route that names none of our Gateways leaves them alone. -/
theorem RouteStep.skip {s' : AttachState}
    (h : ∀ pref ∈ route.parentRefs, ourGateway s.gateways pref rref = none)
    (hgateways : s'.gateways = s.gateways) (hclusters : s'.clusters = s.clusters)
    (hstatus : s'.status = s.status ∨
      ∃ uid, s'.status = s.status ++ [.httpRoute rref uid []]) :
    RouteStep env snap siblings s s' rref route := by
  have hparents : ParentsOf env snap siblings s.gateways s.clusters rref route [] :=
    ⟨fun parent hparent => (nomatch hparent), fun pref hpref gi hours => by
      rw [h pref hpref] at hours
      cases hours⟩
  refine ⟨?_, ?_, fun pos l hl => .inl (hgateways ▸ hl), fun _ pos l hosts _ ht =>
    absurd ht (not_takes_of_not_ours h), ?_⟩
  · unfold SameShape
    rw [hgateways]
  · rw [hclusters]
    exact .refl snap s.clusters
  · rcases hstatus with hsame | ⟨uid, hpatch⟩
    · exact .inl ⟨hsame, h⟩
    · exact .inr ⟨uid, [], hpatch, hparents⟩

/-- A listener whose key is remembered was taken. -/
theorem Progress.taken {ask : Asking} {compiled : Except Unsupported Compiled}
    {gs : List GatewayBuild} {done : List ParentReference} {w : Attaching}
    (h : Progress ask compiled gs done w) (hapart : KeysApart gs) {pos : Nat × Nat}
    {l : ListenerBuild} (hl : listenerAt gs pos = some l)
    (ht : Takes ask.snap ask.siblings gs ask.rref ask.route done pos hosts) :
    listenerAt w.gateways pos = some (attachListener ask.compiled hosts l) := by
  obtain ⟨gw, hgw, hl⟩ := listenerAt_eq_some.mp hl
  obtain ⟨pos', gw', l', hosts', hgw', hl', hkey, hchanged⟩ :=
    h.source _ (h.marked pos gw l hosts hgw hl ht)
  obtain rfl : pos = pos' := hapart pos pos' gw gw' l l' hgw hl hgw' hl' hkey
  obtain rfl : gw = gw' := Option.mem_unique hgw hgw'
  obtain rfl : l = l' := Option.mem_unique hl hl'
  rcases h.each pos gw l hgw hl with hsame | ⟨hosts'', ht', -, hchanged'⟩
  · -- attaching counts the route, so the listener cannot be what it was
    have heq : l = attachListener ask.compiled hosts' l :=
      Option.mem_unique hsame hchanged
    have hcount := attachedRoutes_attachListener ask.compiled hosts' l
    rw [← heq] at hcount
    omega
  · rw [ht.hosts_eq ht']
    exact hchanged'

/-- The walk of a route over its parentRefs, with the rules it would compile to
wherever it gets. -/
theorem walk_step {out : Except Unsupported Compiled × ClusterTable}
    (hrefs : ∀ c, out.1 = .ok c → c.resolvedRefs.type = .resolvedRefs)
    (hgrows : Grows snap s.clusters out.2)
    (hcompiled : ∀ pos hosts, Takes snap siblings s.gateways rref route route.parentRefs pos hosts →
      out = compile env snap route rref s.clusters) :
    RouteStep env snap siblings s (s.walked snap settings siblings rref route out) rref route := by
  have hwalk := attachParents_progress snap settings siblings s.gateways rref route hrefs
  unfold AttachState.walked
  generalize attachParents snap settings siblings s.gateways rref route out.1 = walk at hwalk
  refine ⟨hwalk.shape, hgrows, fun pos l hl => ?_, fun hapart pos l hosts hl ht => ?_, ?_⟩
  · obtain ⟨gw, hgw, hl⟩ := listenerAt_eq_some.mp hl
    rcases hwalk.each pos gw l hgw hl with hkept | ⟨hosts, ht, -, hchanged⟩
    · exact .inl hkept
    · rw [hcompiled pos hosts ht] at hchanged
      exact .inr ⟨hosts, ht, congrArg Prod.snd (hcompiled pos hosts ht), hchanged⟩
  · rw [← hcompiled pos hosts ht]
    exact hwalk.taken hapart hl ht
  · simp only
    split
    · rename_i hempty
      refine .inl ⟨rfl, fun pref hpref => Option.eq_none_iff_forall_ne_some.mpr ?_⟩
      intro gi hours
      obtain ⟨parent, hparent, -⟩ := hwalk.named pref hpref gi hours
      rw [List.isEmpty_iff.mp hempty] at hparent
      cases hparent
    · refine .inr ⟨_, _, rfl, fun parent hparent => ?_, hwalk.named⟩
      obtain ⟨hmem, gi, hours, haccepted⟩ := hwalk.parents parent hparent
      refine ⟨hmem, gi, hours, haccepted.trans (and_congr_left ?_)⟩
      rintro ⟨li, hosts, ht⟩
      rw [hcompiled _ _ ⟨_, hmem, ht⟩]

theorem attachRoute_step (env : Env) (snap : Snapshot) (settings : Settings)
    (siblings : List Sibling) (s : AttachState) (rref : ObjectRef) (route : HttpRoute) :
    RouteStep env snap siblings s (attachRoute env snap settings siblings s (rref, route)) rref
      route := by
  unfold attachRoute
  simp only
  split
  · rename_i hnone
    have hours : ∀ pref ∈ route.parentRefs, ourGateway s.gateways pref rref = none := by
      simpa using hnone
    split
    · exact .skip hours rfl rfl (.inr ⟨_, rfl⟩)
    · exact .skip hours rfl rfl (.inl rfl)
  · exact walk_step (fun c hc => compiledFor_refs hc) (compiledFor_grows s rref route)
      fun pos hosts ht => compiledFor_of_takes ht

end Route

/-! ## All routes -/

def Att.source (a : Att) : ObjectRef × HttpRoute := (a.rref, a.route)

section Run
variable {env : Env} {snap : Snapshot} {siblings : List Sibling} {gs : List GatewayBuild}
  {done : List (ObjectRef × HttpRoute)} {clusters clusters' : ClusterTable} {pos : Nat × Nat}
  {l : ListenerBuild} {atts : List Att}

/-- A route that gets to the listener at `pos` and compiles. -/
structure Genuine (env : Env) (snap : Snapshot) (siblings : List Sibling) (gs : List GatewayBuild)
    (clusters : ClusterTable) (pos : Nat × Nat) (a : Att) : Prop where
  takes : Takes snap siblings gs a.rref a.route a.route.parentRefs pos a.hosts
  compiled : ∃ t c, Grows snap ∅ t ∧ (compile env snap a.route a.rref t).1 = .ok c ∧
    c.rules = a.rules
  rules : CompiledRules snap a.rref clusters a.rules

variable {a : Att} {p : ObjectRef × HttpRoute} {s' : AttachState}

theorem Genuine.mono (h : Genuine env snap siblings gs clusters pos a)
    (hgrow : Grows snap clusters clusters') : Genuine env snap siblings gs clusters' pos a :=
  ⟨h.takes, h.compiled, h.rules.mono hgrow⟩

/-- What the listener at `pos` carries once the routes `done` went through. -/
structure Carries (env : Env) (snap : Snapshot) (siblings : List Sibling) (gs : List GatewayBuild)
    (done : List (ObjectRef × HttpRoute)) (clusters : ClusterTable) (pos : Nat × Nat)
    (l : ListenerBuild) (atts : List Att) : Prop where
  holds : Holds l atts
  sources : (atts.map Att.source).Sublist done
  genuine : ∀ a ∈ atts, Genuine env snap siblings gs clusters pos a
  taken : KeysApart gs → l.programmed = true → ∀ p ∈ done, ∀ hosts,
    Takes snap siblings gs p.1 p.2 p.2.parentRefs pos hosts → ∃ t, Grows snap ∅ t ∧
      ∀ c, (compile env snap p.2 p.1 t).1 = .ok c → ∃ a ∈ atts, a.source = p

/-- A route that adds no rules. -/
theorem Carries.skip (h : Carries env snap siblings gs done clusters pos l atts)
    (hgrow : Grows snap clusters clusters') (hnew : KeysApart gs → l.programmed = true → ∀ hosts,
      Takes snap siblings gs p.1 p.2 p.2.parentRefs pos hosts → ∃ t, Grows snap ∅ t ∧
        ∀ c, (compile env snap p.2 p.1 t).1 ≠ .ok c) :
    Carries env snap siblings gs (done ++ [p]) clusters' pos l atts where
  holds := h.holds
  sources := h.sources.trans (List.sublist_append_left ..)
  genuine a ha := (h.genuine a ha).mono hgrow
  taken hapart hprog q hq hosts ht := by
    rcases List.mem_append.mp hq with hq | hq
    · exact h.taken hapart hprog q hq hosts ht
    · obtain rfl := List.mem_singleton.mp hq
      obtain ⟨t, hbuilt, hfails⟩ := hnew hapart hprog hosts ht
      exact ⟨t, hbuilt, fun c hc => absurd hc (hfails c)⟩

/-- A route that adds its rules. -/
theorem Carries.add (h : Carries env snap siblings gs done clusters pos l atts)
    (hgrow : Grows snap clusters clusters') (ha : Genuine env snap siblings gs clusters' pos a) :
    Carries env snap siblings gs (done ++ [a.source]) clusters' pos (l.addRoute a.rules a.hosts)
      (atts ++ [a]) where
  holds := h.holds.addRoute a
  sources := by
    rw [List.map_append]
    exact h.sources.append (List.Sublist.refl _)
  genuine b hb := by
    rcases List.mem_append.mp hb with hb | hb
    · exact (h.genuine b hb).mono hgrow
    · obtain rfl := List.mem_singleton.mp hb
      exact ha
  taken hapart hprog q hq hosts ht := by
    rcases List.mem_append.mp hq with hq | hq
    · rw [programmed_of_blank (blank_addRoute a.rules a.hosts l)] at hprog
      obtain ⟨t, hbuilt, hcompiles⟩ := h.taken hapart hprog q hq hosts ht
      refine ⟨t, hbuilt, fun c hc => ?_⟩
      obtain ⟨b, hb, hsource⟩ := hcompiles c hc
      exact ⟨b, List.mem_append_left _ hb, hsource⟩
    · obtain rfl := List.mem_singleton.mp hq
      exact ⟨∅, .refl snap ∅, fun _ _ => ⟨a, by simp, rfl⟩⟩

theorem KeysApart.congr {gs gs' : List GatewayBuild} (hshape : SameShape gs gs')
    (h : KeysApart gs) : KeysApart gs' := by
  intro pos pos' gw₁ gw₂ l₁ l₂ hgw₁ hl₁ hgw₂ hl₂ hkey
  obtain ⟨gw, hgw, hsame⟩ := hshape.symm.gateway hgw₁
  obtain ⟨gw', hgw', hsame'⟩ := hshape.symm.gateway hgw₂
  obtain ⟨l, hl, hblank⟩ := listener_of_shape hsame hl₁
  obtain ⟨l', hl', hblank'⟩ := listener_of_shape hsame' hl₂
  refine h pos pos' gw gw' l l' hgw hl hgw' hl' ?_
  rw [listenerKey_of_blank hblank, listenerKey_of_blank hblank', show gw.ref = gw₁.ref from
    congrArg Shape.ref hsame, show gw'.ref = gw₂.ref from congrArg Shape.ref hsame']
  exact hkey

variable {s : AttachState}

/-- One route more. -/
theorem Carries.step {rref : ObjectRef} {route : HttpRoute}
    (h : Carries env snap siblings gs done s.clusters pos l atts)
    (hstep : RouteStep env snap siblings s s' rref route) (hshape : SameShape gs s.gateways)
    (hbuilt : Grows snap ∅ s.clusters) (hl : listenerAt s.gateways pos = some l) :
    ∃ l' atts', listenerAt s'.gateways pos = some l' ∧
      Carries env snap siblings gs (done ++ [(rref, route)]) s'.clusters pos l' atts' := by
  have hcongr : ∀ hosts, Takes snap siblings gs rref route route.parentRefs pos hosts →
      Takes snap siblings s.gateways rref route route.parentRefs pos hosts := by
    rintro hosts ⟨pref, hpref, ht⟩
    exact ⟨pref, hpref, ht.congr hshape⟩
  rcases hstep.each pos l hl with hkept | ⟨hosts, ⟨pref, hpref, ht⟩, hclusters, hchanged⟩
  · -- a listener the route gets to would count it
    refine ⟨l, atts, hkept, h.skip hstep.grows fun hapart _ hosts ht => ?_⟩
    have htaken := hstep.taken (hapart.congr hshape) pos l hosts hl (hcongr hosts ht)
    have hcount := attachedRoutes_attachListener
      (compile env snap route rref s.clusters).1.toOption hosts l
    rw [← Option.mem_unique hkept htaken] at hcount
    omega
  · have hcounted : Carries env snap siblings gs done s.clusters pos
        { l with attachedRoutes := l.attachedRoutes + 1 } atts :=
      ⟨⟨h.holds.rules, h.holds.sound, h.holds.complete⟩, h.sources, h.genuine, h.taken⟩
    cases hcompiled : (compile env snap route rref s.clusters).1 with
    | error e =>
      rw [hcompiled] at hchanged
      refine ⟨_, atts, hchanged, hcounted.skip hstep.grows fun _ _ _ _ =>
        ⟨s.clusters, hbuilt, fun c hc => ?_⟩⟩
      rw [hcompiled] at hc
      cases hc
    | ok c =>
      rw [hcompiled] at hchanged
      by_cases hprogrammed : l.programmed = true
      · have hadds : attachListener (some c) hosts l =
            { l with attachedRoutes := l.attachedRoutes + 1 }.addRoute c.rules hosts :=
          if_pos hprogrammed
        let a : Att := ⟨rref, route, c.rules, hosts⟩
        have ha : Genuine env snap siblings gs s'.clusters pos a := by
          refine ⟨⟨pref, hpref, ht.congr hshape.symm⟩, ⟨s.clusters, c, hbuilt, hcompiled, rfl⟩, ?_⟩
          rw [hclusters]
          exact (compile_spec env snap route rref s.clusters).2 c hcompiled
        exact ⟨_, atts ++ [a], hchanged.trans (congrArg some hadds), hcounted.add hstep.grows ha⟩
      · have hcounts : attachListener (some c) hosts l =
            { l with attachedRoutes := l.attachedRoutes + 1 } := if_neg hprogrammed
        exact ⟨_, atts, hchanged.trans (congrArg some hcounts),
          hcounted.skip hstep.grows fun _ hprog => absurd hprog hprogrammed⟩

/-- Where the routes `done` lead from the Gateways `gs`. -/
structure Ran (env : Env) (snap : Snapshot) (siblings : List Sibling) (gs : List GatewayBuild)
    (done : List (ObjectRef × HttpRoute)) (s : AttachState) : Prop where
  shape : SameShape gs s.gateways
  built : Grows snap ∅ s.clusters
  each : ∀ pos l, listenerAt gs pos = some l → ∃ l' atts, listenerAt s.gateways pos = some l' ∧
    Carries env snap siblings gs done s.clusters pos l' atts
  patched : ∀ rref uid parents, .httpRoute rref uid parents ∈ s.status → ∃ route t,
    (rref, route) ∈ done ∧ Grows snap ∅ t ∧ ParentsOf env snap siblings gs t rref route parents
  named : ∀ p ∈ done, ∀ pref ∈ p.2.parentRefs, ∀ gi, ourGateway gs pref p.1 = some gi →
    ∃ uid parents, .httpRoute p.1 uid parents ∈ s.status

/-- The listeners of Gateways as they were built, before any route. -/
def Fresh (gs : List GatewayBuild) : Prop :=
  ∀ gw ∈ gs, ∀ l ∈ gw.listeners, l.rules = [] ∧ l.table = []

theorem Ran.start (hfresh : Fresh gs) :
    Ran env snap siblings gs [] { gateways := gs, clusters := ∅, status := [] } where
  shape := rfl
  built := .refl snap ∅
  each pos l hl := by
    obtain ⟨gw, hgw, hget⟩ := listenerAt_eq_some.mp hl
    obtain ⟨hrules, htable⟩ := hfresh gw (List.mem_of_getElem? hgw) l (List.mem_of_getElem? hget)
    refine ⟨l, [], hl, ⟨hrules, fun e he => ?_, fun j rule hj => ?_⟩, .slnil, ?_, ?_⟩
    · rw [htable] at he
      cases he
    · rw [hrules] at hj
      simp at hj
    · exact fun a ha => nomatch ha
    · exact fun _ _ p hp => nomatch hp
  patched := fun _ _ _ h => nomatch h
  named := fun _ h => nomatch h

theorem Ran.step
    (h : Ran env snap siblings gs done s) (hstep : RouteStep env snap siblings s s' p.1 p.2) :
    Ran env snap siblings gs (done ++ [p]) s' where
  shape := h.shape.trans hstep.shape
  built := h.built.trans hstep.grows
  each pos l hl := by
    obtain ⟨l', atts, hl', hcarries⟩ := h.each pos l hl
    exact hcarries.step hstep h.shape h.built hl'
  patched rref uid parents hpatch := by
    have hold : .httpRoute rref uid parents ∈ s.status → ∃ route t, (rref, route) ∈ done ++ [p] ∧
        Grows snap ∅ t ∧ ParentsOf env snap siblings gs t rref route parents := by
      intro hmem
      obtain ⟨route, t, hdone, hrest⟩ := h.patched rref uid parents hmem
      exact ⟨route, t, List.mem_append_left _ hdone, hrest⟩
    rcases hstep.status with ⟨hsame, -⟩ | ⟨uid', parents', hadded, hparents⟩
    · exact hold (hsame ▸ hpatch)
    · rw [hadded] at hpatch
      rcases List.mem_append.mp hpatch with hpatch | hpatch
      · exact hold hpatch
      · obtain ⟨rfl, rfl, rfl⟩ : rref = p.1 ∧ uid = uid' ∧ parents = parents' := by
          simpa using hpatch
        exact ⟨p.2, s.clusters, by simp, h.built, hparents.congr h.shape.symm⟩
  named q hq pref hpref gi hours := by
    have hgrown : ∀ patch ∈ s.status, patch ∈ s'.status := by
      rcases hstep.status with ⟨hsame, -⟩ | ⟨uid', parents', hadded, -⟩
      · rw [hsame]
        exact fun _ h => h
      · rw [hadded]
        exact fun _ h => List.mem_append_left _ h
    rcases List.mem_append.mp hq with hq | hq
    · obtain ⟨uid, parents, hmem⟩ := h.named q hq pref hpref gi hours
      exact ⟨uid, parents, hgrown _ hmem⟩
    · obtain rfl := List.mem_singleton.mp hq
      rcases hstep.status with ⟨-, hnone⟩ | ⟨uid', parents', hadded, -⟩
      · rw [ourGateway_congr h.shape.symm, hnone pref hpref] at hours
        cases hours
      · exact ⟨uid', parents', hadded ▸ List.mem_append_right _ List.mem_cons_self⟩

/-- What a listener carries after the run. -/
theorem Ran.carries (h : Ran env snap siblings gs done s) {gw : GatewayBuild}
    (hgw : s.gateways[pos.1]? = some gw) (hl : gw.listeners[pos.2]? = some l) :
    ∃ atts, Carries env snap siblings gs done s.clusters pos l atts := by
  obtain ⟨gw₀, hgw₀, hshape⟩ := h.shape.symm.gateway hgw
  obtain ⟨l₀, hl₀, -⟩ := listener_of_shape hshape hl
  obtain ⟨l', atts, hl', hcarries⟩ := h.each pos l₀ (listenerAt_eq_some.mpr ⟨gw₀, hgw₀, hl₀⟩)
  obtain rfl : l' = l := Option.some.inj (hl'.symm.trans (listenerAt_eq_some.mpr ⟨gw, hgw, hl⟩))
  exact ⟨atts, hcarries⟩

/-- What attaching routes one after the other does. -/
theorem ran_routes (env : Env) (snap : Snapshot) (settings : Settings) (siblings : List Sibling)
    (hfresh : Fresh gs) (routes : List (ObjectRef × HttpRoute)) :
    Ran env snap siblings gs routes (routes.foldl (attachRoute env snap settings siblings)
      { gateways := gs, clusters := ∅, status := [] }) :=
  Lib.Stateful.foldl_prefix (.start hfresh)
    (fun _ p s h => h.step (attachRoute_step env snap settings siblings s p.1 p.2)) routes

/-- What attaching every route of the snapshot does. -/
theorem attach_ran (env : Env) (snap : Snapshot) (settings : Settings) (hfresh : Fresh gs) :
    Ran env snap (Translate.siblings gs settings) gs snap.httpRoutes.toList
      (attach env snap settings gs) :=
  ran_routes env snap settings _ hfresh _

end Run

end Gapura.Core.Translate
