import Gapura.Proxy.KeyHidden

/-! # The gateway's word about the caller

The three headers an upstream is told the caller in, followed from where the
gateway sets them to the head that is sent. Of the steps after that only the
removal of a key's header can touch one. -/
namespace Gapura.Proxy.CallerHeaders
open Gapura.Core Core.ClientIp Core.Credentials Core.Store Lib.Checks Lib.Headers Lib.Text
  Proxy.Plugin Proxy.Access Proxy.Request Upstream Served

/-- The caller as the upstream should read it. -/
structure Exact (config : Config) (consumer : Option Consumer) (head : RequestHeader) : Prop where
  name : head.headers.getAll consumerHeader = (consumer.map fun c => bytes c.name).toList
  groups : head.headers.getAll groupsHeader =
    ((consumer.bind (groupsIn config)).map fun groups => bytes (joined groups)).toList
  anonymous : head.headers.getAll anonymousHeader =
    if consumer.any Consumer.anonymous then [bytes "true"] else []

/-! ## Setting the headers -/

variable {head req : RequestHeader} {g header : String} {c : Consumer} {config : Config}
  {consumer : Option Consumer} (px : GapuraProxy) {ctx : Ctx} {peer : Option IpAddr}
  {t : RequestTransformerPolicy} {plugins : List Plugin} {chain : Plugin.Chain}

theorem insertHeader_ok {name value : String}
    (h : insertHeader req name value = .ok head) (other : String) :
    head.headers.getAll other =
      if eqIgnoreAsciiCase name other then [bytes value] else req.headers.getAll other := by
  unfold insertHeader at h
  split at h
  next v hv =>
    split at h
    · cases h
      have hbytes : v = bytes value := by
        unfold ofStr at hv
        split at hv
        · exact (Option.some.inj hv).symm
        · cases hv
      rw [hbytes]
      exact HeaderMap.getAll_insert _ _ _ _
    · cases h
  next => cases h

theorem insertHeader_keeps {name value : String} (h : insertHeader req name value = .ok head)
    {other : String} (hne : eqIgnoreAsciiCase name other = false) :
    head.headers.getAll other = req.headers.getAll other := by
  rw [insertHeader_ok h, hne]
  rfl

theorem getAll_foldl_remove (names : List String) (req : RequestHeader) (other : String) :
    (names.foldl removeHeader req).headers.getAll other =
      if names.any fun name => eqIgnoreAsciiCase name other then []
      else req.headers.getAll other := by
  induction names generalizing req with
  | nil => rfl
  | cons name rest ih =>
    rw [List.foldl_cons, ih, List.any_cons]
    show (if _ then [] else (req.headers.remove name).getAll other) = _
    rw [HeaderMap.getAll_remove]
    cases eqIgnoreAsciiCase name other <;> simp

theorem gatewayHeaders_ne :
    eqIgnoreAsciiCase consumerHeader groupsHeader = false ∧
    eqIgnoreAsciiCase consumerHeader anonymousHeader = false ∧
    eqIgnoreAsciiCase groupsHeader consumerHeader = false ∧
    eqIgnoreAsciiCase groupsHeader anonymousHeader = false ∧
    eqIgnoreAsciiCase anonymousHeader consumerHeader = false ∧
    eqIgnoreAsciiCase anonymousHeader groupsHeader = false := by decide +kernel

theorem eqIgnoreAsciiCase_self (s : String) : eqIgnoreAsciiCase s s = true :=
  eqIgnoreAsciiCase_iff.mpr rfl

/-- A client's own copies are gone. -/
theorem getAll_removed (hg : g ∈ gatewayHeaders) (req : RequestHeader) :
    (gatewayHeaders.foldl removeHeader req).headers.getAll g = [] := by
  rw [getAll_foldl_remove, if_pos]
  exact List.any_eq_true.mpr ⟨g, hg, eqIgnoreAsciiCase_self g⟩

theorem nameGroups_ok (h : nameGroups config c req = .ok head) (other : String) :
    head.headers.getAll other = if eqIgnoreAsciiCase groupsHeader other then
      (match groupsIn config c with
        | some groups => [bytes (joined groups)]
        | none => req.headers.getAll other)
      else req.headers.getAll other := by
  unfold nameGroups at h
  cases hgroups : groupsIn config c with
  | some groups =>
    rw [hgroups] at h
    rw [insertHeader_ok h]
  | none =>
    rw [hgroups] at h
    cases h
    rw [ite_self]

theorem nameAnonymous_ok (h : nameAnonymous c req = .ok head) (other : String) :
    head.headers.getAll other = if eqIgnoreAsciiCase anonymousHeader other && c.anonymous then
      [bytes "true"] else req.headers.getAll other := by
  unfold nameAnonymous at h
  split at h
  next hanonymous =>
    rw [insertHeader_ok h, hanonymous, Bool.and_true]
  next hanonymous =>
    cases h
    simp [hanonymous]

theorem exact_of_consumerHeaders (h : consumerHeaders config consumer req = .ok head) :
    Exact config consumer head := by
  have hconsumer := getAll_removed (by simp [gatewayHeaders] : consumerHeader ∈ _) req
  have hgroups := getAll_removed (by simp [gatewayHeaders] : groupsHeader ∈ _) req
  have hanonymous := getAll_removed (by simp [gatewayHeaders] : anonymousHeader ∈ _) req
  obtain ⟨hcg, hca, hgc, hga, hac, hag⟩ := gatewayHeaders_ne
  unfold consumerHeaders at h
  cases consumer with
  | none =>
    cases h
    exact ⟨hconsumer, hgroups, hanonymous⟩
  | some c =>
    obtain ⟨named, hnamed, h⟩ := bind_eq_ok.mp h
    obtain ⟨grouped, hgrouped, h⟩ := bind_eq_ok.mp h
    constructor
    · rw [nameAnonymous_ok h, nameGroups_ok hgrouped, insertHeader_ok hnamed]
      simp [hac, hgc, eqIgnoreAsciiCase_self]
    · rw [nameAnonymous_ok h, nameGroups_ok hgrouped, insertHeader_ok hnamed, hgroups]
      simp only [hag, hcg, eqIgnoreAsciiCase_self, Option.bind_some]
      cases groupsIn config c <;> simp
    · rw [nameAnonymous_ok h, nameGroups_ok hgrouped, insertHeader_ok hnamed, hanonymous]
      simp [hga, hca, eqIgnoreAsciiCase_self]

/-! ## The steps after -/

theorem headers_setUri (req : RequestHeader) (target : String) :
    (setUri px req target).headers = req.headers := by
  unfold setUri
  split <;> rfl

theorem headers_normalised (ex : Extracted) (req : RequestHeader) :
    (normalised px ex req).headers = req.headers := by
  unfold normalised
  split
  · exact headers_setUri px req _
  · rfl

theorem rewriteTarget_ok {px : GapuraProxy} {rewrite : Rewrite}
    (h : rewriteTarget px ctx rewrite req = .ok head) :
    head.headers = req.headers := by
  unfold rewriteTarget at h
  split at h
  · cases h
    rfl
  · split at h
    · cases h
    · cases h
      exact headers_setUri px req _

theorem rewritten_keeps {px : GapuraProxy} (h : rewritten px ctx req = .ok head)
    (hg : eqIgnoreAsciiCase "Host" g = false) : head.headers.getAll g = req.headers.getAll g := by
  unfold rewritten at h
  split at h
  · cases h
    rfl
  · obtain ⟨aimed, haimed, h⟩ := bind_eq_ok.mp h
    unfold rewriteHost at h
    split at h
    · cases h
      rw [rewriteTarget_ok haimed]
    · rw [insertHeader_keeps h hg, rewriteTarget_ok haimed]

theorem accounted_keeps {px : GapuraProxy} (h : accounted px ctx peer req = .ok head)
    (hg : ∀ name ∈ ["X-Forwarded-Host", "X-Forwarded-Proto", "X-Forwarded-For", "X-Request-Id",
      "traceparent"], eqIgnoreAsciiCase name g = false) :
    head.headers.getAll g = req.headers.getAll g := by
  simp only [List.forall_mem_cons, List.not_mem_nil, IsEmpty.forall_iff, implies_true,
    and_true] at hg
  obtain ⟨hhost, hproto, hfor, hid, htrace⟩ := hg
  unfold accounted at h
  obtain ⟨req1, h1, h⟩ := bind_eq_ok.mp h
  obtain ⟨req2, h2, h⟩ := bind_eq_ok.mp h
  obtain ⟨req3, h3, h⟩ := bind_eq_ok.mp h
  obtain ⟨req4, h4, h⟩ := bind_eq_ok.mp h
  have hhosted : req1.headers.getAll g = req.headers.getAll g := by
    unfold forwardHost at h1
    split at h1
    · cases h1
      rfl
    · exact insertHeader_keeps h1 hhost
  have hpeer : req3.headers.getAll g = req2.headers.getAll g := by
    unfold forwardPeer at h3
    split at h3
    · exact insertHeader_keeps h3 hfor
    · cases h3
      rfl
  rw [insertHeader_keeps h htrace, insertHeader_keeps h4 hid, hpeer,
    insertHeader_keeps h2 hproto, hhosted]

/-- An edit the control plane accepts leaves the gateway's word alone. -/
theorem getAll_upstreamStep_transform
    (h : ∀ name ∈ Transform.editNames t.headers, eqIgnoreAsciiCase name g = false)
    (req : RequestHeader) :
    (upstreamStep px req (.transform t)).headers.getAll g = req.headers.getAll g := by
  unfold upstreamStep
  dsimp only
  split <;> exact Transform.getAll_editHeaders h req.headers

theorem editNames_spared {config : Control.Policies.Json}
    (h : Control.Policies.requestTransformer config = .ok t)
    (hw : Control.Policies.newlyReserved (.requestTransformer t) = .ok ())
    (hg : g ∈ gatewayHeaders) :
    ∀ name ∈ Transform.editNames t.headers, eqIgnoreAsciiCase name g = false := by
  have hspared := Control.Policies.transformer_spares_gatewayHeaders h hw
  simp only [Control.Policies.namedIn, List.forall_mem_cons, List.not_mem_nil,
    IsEmpty.forall_iff, implies_true, and_true] at hspared
  obtain ⟨hremove, hrename, hreplace, hadd, happend⟩ := hspared
  intro name hname
  simp only [Transform.editNames, List.map_append, List.mem_append] at hname
  rcases hname with (hname | hname) | (hname | hname) | hname
  · exact hremove name hname g hg
  · exact hrename name hname g hg
  · exact hreplace name hname g hg
  · exact hadd name hname g hg
  · exact happend name hname g hg

/-- A key_auth policy among the plugins reads its key from `header`. -/
def readsKeyFrom (plugins : List Plugin) (header : String) : Bool :=
  (plugins.filterMap Chain.keyAuth?).any fun p => p.header == header

theorem getAll_foldl_transform {ts : List RequestTransformerPolicy}
    (h : ∀ t ∈ ts, ∀ name ∈ Transform.editNames t.headers, eqIgnoreAsciiCase name g = false)
    (req : RequestHeader) :
    (ts.foldl (fun req t => upstreamStep px req (.transform t)) req).headers.getAll g =
      req.headers.getAll g := by
  induction ts generalizing req with
  | nil => rfl
  | cons t rest ih =>
    rw [List.foldl_cons, ih fun t ht => h t (List.mem_cons_of_mem _ ht)]
    exact getAll_upstreamStep_transform px (h t List.mem_cons_self) req

theorem mem_filterMap_keyAuth {p : KeyAuthPolicy} :
    p ∈ plugins.filterMap Chain.keyAuth? ↔ .keyAuth p ∈ plugins := by
  rw [List.mem_filterMap]
  constructor
  · intro ⟨plugin, hmem, hp⟩
    cases plugin <;> cases hp
    exact hmem
  · intro hmem
    exact ⟨_, hmem, rfl⟩

theorem readsKeyFrom_iff :
    readsKeyFrom plugins header = true ↔ ∃ p, .keyAuth p ∈ plugins ∧ p.header = header := by
  unfold readsKeyFrom
  rw [List.any_eq_true]
  simp only [mem_filterMap_keyAuth, beq_iff_eq]

/-- Accepted names are lower case, so comparing them as headers compares the names. -/
theorem any_eqIgnoreAsciiCase (h : Accepted plugins) (hg : toAsciiLowercase g = g) :
    (((plugins.filterMap Chain.keyAuth?).map KeyAuthPolicy.header).any fun name =>
      eqIgnoreAsciiCase name g) = readsKeyFrom plugins g := by
  rw [Bool.eq_iff_iff, readsKeyFrom_iff, List.any_map, List.any_eq_true]
  simp only [mem_filterMap_keyAuth, Function.comp_apply]
  refine exists_congr fun p => and_congr_right fun hp => ?_
  constructor
  · intro hsame
    obtain ⟨value, hvalue⟩ := h.keyAuth p hp
    by_contra hne
    rw [Control.Consumers.header_ne_of_ne hvalue hg hne] at hsame
    cases hsame
  · intro hsame
    rw [hsame]
    exact eqIgnoreAsciiCase_self g

theorem getAll_upstreamSteps {rule : RouteRule} (hcompile : compile rule = .ok chain)
    (haccepted : Accepted rule.plugins) (hg : g ∈ gatewayHeaders) (req : RequestHeader) :
    (upstreamSteps px rule req).headers.getAll g =
      if readsKeyFrom rule.plugins g then [] else req.headers.getAll g := by
  have hlower : ∀ g ∈ gatewayHeaders, toAsciiLowercase g = g := by decide +kernel
  rw [upstreamSteps_eq px hcompile, getAll_foldl_transform, getAll_foldl_remove,
    any_eqIgnoreAsciiCase haccepted (hlower g hg)]
  intro t ht
  obtain ⟨plugin, hmem, hplugin⟩ := List.mem_filterMap.mp ht
  cases plugin <;> cases hplugin
  obtain ⟨⟨config, hconfig⟩, hwritten⟩ := haccepted.transformer t hmem
  exact editNames_spared hconfig hwritten hg

/-! ## The head that is sent -/

/-- A gateway header of the head is the one set for the caller, unless a key is
read from it. -/
theorem getAll_head {px : GapuraProxy} {rt : Runtime}
    (h : upstreamRequestFilter px rt ctx consumer peer req = .ok head)
    (hcompile : compile ctx.rule = .ok chain) (haccepted : Accepted ctx.rule.plugins)
    (hops : ctx.rule.filters.requestHeaders = {}) :
    ∃ told, Exact rt.config consumer told ∧ ∀ g ∈ gatewayHeaders,
      head.headers.getAll g =
        if readsKeyFrom ctx.rule.plugins g then [] else told.headers.getAll g := by
  unfold upstreamRequestFilter at h
  obtain ⟨told, htold, h⟩ := bind_eq_ok.mp h
  obtain ⟨aimed, haimed, h⟩ := bind_eq_ok.mp h
  obtain ⟨edited, hedited, h⟩ := bind_eq_ok.mp h
  refine ⟨told, exact_of_consumerHeaders htold, ?_⟩
  intro g hg
  have hhost : ∀ g ∈ gatewayHeaders, eqIgnoreAsciiCase "Host" g = false := by decide +kernel
  have hlog : ∀ g ∈ gatewayHeaders, ∀ name ∈ ["X-Forwarded-Host", "X-Forwarded-Proto",
      "X-Forwarded-For", "X-Request-Id", "traceparent"], eqIgnoreAsciiCase name g = false := by
    decide +kernel
  have hkept : edited = aimed := by
    rw [hops] at hedited
    cases hedited
    rfl
  rw [accounted_keeps h (hlog g hg), getAll_upstreamSteps px hcompile haccepted hg, hkept,
    rewritten_keeps haimed (hhost g hg), headers_normalised]

theorem ite_nil_eq_iff {α : Type} {b : Bool} {l : List α} :
    (if b then [] else l) = l ↔ (b = true → l = []) := by
  cases b <;> simp [eq_comm]

/-- The upstream reads the caller exactly unless the rule takes its key from a
header the gateway had something to say in. `X-Consumer-Username` alone is
reserved. -/
theorem caller_told_exactly_iff {sha256 : String → List UInt8} {snap : StoreSnapshot}
    {settings : StoreSettings} {px : GapuraProxy} {rt : Runtime} {conn : Conn} {ids : Ids}
    {nowMs : Nat} {raw : RequestHeader} {s : State} {sent : Sent} {head : RequestHeader}
    (hstore : StoreServed sha256 snap settings rt conn)
    (hsent : forward px rt conn ids nowMs raw s = some sent) (hhead : sent.head = .ok head)
    (haccepted : Accepted sent.ctx.rule.plugins) :
    Exact rt.config sent.consumer head ↔ ∀ p, .keyAuth p ∈ sent.ctx.rule.plugins →
      (p.header = groupsHeader → sent.consumer.bind (groupsIn rt.config) = none) ∧
      (p.header = anonymousHeader → sent.consumer.any Consumer.anonymous = false) := by
  obtain ⟨hit, chain, hpassed⟩ := passed_of_forward hsent
  rw [hpassed.head] at hhead
  obtain ⟨told, hexact, hkept⟩ := getAll_head hhead (by rw [hpassed.rule]; exact hpassed.compiles)
    haccepted (rule_of_passed hstore hpassed)
  simp only [gatewayHeaders, List.forall_mem_cons, List.not_mem_nil, IsEmpty.forall_iff,
    implies_true, and_true] at hkept
  obtain ⟨hname, hgroups, hanonymous⟩ := hkept
  have hunread : readsKeyFrom sent.ctx.rule.plugins consumerHeader = false := by
    rw [Bool.eq_false_iff]
    intro hread
    obtain ⟨p, hp, hheader⟩ := readsKeyFrom_iff.mp hread
    obtain ⟨value, hvalue⟩ := haccepted.keyAuth p hp
    have hne : eqIgnoreAsciiCase p.header consumerHeader = false :=
      Control.Consumers.header_ne hvalue (by simp [Control.Consumers.reservedHeaders])
    rw [hheader, eqIgnoreAsciiCase_self] at hne
    cases hne
  rw [hexact.groups] at hgroups
  rw [hexact.anonymous] at hanonymous
  constructor
  · intro h p hp
    have hsaid := h.groups
    have hmarked := h.anonymous
    rw [hgroups, ite_nil_eq_iff, readsKeyFrom_iff] at hsaid
    rw [hanonymous, ite_nil_eq_iff, readsKeyFrom_iff] at hmarked
    constructor
    · intro hheader
      simpa using hsaid ⟨p, hp, hheader⟩
    · intro hheader
      simpa using hmarked ⟨p, hp, hheader⟩
  · intro h
    constructor
    · rw [hname, hunread]
      exact hexact.name
    · rw [hgroups, ite_nil_eq_iff, readsKeyFrom_iff]
      rintro ⟨p, hp, hheader⟩
      rw [(h p hp).1 hheader]
      rfl
    · rw [hanonymous, ite_nil_eq_iff, readsKeyFrom_iff]
      rintro ⟨p, hp, hheader⟩
      rw [(h p hp).2 hheader]
      rfl

/-! ## A shop whose consumer is in a group -/

def groupedSnapshot (header : String) : StoreSnapshot :=
  { KeyHidden.keyedSnapshot header ["key-a"] with consumers := [⟨"shop", "mobile", ["staff"]⟩] }

def groupedRuntime (header : String) : Runtime where
  config := { Store.compile StoreRouting.noDigest (groupedSnapshot header) {} with
    clusters := .ofList [("orders.internal:8080",
      ({ endpoints := [⟨"10.0.0.1", 8080⟩], tls := none, resolve := none } : Cluster))] }

def groupedSent (header : String) : Option Sent :=
  forward KeyHidden.plainProxy (groupedRuntime header) KeyHidden.keyedConn KeyHidden.keyedIds 0
    (KeyHidden.keyedRequest header "key-a") Admission.unseen

/-- What the upstream of the shop reads of the caller's groups. -/
def GroupsRead (header : String) (groups : List Value) : Prop :=
  (groupedSent header).map (KeyHidden.seen groupsHeader) =
    some ⟨0, KeyHidden.keyedRule header, some ⟨"mobile", "shop/mobile", false⟩, some groups⟩

instance (header : String) (groups : List Value) : Decidable (GroupsRead header groups) :=
  inferInstanceAs (Decidable (_ = _))

theorem groupsRead_sent {groups : List Value} (h : GroupsRead header groups) :
    ∃ sent head, groupedSent header = some sent ∧ sent.head = .ok head ∧
      sent.ctx.rule = KeyHidden.keyedRule header ∧
      sent.consumer = some ⟨"mobile", "shop/mobile", false⟩ ∧
      head.headers.getAll groupsHeader = groups := by
  obtain ⟨sent, hsent, hseen⟩ := Option.map_eq_some_iff.mp h
  have hvalues : sent.head.toOption.map (fun head => head.headers.getAll groupsHeader) =
    some groups := congrArg KeyHidden.Seen.values hseen
  cases hhead : sent.head with
  | error e =>
    rw [hhead] at hvalues
    cases hvalues
  | ok head =>
    rw [hhead] at hvalues
    exact ⟨sent, head, hsent, hhead, congrArg KeyHidden.Seen.rule hseen,
      congrArg KeyHidden.Seen.consumer hseen, Option.some.inj hvalues⟩

/-- A key read from `X-Consumer-Groups` takes the caller's groups with it. -/
theorem groups_lost_with_key :
    Control.Consumers.header (some "X-Consumer-Groups") = .ok groupsHeader ∧
    ∃ sent head, groupedSent groupsHeader = some sent ∧ sent.head = .ok head ∧
      Accepted sent.ctx.rule.plugins ∧
      sent.consumer.bind (groupsIn (groupedRuntime groupsHeader).config) = some ["staff"] ∧
      head.headers.getAll groupsHeader = [] ∧
      ¬ Exact (groupedRuntime groupsHeader).config sent.consumer head := by
  have hheader : Control.Consumers.header (some "X-Consumer-Groups") = .ok groupsHeader := by
    decide +kernel
  have hread : GroupsRead groupsHeader [] := by decide +kernel
  have hgroups : groupsIn (groupedRuntime groupsHeader).config ⟨"mobile", "shop/mobile", false⟩ =
    some ["staff"] := by decide +kernel
  obtain ⟨sent, head, hsent, hhead, hrule, hconsumer, hvalues⟩ := groupsRead_sent hread
  refine ⟨hheader, sent, head, hsent, hhead, hrule ▸ KeyHidden.accepted_keyedRule hheader, ?_,
    hvalues, ?_⟩
  · rw [hconsumer]
    exact hgroups
  · intro hexact
    have hsaid := hexact.groups
    rw [hvalues, hconsumer, Option.bind_some, hgroups] at hsaid
    cases hsaid

theorem caller_told_exactly_shop :
    ∃ sent head, groupedSent "x-api-key" = some sent ∧ sent.head = .ok head ∧
      head.headers.getAll groupsHeader = [bytes "staff"] ∧
      Exact (groupedRuntime "x-api-key").config sent.consumer head := by
  have hread : GroupsRead "x-api-key" [bytes "staff"] := by decide +kernel
  obtain ⟨sent, head, hsent, hhead, hrule, -, hvalues⟩ := groupsRead_sent hread
  have hstore : StoreServed StoreRouting.noDigest (groupedSnapshot "x-api-key") {}
      (groupedRuntime "x-api-key") KeyHidden.keyedConn := ⟨⟨_, rfl⟩, by decide⟩
  have hheader : Control.Consumers.header none = .ok "x-api-key" := by decide +kernel
  refine ⟨sent, head, hsent, hhead, hvalues, ?_⟩
  rw [caller_told_exactly_iff hstore hsent hhead (hrule ▸ KeyHidden.accepted_keyedRule hheader), hrule]
  intro p hp
  cases List.mem_singleton.mp hp
  exact ⟨fun h => absurd h (by decide), fun h => absurd h (by decide)⟩

end Gapura.Proxy.CallerHeaders
