import Gapura.Proxy.Admission

/-! # Who a request is taken for

The anonymous consumer is for requests that present no credential, and an
address the rule refuses is turned away before any credential is looked at. -/
namespace Gapura.Proxy.Caller
open Gapura.Core Lib.Headers Lib.Text Proxy.Plugin Proxy.Access Proxy.Chain Admission

/-! ## The consumer a run leaves behind -/

/-- The checks after the credentials leave their consumer in place. -/
theorem consumer_after (env : Env) (p : Policies) (s : State) :
    (runAll env s (p.acl.toList.map .acl ++ p.size.toList.map .sizeLimit)).2.consumer =
      s.consumer := by
  have hacl := gate_acl env s p.acl
  by_cases ha : ∀ q ∈ p.acl, q.refusal (groupsOf env.rt.config s.consumer) = none
  · rw [hacl.go ha, (gate_size env _ p.size).consumer, hacl.consumer]
  · rw [hacl.stop ha, hacl.consumer]

variable {auth : AuthPolicy} {c : Consumer} {env : Env} {p : Policies} {s : State}
  {chain : Plugin.Chain}

/-- An auth policy's step names its consumer, or leaves none. -/
theorem consumer_credentials (hauth : p.auth = some auth) (hs : s.consumer = none) :
    (runAll env s p.credentialSteps).2.consumer = some c ↔ identified env p = some (some c) := by
  have hkeeps : Keeps s (runAll env s p.credentialSteps) := by
    simp only [Policies.credentialSteps, hauth, Policies.anyOfSteps]
    split
    · rw [runAll_singleton]
      exact anyOf_keeps env _ s
    · exact keeps_self _ s
  rw [← outcome_credentialSteps env p hs, outcome_eq_some]
  constructor
  · intro hc
    refine ⟨?_, hc⟩
    by_contra hstop
    rw [hkeeps.consumer hstop, hs] at hc
    cases hc
  · exact fun h => h.2

/-- The request gets as far as the credential policies. -/
structure Heard (env : Env) (p : Policies) : Prop where
  cors : ∀ q ∈ p.cors, answersPreflight q env.req = false
  ip : ∀ q ∈ p.ip, q.refusal (clientOf env) = none

theorem consumer_steps (hauth : p.auth = some auth) (hs : s.consumer = none) :
    (runAll env s p.steps).2.consumer = some c ↔
      Heard env p ∧ identified env p = some (some c) := by
  unfold Policies.steps
  have hcors := gate_cors env s p.cors
  have hip := gate_ip env (runAll env s (p.cors.toList.map .cors)).2 p.ip
  by_cases h1 : ∀ q ∈ p.cors, answersPreflight q env.req = false
  swap
  · rw [hcors.stop h1, hcors.consumer, hs]
    exact ⟨nofun, fun h => absurd h.1.cors h1⟩
  rw [hcors.go h1]
  by_cases h2 : ∀ q ∈ p.ip, q.refusal (clientOf env) = none
  swap
  · rw [hip.stop h2, hip.consumer, hcors.consumer, hs]
    exact ⟨nofun, fun h => absurd h.1.ip h2⟩
  rw [hip.go h2, ← consumer_credentials hauth
    (by rw [hip.consumer, hcors.consumer, hs]), runAll_append]
  split
  · rw [consumer_after]
    exact ⟨fun h => ⟨⟨h1, h2⟩, h⟩, fun h => h.2⟩
  · exact ⟨fun h => ⟨⟨h1, h2⟩, h⟩, fun h => h.2⟩

theorem consumer_access (h : compile env.rule = .ok chain)
    (hone : AtMostOne env.rule.plugins) (s : State) :
    (access env chain s).2.consumer =
      (runAll env s (policiesOf env.rule.plugins).steps).2.consumer := by
  rw [access_eq h hone]
  split
  · exact limit_consumer env _
  · rfl

/-! ## The anonymous consumer -/

theorem checkJwt_named {q : JwtPolicy}
    (h : accepted (checkJwt env q).1 = some (some c)) : c.anonymous = false := by
  simp only [checkJwt] at h
  split at h
  · cases h
  · split at h
    · cases h
    · split at h
      next claimed hclaimed =>
        cases h
        obtain ⟨hmap, _⟩ := Option.filter_eq_some_iff.mp hclaimed
        obtain ⟨name, _, rfl⟩ := Option.map_eq_some_iff.mp hmap
        rfl
      next => cases h

theorem checkKey_named {q : KeyAuthPolicy}
    (h : accepted (checkKey env q) = some (some c)) : c.anonymous = false := by
  simp only [checkKey] at h
  split at h
  · split at h
    · cases h
      rfl
    · cases h
  · split at h
    · split at h
      · cases h
        rfl
      · cases h
    · cases h

theorem anonymousIn_anonymous {config : Config}
    (h : anonymousIn config (anonymousOf (some auth)) = some c) : c.anonymous = true := by
  obtain ⟨hc, _⟩ := Option.filter_eq_some_iff.mp h
  obtain ⟨name, _, rfl⟩ := Option.map_eq_some_iff.mp hc
  rfl

/-- The key's verdict, and with it the anonymous consumer, are for a request
that carries no key. -/
theorem keyOrAnonymous_anonymous {keyAuth : Option KeyAuthPolicy} :
    (∃ c, keyOrAnonymous env keyAuth (anonymousOf (some auth)) = some (some c) ∧
        c.anonymous = true) ↔
      (∀ q ∈ keyAuth, keyPresented q.header env.req = false) ∧
      (anonymousIn env.rt.config (anonymousOf (some auth))).isSome = true := by
  unfold keyOrAnonymous
  cases hk : keyAuth.filter fun q => keyPresented q.header env.req with
  | some q =>
    obtain ⟨hq, hp⟩ := Option.filter_eq_some_iff.mp hk
    constructor
    · intro ⟨c, hc, hanonymous⟩
      rw [checkKey_named hc] at hanonymous
      cases hanonymous
    · intro ⟨habsent, _⟩
      exact absurd (hp.symm.trans (habsent q hq)) (by simp)
  | none =>
    have habsent : ∀ q ∈ keyAuth, keyPresented q.header env.req = false := by
      simpa [Option.filter_eq_none_iff] using hk
    constructor
    · intro ⟨c, hc, _⟩
      obtain ⟨a, ha, _⟩ := Option.map_eq_some_iff.mp hc
      exact ⟨habsent, by rw [ha]; rfl⟩
    · intro ⟨_, hsome⟩
      obtain ⟨c, hc⟩ := Option.isSome_iff_exists.mp hsome
      exact ⟨c, by rw [hc]; rfl, anonymousIn_anonymous hc⟩

/-- The anonymous consumer is named only where no policy finds its credential. -/
theorem identified_anonymous (hauth : p.auth = some auth) :
    (∃ c, identified env p = some (some c) ∧ c.anonymous = true) ↔
      (p.jwt.isSome || p.keyAuth.isSome) = true ∧
      (∀ q ∈ p.jwt, jwtPresented env.req = false) ∧
      (∀ q ∈ p.keyAuth, keyPresented q.header env.req = false) ∧
      (anonymousIn env.rt.config (anonymousOf (some auth))).isSome = true := by
  simp only [identified, hauth]
  split
  swap
  next h => simp [h]
  next h =>
    rw [and_iff_right h, ← keyOrAnonymous_anonymous]
    unfold firstCredential
    cases hj : p.jwt.filter fun _ => jwtPresented env.req with
    | some q =>
      obtain ⟨hq, hp⟩ := Option.filter_eq_some_iff.mp hj
      constructor
      · intro ⟨c, hc, hanonymous⟩
        rw [checkJwt_named hc] at hanonymous
        cases hanonymous
      · intro ⟨habsent, _⟩
        exact absurd (hp.symm.trans (habsent q hq)) (by simp)
    | none =>
      have habsent : ∀ q ∈ p.jwt, jwtPresented env.req = false := by
        simpa [Option.filter_eq_none_iff] using hj
      exact (and_iff_right habsent).symm

/-- The run leaves the anonymous consumer as the request's. -/
def LeavesAnonymous (r : Flow × State) : Prop := ∃ c, r.2.consumer = some c ∧ c.anonymous = true

theorem leavesAnonymous_iff (h : compile env.rule = .ok chain) (hone : AtMostOne env.rule.plugins)
    (hauth : (policiesOf env.rule.plugins).auth = some auth)
    (hs : s.consumer = none) : LeavesAnonymous (access env chain s) ↔
      Heard env (policiesOf env.rule.plugins) ∧
      ∃ c, identified env (policiesOf env.rule.plugins) = some (some c) ∧ c.anonymous = true := by
  unfold LeavesAnonymous
  rw [consumer_access h hone]
  simp only [consumer_steps hauth hs, and_assoc, exists_and_left]

/-- A line of a key header with nothing on it. -/
def blank (line : Value) : Bool := (toStr line).any fun key => (trim key).isEmpty

/-- No line of the request is a credential of one of the policies' kinds. -/
structure NothingPresented (p : Policies) (req : RequestHeader) : Prop where
  jwt : ∀ q ∈ p.jwt, ∀ line ∈ req.headers.getAll "authorization", Jwt.bearer (toStr line) = none
  keyAuth : ∀ q ∈ p.keyAuth, ∀ line ∈ req.headers.getAll q.header, blank line = true

/-- Nothing but the key header stands between the request and the anonymous
consumer: it is heard, carries no token where one is read, and the consumer is
there. -/
structure Unnamed (env : Env) (p : Policies) (auth : AuthPolicy) : Prop where
  heard : Heard env p
  jwt : ∀ q ∈ p.jwt, jwtPresented env.req = false
  anonymous : (anonymousIn env.rt.config (anonymousOf (some auth))).isSome = true

theorem bearer_of_not_presented {req : RequestHeader} (h : jwtPresented req = false) :
    ∀ line ∈ req.headers.getAll "authorization", Jwt.bearer (toStr line) = none := by
  unfold jwtPresented at h
  intro line hline
  cases hlines : req.headers.getAll "authorization" with
  | nil => simp [hlines] at hline
  | cons first rest =>
    simp only [hlines, List.length_cons, List.head?_cons, Option.bind_some, Bool.or_eq_false_iff,
      decide_eq_false_iff_not, Option.isSome_eq_false_iff, Option.isNone_iff_eq_none] at h
    have hrest : rest = [] := List.length_eq_zero_iff.mp (by omega)
    rw [hlines, hrest, List.mem_singleton] at hline
    rw [hline]
    exact h.2

/-- A request left as the anonymous consumer presented nothing, except where a
blank first line of the key header hides a key on a later one. -/
theorem anonymous_presents_nothing_iff (env : Env) (chain : Plugin.Chain) (s : State)
    (h : compile env.rule = .ok chain) (hone : AtMostOne env.rule.plugins) (auth : AuthPolicy)
    (hauth : (policiesOf env.rule.plugins).auth = some auth) (hs : s.consumer = none) :
    (LeavesAnonymous (access env chain s) →
        NothingPresented (policiesOf env.rule.plugins) env.req) ↔
      (Unnamed env (policiesOf env.rule.plugins) auth →
        ∀ q ∈ (policiesOf env.rule.plugins).keyAuth, keyPresented q.header env.req = false →
          ∀ line ∈ env.req.headers.getAll q.header, blank line = true) := by
  rw [leavesAnonymous_iff h hone hauth hs, identified_anonymous hauth]
  constructor
  · intro hnothing hunnamed q hq habsent
    have hkeys : ∀ q' ∈ (policiesOf env.rule.plugins).keyAuth,
        keyPresented q'.header env.req = false := by
      intro q' hq'
      cases Option.mem_unique hq hq'
      exact habsent
    exact (hnothing ⟨hunnamed.heard, by simp [Option.mem_def.mp hq], hunnamed.jwt, hkeys,
      hunnamed.anonymous⟩).keyAuth q hq
  · intro hblank ⟨hheard, _, hjwt, hkey, hanonymous⟩
    constructor
    · intro q hq
      exact bearer_of_not_presented (hjwt q hq)
    · intro q hq
      exact hblank ⟨hheard, hjwt, hanonymous⟩ q hq (hkey q hq)

/-- A key or the guest consumer. -/
def guestPlugins : List Plugin := [.auth ⟨some "guest", some "shop"⟩, .keyAuth keyPolicy]

def guestEnv (keys : List String) : Env := shopEnv guestPlugins (keys.map ("X-Api-Key", ·))

def guestChain : Plugin.Chain where
  access := [.anyOf ⟨none, some keyPolicy, some ⟨"guest", "shop/guest", true⟩⟩, .rateLimit]
  upstreamRequest := [.removeHeader "x-api-key"]

/-- A key nobody holds is refused on the only line of its header, and admitted
as the guest when a blank line stands before it. -/
theorem unknown_key_admitted_as_guest :
    compile (shopRule guestPlugins) = .ok guestChain ∧
    (access (guestEnv ["stolen"]) guestChain unseen).1 =
      refuse .authKeyInvalid [("WWW-Authenticate", "Key realm=\"x-api-key\"")] ∧
    (access (guestEnv ["", "stolen"]) guestChain unseen).1 = .continue ∧
    LeavesAnonymous (access (guestEnv ["", "stolen"]) guestChain unseen) ∧
    ¬ NothingPresented (policiesOf guestPlugins) (guestEnv ["", "stolen"]).req := by
  refine ⟨by decide +kernel, by decide +kernel, by decide +kernel,
    ⟨⟨"guest", "shop/guest", true⟩, by decide +kernel, rfl⟩, fun h => ?_⟩
  exact absurd (h.keyAuth keyPolicy rfl (bytes "stolen") (by decide +kernel)) (by decide +kernel)

theorem anonymous_presents_nothing_shop :
    LeavesAnonymous (access (guestEnv [" "]) guestChain unseen) ∧
    NothingPresented (policiesOf guestPlugins) (guestEnv [" "]).req := by
  have hleaves : LeavesAnonymous (access (guestEnv [" "]) guestChain unseen) :=
    ⟨⟨"guest", "shop/guest", true⟩, by decide +kernel, rfl⟩
  refine ⟨hleaves, (anonymous_presents_nothing_iff (guestEnv [" "]) guestChain unseen
    (by decide +kernel) (by decide) ⟨some "guest", some "shop"⟩ rfl rfl).mpr ?_ hleaves⟩
  intro _ q hq _ line hline
  cases Option.mem_def.mp hq
  have hlines : (guestEnv [" "]).req.headers.getAll keyPolicy.header = [bytes " "] := by
    decide +kernel
  rw [hlines, List.mem_singleton] at hline
  rw [hline]
  decide +kernel

/-! ## A refused address -/

/-- The cors step records its verdict and nothing else. -/
theorem cors_state (env : Env) (s : State) (o : Option CorsPolicy) :
    ∃ verdict, (runAll env s (o.toList.map .cors)).2 = { s with cors := verdict } := by
  cases o with
  | none => exact ⟨s.cors, rfl⟩
  | some q =>
    have hrun : runAll env s ((some q).toList.map .cors) = cors q env.req s :=
      runAll_singleton env s (.cors q)
    rw [hrun]
    simp only [cors]
    split
    · exact ⟨_, rfl⟩
    · split <;> exact ⟨_, rfl⟩

/-- Nothing counted, no key fetched and nobody identified. -/
structure Untold (s : State) (r : Flow × State) : Prop where
  limiter : r.2.limiter = s.limiter
  jwksKidMiss : r.2.jwksKidMiss = s.jwksKidMiss
  consumer : r.2.consumer = none

theorem access_of_refused (h : compile env.rule = .ok chain) (hone : AtMostOne env.rule.plugins)
    {q : IpRestrictionPolicy} (hq : (policiesOf env.rule.plugins).ip = some q)
    (hcors : ∀ c ∈ (policiesOf env.rule.plugins).cors, answersPreflight c env.req = false)
    (hrefused : q.refusal (clientOf env) ≠ none) (s : State) :
    ∃ verdict, access env chain s = (.fail ⟨.ipForbidden, []⟩, { s with cors := verdict }) := by
  obtain ⟨verdict, hverdict⟩ := cors_state env s (policiesOf env.rule.plugins).cors
  refine ⟨verdict, ?_⟩
  have hip := gate_ip env { s with cors := verdict } (policiesOf env.rule.plugins).ip
  have hno : ¬ ∀ q ∈ (policiesOf env.rule.plugins).ip, q.refusal (clientOf env) = none :=
    fun hall => hrefused (hall q hq)
  have hstop : run env { s with cors := verdict } (.ipRestriction q) =
      (.fail ⟨.ipForbidden, []⟩, { s with cors := verdict }) := by
    obtain ⟨why, hwhy⟩ := Option.ne_none_iff_exists'.mp hrefused
    simp only [run, hwhy, refuse]
  have hsteps : runAll env s (policiesOf env.rule.plugins).steps =
      (.fail ⟨.ipForbidden, []⟩, { s with cors := verdict }) := by
    unfold Policies.steps
    rw [(gate_cors env s _).go hcors, hverdict, hip.stop hno, hq]
    exact (runAll_singleton env _ _).trans hstop
  rw [access_eq h hone, hsteps]
  rfl

/-- An address the rule refuses is answered the same by any two generations of
the configuration, whatever credentials, consumers, limits and keys they hold. -/
theorem refused_address_learns_nothing (env : Env) (chain : Plugin.Chain) (s : State)
    (h : compile env.rule = .ok chain) (hone : AtMostOne env.rule.plugins)
    (q : IpRestrictionPolicy) (hq : (policiesOf env.rule.plugins).ip = some q)
    (hcors : ∀ c ∈ (policiesOf env.rule.plugins).cors, answersPreflight c env.req = false)
    (hrefused : q.refusal (clientOf env) ≠ none) (hs : s.consumer = none) (rt rt' : Runtime) :
    let r := access { env with rt } chain s
    let r' := access { env with rt := rt' } chain s
    r.1 = r'.1 ∧ r.1 = .fail ⟨.ipForbidden, []⟩ ∧ Untold s r ∧ Untold s r' := by
  -- The client's address is read from the request and the gateway's settings alone.
  have hrun : ∀ rt, ∃ verdict, access { env with rt } chain s =
      (.fail ⟨.ipForbidden, []⟩, { s with cors := verdict }) :=
    fun rt => access_of_refused (show compile ({ env with rt } : Env).rule = .ok chain from h)
      hone hq hcors hrefused s
  obtain ⟨verdict, hr⟩ := hrun rt
  obtain ⟨verdict', hr'⟩ := hrun rt'
  simp only [hr, hr']
  exact ⟨trivial, trivial, ⟨rfl, rfl, hs⟩, ⟨rfl, rfl, hs⟩⟩

/-- Anyone but 203.0.113.0/24. -/
def outsiders : IpRestrictionPolicy := ⟨[], [⟨.v4 0xCB007100, 24⟩]⟩

/-- A caller at 203.0.113.7 with a key that is known. -/
def insider : Env :=
  { shopEnv [.keyAuth keyPolicy, .ipRestriction outsiders] [("X-Api-Key", "k")] with
    peer := some (.v4 0xCB007107) }

theorem refused_address_learns_nothing_shop :
    let chain : Plugin.Chain :=
      { access := [.ipRestriction outsiders, .keyAuth keyPolicy, .rateLimit]
        upstreamRequest := [.removeHeader "x-api-key"] }
    (access insider chain unseen).1 =
      (access { insider with rt := { config := { shopConfig with credentials := ∅ } } } chain
        unseen).1 :=
  (refused_address_learns_nothing insider _ unseen (by decide +kernel) (by decide) outsiders rfl
    (fun c (hc : none = some c) => by cases hc) (by decide) rfl { config := shopConfig }
    { config := { shopConfig with credentials := ∅ } }).1

end Gapura.Proxy.Caller
