import Gapura.Proxy.Chain
import Gapura.Proxy.Request

/-! # What the access phase lets through

The policies of a rule, read as conditions on a request, and the compiled steps
shown to continue exactly when the conditions hold. -/
namespace Gapura.Proxy.Admission
open Gapura.Core Core.ClientIp Lib.Headers Lib.Text Proxy.Plugin Proxy.Access Proxy.Chain
open Proxy.RateLimit (Table)

/-! ## The conditions -/

/-- The cors policy answers the request itself, allowed or not. -/
def answersPreflight (policy : CorsPolicy) (req : RequestHeader) : Bool :=
  isPreflight req && !policy.preflightContinue

/-- The request carries a jwt policy's credential: a bearer token, or more than
one Authorization line of any shape. -/
def jwtPresented (req : RequestHeader) : Bool :=
  let lines := req.headers.getAll "authorization"
  1 < lines.length || (Jwt.bearer (lines.head?.bind toStr)).isSome

/-- The first line of a key header holds something: bytes that are not text, or
a text that is not blank. -/
def keyPresented (header : String) (req : RequestHeader) : Bool :=
  (req.headers.get header).any fun line => (toStr line).all fun key => !(trim key).isEmpty

/-- The consumer an accepting verdict names, if it names one. -/
def accepted : Verdict → Option (Option Consumer)
  | .ok c => some c
  | .error _ => none

/-- The anonymous consumer, when the configuration holds it. -/
def anonymousIn (config : Config) (anonymous : Option Consumer) : Option Consumer :=
  anonymous.filter fun a => config.consumers.contains a.id

/-- Every credential policy of a rule without an auth policy accepts, the key's
consumer over the token's. -/
def everyCredential (env : Env) (p : Policies) : Option (Option Consumer) :=
  (p.jwt.elim (some none) fun q => accepted (checkJwt env q).1).bind fun byToken =>
    (p.keyAuth.elim (some none) fun q => accepted (checkKey env q)).map fun byKey =>
      byKey.or byToken

/-- The key decides if it is there; otherwise the anonymous consumer does. -/
def keyOrAnonymous (env : Env) (keyAuth : Option KeyAuthPolicy) (anonymous : Option Consumer) :
    Option (Option Consumer) :=
  match keyAuth.filter fun q => keyPresented q.header env.req with
  | some q => accepted (checkKey env q)
  | none => (anonymousIn env.rt.config anonymous).map some

/-- The first policy whose credential is there decides, the token before the
key; where neither is, the anonymous consumer does. -/
def firstCredential (env : Env) (p : Policies) (auth : AuthPolicy) : Option (Option Consumer) :=
  match p.jwt.filter fun _ => jwtPresented env.req with
  | some q => accepted (checkJwt env q).1
  | none => keyOrAnonymous env p.keyAuth (anonymousOf (some auth))

/-- The consumer the credential policies accept the request for, `none` when
they refuse it. -/
def identified (env : Env) (p : Policies) : Option (Option Consumer) :=
  match p.auth with
  | none => everyCredential env p
  | some auth => if p.jwt.isSome || p.keyAuth.isSome then firstCredential env p auth else some none

variable {req : RequestHeader} {policy : JwtPolicy} {s : State} {step : Access} (env : Env)
  {c : Option Consumer} {l : List Access} {admits : Prop} {chain : Plugin.Chain}
  {plugins : List Plugin} {rule : RouteRule}

theorem jwtVerdict_absent (crate : Jwt.JwtCrate) (policy : JwtPolicy)
    (keys : Jwt.Keys) (h : jwtPresented req = false) :
    jwtVerdict crate req policy keys = .error (.authJwtMissing, "missing", "Bearer") := by
  simp only [jwtPresented, Bool.or_eq_false_iff, decide_eq_false_iff_not,
    Option.isSome_eq_false_iff, Option.isNone_iff_eq_none] at h
  simp only [jwtVerdict, if_neg h.1, h.2]
  rfl

theorem jwtVerdict_present {crate : Jwt.JwtCrate}
    {keys : Jwt.Keys} (h : jwtPresented req = true) {key : ErrorKey} {reason challenge : String}
    (hv : jwtVerdict crate req policy keys = .error (key, reason, challenge)) :
    key ≠ .authJwtMissing ∧ key ≠ .authKeyMissing := by
  simp only [jwtPresented] at h
  simp only [jwtVerdict] at hv
  generalize Jwt.bearer ((req.headers.getAll "authorization").head?.bind toStr) = token at h hv
  split at hv
  · cases hv
    simp
  next hlines =>
    rw [decide_eq_false hlines, Bool.false_or] at h
    split at hv
    · cases hv
      simp
    · split at hv
      · cases hv
      next r hverify =>
        cases hv
        have hr : r ≠ .missing := by
          intro hr
          rw [hr, Jwt.verify_missing_iff] at hverify
          simp [hverify] at h
        cases r <;> simp_all [jwtKey]

theorem checkJwt_absent {env : Env} (policy : JwtPolicy) (h : jwtPresented env.req = false) :
    checkJwt env policy =
      (.error ⟨.authJwtMissing, "missing", [("WWW-Authenticate", "Bearer")]⟩, false) := by
  simp only [checkJwt, jwtVerdict_absent env.gw.jwt policy _ h]
  simp [Jwt.Refusal.asStr]

variable {r : Refused} {l' : List Access} {α : Type} (v : Verdict) (anonymous : Option Consumer)
  (any : AnyOf) (p : Policies)

theorem checkJwt_present {env : Env} (h : jwtPresented env.req = true)
    (hr : (checkJwt env policy).1 = .error r) : r.missing = false := by
  simp only [checkJwt] at hr
  split at hr
  next key reason challenge hverdict =>
    cases hr
    obtain ⟨hjwt, hkey⟩ := jwtVerdict_present h hverdict
    simp [Refused.missing, hjwt, hkey]
  next claims _ =>
    split at hr
    · cases hr
    · split at hr
      · cases hr
      · cases hr
        rfl

theorem checkKey_absent {env : Env} (policy : KeyAuthPolicy)
    (h : keyPresented policy.header env.req = false) :
    checkKey env policy = .error ⟨.authKeyMissing, "missing",
      [("WWW-Authenticate", "Key realm=\"" ++ policy.header ++ "\"")]⟩ := by
  unfold checkKey
  unfold keyPresented at h
  cases hget : env.req.headers.get policy.header with
  | none => rfl
  | some line =>
    simp only [hget, Option.any_some] at h
    cases htext : toStr line with
    | none => simp [htext] at h
    | some key =>
      simp only [htext, Option.all_some, Bool.not_eq_false'] at h
      have hnone : Credentials.presentedKey (some key) = none := by
        simp [Credentials.presentedKey, Option.filter, h]
      simp only [htext, (Credentials.identify_missing_iff _ _ _ _).mpr hnone]
      rfl

theorem checkKey_present {env : Env} {policy : KeyAuthPolicy}
    (h : keyPresented policy.header env.req = true)
    (hr : checkKey env policy = .error r) : r.missing = false := by
  unfold checkKey at hr
  unfold keyPresented at h
  cases hget : env.req.headers.get policy.header with
  | none => simp [hget] at h
  | some line =>
    simp only [hget, Option.any_some] at h hr
    cases htext : toStr line with
    | none =>
      simp only [htext] at hr
      cases hr
      rfl
    | some key =>
      simp only [htext, Option.all_some, Bool.not_eq_true'] at h hr
      split at hr
      · cases hr
      next refusal hidentify =>
        cases hr
        cases refusal with
        | unknown => rfl
        | missing =>
          rw [Credentials.identify_missing_iff] at hidentify
          simp [Credentials.presentedKey, Option.filter, h] at hidentify

/-! ## Lists of steps -/

theorem runAll_continue {env : Env} (h : (run env s step).1 = .continue) (rest : List Access) :
    runAll env s (step :: rest) = runAll env (run env s step).2 rest := by
  rw [runAll.eq_def]
  simp only
  split
  next heq => rw [heq]
  next hne => exact (hne (run env s step).2 (Prod.ext h rfl)).elim

theorem runAll_stop {env : Env} (h : (run env s step).1 ≠ .continue) (rest : List Access) :
    runAll env s (step :: rest) = run env s step := by
  unfold runAll
  split
  next heq => exact absurd (congrArg Prod.fst heq) h
  next => rfl

theorem runAll_singleton (s : State) (step : Access) : runAll env s [step] = run env s step := by
  by_cases h : (run env s step).1 = .continue
  · rw [runAll_continue h]
    exact Prod.ext h.symm rfl
  · exact runAll_stop h []

theorem runAll_append (s : State) (l l' : List Access) :
    runAll env s (l ++ l') = if (runAll env s l).1 = .continue then
      runAll env (runAll env s l).2 l' else runAll env s l := by
  induction l generalizing s with
  | nil => simp [runAll]
  | cons step rest ih =>
    by_cases h : (run env s step).1 = .continue
    · rw [List.cons_append, runAll_continue h, runAll_continue h]
      exact ih (run env s step).2
    · rw [List.cons_append, runAll_stop h, runAll_stop h, if_neg h]

/-- The consumer recorded when a run went on to its end. -/
def outcome (r : Flow × State) : Option (Option Consumer) :=
  if r.1 = .continue then some r.2.consumer else none

theorem outcome_eq_some {r : Flow × State} :
    outcome r = some c ↔ r.1 = .continue ∧ r.2.consumer = c := by
  unfold outcome
  split <;> simp_all

theorem outcome_append {env : Env} : outcome (runAll env s (l ++ l')) = some c ↔
      (runAll env s l).1 = .continue ∧ outcome (runAll env (runAll env s l).2 l') = some c := by
  rw [runAll_append]
  split
  next h => simp [h]
  next h => simp [outcome, h]

/-- A step that only goes on or stops leaves the consumer as it was. -/
structure Gate (env : Env) (s : State) (l : List Access) (admits : Prop) : Prop where
  continues : (runAll env s l).1 = .continue ↔ admits
  consumer : (runAll env s l).2.consumer = s.consumer

theorem Gate.append {env : Env} (h : Gate env s l admits) :
    outcome (runAll env s (l ++ l')) = some c ↔
      admits ∧ outcome (runAll env (runAll env s l).2 l') = some c :=
  outcome_append.trans (and_congr_left' h.continues)

theorem Gate.go {env : Env} (h : Gate env s l admits) (ha : admits) (l' : List Access) :
    runAll env s (l ++ l') = runAll env (runAll env s l).2 l' := by
  rw [runAll_append, if_pos (h.continues.mpr ha)]

theorem Gate.stop {env : Env} (h : Gate env s l admits) (ha : ¬ admits) (l' : List Access) :
    runAll env s (l ++ l') = runAll env s l := by
  rw [runAll_append, if_neg fun hc => ha (h.continues.mp hc)]

theorem gate_none (s : State) (g : α → Access) (admits : α → Prop) :
    Gate env s ((none : Option α).toList.map g) (∀ q ∈ (none : Option α), admits q) :=
  ⟨by simp [runAll], rfl⟩

theorem gate_some {env : Env} {g : α → Access} {q : α}
    {admits : α → Prop} (hflow : (run env s (g q)).1 = .continue ↔ admits q)
    (hconsumer : (run env s (g q)).2.consumer = s.consumer) :
    Gate env s ((some q).toList.map g) (∀ q' ∈ some q, admits q') := by
  have hrun : runAll env s ((some q).toList.map g) = run env s (g q) := runAll_singleton env s _
  constructor
  · rw [hrun, hflow]
    simp
  · rw [hrun, hconsumer]

theorem gate_cors (s : State) (o : Option CorsPolicy) :
    Gate env s (o.toList.map .cors) (∀ q ∈ o, answersPreflight q env.req = false) := by
  cases o with
  | none => exact gate_none env s .cors fun q => answersPreflight q env.req = false
  | some q =>
    have hrun : run env s (.cors q) = cors q env.req s := rfl
    apply gate_some <;> rw [hrun] <;> simp only [cors, answersPreflight] <;>
      generalize (originOf env.req).bind q.allowed = allow <;>
      cases isPreflight env.req <;> cases q.preflightContinue <;> cases allow <;> simp [refuse]

theorem gate_ip (s : State) (o : Option IpRestrictionPolicy) :
    Gate env s (o.toList.map .ipRestriction) (∀ q ∈ o, q.refusal (clientOf env) = none) := by
  cases o with
  | none => exact gate_none env s .ipRestriction fun q => q.refusal (clientOf env) = none
  | some q =>
    apply gate_some <;> unfold run <;> dsimp only <;> cases q.refusal (clientOf env) <;>
      simp [refuse]

theorem gate_acl (s : State) (o : Option AclPolicy) : Gate env s (o.toList.map .acl)
      (∀ q ∈ o, q.refusal (groupsOf env.rt.config s.consumer) = none) := by
  cases o with
  | none =>
    exact gate_none env s .acl fun q => q.refusal (groupsOf env.rt.config s.consumer) = none
  | some q =>
    apply gate_some <;> unfold run <;> dsimp only <;>
      cases q.refusal (groupsOf env.rt.config s.consumer) <;> simp [refuse]

theorem gate_size (s : State) (o : Option Nat) : Gate env s (o.toList.map .sizeLimit)
      (∀ max ∈ o, ∀ len ∈ contentLength env.req, len ≤ max) := by
  cases o with
  | none =>
    exact gate_none env s .sizeLimit fun max => ∀ len ∈ contentLength env.req, len ≤ max
  | some max =>
    apply gate_some <;> unfold run <;> dsimp only <;> cases contentLength env.req with
    | none => simp
    | some len => by_cases h : max < len <;> simp [h, refuse, Nat.le_of_not_lt]

/-! ## The credential steps -/

theorem outcome_settle (s : State) :
    outcome (settle v s) = (accepted v).map fun c => c.or s.consumer := by
  cases v with
  | error r => rfl
  | ok c => cases c <;> rfl

variable (absent : List Refused)

theorem outcome_nobody (s : State) : outcome (nobody env anonymous absent s) =
      (anonymousIn env.rt.config anonymous).map some := by
  unfold nobody anonymousIn
  split
  next h => rw [h]; rfl
  next h =>
    rw [h]
    split <;> rfl

theorem outcome_anyOfKey (hs : s.consumer = none) :
    outcome (anyOfKey env any absent s) = keyOrAnonymous env any.keyAuth any.anonymous := by
  unfold anyOfKey keyOrAnonymous
  cases any.keyAuth with
  | none => exact outcome_nobody env any.anonymous absent s
  | some policy =>
    cases hp : keyPresented policy.header env.req with
    | false =>
      simp only [checkKey_absent policy hp, Option.filter, hp]
      exact outcome_nobody env any.anonymous _ s
    | true =>
      simp only [Option.filter, hp, if_true]
      cases hv : checkKey env policy with
      | ok c => simp [outcome_settle, hs, accepted]
      | error r => simp [checkKey_present hp hv, outcome_settle, accepted]

theorem outcome_anyOf (auth : AuthPolicy) (hs : s.consumer = none) :
    outcome (anyOf env ⟨p.jwt, p.keyAuth, anonymousOf (some auth)⟩ s) =
      firstCredential env p auth := by
  unfold anyOf firstCredential
  cases p.jwt with
  | none => exact outcome_anyOfKey env _ _ hs
  | some policy =>
    cases hp : jwtPresented env.req with
    | false =>
      simp only [checkJwt_absent policy hp, Option.filter]
      exact outcome_anyOfKey env _ _ (s := asked s false) hs
    | true =>
      simp only [Option.filter, if_true]
      cases hv : checkJwt env policy with
      | mk verdict refresh =>
        have hs' : (asked s refresh).consumer = none := hs
        cases verdict with
        | ok c => simp [outcome_settle, hs', accepted]
        | error r =>
          have hr : r.missing = false := checkJwt_present hp (congrArg Prod.fst hv)
          simp [hr, outcome_settle, accepted]

theorem outcome_keyAuth (s : State) (o : Option KeyAuthPolicy) :
    outcome (runAll env s (o.toList.map .keyAuth)) =
      (o.elim (some none) fun q => accepted (checkKey env q)).map fun c => c.or s.consumer := by
  cases o with
  | none => rfl
  | some q => exact (congrArg outcome (runAll_singleton env s _)).trans (outcome_settle _ s)

theorem outcome_both (hs : s.consumer = none) :
    outcome (runAll env s (p.jwt.toList.map .jwt ++ p.keyAuth.toList.map .keyAuth)) =
      everyCredential env p := by
  unfold everyCredential
  cases p.jwt with
  | none =>
    show outcome (runAll env s (p.keyAuth.toList.map .keyAuth)) = _
    rw [outcome_keyAuth, hs]
    rfl
  | some q =>
    have hrun : run env s (.jwt q) =
        settle (checkJwt env q).1 (asked s (checkJwt env q).2) := rfl
    rw [Option.toList_some, List.map_singleton, List.singleton_append, Option.elim_some]
    cases hv : (checkJwt env q).1 with
    | error r =>
      rw [hv] at hrun
      rw [runAll_stop (by rw [hrun]; simp [settle, refuse]), hrun]
      rfl
    | ok c =>
      have hcontinue : (run env s (.jwt q)).1 = .continue := by
        rw [hrun, hv]
        cases c <;> rfl
      have hconsumer : (run env s (.jwt q)).2.consumer = c := by
        rw [hrun, hv]
        cases c with
        | none => exact hs
        | some c => rfl
      rw [runAll_continue hcontinue, outcome_keyAuth, hconsumer]
      rfl

/-- The credential steps record the consumer the policies accept the request for. -/
theorem outcome_credentialSteps (hs : s.consumer = none) :
    outcome (runAll env s p.credentialSteps) = identified env p := by
  unfold Policies.credentialSteps identified
  cases p.auth with
  | none => exact outcome_both env p hs
  | some auth =>
    simp only [Policies.anyOfSteps]
    split
    · rw [runAll_singleton]
      exact outcome_anyOf env p auth hs
    · show some s.consumer = some none
      rw [hs]

/-! ## The whole run -/

/-- What a step leaves alone: the limiter, and the consumer when it stops. -/
structure Keeps (s : State) (r : Flow × State) : Prop where
  limiter : r.2.limiter = s.limiter
  consumer : r.1 ≠ .continue → r.2.consumer = s.consumer

theorem keeps_self (flow : Flow) (s : State) : Keeps s (flow, s) := ⟨rfl, fun _ => rfl⟩

theorem settle_keeps (s : State) : Keeps s (settle v s) := by
  cases v with
  | error r => exact keeps_self _ s
  | ok c =>
    cases c with
    | none => exact keeps_self _ s
    | some c => exact ⟨rfl, fun h => absurd rfl h⟩

theorem nobody_keeps (s : State) : Keeps s (nobody env anonymous absent s) := by
  unfold nobody
  split
  · exact ⟨rfl, fun h => absurd rfl h⟩
  · split <;> exact keeps_self _ s

theorem anyOfKey_keeps (s : State) : Keeps s (anyOfKey env any absent s) := by
  unfold anyOfKey
  split
  · exact nobody_keeps env any.anonymous absent s
  · split
    · split
      · exact nobody_keeps env any.anonymous _ s
      · exact settle_keeps _ s
    · exact settle_keeps _ s

theorem anyOf_keeps (s : State) : Keeps s (anyOf env any s) := by
  -- Asking for the keys again changes neither.
  have hasked : ∀ {refresh r}, Keeps (asked s refresh) r → Keeps s r := fun h => ⟨h.1, h.2⟩
  unfold anyOf
  split
  · exact anyOfKey_keeps env any [] s
  · dsimp only
    split
    · split
      · exact hasked (anyOfKey_keeps env any _ _)
      · exact hasked (settle_keeps _ _)
    · exact hasked (settle_keeps _ _)

theorem limit_consumer (s : State) : (limit env s).2.consumer = s.consumer := by
  simp only [limit]
  split
  · rfl
  · split
    · rfl
    · split <;> rfl

theorem access_eq {env : Env} (h : compile env.rule = .ok chain)
    (hone : AtMostOne env.rule.plugins) (s : State) : access env chain s =
      if (runAll env s (policiesOf env.rule.plugins).steps).1 = .continue then
        limit env (runAll env s (policiesOf env.rule.plugins).steps).2
      else runAll env s (policiesOf env.rule.plugins).steps := by
  unfold access
  rw [access_of_compile h hone, runAll_append, runAll_singleton]
  rfl

/-- The same rule with its plugins in another order. -/
def reorder (env : Env) (plugins : List Plugin) : Env :=
  { env with rule := { env.rule with plugins } }

theorem run_reorder (plugins : List Plugin) (s : State) (step : Access) :
    run (reorder env plugins) s step = run env s step := by
  have hjwt : ∀ q, checkJwt (reorder env plugins) q = checkJwt env q := by
    intro q
    simp only [checkJwt, reorder]
  have hkey : ∀ q, checkKey (reorder env plugins) q = checkKey env q := by
    intro q
    simp only [checkKey, reorder]
  cases step with
  | jwt q => simp only [run, hjwt]
  | keyAuth q => simp only [run, hkey]
  | anyOf any =>
    simp only [run, anyOf, anyOfKey, hjwt, hkey]
    rfl
  | rateLimit =>
    simp only [run, limit]
    rfl
  | cors q | acl q | ipRestriction q | sizeLimit max => rfl

/-- The steps read the rule's plugins only through the chain. -/
theorem runAll_reorder (plugins : List Plugin) (s : State) (l : List Access) :
    runAll (reorder env plugins) s l = runAll env s l := by
  induction l generalizing s with
  | nil => rfl
  | cons step rest ih => simp only [runAll, run_reorder, ih]

theorem placed_reorder (hp : plugins.Perm rule.plugins) :
    plugins.all (placed (reachable { rule with plugins })) =
      rule.plugins.all (placed (reachable rule)) := by
  have hreach : reachable { rule with plugins } = reachable rule := rfl
  rw [hreach, Bool.eq_iff_iff, List.all_eq_true, List.all_eq_true]
  exact forall_congr' fun p => by rw [hp.mem_iff]

theorem compile_reorder (hp : plugins.Perm rule.plugins) :
    (∃ chain, compile { rule with plugins } = .ok chain) ↔ ∃ chain, compile rule = .ok chain := by
  simp only [compile_ok_iff, placed_reorder hp, exists_and_left, exists_eq', and_true]

def plainGateway : Gateway where
  sha256 := id
  parseIp := fun _ => none
  fromUtf8Lossy := fun v => (toStr v).getD ""
  jwt := { decodeHeader := fun _ => none, decode := fun _ _ _ => .error .other }

/-- One key, `k`, of the staff consumer mobile; guest is the anonymous one. -/
def shopConfig : Config where
  listeners := []
  ports := ∅
  clusters := ∅
  credentials := .ofList [("6b", "mobile")]
  credentialWorkspaces := .ofList [("6b", "shop")]
  consumerRateLimits := ∅
  consumers := .ofList [("shop/mobile", ["staff"]), ("shop/guest", [])]

def shopRule (plugins : List Plugin) : RouteRule where
  route := "shop/api"
  ruleIndex := 0
  creationTimestamp := ""
  «matches» := []
  filters := {}
  backends := []
  timeouts := {}
  rateLimit := some ⟨5, 60000, .consumer⟩
  plugins

def keyPolicy : KeyAuthPolicy := ⟨"x-api-key", some "shop"⟩

def shopEnv (plugins : List Plugin) (headers : List (String × String)) : Env where
  gw := plainGateway
  rt := { config := shopConfig }
  rule := shopRule plugins
  req := { method := "GET", uri := { path := "/" }
           headers := ⟨headers.map fun p => (p.1, bytes p.2)⟩ }
  peer := none
  nowMs := 0

/-- Nothing counted and nobody identified. -/
def unseen : State := { limiter := {}, jwksKidMiss := false }

end Gapura.Proxy.Admission
