import Gapura.Lib.Runs
import Gapura.Proxy.Upstream

/-! # The attempts of one request

A request that was let through is sent upstream in one or more attempts. The
server library drives them: it asks for a peer, connects, has the head filtered,
passes the body on chunk by chunk and reports how each attempt ended. It asks
for another peer only after an error that `fail_to_connect` or
`error_while_proxy` marked for a retry; before it reads on, a retry passes on
what was read of the body, as long as its retry buffer holds that. `step` has one
event for each of these, with the choices of the other side as arguments.

Left out: the record of an endpoint's health, metrics and debug timing. -/
namespace Gapura.Proxy.Attempts
open Gapura.Core Core.ClientIp Proxy.Plugin Select
open Proxy.Access (Runtime)
open Upstream (Sent)

def maxAttempts : Nat := 2

/-! ## Errors and retries -/

/-- Whether a request may be sent again, as the server library keeps it with an
error. -/
inductive RetryType where
  | decided (retry : Bool)
  /-- Only if the connection was a reused one. -/
  | reusedOnly
  deriving DecidableEq, Repr

def RetryType.decideReuse (reused : Bool) : RetryType → RetryType
  | .reusedOnly => .decided reused
  | .decided retry => .decided retry

def RetryType.marked : RetryType → Bool
  | .decided retry => retry
  | .reusedOnly => false

/-- An error as the server library raises it, with no retry decided on yet. -/
structure Raised where
  retry : RetryType
  unmarked : retry.marked = false

/-- What an error made by the gateway's own filters is. -/
def Raised.own : Raised := ⟨.decided false, rfl⟩

/-- What the library raises when a kept connection turns out dead. -/
def Raised.reusedOnly : Raised := ⟨.reusedOnly, rfl⟩

/-- RFC 9110 section 9.2.2: sending these twice has the effect of sending them
once. -/
def idempotent (method : String) : Bool :=
  ["GET", "HEAD", "OPTIONS", "TRACE", "PUT", "DELETE"].contains method

/-! ## Timeouts, in nanoseconds -/

def ofMillis (ms : Nat) : Nat := ms * 1000000

def defaultConnectTimeout : Nat := ofMillis 5000
def defaultUpstreamTimeout : Nat := ofMillis 60000

/-- The smaller of those set, where 0 disables one; with neither set the
default. -/
def effectiveTimeout (t : Timeouts) : Option Nat :=
  if t.backendRequestMs.isNone && t.requestMs.isNone then some defaultUpstreamTimeout
  else (([t.backendRequestMs, t.requestMs].filterMap id).filter (0 < ·)).min?.map ofMillis

/-- What is left of the budget for the whole request; `some 0` is spent. -/
def requestBudgetLeft (t : Timeouts) (elapsed : Nat) : Option Nat :=
  (t.requestMs.filter (0 < ·)).map fun ms => ofMillis ms - elapsed

def connectTimeout (t : Timeouts) : Nat :=
  ((t.connectMs.filter (0 < ·)).map ofMillis).getD defaultConnectTimeout

/-! ## What an attempt reads and changes -/

/-- A request on its way upstream. The configuration it was let through under is
kept for all its attempts. -/
structure Request where
  rt : Runtime
  sent : Sent
  method : String
  body : List UInt8

def Request.rule (rq : Request) : RouteRule := rq.sent.ctx.rule

def Request.cluster? (rq : Request) : Option Cluster :=
  rq.rt.config.clusters.get? rq.sent.ctx.cluster

/-- The part of a request's state that its attempts change. -/
structure Ctx where
  tried : List SocketAddr := []
  upstream : Option SocketAddr := none
  /-- The request body's bytes so far, as the request-body steps count them. -/
  bodyBytes : Nat := 0
  refused : Option ErrorKey := none
  /-- Whether the one retry after a failure on a reused connection is spent. -/
  reuseRetried : Bool := false
  mirrored : Bool := false
  deriving DecidableEq

/-- Start the body count again for a new upstream attempt. -/
def Ctx.newAttempt (ctx : Ctx) : Ctx := { ctx with bodyBytes := 0 }

/-! ## Choosing a peer -/

/-- What is at hand when a peer is asked for: the cursor and the ejections of the
cluster, and how long the request has taken. -/
structure Moment where
  cursor : Nat
  ejected : Nat → Bool
  maxEjectedPercent : Nat
  elapsed : Nat

/-- The address, trust and timeouts of one attempt. -/
structure HttpPeer where
  addr : SocketAddr
  tls : Bool := false
  sni : String := ""
  verifyCert : Bool := true
  verifyHostname : Bool := true
  ca : Option String := none
  /-- Connections are pooled per cluster where they are encrypted. -/
  groupKey : Option String := none
  connectionTimeout : Option Nat := none
  readTimeout : Option Nat := none
  writeTimeout : Option Nat := none
  deriving DecidableEq, Repr

inductive NoPeer where
  | clusterMissing
  /-- No endpoint left to try: 503. -/
  | noEndpoint
  /-- The request timeout was spent before this attempt: 504. -/
  | timeoutSpent
  deriving DecidableEq, Repr

section
variable (parseIp : String → Option IpAddr)
-- the bundle a cluster's connections trust; nothing for one that did not parse
variable (upstreamCa : String → Option String)

def dial (key : String) (cluster : Cluster) (addr : SocketAddr) : HttpPeer :=
  match cluster.tls with
  | none => { addr }
  | some tls =>
    let peer : HttpPeer := { addr, tls := true, sni := tls.sni, groupKey := some key }
    if tls.insecure then { peer with verifyCert := false, verifyHostname := false }
    else if tls.caPem.isSome then { peer with ca := upstreamCa key }
    else peer

/-- Each timeout is capped by what is left of the request's budget. -/
def withTimeouts (t : Timeouts) (left : Option Nat) (peer : HttpPeer) : HttpPeer :=
  let withinBudget (d : Nat) : Nat := left.elim d (min d)
  let timeout := (effectiveTimeout t).map withinBudget
  { peer with
    connectionTimeout := some (withinBudget (connectTimeout t))
    readTimeout := timeout
    writeTimeout := timeout }

def upstreamPeer (rq : Request) (m : Moment) (ctx : Ctx) : Ctx × Except NoPeer HttpPeer :=
  match rq.cluster? with
  | none => (ctx, .error .clusterMissing)
  | some cluster =>
    match pickEndpoint parseIp cluster m.cursor ctx.tried m.ejected m.maxEjectedPercent with
    | .error _ => (ctx, .error .noEndpoint)
    | .ok (_, addr) =>
      let ctx := { ctx with upstream := some addr }
      let left := requestBudgetLeft rq.rule.timeouts m.elapsed
      if left = some 0 then (ctx, .error .timeoutSpent)
      else (ctx, .ok (withTimeouts rq.rule.timeouts left
        (dial upstreamCa rq.sent.ctx.cluster cluster addr)))

/-! ## The mirror -/

/-- What is at hand when a mirror may fire. -/
structure MirrorMoment where
  cursor : Nat
  ejected : Nat → Bool
  maxEjectedPercent : Nat
  /-- Whether fewer mirrors are on their way than the gateway allows. -/
  permit : Bool

/-- Where a copy of the head was sent, if one was. -/
def fireMirror (rt : Runtime) (mirror : Mirror) (m : MirrorMoment) (ctx : Ctx) :
    Ctx × Option SocketAddr :=
  let endpoint := (rt.config.clusters.get? mirror.cluster).bind fun cluster =>
    (pickEndpoint parseIp cluster m.cursor [] m.ejected m.maxEjectedPercent).toOption.map (·.2)
  match endpoint with
  | none => (ctx, none)
  | some addr => if m.permit then ({ ctx with mirrored := true }, some addr) else (ctx, none)

/-- Once per request, on the first head that gets as far. -/
def mirrorHead (rq : Request) (m : MirrorMoment) (ctx : Ctx) : Ctx × Option SocketAddr :=
  match rq.rule.filters.mirror with
  | none => (ctx, none)
  | some mirror => if ctx.mirrored then (ctx, none) else fireMirror parseIp rq.rt mirror m ctx

/-! ## The body -/

/-- The largest count a u64 holds; the counts stop there. -/
def maxCount : Nat := 2 ^ 64 - 1

/-- The first request-body step that refuses a body of so many bytes. -/
def refusal (steps : List RequestBody) (bytes : Nat) : Option ErrorKey :=
  steps.findSome? fun step => match step with
    | .sizeLimit max => if bytes > max then some .requestTooLarge else none

/-- The request-body steps on a chunk of `len` bytes. What follows an upgrade is
a tunnel and is not counted. -/
def requestBody (chain : Chain) (ctx : Ctx) (len : Nat) (upgraded : Bool) :
    Ctx × Option ErrorKey :=
  if upgraded || chain.requestBody.isEmpty then (ctx, none)
  else
    let bytes := min (ctx.bodyBytes + len) maxCount
    ({ ctx with bodyBytes := bytes }, refusal chain.requestBody bytes)

/-- A rule whose plugins do not compile runs no step on its bodies. -/
def requestBodyFilter (rq : Request) (ctx : Ctx) (len : Nat) (upgraded : Bool) :
    Ctx × Option ErrorKey :=
  match compile rq.rule with
  | .error _ => (ctx, none)
  | .ok chain => match requestBody chain ctx len upgraded with
    | (ctx, none) => (ctx, none)
    | (ctx, some key) => ({ ctx with refused := some key }, some key)

/-! ## Failures -/

/-- A failure after the connection was made or reused: one retry, of idempotent
methods only, and never once the body no longer fits the retry buffer. -/
def errorWhileProxy (method : String) (truncated : Bool) (ctx : Ctx) (e : RetryType)
    (clientReused : Bool) : Ctx × RetryType :=
  let retry := clientReused && !ctx.reuseRetried && idempotent method && !truncated
  (if retry then { ctx with reuseRetried := true } else ctx, e.decideReuse retry)

def failToConnect (rq : Request) (ctx : Ctx) (e : RetryType) : Ctx × RetryType :=
  let ctx := match ctx.upstream with
    | some addr => { ctx with tried := ctx.tried ++ [addr] }
    | none => ctx
  let moreEndpoints := rq.cluster?.any fun c => decide (c.endpoints.length > ctx.tried.length)
  (ctx, if decide (ctx.tried.length < maxAttempts) && moreEndpoints then .decided true else e)

/-! ## A run -/

/-- How far an attempt has come, or how it ended. -/
inductive Stage where
  | noPeer
  | picked
  | connectFailed
  | connected (reused : Bool)
  | sending (reused : Bool)
  /-- With whether the retry buffer was truncated by then. -/
  | broke (reused truncated : Bool)
  | succeeded
  deriving DecidableEq, Repr

/-- A piece of the body as it was passed to the request-body steps, and whether
they refused it. One they let through is forwarded. -/
structure Chunk where
  bytes : List UInt8
  refused : Bool
  deriving DecidableEq, Repr

/-- One call of `upstream_peer` and what came of it. -/
structure Attempt where
  addr : Option SocketAddr
  stage : Stage
  chunks : List Chunk := []
  deriving DecidableEq, Repr

def Attempt.pass (a : Attempt) (bytes : List UInt8) (refused : Bool) : Attempt :=
  { a with chunks := a.chunks ++ [⟨bytes, refused⟩] }

structure State where
  ctx : Ctx := {}
  /-- The attempt under way, or the last one; none before the first and between
  an attempt and its retry. -/
  current : Option Attempt := none
  /-- The attempts that were followed by a retry, newest first. -/
  retried : List Attempt := []
  /-- What was read of the body. -/
  read : List UInt8 := []
  /-- Whether more was read than the retry buffer holds. -/
  truncated : Bool := false
  /-- What this attempt has still to pass on again. -/
  replay : List UInt8 := []
  /-- Where copies for the mirror were sent. -/
  copies : List SocketAddr := []
  deriving DecidableEq

def State.attempts (s : State) : List Attempt := s.current.toList ++ s.retried

inductive Event where
  | peer (m : Moment)
  | connectFailed (e : Raised)
  | connected (reused : Bool)
  /-- `upstream_request_filter`. -/
  | head (m : MirrorMoment)
  /-- The next `len` bytes; `truncates` when they no longer fit the buffer. -/
  | chunk (len : Nat) (truncates upgraded : Bool)
  | failed (e : Raised)
  | succeeded

/-- An attempt that ended with an error: another follows only if it is marked. -/
def State.ended (s : State) (a : Attempt) (e : RetryType) : State :=
  if e.marked then { s with current := none, retried := a :: s.retried }
  else { s with current := some a }

def State.asked (rq : Request) (m : Moment) (s : State) : State :=
  match upstreamPeer parseIp upstreamCa rq m s.ctx with
  | (ctx, .ok peer) => { s with ctx, current := some { addr := peer.addr, stage := .picked } }
  | (ctx, .error _) => { s with ctx, current := some { addr := none, stage := .noPeer } }

def State.unconnected (rq : Request) (e : Raised) (a : Attempt) (s : State) : State :=
  let (ctx, e) := failToConnect rq s.ctx e.retry
  { s with ctx }.ended { a with stage := .connectFailed } e

def State.broken (rq : Request) (e : Raised) (reused : Bool) (a : Attempt) (s : State) : State :=
  let (ctx, e) := errorWhileProxy rq.method s.truncated s.ctx e.retry reused
  { s with ctx }.ended { a with stage := .broke reused s.truncated } e

/-- Before the first byte of an attempt: a truncated buffer has nothing to give. -/
def State.rewound (s : State) : State :=
  { s with ctx := s.ctx.newAttempt, replay := if s.truncated then [] else s.read }

/-- A head that cannot be written fails the attempt before the mirror. -/
def State.headed (rq : Request) (m : MirrorMoment) (reused : Bool) (a : Attempt) (s : State) :
    State :=
  let s := s.rewound
  match rq.sent.head with
  | .error _ => s.broken rq .own reused a
  | .ok _ =>
    let (ctx, copy) := mirrorHead parseIp rq m s.ctx
    { s with
      ctx, current := some { a with stage := .sending reused }, copies := copy.toList ++ s.copies }

/-- What is passed on next: what is left to replay, else what is read off the
client. -/
def State.next (rq : Request) (len : Nat) (s : State) : List UInt8 :=
  if s.replay = [] then (rq.body.drop s.read.length).take len else s.replay.take len

def State.taken (rq : Request) (len : Nat) (truncates : Bool) (s : State) : State :=
  if s.replay = [] then
    { s with read := s.read ++ s.next rq len, truncated := s.truncated || truncates }
  else { s with replay := s.replay.drop len }

def State.passed (rq : Request) (len : Nat) (truncates upgraded : Bool) (reused : Bool)
    (a : Attempt) (s : State) : State :=
  let bytes := s.next rq len
  let s := s.taken rq len truncates
  match requestBodyFilter rq s.ctx bytes.length upgraded with
  | (ctx, none) => { s with ctx, current := some (a.pass bytes false) }
  | (ctx, some _) => { s with ctx }.broken rq .own reused (a.pass bytes true)

/-- One callback, where the server library may make it. -/
def step (rq : Request) (s : State) (event : Event) : Option State :=
  match s.current with
  | none => match event with
    | .peer m => some (s.asked parseIp upstreamCa rq m)
    | _ => none
  | some a => match a.stage, event with
    | .picked, .connectFailed e => some (s.unconnected rq e a)
    | .picked, .connected reused =>
      some { s with current := some { a with stage := .connected reused } }
    | .connected reused, .head m => some (s.headed parseIp rq m reused a)
    | .connected reused, .failed e => some (s.broken rq e reused a)
    | .sending reused, .chunk len truncates upgraded =>
      some (s.passed rq len truncates upgraded reused a)
    | .sending reused, .failed e => some (s.broken rq e reused a)
    | .sending _, .succeeded => some { s with current := some { a with stage := .succeeded } }
    | _, _ => none

def run (rq : Request) (events : List Event) : Option State :=
  Lib.Runs.run (step parseIp upstreamCa rq) {} events

/-! ## What one event does -/

/-- The events the server library can send, each with the state it leads to. -/
inductive Moves (rq : Request) (s : State) : Event → State → Prop
  | asked (m : Moment) : s.current = none → Moves rq s (.peer m) (s.asked parseIp upstreamCa rq m)
  | unconnected {a : Attempt} (e : Raised) : s.current = some a → a.stage = .picked →
    Moves rq s (.connectFailed e) (s.unconnected rq e a)
  | connected {a : Attempt} (reused : Bool) : s.current = some a → a.stage = .picked →
    Moves rq s (.connected reused) { s with current := some { a with stage := .connected reused } }
  | headed {a : Attempt} {reused : Bool} (m : MirrorMoment) : s.current = some a →
    a.stage = .connected reused → Moves rq s (.head m) (s.headed parseIp rq m reused a)
  | passed {a : Attempt} {reused : Bool} (len : Nat) (truncates upgraded : Bool) :
    s.current = some a → a.stage = .sending reused →
    Moves rq s (.chunk len truncates upgraded) (s.passed rq len truncates upgraded reused a)
  | broken {a : Attempt} {reused : Bool} (e : Raised) : s.current = some a →
    a.stage = .connected reused ∨ a.stage = .sending reused →
    Moves rq s (.failed e) (s.broken rq e reused a)
  | succeeded {a : Attempt} {reused : Bool} : s.current = some a → a.stage = .sending reused →
    Moves rq s .succeeded { s with current := some { a with stage := .succeeded } }

variable {parseIp upstreamCa} {rq : Request}

theorem moves_of_step {s s' : State} {event : Event}
    (h : step parseIp upstreamCa rq s event = some s') :
    Moves parseIp upstreamCa rq s event s' := by
  unfold step at h
  split at h
  · rename_i hnone
    split at h
    · cases h
      exact .asked _ hnone
    · cases h
  · rename_i a ha
    split at h <;> cases h
    · exact .unconnected _ ha ‹_›
    · exact .connected _ ha ‹_›
    · exact .headed _ ha ‹_›
    · exact .broken _ ha (.inl ‹_›)
    · exact .passed _ _ _ ha ‹_›
    · exact .broken _ ha (.inr ‹_›)
    · exact .succeeded ha ‹_›

/-- What every callback keeps holds after any run. -/
theorem run_invariant {P : State → Prop} {events : List Event} {s : State}
    (h : run parseIp upstreamCa rq events = some s) (hfirst : P {})
    (hstep : ∀ t event t', event ∈ events → P t → Moves parseIp upstreamCa rq t event t' → P t') :
    P s :=
  Lib.Runs.invariant h hfirst fun t event t' he ht hmove =>
    hstep t event t' he ht (moves_of_step hmove)

end

/-! ## A request to two endpoints -/

def parsePair (text : String) : Option IpAddr :=
  if text = "10.0.0.1" then some (.v4 0x0a000001)
  else if text = "10.0.0.2" then some (.v4 0x0a000002) else none

def pairRule (plugins : List Plugin) : RouteRule where
  route := "shop/orders"
  ruleIndex := 0
  creationTimestamp := ""
  «matches» := []
  filters := { mirror := some ⟨"orders"⟩ }
  backends := [⟨some "orders", 1⟩]
  timeouts := {}
  rateLimit := none
  plugins

def pairConfig : Config where
  listeners := []
  ports := ∅
  clusters := Std.TreeMap.empty.insert "orders"
    { endpoints := [⟨"10.0.0.1", 80⟩, ⟨"10.0.0.2", 80⟩], tls := none, resolve := none }
  credentials := ∅
  credentialWorkspaces := ∅
  consumerRateLimits := ∅
  consumers := ∅

def pairRequest (plugins : List Plugin) (method : String) (body : List UInt8) : Request where
  rt := { config := pairConfig }
  sent :=
    { ctx :=
        { requestId := "", traceparent := "", scheme := "http", listener := 0
          rule := pairRule plugins, matched := .pathPrefix "/", cluster := "orders"
          extracted :=
            { host := "", path := "/", pathNormalized := false, queryString := none, method
              headers := [], query := [] } }
      consumer := none
      head := .ok { method, uri := { path := "/" }, headers := {} } }
  method
  body

/-- Nothing ejected, at a cursor. -/
def atCursor (cursor : Nat) : Event :=
  .peer { cursor, ejected := fun _ => false, maxEjectedPercent := 50, elapsed := 0 }

def plainHead : Event :=
  .head { cursor := 0, ejected := fun _ => false, maxEjectedPercent := 50, permit := true }

end Gapura.Proxy.Attempts
