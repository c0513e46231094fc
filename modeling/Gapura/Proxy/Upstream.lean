import Gapura.Proxy.Request
import Gapura.Proxy.Transform

/-! # The head sent upstream

What a request that was let through becomes on its way: the caller named, the
matched path and the upstream's host set, the rule's own header edits and its
plugins' steps applied, and last the gateway's account of the request. The
mirror copies the finished head and is left out. -/
namespace Gapura.Proxy.Upstream
open Gapura.Core Core.ClientIp Core.Credentials Lib.Headers Proxy.Plugin Proxy.Access Select
  Proxy.Request
open Proxy.Transform (editHeaders editQuery)

/-- Why no head was sent. -/
inductive Unsent where
  /-- A header that HTTP does not allow. -/
  | failed
  /-- A panic of the source. -/
  | crashed
  deriving DecidableEq, Repr

def removeHeader (req : RequestHeader) (name : String) : RequestHeader :=
  { req with headers := req.headers.remove name }

def insertHeader (req : RequestHeader) (name value : String) : Except Unsent RequestHeader :=
  match ofStr value with
  | some v => if nameOk name then .ok { req with headers := req.headers.insert name v }
    else .error .failed
  | none => .error .failed

def appendHeader (req : RequestHeader) (name value : String) : Except Unsent RequestHeader :=
  match ofStr value with
  | some v => if nameOk name then .ok { req with headers := req.headers.append name v }
    else .error .failed
  | none => .error .failed

def groupsIn (config : Config) (consumer : Consumer) : Option (List String) :=
  (config.consumers[consumer.id]?).filter fun groups => !groups.isEmpty

def nameGroups (config : Config) (consumer : Consumer) (req : RequestHeader) :
    Except Unsent RequestHeader :=
  match groupsIn config consumer with
  | some groups => insertHeader req groupsHeader (joined groups)
  | none => .ok req

def nameAnonymous (consumer : Consumer) (req : RequestHeader) : Except Unsent RequestHeader :=
  if consumer.anonymous then insertHeader req anonymousHeader "true" else .ok req

/-- The gateway's word about the caller. What a client says of itself in these
headers is removed first. -/
def consumerHeaders (config : Config) (consumer : Option Consumer) (req : RequestHeader) :
    Except Unsent RequestHeader :=
  let req := gatewayHeaders.foldl removeHeader req
  match consumer with
  | none => .ok req
  | some consumer => do
    let req ← insertHeader req consumerHeader consumer.name
    let req ← nameGroups config consumer req
    nameAnonymous consumer req

def target (path : String) (query : Option String) : String :=
  match query with
  | some q => path ++ "?" ++ q
  | none => path

/-- A target that is no URI leaves the one there was. -/
def setUri (px : GapuraProxy) (req : RequestHeader) (target : String) : RequestHeader :=
  match px.parseUri target with
  | some uri => { req with uri }
  | none => req

/-- The path that was matched is the path that is sent. -/
def normalised (px : GapuraProxy) (ex : Extracted) (req : RequestHeader) : RequestHeader :=
  if ex.pathNormalized then setUri px req (target ex.path ex.queryString) else req

def rewriteTarget (px : GapuraProxy) (ctx : Ctx) (rewrite : Rewrite) (req : RequestHeader) :
    Except Unsent RequestHeader :=
  match rewrite.path with
  | none => .ok req
  | some modifier => match rewritePath modifier ctx.extracted.path ctx.matched with
    | none => .error .crashed
    | some path => .ok (setUri px req (target path ctx.extracted.queryString))

def rewriteHost (rewrite : Rewrite) (req : RequestHeader) : Except Unsent RequestHeader :=
  match rewrite.hostname with
  | none => .ok req
  | some host => insertHeader req "Host" host

def rewritten (px : GapuraProxy) (ctx : Ctx) (req : RequestHeader) :
    Except Unsent RequestHeader :=
  match ctx.rule.filters.rewrite with
  | none => .ok req
  | some rewrite => do
    let req ← rewriteTarget px ctx rewrite req
    rewriteHost rewrite req

/-- Gateway API order: set, then add, then remove. -/
def applyHeaderOps (ops : HeaderOps) (req : RequestHeader) : Except Unsent RequestHeader := do
  let req ← ops.set.foldlM (fun req p => insertHeader req p.1 p.2) req
  let req ← ops.add.foldlM (fun req p => appendHeader req p.1 p.2) req
  return ops.remove.foldl removeHeader req

def upstreamStep (px : GapuraProxy) (req : RequestHeader) : UpstreamRequest → RequestHeader
  | .removeHeader name => removeHeader req name
  | .transform policy =>
    let req := { req with headers := editHeaders req.headers policy.headers }
    match editQuery px.form px.setPathAndQuery req.uri policy.query with
    | some uri => { req with uri }
    | none => req

def upstreamSteps (px : GapuraProxy) (rule : RouteRule) (req : RequestHeader) : RequestHeader :=
  match compile rule with
  | .ok chain => chain.upstreamRequest.foldl (upstreamStep px) req
  | .error _ => req

/-- Every inbound line, then the peer. -/
def forwardedForWithHop (px : GapuraProxy) (req : RequestHeader) (peer : IpAddr) : String :=
  let hop := px.ipText peer.toCanonical
  match forwardedFor px.gw req with
  | some existing => existing ++ ", " ++ hop
  | none => hop

def forwardHost (ex : Extracted) (req : RequestHeader) : Except Unsent RequestHeader :=
  if ex.host.isEmpty then .ok req else insertHeader req "X-Forwarded-Host" ex.host

def forwardPeer (px : GapuraProxy) (peer : Option IpAddr) (req : RequestHeader) :
    Except Unsent RequestHeader :=
  match peer with
  | some peer => insertHeader req "X-Forwarded-For" (forwardedForWithHop px req peer)
  | none => .ok req

/-- The gateway's own account of the request, over whatever any step left. -/
def accounted (px : GapuraProxy) (ctx : Ctx) (peer : Option IpAddr) (req : RequestHeader) :
    Except Unsent RequestHeader := do
  let req ← forwardHost ctx.extracted req
  let req ← insertHeader req "X-Forwarded-Proto" ctx.scheme
  let req ← forwardPeer px peer req
  let req ← insertHeader req "X-Request-Id" ctx.requestId
  insertHeader req "traceparent" ctx.traceparent

def upstreamRequestFilter (px : GapuraProxy) (rt : Runtime) (ctx : Ctx)
    (consumer : Option Consumer) (peer : Option IpAddr) (req : RequestHeader) :
    Except Unsent RequestHeader := do
  let req ← consumerHeaders rt.config consumer req
  let req ← rewritten px ctx (normalised px ctx.extracted req)
  let req ← applyHeaderOps ctx.rule.filters.requestHeaders req
  accounted px ctx peer (upstreamSteps px ctx.rule req)

/-- A request that was let through: what it carried, whom it was taken for, and
the head sent upstream. -/
structure Sent where
  ctx : Ctx
  consumer : Option Consumer
  head : Except Unsent RequestHeader

def forward (px : GapuraProxy) (rt : Runtime) (conn : Conn) (ids : Ids) (nowMs : Nat)
    (raw : RequestHeader) (s : State) : Option Sent :=
  match requestFilter px rt conn ids nowMs raw s with
  | (.proxied ctx, s) => some { ctx, consumer := s.consumer
                                head := upstreamRequestFilter px rt ctx s.consumer conn.peer
                                  (received px raw) }
  | _ => none

/-! ## What a request that was let through went by -/

structure Passed (px : GapuraProxy) (rt : Runtime) (conn : Conn) (ids : Ids) (raw : RequestHeader)
    (sent : Sent) (hit : Matcher.PortMatch) (chain : Chain) : Prop where
  extracted : extracted px (received px raw) = .ok sent.ctx.extracted
  «matches» : Matcher.matchPortWith rt.config conn.port sent.ctx.extracted.attrs rt.regexes =
    some hit
  compiles : compile hit.rule = .ok chain
  rule : sent.ctx.rule = hit.rule
  listener : sent.ctx.listener = hit.listenerIndex
  matched : sent.ctx.matched = hit.entry.matcher.path
  scheme : sent.ctx.scheme = schemeOf hit.listener.protocol
  requestId : sent.ctx.requestId =
    requestIdOf { raw with headers := dropTunnellingUpgrade raw.headers } ids
  traceparent : sent.ctx.traceparent =
    traceparentOf px { raw with headers := dropTunnellingUpgrade raw.headers } ids
  head : sent.head =
    upstreamRequestFilter px rt sent.ctx sent.consumer conn.peer (received px raw)

theorem passed_of_forward {px : GapuraProxy} {rt : Runtime} {conn : Conn} {ids : Ids}
    {nowMs : Nat} {raw : RequestHeader} {s : State} {sent : Sent}
    (h : forward px rt conn ids nowMs raw s = some sent) :
    ∃ hit chain, Passed px rt conn ids raw sent hit chain := by
  unfold forward at h
  split at h
  swap
  · cases h
  next ctx s' hfilter =>
    cases h
    simp only [requestFilter] at hfilter
    split at hfilter
    · cases hfilter
    next ex hex =>
      split at hfilter
      · cases hfilter
      split at hfilter
      · cases hfilter
      next hit hhit =>
        unfold serveHit at hfilter
        split at hfilter
        · cases hfilter
        next chain hchain =>
          split at hfilter
          · split at hfilter <;> cases hfilter
          split at hfilter
          · cases hfilter
          split at hfilter
          · cases hfilter
            exact ⟨hit, chain, hex, hhit, hchain, rfl, rfl, rfl, rfl, rfl, rfl, rfl⟩
          · cases hfilter
          · cases hfilter

end Gapura.Proxy.Upstream
