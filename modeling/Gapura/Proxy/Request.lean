import Gapura.Core.Path
import Gapura.Proxy.Access
import Gapura.Proxy.Select
import Gapura.Proxy.Transform

/-! # A request up to its upstream

The request's ids, the attributes it is matched on, the match, and the rule's
access steps. A request that cannot be routed, matches nothing, or matches a
rule whose plugins cannot all run is refused before any step. -/
namespace Gapura.Proxy.Request
open Gapura.Core Core.ClientIp Lib.Headers Lib.Text Proxy.Plugin Proxy.Access Select
open Core.Matcher (RequestAttrs PortMatch matchPortWith)

/-- The gateway with the parts only routing and forwarding read. Texts of
addresses, reading a URI and form text are the standard library's and the http and
form_urlencoded crates'. -/
structure GapuraProxy where
  gw : Gateway
  ipv6Text : String → Option String
  ipText : IpAddr → String
  parseUri : String → Option Uri
  /-- A URI with another path and query. -/
  setPathAndQuery : Uri → String → Option Uri
  form : Transform.Form
  debugToken : Option (List UInt8) := none
  /-- Whether spans are exported, which makes the gateway a hop of the trace. -/
  traces : Bool := false

/-- What the gateway generates at random for one request. -/
structure Ids where
  requestId : String
  traceId : String
  spanId : String
  sampled : Bool
  roll : Nat → Nat

structure Conn where
  port : Nat
  peer : Option IpAddr

/-! ## Ids -/

def requestIdOk (v : String) : Bool :=
  !v.isEmpty && decide (len v ≤ 128) && v.toList.all fun c => '!' ≤ c && c ≤ '~'

def requestIdOf (req : RequestHeader) (ids : Ids) : String :=
  ((headerStr req "x-request-id").filter requestIdOk).getD ids.requestId

def allHex (s : String) : Bool := !s.isEmpty && s.toList.all Char.isHexDigit

def isValidTraceparent (tp : String) : Bool :=
  match splitOn '-' tp with
  | [version, trace, span, flags] =>
    version == "00" && len trace == 32 && allHex trace &&
      trace != "00000000000000000000000000000000" &&
      len span == 16 && allHex span && span != "0000000000000000" &&
      len flags == 2 && allHex flags
  | _ => false

/-- Without spans a valid incoming value goes on unchanged. -/
def traceparent (existing : Option String) (ids : Ids) : String :=
  (existing.filter isValidTraceparent).getD ("00-" ++ ids.traceId ++ "-" ++ ids.spanId ++ "-01")

/-- The two flags W3C defines, of a byte in hex. -/
def flagsOf (hex : String) : Nat :=
  (hex.toList.foldl (fun acc c => 16 * acc + Path.hexValue c) 0) % 4

/-- With spans the caller's trace goes on under the gateway's own span. -/
def spanTraceparent (incoming : Option String) (ids : Ids) : String :=
  match incoming.filter isValidTraceparent with
  | some tp => match splitOn '-' tp with
    | [_, trace, _, flags] => "00-" ++ toAsciiLowercase trace ++ "-" ++ ids.spanId ++ "-0" ++
        toString (flagsOf flags)
    | _ => ""
  | none => "00-" ++ ids.traceId ++ "-" ++ ids.spanId ++ (if ids.sampled then "-01" else "-00")

def traceparentOf (px : GapuraProxy) (req : RequestHeader) (ids : Ids) : String :=
  if px.traces then spanTraceparent (headerStr req "traceparent") ids
  else traceparent (headerStr req "traceparent") ids

/-! ## What a request is matched on -/

/-- Lowercase, without a port or one trailing dot; `none` for a host that is
empty, holds a `*` or has an empty label. -/
def normalizeHost (px : GapuraProxy) (raw : String) : Option String :=
  let trimmed := (trim raw).toList
  match trimmed.dropPrefix? ['['] with
  | some rest => match rest.dropInfix? [']'] with
    | none => none
    | some (inner, after) =>
      let port := (after.dropPrefix? [':']).getD after
      if !after.isEmpty && !port.all Char.isDigit then none
      else (px.ipv6Text (String.ofList inner)).map fun addr => "[" ++ addr ++ "]"
  | none =>
    let withoutPort := match trimmed.reverse.dropInfix? [':'] with
      | some (port, host) => if port.all Char.isDigit then host.reverse else trimmed
      | none => trimmed
    let host := lower ((withoutPort.dropSuffix? ['.']).getD withoutPort)
    if host.isEmpty || host.contains '*' || (host.splitOn '.').any List.isEmpty then none
    else some (String.ofList host)

/-- A host the backend may read differently from the one matched is refused. -/
def hostOf (px : GapuraProxy) (req : RequestHeader) : Except String (Option String) :=
  let lines := req.headers.getAll "host"
  if 1 < lines.length then .error "more than one Host header"
  else
    let fromLine := (lines.head?.bind toStr).bind (normalizeHost px)
    match req.uri.host with
    | none => .ok fromLine
    | some authority =>
      let fromTarget := normalizeHost px authority
      if !lines.isEmpty && fromLine != fromTarget then
        .error "the Host header disagrees with the request target"
      else .ok fromTarget

def parseQuery (q : String) : List (String × String) :=
  ((splitOn '&' q).filter fun kv => !kv.isEmpty).map fun kv => (splitOnce "=" kv).getD (kv, "")

structure Extracted where
  host : String
  path : String
  pathNormalized : Bool
  queryString : Option String
  method : String
  headers : List (String × String)
  query : List (String × String)
  deriving DecidableEq, Repr

def extracted (px : GapuraProxy) (req : RequestHeader) : Except String Extracted :=
  match hostOf px req with
  | .error e => .error e
  | .ok host => match Path.normalizePath req.uri.path with
    | .error e => .error e
    | .ok path => .ok
      { host := host.getD "", path, pathNormalized := path != req.uri.path
        queryString := req.uri.query, method := req.method
        headers := req.headers.lines.map fun line =>
          (toAsciiLowercase line.1, px.gw.fromUtf8Lossy line.2)
        query := (req.uri.query.map parseQuery).getD [] }

def Extracted.attrs (ex : Extracted) : RequestAttrs :=
  { host := ex.host, path := ex.path, method := ex.method, headers := ex.headers
    query := ex.query }

/-- Whether the path with its `;params` stripped would match another rule. -/
def pathParamsChangeTheRoute (rt : Runtime) (port : Nat) (ex : Extracted) : Bool :=
  match Path.withoutPathParams ex.path with
  | none => false
  | some stripped =>
    let ruleFor := fun (path : String) =>
      (matchPortWith rt.config port { ex.attrs with path } rt.regexes).map fun hit =>
        (hit.listenerIndex, hit.entry.rule)
    ruleFor ex.path != ruleFor stripped

/-! ## The filter -/

/-- The one upgrade offered is `websocket`. -/
def offersWebsocket (m : HeaderMap) : Bool :=
  match m.getAll "upgrade" with
  | [v] => (toStr v).any fun s => eqIgnoreAsciiCase s "websocket"
  | _ => false

/-- Drops an `Upgrade` offer unless it is exactly `websocket`. -/
def dropTunnellingUpgrade (m : HeaderMap) : HeaderMap :=
  (if offersWebsocket m then m else m.remove "upgrade").remove "http2-settings"

def debugHeader : String := "x-gapura-debug-token"

/-- The request as every later step sees it. -/
def received (px : GapuraProxy) (req : RequestHeader) : RequestHeader :=
  let headers := dropTunnellingUpgrade req.headers
  { req with headers := if px.debugToken.isSome then headers.remove debugHeader else headers }

/-- What a request carries to its upstream. -/
structure Ctx where
  requestId : String
  traceparent : String
  extracted : Extracted
  scheme : String
  listener : Nat
  rule : RouteRule
  matched : PathMatch
  cluster : String

inductive Outcome where
  | refused (key : ErrorKey) (headers : List (String × String))
  | answered (resp : ResponseHeader)
  | proxied (ctx : Ctx)
  /-- A panic of the source. -/
  | crashed

def schemeOf : Protocol → String
  | .https => "https"
  | .http => "http"

/-- The cluster a rule's traffic goes to, when it has an endpoint. -/
def clusterFor (rt : Runtime) (rule : RouteRule) (ids : Ids) : Except Local String :=
  match pickBackend rule.backends ids.roll with
  | .error l => .error l
  | .ok key => match rt.config.clusters[key]? with
    | none => .error .noBackend
    | some cluster => if cluster.endpoints.isEmpty then .error .noEndpoints else .ok key

/-- A request whose rule was found: a rule whose plugins cannot all run must
not answer as though they had. -/
def serveHit (px : GapuraProxy) (rt : Runtime) (conn : Conn) (ids : Ids) (nowMs : Nat)
    (req : RequestHeader) (requestId traceparent : String) (ex : Extracted) (hit : PortMatch)
    (s : State) : Outcome × State :=
  match compile hit.rule with
  | .error _ => (.refused .internalError [], s)
  | .ok chain => match hit.rule.filters.redirect with
    | some redirect =>
      match redirectLocation redirect (schemeOf hit.listener.protocol) ex.host
          (hit.listener.clientPort.getD conn.port) ex.path ex.queryString
          hit.entry.matcher.path with
      | none => (.crashed, s)
      | some location => (.answered ((({ status := redirect.status } : ResponseHeader).insertHeader
          "Location" location).insertHeader "Content-Length" "0"), s)
    | none => match clusterFor rt hit.rule ids with
      | .error l => (.refused l.key [], s)
      | .ok cluster =>
        match access ⟨px.gw, rt, hit.rule, req, conn.peer, nowMs⟩ chain s with
        | (.continue, s) => (.proxied
            { requestId, traceparent, extracted := ex, scheme := schemeOf hit.listener.protocol
              listener := hit.listenerIndex, rule := hit.rule
              matched := hit.entry.matcher.path, cluster }, s)
        | (.respond resp, s) => (.answered resp, s)
        | (.fail failure, s) => (.refused failure.key failure.headers, s)

def requestFilter (px : GapuraProxy) (rt : Runtime) (conn : Conn) (ids : Ids) (nowMs : Nat)
    (raw : RequestHeader) (s : State) : Outcome × State :=
  let ided := { raw with headers := dropTunnellingUpgrade raw.headers }
  let req := received px raw
  match extracted px req with
  | .error _ => (.refused .invalidRequestTarget [], s)
  | .ok ex =>
    if pathParamsChangeTheRoute rt conn.port ex then (.refused .invalidRequestTarget [], s)
    else match matchPortWith rt.config conn.port ex.attrs rt.regexes with
      | none => (.refused .noRoute [], s)
      | some hit => serveHit px rt conn ids nowMs req (requestIdOf ided ids)
          (traceparentOf px ided ids) ex hit s

end Gapura.Proxy.Request
