import Gapura.Proxy.Plugin

/-! # Running the access steps

What a step reads is the gateway's settings, the configuration generation, the
rule and the request; what it may change is the consumer and the cors verdict
recorded for the request, the limiter's table, and the flag that asks for the
JWKS documents to be fetched again. -/
namespace Gapura.Proxy.Access
open Gapura.Core Core.ClientIp Lib.Headers Lib.Text Proxy.Plugin
open Proxy.RateLimit (Table)

/-- The gateway's own settings, and what it takes from crates and the standard
library: digests, reading an address, reading bytes as text, and tokens. -/
structure Gateway where
  sha256 : List UInt8 → List UInt8
  parseIp : String → Option IpAddr
  fromUtf8Lossy : List UInt8 → String
  jwt : Jwt.JwtCrate
  trustedProxies : List Cidr := []
  trustedClientHeaders : List String := []

/-- One generation of the configuration, with what was compiled from it. -/
structure Runtime where
  config : Config
  regexes : Matcher.RegexMap := ∅
  jwtKeys : Std.TreeMap String Jwt.Keys := ∅

/-- What the steps of one request read. -/
structure Env where
  gw : Gateway
  rt : Runtime
  rule : RouteRule
  req : RequestHeader
  peer : Option IpAddr
  nowMs : Nat

/-- What the steps of one request may change. -/
structure State where
  consumer : Option Consumer := none
  cors : Option Cors := none
  limiter : Table
  jwksKidMiss : Bool

def refuse (key : ErrorKey) (headers : List (String × String)) : Flow := .fail ⟨key, headers⟩

/-! ## The client's address -/

/-- Every `X-Forwarded-For` line, joined. -/
def forwardedFor (gw : Gateway) (req : RequestHeader) : Option String :=
  match req.headers.getAll "x-forwarded-for" with
  | [] => none
  | lines => some (joined (lines.map gw.fromUtf8Lossy))

def clientIpOf (gw : Gateway) (req : RequestHeader) (peer : IpAddr) : IpAddr :=
  clientIp gw.parseIp peer (forwardedFor gw req) gw.trustedProxies
    (gw.trustedClientHeaders.findSome? (headerStr req))

def clientOf (env : Env) : Option IpAddr := env.peer.map (clientIpOf env.gw env.req)

/-! ## Credentials -/

/-- Why a credential policy refused a request. -/
structure Refused where
  key : ErrorKey
  reason : String
  headers : List (String × String)
  deriving DecidableEq, Repr

/-- The request carries no credential of this policy's kind. -/
def Refused.missing (r : Refused) : Bool :=
  r.key == .authJwtMissing || r.key == .authKeyMissing

abbrev Verdict := Except Refused (Option Consumer)

def jwtKey : Jwt.Refusal → ErrorKey
  | .missing => .authJwtMissing
  | .malformed | .unknownKey | .badSignature | .claims => .authJwtInvalid

def credentialKey : Credentials.Refusal → ErrorKey
  | .missing => .authKeyMissing
  | .unknown => .authKeyInvalid

def credentialReason : Credentials.Refusal → String
  | .missing => "missing"
  | .unknown => "unknown"

/-- The key, the reason and the challenge a token is refused with. One
Authorization line per request, whatever its shape. -/
def jwtVerdict (crate : Jwt.JwtCrate) (req : RequestHeader) (policy : JwtPolicy)
    (keys : Jwt.Keys) : Except (ErrorKey × String × String) Jwt.Claims :=
  let lines := req.headers.getAll "authorization"
  if 1 < lines.length then
    .error (.authJwtInvalid, "multiple_bearer", "Bearer error=\"invalid_request\"")
  else
    let presented := Jwt.bearer (lines.head?.bind toStr)
    if presented.isSome && keys.usable == 0 then .error (.authUnavailable, "no_keys", "Bearer")
    else match Jwt.verify crate policy keys presented with
      | .ok claims => .ok claims
      | .error r => .error (jwtKey r, r.asStr, "Bearer")

/-- The consumer a policy's `consumer_claim` names, when the configuration holds it. -/
def claimed (config : Config) (policy : JwtPolicy) (claims : Jwt.Claims) (claim : String) :
    Option Consumer :=
  ((claims claim).map fun name =>
    { name, id := Credentials.consumerId (policy.workspace.getD "") name
      anonymous := false }).filter fun c => config.consumers.contains c.id

/-- A jwt policy's verdict, and whether it asks for the keys to be fetched again. -/
def checkJwt (env : Env) (policy : JwtPolicy) : Verdict × Bool :=
  let keys := (env.rt.jwtKeys[policy.jwks]?).getD {}
  match jwtVerdict env.gw.jwt env.req policy keys with
  | .error (key, reason, challenge) =>
    let headers := match key with
      | .authUnavailable => [("Retry-After", "30")]
      | _ => [("WWW-Authenticate", challenge)]
    (.error ⟨key, reason, headers⟩,
      policy.jwksUri.isSome && reason == Jwt.Refusal.unknownKey.asStr)
  | .ok claims => match policy.consumerClaim with
    | none => (.ok none, false)
    | some claim => match claimed env.rt.config policy claims claim with
      | some c => (.ok (some c), false)
      | none =>
        (.error ⟨.authJwtInvalid, "unknown_consumer", [("WWW-Authenticate", "Bearer")]⟩, false)

/-- A key_auth policy's verdict, from the first line of its header. A line that
is there and does not read as text is a key nobody was issued. -/
def checkKey (env : Env) (policy : KeyAuthPolicy) : Verdict :=
  let refused := fun (r : Credentials.Refusal) => (.error
    ⟨credentialKey r, credentialReason r,
      [("WWW-Authenticate", "Key realm=\"" ++ policy.header ++ "\"")]⟩ : Verdict)
  let identify := fun (presented : Option String) =>
    match Credentials.identify (fun key => env.gw.sha256 (bytes key)) env.rt.config presented
        policy.workspace with
    | .ok name => .ok (some { name, id := Credentials.consumerId (policy.workspace.getD "") name
                              anonymous := false })
    | .error r => refused r
  match env.req.headers.get policy.header with
  | none => identify none
  | some line => match toStr line with
    | some key => identify (some key)
    | none => refused .unknown

/-- Go on with the consumer the verdict names, if it names one, or refuse. -/
def settle (verdict : Verdict) (s : State) : Flow × State :=
  match verdict with
  | .ok none => (.continue, s)
  | .ok (some consumer) => (.continue, { s with consumer := some consumer })
  | .error r => (refuse r.key r.headers, s)

def asked (s : State) (refresh : Bool) : State :=
  { s with jwksKidMiss := s.jwksKidMiss || refresh }

/-- Neither policy of a chain found its credential: the anonymous consumer, or
a refusal with the challenges of those that were asked. -/
def nobody (env : Env) (anonymous : Option Consumer) (absent : List Refused) (s : State) :
    Flow × State :=
  match anonymous.filter fun a => env.rt.config.consumers.contains a.id with
  | some a => (.continue, { s with consumer := some a })
  | none => match absent with
    | [r] => (refuse r.key r.headers, s)
    | _ => (refuse .authMissing (absent.flatMap Refused.headers), s)

/-- The key_auth half of a chain, `absent` holding the jwt policy's refusal. -/
def anyOfKey (env : Env) (any : AnyOf) (absent : List Refused) (s : State) : Flow × State :=
  match any.keyAuth with
  | none => nobody env any.anonymous absent s
  | some policy => match checkKey env policy with
    | .error r => if r.missing then nobody env any.anonymous (absent ++ [r]) s
      else settle (.error r) s
    | verdict => settle verdict s

/-- The first policy that finds its credential decides, jwt asked first. -/
def anyOf (env : Env) (any : AnyOf) (s : State) : Flow × State :=
  match any.jwt with
  | none => anyOfKey env any [] s
  | some policy =>
    let (verdict, refresh) := checkJwt env policy
    let s := asked s refresh
    match verdict with
    | .error r => if r.missing then anyOfKey env any [r] s else settle (.error r) s
    | verdict => settle verdict s

/-! ## The other steps -/

/-- The one origin a request names, when it reads as text. -/
def originOf (req : RequestHeader) : Option String :=
  match req.headers.getAll "origin" with
  | [line] => (toStr line).map toAsciiLowercase
  | _ => none

def isPreflight (req : RequestHeader) : Bool :=
  req.method == "OPTIONS" && req.headers.containsKey "origin" &&
    req.headers.containsKey "access-control-request-method"

/-- Whatever headers the preflight asks for. -/
def allowAsked (req : RequestHeader) (m : HeaderMap) : HeaderMap :=
  (req.headers.getAll "access-control-request-headers").foldl
    (fun m line => m.append "Access-Control-Allow-Headers" line) m

/-- The answer to a preflight from an origin the policy allows. -/
def preflightAnswer (policy : CorsPolicy) (req : RequestHeader) (allow : String) :
    ResponseHeader :=
  let resp := ({ status := 204 } : ResponseHeader).insertHeader "Access-Control-Allow-Origin" allow
  let resp := if policy.credentials then
    resp.insertHeader "Access-Control-Allow-Credentials" "true" else resp
  let resp := if policy.methods.isEmpty then resp else
    resp.insertHeader "Access-Control-Allow-Methods" (joined policy.methods)
  let resp := if policy.headers.isEmpty then
    { resp with headers := allowAsked req resp.headers }
    else resp.insertHeader "Access-Control-Allow-Headers" (joined policy.headers)
  let resp := match policy.maxAge with
    | some maxAge => resp.insertHeader "Access-Control-Max-Age" (toString maxAge)
    | none => resp
  resp.insertHeader "Vary" (if policy.headers.isEmpty then
    "Origin, Access-Control-Request-Headers" else "Origin")

def cors (policy : CorsPolicy) (req : RequestHeader) (s : State) : Flow × State :=
  let allow := (originOf req).bind policy.allowed
  if !isPreflight req || policy.preflightContinue then
    (.continue, { s with cors := some (.pass allow (isPreflight req)) })
  else match allow with
    | none => (refuse .corsOriginForbidden [], { s with cors := some (.pass none false) })
    | some allow => (.respond (preflightAnswer policy req allow), { s with cors := some .answered })

def contentLength (req : RequestHeader) : Option Nat :=
  (headerStr req "content-length").bind fun v => parseUnsigned 64 (trim v)

/-- The groups of the consumer identified, none of them when the configuration
lists none. -/
def groupsOf (config : Config) (consumer : Option Consumer) : Option (List String) :=
  consumer.map fun c => (config.consumers[c.id]?).getD []

/-- The request limit, or the consumer's own, which counts apart. -/
def limit (env : Env) (s : State) : Flow × State :=
  let consumer := s.consumer.map Consumer.id
  match env.rt.config.rateLimitFor env.rule consumer with
  | none => (.continue, s)
  | some (rl, own) =>
    let route := env.rule.route ++ "#" ++ toString env.rule.ruleIndex
    let window := match own, consumer with
      | true, some consumer => route ++ "@" ++ consumer
      | _, _ => route
    let ip := clientOf env
    match RateLimit.client env.gw.sha256 rl.limitBy ip consumer env.req.headers with
    | none => (.continue, s)
    | some client =>
      let (outcome, limiter) := RateLimit.checkAt s.limiter window client ip rl env.nowMs
      let s := { s with limiter }
      match outcome with
      | .allowed => (.continue, s)
      | .limited limit retryAfterSecs => (refuse .rateLimited
          [("Retry-After", toString retryAfterSecs), ("X-RateLimit-Limit", toString limit),
            ("X-RateLimit-Remaining", "0")], s)

def run (env : Env) (s : State) : Access → Flow × State
  | .cors policy => cors policy env.req s
  | .jwt policy =>
    let (verdict, refresh) := checkJwt env policy
    settle verdict (asked s refresh)
  | .keyAuth policy => settle (checkKey env policy) s
  | .anyOf any => anyOf env any s
  | .acl policy => match policy.refusal (groupsOf env.rt.config s.consumer) with
    | none => (.continue, s)
    | some _ => (refuse .aclForbidden [], s)
  | .ipRestriction policy => match policy.refusal (clientOf env) with
    | none => (.continue, s)
    | some _ => (refuse .ipForbidden [], s)
  | .sizeLimit max => if (contentLength env.req).any fun len => max < len then
      (refuse .requestTooLarge [], s) else (.continue, s)
  | .rateLimit => limit env s

/-- The steps in order, up to the first that does not continue. -/
def runAll (env : Env) (s : State) : List Access → Flow × State
  | [] => (.continue, s)
  | step :: rest => match run env s step with
    | (.continue, s) => runAll env s rest
    | answered => answered

def access (env : Env) (chain : Chain) (s : State) : Flow × State := runAll env s chain.access

end Gapura.Proxy.Access
