import Gapura.Core.ClientIp

/-! # The configuration the data plane serves

Plain data: what both compilers, the one from Gateway API objects and the one
from store rows, produce and what routing a request reads. Maps are ordered
maps, as in the source. Numbers of fixed width are naturals: no function here
does arithmetic that could wrap. -/
namespace Gapura.Core
open Lib.Text
open ClientIp (IpAddr Cidr)

inductive Protocol where
  | http
  | https
  deriving DecidableEq, Repr

/-! ## Matches -/

inductive PathMatch where
  | exact (value : String)
  /-- Without trailing slash, except `/` itself. -/
  | pathPrefix (value : String)
  /-- The pattern as written; the data plane compiles it into a side map. -/
  | regex (pattern : String)
  deriving DecidableEq, Repr

structure KvMatch where
  name : String
  value : String
  deriving DecidableEq, Repr

structure RouteMatch where
  path : PathMatch
  headers : List KvMatch
  query : List KvMatch
  method : Option String
  deriving DecidableEq, Repr

/-! ## Policies -/

structure JwtPolicy where
  issuer : Option String
  audience : Option String
  jwks : String
  jwksUri : Option String
  jwksCaPem : Option String
  consumerClaim : Option String
  workspace : Option String
  deriving DecidableEq, Repr

structure KeyAuthPolicy where
  header : String
  workspace : Option String
  deriving DecidableEq, Repr

structure IpRestrictionPolicy where
  allow : List Cidr
  deny : List Cidr
  deriving DecidableEq, Repr

structure AuthPolicy where
  anonymous : Option String
  workspace : Option String
  deriving DecidableEq, Repr

structure AclPolicy where
  allow : List String
  deny : List String
  deriving DecidableEq, Repr

structure RequestSizeLimitPolicy where
  maxBytes : Nat
  deriving DecidableEq, Repr

/-- Edits in one order for every list: remove, rename, replace, add, append. -/
structure HeaderEdits where
  remove : List String := []
  rename : List (String × String) := []
  replace : List (String × String) := []
  add : List (String × String) := []
  append : List (String × String) := []
  deriving DecidableEq, Repr

/-- How many edits there are, over all five lists. -/
def HeaderEdits.len (edits : HeaderEdits) : Nat :=
  edits.remove.length + edits.rename.length + edits.replace.length + edits.add.length +
    edits.append.length

structure RequestTransformerPolicy where
  headers : HeaderEdits
  query : HeaderEdits
  deriving DecidableEq, Repr

structure ResponseTransformerPolicy where
  headers : HeaderEdits
  deriving DecidableEq, Repr

structure CorsPolicy where
  origins : List String
  methods : List String
  headers : List String
  exposeHeaders : List String
  credentials : Bool
  maxAge : Option Nat
  preflightContinue : Bool
  deriving DecidableEq, Repr

inductive Plugin where
  | jwt (policy : JwtPolicy)
  | keyAuth (policy : KeyAuthPolicy)
  | ipRestriction (policy : IpRestrictionPolicy)
  | requestSizeLimit (policy : RequestSizeLimitPolicy)
  | requestTransformer (policy : RequestTransformerPolicy)
  | responseTransformer (policy : ResponseTransformerPolicy)
  | cors (policy : CorsPolicy)
  | auth (policy : AuthPolicy)
  | acl (policy : AclPolicy)
  deriving DecidableEq, Repr

/-- The tag the wire carries; two policies of one kind compete for a route. -/
inductive Kind where
  | jwt | keyAuth | ipRestriction | requestSizeLimit | requestTransformer
  | responseTransformer | cors | auth | acl
  deriving DecidableEq, Repr

def Plugin.kind : Plugin → Kind
  | .jwt _ => .jwt
  | .keyAuth _ => .keyAuth
  | .ipRestriction _ => .ipRestriction
  | .requestSizeLimit _ => .requestSizeLimit
  | .requestTransformer _ => .requestTransformer
  | .responseTransformer _ => .responseTransformer
  | .cors _ => .cors
  | .auth _ => .auth
  | .acl _ => .acl

/-- What the wire and a policy row call it. -/
def Kind.tag : Kind → String
  | .jwt => "jwt"
  | .keyAuth => "key_auth"
  | .ipRestriction => "ip_restriction"
  | .requestSizeLimit => "request_size_limit"
  | .requestTransformer => "request_transformer"
  | .responseTransformer => "response_transformer"
  | .cors => "cors"
  | .auth => "auth"
  | .acl => "acl"

theorem Kind.tag_inj {a b : Kind} (h : a.tag = b.tag) : a = b := by
  cases a <;> cases b <;> first | rfl | exact absurd h (by decide)

/-- Where in a request a plugin runs. -/
inductive Phase where
  | access | upstreamRequest | requestBody | response | terminate
  deriving DecidableEq, Repr

/-- How a plugin reads a body. -/
inductive Body where
  | none
  | stream
  | buffered (max : Nat)
  deriving DecidableEq, Repr

def Plugin.phases : Plugin → List Phase
  | .jwt _ | .ipRestriction _ | .acl _ => [.access]
  | .keyAuth _ => [.access, .upstreamRequest]
  | .requestSizeLimit _ => [.access, .requestBody]
  | .requestTransformer _ => [.upstreamRequest]
  | .responseTransformer _ => [.response]
  | .cors _ => [.access, .response]
  -- no step of its own: it decides how the credential policies' step is built
  | .auth _ => []

def Plugin.body : Plugin → Body
  | .requestSizeLimit _ => .stream
  | _ => .none

/-! ## Rules, listeners and the port tables -/

inductive LimitBy where
  | ip
  | consumer
  | header (name : String)
  deriving DecidableEq, Repr

structure RateLimit where
  limit : Nat
  windowMs : Nat
  limitBy : LimitBy
  deriving DecidableEq, Repr

structure HeaderOps where
  set : List (String × String) := []
  add : List (String × String) := []
  remove : List String := []
  deriving DecidableEq, Repr

inductive PathRewrite where
  | replaceFullPath (value : String)
  | replacePrefixMatch (value : String)
  deriving DecidableEq, Repr

structure Redirect where
  scheme : Option String
  hostname : Option String
  port : Option Nat
  status : Nat
  path : Option PathRewrite
  deriving DecidableEq, Repr

structure Rewrite where
  hostname : Option String
  path : Option PathRewrite
  deriving DecidableEq, Repr

structure Mirror where
  cluster : String
  deriving DecidableEq, Repr

structure Filters where
  requestHeaders : HeaderOps := {}
  responseHeaders : HeaderOps := {}
  redirect : Option Redirect := none
  rewrite : Option Rewrite := none
  mirror : Option Mirror := none
  deriving DecidableEq, Repr

/-- `cluster = none` is an invalid backend reference: its share of the traffic
is answered 500. -/
structure WeightedBackend where
  cluster : Option String
  weight : Nat
  deriving DecidableEq, Repr

structure Timeouts where
  requestMs : Option Nat := none
  backendRequestMs : Option Nat := none
  connectMs : Option Nat := none
  deriving DecidableEq, Repr

structure RouteRule where
  route : String
  ruleIndex : Nat
  creationTimestamp : String
  «matches» : List RouteMatch
  filters : Filters
  backends : List WeightedBackend
  timeouts : Timeouts
  rateLimit : Option RateLimit
  plugins : List Plugin
  deriving DecidableEq, Repr

structure TlsBundle where
  secret : String
  certPem : String
  keyPem : String
  deriving DecidableEq, Repr

structure ListenerConfig where
  id : String
  port : Nat
  clientPort : Option Nat
  protocol : Protocol
  hostname : Option String
  tls : Option TlsBundle
  rules : List RouteRule
  deriving DecidableEq, Repr

/-- One match of one listener in a port's table. `listener` indexes the
configuration's listeners, `rule` that listener's rules. -/
structure PortEntry where
  listener : Nat
  hostname : Option String
  matcher : RouteMatch
  rule : Nat
  deriving DecidableEq, Repr

/-- What translation collects for one listener before the port index is built. -/
structure MatchEntry where
  hostname : Option String
  matcher : RouteMatch
  rule : Nat
  deriving DecidableEq, Repr

/-! ## Clusters -/

structure ClusterTls where
  sni : String
  caPem : Option String
  insecure : Bool
  deriving DecidableEq, Repr

structure ResolveTarget where
  host : String
  port : Nat
  deriving DecidableEq, Repr

structure Endpoint where
  address : String
  port : Nat
  deriving DecidableEq, Repr

structure Cluster where
  endpoints : List Endpoint
  tls : Option ClusterTls
  resolve : Option ResolveTarget
  deriving DecidableEq, Repr

/-- One consumer's own limits: by route id, and on every other route. -/
structure ConsumerRateLimits where
  routes : Std.TreeMap String RateLimit := ∅
  any : Option RateLimit := none

structure Config where
  listeners : List ListenerConfig
  ports : Std.TreeMap Nat (List PortEntry)
  clusters : Std.TreeMap String Cluster
  /-- Digest of an API key to the consumer it was issued to. -/
  credentials : Std.TreeMap String String
  /-- Digest of an API key to the workspace of its consumer. -/
  credentialWorkspaces : Std.TreeMap String String
  consumerRateLimits : Std.TreeMap String ConsumerRateLimits
  /-- Consumer id to its groups. -/
  consumers : Std.TreeMap String (List String)

/-- The limit for a request `rule` matched, and whether it is the consumer's
own: the consumer's on the route, else the consumer's on every route, else the
rule's. -/
def Config.rateLimitFor (config : Config) (rule : RouteRule) (consumer : Option String) :
    Option (RateLimit × Bool) :=
  let own := consumer.bind fun c => config.consumerRateLimits[c]?.bind fun limits =>
    (limits.routes[rule.route]?).or limits.any
  match own with
  | some limit => some (limit, true)
  | none => rule.rateLimit.map fun limit => (limit, false)

/-! ## What a policy refuses -/

/-- Deny first, then the allow list; no address at all is refused. -/
def IpRestrictionPolicy.refusal (p : IpRestrictionPolicy) : Option IpAddr → Option String
  | none => some "no_address"
  | some ip =>
    if p.deny.any fun net => net.contains ip then some "denied"
    else if !p.allow.isEmpty && !p.allow.any fun net => net.contains ip then some "not_allowed"
    else none

/-- No groups at all, because no policy identified the caller, is refused. -/
def AclPolicy.refusal (p : AclPolicy) : Option (List String) → Option String
  | none => some "no_consumer"
  | some groups =>
    if groups.any fun g => p.deny.contains g then some "denied"
    else if !p.allow.isEmpty && !groups.any fun g => p.allow.contains g then some "not_allowed"
    else none

/-- One label in place of the `*`: lowercase letters, digits and hyphens. -/
def originLabel (label : List Char) : Bool :=
  !label.isEmpty && label.all fun c => ('a' ≤ c && c ≤ 'z') || c.isDigit || c == '-'

def originMatches (origin entry : String) : Bool :=
  match entry.toList.dropInfix? ['*', '.'] with
  | some (scheme, tail) =>
    match (origin.toList.dropPrefix? scheme).bind fun rest =>
        (rest.dropSuffix? tail).bind fun label => label.dropSuffix? ['.'] with
    | some label => originLabel label
    | none => false
  | none => entry == origin

/-- The `Access-Control-Allow-Origin` for a lowercased origin, `none` when the
policy does not allow it. -/
def CorsPolicy.allowed (p : CorsPolicy) (origin : String) : Option String :=
  if origin == "null" then none
  else if p.origins.any (· == "*") then some "*"
  else if p.origins.any (originMatches origin) then some origin
  else none

end Gapura.Core
