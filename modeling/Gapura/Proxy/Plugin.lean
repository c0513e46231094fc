import Gapura.Core.Credentials
import Gapura.Core.Matcher
import Gapura.Proxy.Jwt
import Gapura.Proxy.RateLimit

/-! # A rule's plugins

Each rule's plugins are compiled into one list of steps per phase. A step says
by value what happens next; the access steps run in the order of their rank, up
to the first that does not continue. Metrics and debug timing are left out. -/
namespace Gapura.Proxy.Plugin
open Gapura.Core Core.ClientIp Lib.Headers Lib.Ordered Lib.Text
open Proxy.RateLimit (Table)

/-- Why the gateway answered a request itself. -/
inductive ErrorKey where
  | invalidRequestTarget | noRoute | noBackend | noEndpoints
  | authKeyMissing | authKeyInvalid | authJwtMissing | authJwtInvalid | authMissing
  | authUnavailable | unauthorized | rateLimited | ipForbidden | requestTooLarge
  | corsOriginForbidden | aclForbidden
  | upstreamConnectTimeout | upstreamTimeout | upstreamConnectError | upstreamTlsError
  | upstreamError | internalError
  deriving DecidableEq, Repr

structure ResponseHeader where
  status : Nat
  headers : HeaderMap := {}
  deriving DecidableEq, Repr

/-- A write that cannot be made is dropped. -/
def ResponseHeader.insertHeader (resp : ResponseHeader) (name value : String) : ResponseHeader :=
  match ofStr value with
  | some v => { resp with headers := resp.headers.insert name v }
  | none => resp

/-- Why a step refused a request, and what that kind of answer adds. -/
structure Failure where
  key : ErrorKey
  headers : List (String × String)
  deriving DecidableEq, Repr

/-- What a step decided. -/
inductive Flow where
  | «continue»
  | respond (resp : ResponseHeader)
  | fail (failure : Failure)
  deriving DecidableEq, Repr

structure Consumer where
  name : String
  /-- `workspace/username`, unique everywhere. -/
  id : String
  /-- The auth policy's anonymous consumer: no credential was presented. -/
  anonymous : Bool
  deriving DecidableEq, Repr

/-- What a cors policy's access step decided, for its response step. -/
inductive Cors where
  | answered
  | pass (allow : Option String) (preflight : Bool)
  deriving DecidableEq, Repr

structure Uri where
  /-- The host of an absolute target, or HTTP/2's authority. -/
  host : Option String := none
  path : String
  query : Option String := none
  deriving DecidableEq, Repr

structure RequestHeader where
  method : String
  uri : Uri
  headers : HeaderMap
  deriving DecidableEq, Repr

def headerStr (req : RequestHeader) (name : String) : Option String :=
  (req.headers.get name).bind toStr

/-! ## Compiling a rule -/

/-- An auth policy's chain over the rule's credential policies. -/
structure AnyOf where
  jwt : Option JwtPolicy
  keyAuth : Option KeyAuthPolicy
  anonymous : Option Consumer
  deriving DecidableEq, Repr

inductive Access where
  | cors (policy : CorsPolicy)
  | jwt (policy : JwtPolicy)
  | keyAuth (policy : KeyAuthPolicy)
  | anyOf (any : AnyOf)
  | acl (policy : AclPolicy)
  | ipRestriction (policy : IpRestrictionPolicy)
  | sizeLimit (max : Nat)
  | rateLimit
  deriving DecidableEq, Repr

inductive UpstreamRequest where
  | removeHeader (name : String)
  | transform (policy : RequestTransformerPolicy)
  deriving DecidableEq, Repr

inductive RequestBody where
  | sizeLimit (max : Nat)
  deriving DecidableEq, Repr

inductive Response where
  | cors (policy : CorsPolicy)
  | transform (edits : HeaderEdits)
  deriving DecidableEq, Repr

/-- The address is judged before any credential is read, credentials before the
groups of their consumer, and the limit last. -/
def Access.rank : Access → Nat
  | .cors _ => 0
  | .ipRestriction _ => 1
  | .jwt _ | .anyOf _ => 2
  | .keyAuth _ => 3
  | .acl _ => 4
  | .sizeLimit _ => 5
  | .rateLimit => 6

/-- The client's key goes before any edit could move it. -/
def UpstreamRequest.rank : UpstreamRequest → Nat
  | .removeHeader _ => 1
  | .transform _ => 2

def Response.rank : Response → Nat
  | .cors _ => 0
  | .transform _ => 1

structure Chain where
  access : List Access := []
  upstreamRequest : List UpstreamRequest := []
  requestBody : List RequestBody := []
  response : List Response := []
  deriving DecidableEq, Repr

/-- Why a rule's plugins cannot all run. -/
structure Misplaced where
  plugin : Kind
  why : String
  deriving DecidableEq, Repr

/-- A redirect is answered as soon as the rule matched, so it reaches no phase. -/
def reachable (rule : RouteRule) : List Phase :=
  if rule.filters.redirect.isSome then []
  else [.access, .upstreamRequest, .requestBody, .response, .terminate]

def misplaced (phases : List Phase) (body : Body) (reachable : List Phase) : Option String :=
  if phases.any fun p => !reachable.contains p then
    some "the rule never reaches a phase it runs in"
  else match body with
    | .none => none
    | .stream =>
      if phases.contains .requestBody then none
      else some "it reads a body as it streams, and does not run where one is fed"
    | .buffered _ => some "it reads a body whole, and no phase feeds one yet"

/-- Every name is a header name and every value written a header value. -/
def writable (edits : HeaderEdits) : Bool :=
  edits.remove.all nameOk &&
  (edits.rename.all fun p => nameOk p.1 && nameOk p.2) &&
  (edits.replace ++ edits.add ++ edits.append).all fun p => nameOk p.1 && (ofStr p.2).isSome

def unwritable (plugin : Plugin) : Misplaced :=
  ⟨plugin.kind, "it writes a header name or value HTTP does not allow"⟩

/-- The chain and the credential policies so far. -/
structure Compiling where
  chain : Chain := {}
  jwt : Option JwtPolicy := none
  keyAuth : Option KeyAuthPolicy := none

def joined (list : List String) : String := ", ".intercalate list

/-- One plugin's steps. With an auth policy on the rule the credential policies
are collected for its step. -/
def compilePlugin (reachable : List Phase) (auth : Option AuthPolicy) (acc : Compiling)
    (plugin : Plugin) : Except Misplaced Compiling :=
  match misplaced plugin.phases plugin.body reachable with
  | some why => .error ⟨plugin.kind, why⟩
  | none =>
    let chain := acc.chain
    match plugin with
    | .jwt policy =>
      if auth.isSome then .ok { acc with jwt := some policy }
      else .ok { acc with chain := { chain with access := chain.access ++ [.jwt policy] } }
    | .keyAuth policy =>
      let chain := { chain with
        upstreamRequest := chain.upstreamRequest ++ [.removeHeader policy.header] }
      if auth.isSome then .ok { acc with chain, keyAuth := some policy }
      else .ok { acc with chain := { chain with access := chain.access ++ [.keyAuth policy] } }
    | .auth _ => .ok acc
    | .ipRestriction policy =>
      .ok { acc with chain := { chain with access := chain.access ++ [.ipRestriction policy] } }
    | .requestSizeLimit policy =>
      .ok { acc with chain := { chain with
        access := chain.access ++ [.sizeLimit policy.maxBytes]
        requestBody := chain.requestBody ++ [.sizeLimit policy.maxBytes] } }
    | .requestTransformer policy =>
      if writable policy.headers then
        .ok { acc with chain := { chain with
          upstreamRequest := chain.upstreamRequest ++ [.transform policy] } }
      else .error (unwritable plugin)
    | .responseTransformer policy =>
      if writable policy.headers then
        .ok { acc with chain := { chain with
          response := chain.response ++ [.transform policy.headers] } }
      else .error (unwritable plugin)
    | .cors policy =>
      if [policy.methods, policy.headers, policy.exposeHeaders].all fun list =>
          (ofStr (joined list)).isSome then
        .ok { acc with chain := { chain with
          access := chain.access ++ [.cors policy]
          response := chain.response ++ [.cors policy] } }
      else .error (unwritable plugin)
    | .acl policy =>
      .ok { acc with chain := { chain with access := chain.access ++ [.acl policy] } }

def authOf (plugins : List Plugin) : Option AuthPolicy :=
  plugins.findSome? fun p => match p with
    | .auth policy => some policy
    | _ => none

def anonymousOf (auth : Option AuthPolicy) : Option Consumer :=
  auth.bind fun a => a.anonymous.map fun name =>
    { name, id := Credentials.consumerId (a.workspace.getD "") name, anonymous := true }

/-- An auth policy with no credential policy beside it adds no step. -/
def finish (auth : Option AuthPolicy) (acc : Compiling) : Chain :=
  let credentials : List Access :=
    if acc.jwt.isSome || acc.keyAuth.isSome then
      [.anyOf { jwt := acc.jwt, keyAuth := acc.keyAuth, anonymous := anonymousOf auth }]
    else []
  { acc.chain with
    access := sortBy (byKey Access.rank) (acc.chain.access ++ credentials) ++ [.rateLimit]
    upstreamRequest := sortBy (byKey UpstreamRequest.rank) acc.chain.upstreamRequest
    response := sortBy (byKey Response.rank) acc.chain.response }

def compile (rule : RouteRule) : Except Misplaced Chain :=
  let auth := authOf rule.plugins
  (rule.plugins.foldlM (compilePlugin (reachable rule) auth) {}).map (finish auth)

end Gapura.Proxy.Plugin
