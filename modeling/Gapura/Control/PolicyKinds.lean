import Gapura.Control.Consumers
import Gapura.Control.StoredJson

/-! # The policy kinds

Each kind's configuration as a request sends it or a row holds it: one check
reads both. What a row holds of a policy is `config`, and the check that accepted
a policy accepts that again, as the same policy. -/
namespace Gapura.Control.Policies
open Gapura.Core Lib.Text Lib.Checks Control.Configuration
open Core.ClientIp (IpAddr Cidr)

def maxNetworks : Nat := 1000
def maxBodyBytes : Nat := 1073741824
def maxOrigins : Nat := 100
def maxCorsHeaders : Nat := 64
def maxAgeSecs : Nat := 86400
def maxAclGroups : Nat := 100

/-- What a preflight is told when no methods are named. -/
def corsMethods : List String := ["GET", "HEAD", "PUT", "PATCH", "POST", "DELETE"]

/-! ## Networks -/

def width : IpAddr → Nat
  | .v4 _ => 32
  | .v6 _ => 128

/-- The text of an address and of what follows a slash. -/
def splitNetwork (s : String) : String × Option String :=
  match splitOnce "/" s with
  | some (a, b) => (a, some b)
  | none => (s, none)

section
-- How Rust prints a text that an error quotes.
variable (debug : String → String)

/-- `10.0.0.0/8`, or a bare address for a network of one. -/
def Cidr.fromStr (s : String) : Except String Cidr :=
  let text := (splitNetwork s).1
  match IpAddr.fromStr text with
  | none => .error (debug text ++ " is not an IP address")
  | some addr => match (splitNetwork s).2 with
    | none => .ok { addr, bits := width addr }
    | some b => match (parseUnsigned 32 b).filter (· ≤ width addr) with
      | some bits => .ok { addr, bits }
      | none => .error (debug b ++ " is not a prefix length for " ++ addr.display)

def Cidr.text (c : Cidr) : String := c.addr.display ++ "/" ++ toString c.bits

def network (name text : String) : Except FieldError Cidr :=
  match Cidr.fromStr debug text with
  | .ok c => .ok c
  | .error e => .error ⟨name, e ++ ". Write an address such as 203.0.113.7 or a network such " ++
      "as 10.0.0.0/8."⟩

/-- Two lists of text, each empty when absent. -/
def allowAndDeny (config : Json) : Option (List String × List String) := do
  let input ← config.strictRecordOf ["allow", "deny"]
  let allow ← Json.absentOr [] Json.texts (input.lookup "allow")
  let deny ← Json.absentOr [] Json.texts (input.lookup "deny")
  return (allow, deny)

def ipRestriction (config : Json) : Except FieldError IpRestrictionPolicy :=
  match allowAndDeny config with
  | none => .error ⟨"config",
      "Send allow and deny, each a list of addresses or networks such as 10.0.0.0/8."⟩
  | some (allow, deny) =>
    if allow.isEmpty && deny.isEmpty then
      .error ⟨"allow", "List at least one address or network to allow or to deny."⟩
    else if maxNetworks < allow.length + deny.length then
      .error ⟨"allow", "List at most " ++ toString maxNetworks ++
        " addresses and networks, allow and deny together."⟩
    else do
      let allow ← allow.mapM (network debug "allow")
      let deny ← deny.mapM (network debug "deny")
      return { allow, deny }

end

/-! ## Groups, the anonymous consumer and body sizes -/

def aclGroup (at_ name : String) : Except FieldError String :=
  match Consumers.group name with
  | .ok name => .ok name
  | .error e => .error ⟨at_, e.sentence⟩

def aclGroups (at_ : String) (list : List String) : Except FieldError (List String) :=
  if maxAclGroups < list.length then
    .error ⟨at_, "List at most " ++ toString maxAclGroups ++ " groups."⟩
  else list.mapM (aclGroup at_)

def acl (config : Json) : Except FieldError AclPolicy :=
  match allowAndDeny config with
  | none => .error ⟨"config", "Send allow and deny, each a list of group names."⟩
  | some (allow, deny) =>
    if allow.isEmpty && deny.isEmpty then
      .error ⟨"allow", "List at least one group to allow or to deny."⟩
    else do
      let allow ← aclGroups "allow" allow
      let deny ← aclGroups "deny" deny
      return { allow, deny }

/-- Who a caller without a credential is. -/
def auth (config : Json) : Except FieldError AuthPolicy :=
  match (config.strictRecordOf ["anonymous"]).bind fun input =>
      Json.absentOr none Json.optionalText (input.lookup "anonymous") with
  | none => .error ⟨"config", "Send anonymous, a consumer's name, or nothing."⟩
  | some given => match given.filter fun n => !(trim n).isEmpty with
    | none => .ok { anonymous := none, workspace := none }
    | some n => match Configuration.name n "anonymous" with
      | .ok n => .ok { anonymous := some n, workspace := none }
      | .error e => .error e

def requestSizeLimit (config : Json) : Except FieldError RequestSizeLimitPolicy :=
  match (config.strictRecordOf ["max_bytes"]).bind (·.lookup "max_bytes") with
  | none => .error ⟨"config", "Send max_bytes, the largest body in bytes."⟩
  | some maxBytes =>
    match maxBytes.asU64.filter fun n => decide (1 ≤ n ∧ n ≤ maxBodyBytes) with
    | some maxBytes => .ok { maxBytes }
    | none => .error ⟨"max_bytes",
        "Use a whole number of bytes from 1 to " ++ toString maxBodyBytes ++ "."⟩

/-! ## Response transformers -/

def responseHeaders : Section := ⟨"headers", true, framing⟩

def responseTransformer (config : Json) : Except FieldError ResponseTransformerPolicy :=
  match config.objectOf ["headers"] with
  | none => .error ⟨"config",
      "Send headers, with any of remove, rename, replace, add and append."⟩
  | some input => do
    let headers ← edits responseHeaders (Json.field input "headers")
    counted [("headers", headers)]
    return { headers }

/-! ## Cross-origin requests -/

/-- A list of text, empty when absent. -/
def texts (at_ : String) (value : Json) (shown : String) : Except FieldError (List String) :=
  match value with
  | .null => .ok []
  | value => match value.texts with
    | some l => .ok l
    | none => .error ⟨at_, "List text, such as " ++ shown ++ "."⟩

def flag (at_ : String) : Json → Except FieldError Bool
  | .null => .ok false
  | .bool b => .ok b
  | _ => .error ⟨at_, "Use true or false."⟩

def corsHeader (at_ name : String) : Except FieldError String :=
  if name.toList.all isToken && decide (1 ≤ len name ∧ len name ≤ maxNameChars) then
    .ok (toAsciiLowercase name)
  else .error ⟨at_, "Use header names of 1 to " ++ toString maxNameChars ++
    " letters, digits and !#$%&'*+-.^_`|~."⟩

def headerNames (at_ : String) (value : Json) : Except FieldError (List String) := do
  let names ← texts at_ value "[\"x-request-id\"]"
  if maxCorsHeaders < names.length then
    .error ⟨at_, "List at most " ++ toString maxCorsHeaders ++ " header names."⟩
  else names.mapM (corsHeader at_)

def hostLabel (l : String) : Bool :=
  decide (1 ≤ len l ∧ len l ≤ 63) &&
    l.toList.all fun c => ('a' ≤ c && c ≤ 'z') || c.isDigit || c == '-'

/-- The host of an origin and its port, nothing when what follows the first
colon is no port. -/
def hostAndPort (rest : String) : Option (String × Option Nat) :=
  match splitOnce ":" rest with
  | none => some (rest, none)
  | some (host, port) =>
    if port.toList.all Char.isDigit then
      ((parseUnsigned 16 port).filter (0 < ·)).map fun n => (host, some n)
    else none

/-- A host without its leading `*.`, and whether it had one. -/
def bareOrigin (host : String) : Bool × String :=
  match host.toList.dropPrefix? ['*', '.'] with
  | some name => (true, String.ofList name)
  | none => (false, host)

/-- A browser leaves the scheme's own port out. -/
def portText (scheme : String) : Option Nat → String
  | none => ""
  | some n =>
    if scheme = "http" ∧ n = 80 ∨ scheme = "https" ∧ n = 443 then "" else ":" ++ toString n

def notAnOrigin (text : String) : FieldError :=
  ⟨"origins", text ++ " is not an origin. Write scheme://host or scheme://host:port, such as " ++
    "https://app.example.com or https://*.example.com, with no path."⟩

/-- One origin in the form the data plane matches. -/
def origin (text : String) : Except FieldError String :=
  let lower := toAsciiLowercase text
  if lower = "*" then .ok lower
  else if lower = "null" then
    .error ⟨"origins", "null is the origin of a sandboxed page or a local file, which any page " ++
      "can claim, so it cannot be allowed."⟩
  else match splitOnce "://" lower with
    | none => .error (notAnOrigin text)
    | some (scheme, rest) =>
      if scheme ≠ "http" ∧ scheme ≠ "https" then .error (notAnOrigin text)
      else match hostAndPort rest with
        | none => .error (notAnOrigin text)
        | some (host, port) =>
          let name := (bareOrigin host).2
          if 253 < len name || !(splitOn '.' name).all hostLabel then .error (notAnOrigin text)
          else if (bareOrigin host).1 && !name.toList.contains '.' then
            .error ⟨"origins", text ++ " would allow every name under " ++ name ++
              ". Put *. before a name with a dot in it, such as https://*.example.com."⟩
          else .ok (scheme ++ "://" ++ (host ++ portText scheme port))

def originList (credentials : Bool) (given : List String) : Except FieldError (List String) :=
  if given.isEmpty then
    .error ⟨"origins", "List at least one origin, such as https://app.example.com."⟩
  else if maxOrigins < given.length then
    .error ⟨"origins", "List at most " ++ toString maxOrigins ++ " origins."⟩
  else do
    let origins ← given.mapM origin
    if origins.contains "*" && credentials then
      .error ⟨"origins",
        "An origin of * cannot be sent with credentials: list the origins instead."⟩
    else if origins.contains "*" && decide (1 < origins.length) then
      .error ⟨"origins", "List * alone: it already allows every origin."⟩
    else return origins

def corsMethod (m : String) : Except FieldError String :=
  let upper := toAsciiUppercase m
  if methodNames.contains upper then .ok upper
  else .error ⟨"methods", "Use methods from " ++ ", ".intercalate methodNames ++ "."⟩

def methodList (given : List String) : Except FieldError (List String) :=
  if given.isEmpty then .ok corsMethods else given.mapM corsMethod

def maxAge (value : Json) : Except FieldError (Option Nat) :=
  match value with
  | .null => .ok none
  | value => match value.asU64.filter (· ≤ maxAgeSecs) with
    | some secs => .ok (some secs)
    | none => .error ⟨"max_age",
        "Use a whole number of seconds from 0 to " ++ toString maxAgeSecs ++ "."⟩

def corsFields : List String :=
  ["origins", "methods", "headers", "expose_headers", "credentials", "max_age",
    "preflight_continue"]

/-- Stored with every default filled in. -/
def cors (config : Json) : Except FieldError CorsPolicy :=
  match config.objectOf corsFields with
  | none => .error ⟨"config", "Send origins, and any of methods, headers, expose_headers, " ++
      "credentials, max_age and preflight_continue."⟩
  | some input => do
    let credentials ← flag "credentials" (Json.field input "credentials")
    let given ← texts "origins" (Json.field input "origins") "[\"https://app.example.com\"]"
    let origins ← originList credentials given
    let given ← texts "methods" (Json.field input "methods") "[\"GET\", \"POST\"]"
    let methods ← methodList given
    let maxAge ← maxAge (Json.field input "max_age")
    let headers ← headerNames "headers" (Json.field input "headers")
    let exposeHeaders ← headerNames "expose_headers" (Json.field input "expose_headers")
    let preflightContinue ← flag "preflight_continue" (Json.field input "preflight_continue")
    return { origins, methods, headers, exposeHeaders, credentials, maxAge, preflightContinue }

/-! ## Every kind -/

def kinds : List String :=
  ["ip_restriction", "request_size_limit", "request_transformer", "response_transformer", "cors",
    "auth", "acl"]

def parse (debug : String → String) (kind : String) (config : Json) : Except FieldError Plugin :=
  if kind = "ip_restriction" then (ipRestriction debug config).map .ipRestriction
  else if kind = "request_size_limit" then (requestSizeLimit config).map .requestSizeLimit
  else if kind = "request_transformer" then (requestTransformer config).map .requestTransformer
  else if kind = "response_transformer" then (responseTransformer config).map .responseTransformer
  else if kind = "cors" then (cors config).map .cors
  else if kind = "auth" then (auth config).map .auth
  else if kind = "acl" then (acl config).map .acl
  else .error ⟨"kind", "There is no such policy kind."⟩

def editsFields (e : HeaderEdits) : List (String × Option Json) :=
  [("remove", Json.unlessEmpty Json.ofTexts e.remove),
    ("rename", Json.unlessEmpty Json.ofPairs e.rename),
    ("replace", Json.unlessEmpty Json.ofPairs e.replace),
    ("add", Json.unlessEmpty Json.ofPairs e.add),
    ("append", Json.unlessEmpty Json.ofPairs e.append)]

/-- Edits, left out when there are none. -/
def editsJson (e : HeaderEdits) : Option Json :=
  if e.len = 0 then none else some (.object (Json.kept (editsFields e)))

/-- The fields of a policy, those at their default without a value. -/
def configFields : Plugin → List (String × Option Json)
  | .jwt p =>
    [("issuer", p.issuer.map .string), ("audience", p.audience.map .string),
      ("jwks", some (.string p.jwks)), ("jwks_uri", p.jwksUri.map .string),
      ("jwks_ca_pem", p.jwksCaPem.map .string), ("consumer_claim", p.consumerClaim.map .string),
      ("workspace", p.workspace.map .string)]
  | .keyAuth p => [("header", some (.string p.header)), ("workspace", p.workspace.map .string)]
  | .ipRestriction p =>
    [("allow", Json.unlessEmpty (fun l => .ofTexts (l.map Cidr.text)) p.allow),
      ("deny", Json.unlessEmpty (fun l => .ofTexts (l.map Cidr.text)) p.deny)]
  | .requestSizeLimit p => [("max_bytes", some (.ofNat p.maxBytes))]
  | .requestTransformer p => [("headers", editsJson p.headers), ("query", editsJson p.query)]
  | .responseTransformer p => [("headers", editsJson p.headers)]
  | .cors p =>
    [("origins", some (.ofTexts p.origins)), ("methods", Json.unlessEmpty .ofTexts p.methods),
      ("headers", Json.unlessEmpty .ofTexts p.headers),
      ("expose_headers", Json.unlessEmpty .ofTexts p.exposeHeaders),
      ("credentials", Json.ifSet p.credentials), ("max_age", p.maxAge.map .ofNat),
      ("preflight_continue", Json.ifSet p.preflightContinue)]
  | .auth p =>
    [("anonymous", p.anonymous.map .string), ("workspace", p.workspace.map .string)]
  | .acl p =>
    [("allow", Json.unlessEmpty .ofTexts p.allow), ("deny", Json.unlessEmpty .ofTexts p.deny)]

/-- What a stored row holds of a policy. -/
def config (plugin : Plugin) : Json :=
  .object (Json.kept (configFields plugin))

end Gapura.Control.Policies
