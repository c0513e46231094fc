import Gapura.Control.Access
import Gapura.Core.Path
import Gapura.Core.Store

/-! # What the console accepts as a route

Checks in the order the console makes them, each with the field and the
sentence it answers with. Hosts are lowercased, methods uppercased and escapes
of paths uppercased; a value given twice is kept once. -/
namespace Gapura.Control.Configuration
open Lib.Text Control.Access
open Core.Matcher (RegexCrate compilePathRegex)

def maxNameChars : Nat := 63
def maxHosts : Nat := 32
def maxPaths : Nat := 32
def maxCombinations : Nat := 1024
def maxPathChars : Nat := 1024
def maxHeaders : Nat := 16
def maxHeaderNameChars : Nat := 64
def maxHeaderValueChars : Nat := 1024

def methodNames : List String :=
  ["GET", "HEAD", "POST", "PUT", "PATCH", "DELETE", "OPTIONS", "CONNECT", "TRACE"]

/-- Why a write was refused, with the sentence the console shows. -/
inductive Refusal where
  | invalid (sentence : String)
  | forbidden (sentence : String)
  | notFound (sentence : String)
  | conflict (sentence : String)
  deriving DecidableEq, Repr

/-- A refusal of one field, shown beside it. -/
structure FieldError where
  field : String
  sentence : String
  deriving DecidableEq, Repr

inductive Action where
  | read
  | write
  | delete
  deriving DecidableEq, Repr

def Action.needs : Action → Role
  | .read => .viewer
  | .write => .editor
  | .delete => .admin

/-- One answer for no role and for no such workspace. -/
def noRole : Refusal := .forbidden "You hold no role in that workspace."

def allowed (rows : Rows) (caller : User) (workspace : Uuid) (action : Action) :
    Except Refusal Role :=
  match rows.effective caller workspace with
  | none => .error noRole
  | some access =>
    if action.needs.level ≤ access.role.level then .ok access.role
    else
      let verb := match action with
        | .read => "Reading"
        | .write => "Making changes"
        | .delete => "Deleting things"
      .error (.forbidden
        (verb ++ " in this workspace needs the " ++ action.needs.asStr ++ " role."))

/-! ## Names and hosts -/

def nameOk (value : String) : Bool :=
  (value.toList.head?.any Char.isAlphanum) && (decide (value.toList.length ≤ maxNameChars) &&
    value.toList.all fun c => c.isAlphanum || c == '.' || c == '_' || c == '~' || c == '-')

def name (value field : String) : Except FieldError String :=
  if nameOk value then .ok value
  else .error ⟨field, "Use 1 to " ++ toString maxNameChars ++ " letters, digits, dots, " ++
    "underscores, tildes or hyphens, starting with a letter or a digit."⟩

def dnsLabel (label : List Char) : Bool :=
  !label.isEmpty && decide (label.length ≤ 63) && !(label.head? == some '-') &&
    !(label.getLast? == some '-') && label.all fun c => c.isAlphanum || c == '-'

/-- Labels of letters, digits and hyphens, the last starting with a letter. -/
def dnsName (value : List Char) : Bool :=
  let labels := value.splitOn '.'
  decide (len (String.ofList value) ≤ 253) && labels.all dnsLabel &&
    labels.getLast?.any fun last => last.head?.any Char.isAlpha

/-- A lowercased host without its leading `*.`. -/
def bareHost (lowered : List Char) : List Char := (lowered.dropPrefix? ['*', '.']).getD lowered

def hosts (i : Nat) (out : List String) : List String → Except FieldError (List String)
  | [] => .ok out
  | host :: rest =>
    let lowered := toAsciiLowercase host
    if !dnsName (bareHost lowered.toList) then
      .error ⟨"hosts[" ++ toString i ++ "]",
        "Use a host name, optionally starting with *. for its subdomains."⟩
    else hosts (i + 1) (if out.contains lowered then out else out ++ [lowered]) rest

/-- Whether two normalised hosts can name the same request host. -/
def hostsOverlap (a b : String) : Bool :=
  a == b || (Core.Hostname.matches a b || Core.Hostname.matches b a)

/-- A wildcard over a single label is a superuser's. -/
def mayClaimWildcard (caller : User) (host : String) : Except Refusal Unit :=
  match host.toList.dropPrefix? ['*', '.'] with
  | none => .ok ()
  | some suffix =>
    if caller.superuser || suffix.contains '.' then .ok ()
    else .error (.forbidden (host ++ " would claim every name under one label for this " ++
      "workspace; only a superuser may route it."))

def mayRouteAnyHost (caller : User) : Except Refusal Unit :=
  if caller.superuser then .ok ()
  else .error (.forbidden ("Only a superuser may create a route for any host: it would take " ++
    "other workspaces' traffic. Name at least one host."))

/-! ## Paths -/

/-- A path match in the store's spelling: `prefix`, `exact` or `regex`. -/
structure PathMatch where
  kind : String
  value : String
  deriving DecidableEq, Repr

def pathTypes : List String := ["prefix", "exact", "regex"]

/-- The digits of `u8::from_str_radix(_, 16)`, after the sign. -/
def radixDigits (acc : Nat) : List Char → Option Nat
  | [] => some acc
  | c :: rest =>
    if c.isHexDigit then
      let v := 16 * acc + Core.Path.hexValue c
      if v < 256 then radixDigits v rest else none
    else none

/-- `u8::from_str_radix(_, 16)`: a leading `+` is read as a sign. -/
def u8FromStrRadix : List Char → Option Nat
  | [] => none
  | c :: rest =>
    if c = '+' then if rest.isEmpty then none else radixDigits 0 rest
    else radixDigits 0 (c :: rest)

/-- Every `%` of the value against the two bytes after it. -/
def checkEscapes : List Char → Except String Unit
  | [] => .ok ()
  | c :: rest =>
    if c = '%' then
      match if rest.length < 2 then none else u8FromStrRadix (rest.take 2) with
      | none => .error "A % starts an escape of two hexadecimal digits."
      | some v =>
        if Core.Path.unreserved v then
          .error ("Write letters, digits and - . _ ~ as they are: the gateway decodes them " ++
            "before matching.")
        else checkEscapes rest
    else checkEscapes rest

/-- Pops trailing slashes off a reversed value, never its last character. -/
def popSlashes : List Char → List Char
  | c :: d :: rest => if c = '/' then popSlashes (d :: rest) else c :: d :: rest
  | cs => cs

def visible (c : Char) : Bool := '\x21' ≤ c && c ≤ '\x7e'

/-- One prefix or exact path value, in the form it is stored. -/
def plainPath (kind value field : String) : Except FieldError String :=
  let cs := value.toList
  if cs.head? ≠ some '/' then .error ⟨field, "A prefix or exact path starts with /."⟩
  else if !cs.all visible then
    .error ⟨field, "Percent-encode characters outside visible ASCII, as clients send them."⟩
  else if cs.any fun c => c == '?' || c == '#' then
    .error ⟨field, "A path has no query string or fragment."⟩
  else if cs.contains ';' then
    .error ⟨field, "A path may not contain ; — servlet backends read it as path parameters, " ++
      "so the gateway cannot match it safely."⟩
  else if ['/', '/'] <:+: cs then
    .error ⟨field, "A path has no empty segments: the gateway collapses // in requests."⟩
  else if (cs.splitOn '/').any fun segment => segment == ['.'] || segment == ['.', '.'] then
    .error ⟨field, "A path has no . or .. segments: the gateway refuses requests that do."⟩
  else match checkEscapes cs with
    | .error sentence => .error ⟨field, sentence⟩
    | .ok () =>
      let stored := Core.Store.uppercaseChars cs
      .ok (String.ofList
        (if kind == "prefix" then (popSlashes stored.reverse).reverse else stored))

/-- A console regex passes the data plane's own compile. The sentence quotes
the crate's reason, which is the crate's text. -/
def regexPath (rx : RegexCrate) (reason : Core.Matcher.RegexError → String)
    (value field : String) : Except FieldError String :=
  match compilePathRegex rx value with
  | .error e => .error ⟨field, "This regular expression does not compile: " ++ reason e⟩
  | .ok _ =>
    if Core.Store.uppercaseEscapes value != value then
      .error ⟨field, "Write percent-escapes in uppercase (%2F): the gateway matches the path " ++
        "that way."⟩
    else .ok value

def pathValue (rx : RegexCrate) (reason : Core.Matcher.RegexError → String) (i : Nat)
    (path : PathMatch) : Except FieldError String :=
  let field := "paths[" ++ toString i ++ "].value"
  if !pathTypes.contains path.kind then
    .error ⟨"paths[" ++ toString i ++ "].type", "Use prefix, exact or regex."⟩
  else if path.value.isEmpty || maxPathChars < path.value.toList.length then
    .error ⟨field, "Use a path of 1 to " ++ toString maxPathChars ++ " characters."⟩
  else if path.kind == "regex" then regexPath rx reason path.value field
  else plainPath path.kind path.value field

def paths (rx : RegexCrate) (reason : Core.Matcher.RegexError → String) (i : Nat)
    (out : List PathMatch) : List PathMatch → Except FieldError (List PathMatch)
  | [] => .ok out
  | path :: rest =>
    match pathValue rx reason i path with
    | .error e => .error e
    | .ok value =>
      let entry : PathMatch := ⟨path.kind, value⟩
      paths rx reason (i + 1) (if out.contains entry then out else out ++ [entry]) rest

/-! ## Methods and headers -/

def methods (i : Nat) (out : List String) : List String → Except FieldError (List String)
  | [] => .ok out
  | method :: rest =>
    let upper := toAsciiUppercase method
    if !methodNames.contains upper then
      .error ⟨"methods[" ++ toString i ++ "]", "Use an HTTP method such as GET or POST."⟩
    else methods (i + 1) (if out.contains upper then out else out ++ [upper]) rest

/-- RFC 9110 token characters, one or more. -/
def headerToken (value : String) : Bool :=
  !value.isEmpty && value.toList.all fun c =>
    c.isAlphanum || "!#$%&'*+-.^_`|~".toList.contains c

def headerValueOk (value : String) : Bool :=
  !value.isEmpty && decide (value.toList.length ≤ maxHeaderValueChars) &&
    value.toList.all (fun c => visible c || c == ' ' || c == '\t') &&
    value.toList.head?.any visible && value.toList.getLast?.any visible

def headers (i : Nat) (out : List Core.KvMatch) :
    List Core.KvMatch → Except FieldError (List Core.KvMatch)
  | [] => .ok out
  | header :: rest =>
    let field := "headers[" ++ toString i ++ "].name"
    let lowered := toAsciiLowercase header.name
    if maxHeaderNameChars < len header.name || !headerToken header.name then
      .error ⟨field, "Use a header name of 1 to " ++ toString maxHeaderNameChars ++ " letters, " ++
        "digits and - _ . ! # $ % & ' * + ^ ` | ~, with no spaces or colons."⟩
    else if lowered == "host" then
      .error ⟨field, "A route matches the host through its hosts; list it there."⟩
    else if Core.Credentials.gatewayHeaders.contains lowered then
      .error ⟨field, "The gateway sets " ++ lowered ++
        " after a route is matched, so a route cannot match on it."⟩
    else if out.any fun h => h.name == lowered then
      .error ⟨field, "Each header is matched once; this one is already listed."⟩
    else if !headerValueOk header.value then
      .error ⟨"headers[" ++ toString i ++ "].value", "Use a value of 1 to " ++
        toString maxHeaderValueChars ++
        " visible ASCII characters; spaces and tabs only between them."⟩
    else headers (i + 1) (out ++ [⟨lowered, header.value⟩]) rest

/-! ## Routes -/

structure RouteInput where
  name : String
  service : String
  hosts : List String := []
  paths : List PathMatch := []
  methods : List String := []
  headers : Option (List Core.KvMatch) := none
  stripPath : Option Bool := none
  priority : Int := 0
  updatedAt : Option String := none
  serviceUpdatedAt : Option String := none
  deriving DecidableEq, Repr

/-- A route that passed validation. -/
structure Route where
  name : String
  service : String
  hosts : List String
  paths : List PathMatch
  methods : List String
  headers : List Core.KvMatch
  stripPath : Bool
  priority : Int
  deriving DecidableEq, Repr

/-- What a replace keeps of the stored route, because the request left it out. -/
structure KeptOnReplace where
  headers : Bool
  stripPath : Bool
  deriving DecidableEq, Repr

def KeptOnReplace.of (input : RouteInput) : KeptOnReplace :=
  ⟨input.headers.isNone, input.stripPath.isNone⟩

inductive Write where
  | create
  | replace
  deriving DecidableEq, Repr

def stripPathFits (route : Route) : Except FieldError Unit :=
  if route.stripPath && route.paths.any fun p => p.kind == "regex" then
    .error ⟨"strip_path", "Strip path works with prefix and exact paths; a regular expression " ++
      "has no prefix to strip."⟩
  else .ok ()

def updatedAt : Write → Option String → Except FieldError (Option String)
  | .create, none => .ok none
  | .create, some _ => .error ⟨"updated_at", "A new row has no updated_at to send."⟩
  | .replace, some v => .ok (some v)
  | .replace, none => .error ⟨"updated_at",
      "Send the updated_at you last read, so a change made meanwhile is not overwritten."⟩

def route (rx : RegexCrate) (reason : Core.Matcher.RegexError → String) (input : RouteInput)
    (kind : Write) : Except FieldError (Route × Option String) := do
  let routeName ← name input.name "name"
  let serviceName ← name input.service "service"
  if maxHosts < input.hosts.length then
    throw ⟨"hosts", "A route takes at most " ++ toString maxHosts ++ " hosts."⟩
  let hosts ← hosts 0 [] input.hosts
  if maxPaths < input.paths.length then
    throw ⟨"paths", "A route takes at most " ++ toString maxPaths ++ " paths."⟩
  let paths ← paths rx reason 0 [] input.paths
  let methods ← methods 0 [] input.methods
  if maxHeaders < (input.headers.getD []).length then
    throw ⟨"headers", "A route matches at most " ++ toString maxHeaders ++ " headers."⟩
  let headers ← headers 0 [] (input.headers.getD [])
  if maxCombinations < max hosts.length 1 * max paths.length 1 * max methods.length 1 then
    throw ⟨"paths", "This route expands to more than " ++ toString maxCombinations ++
      " host, path and method combinations; split it into several routes."⟩
  let route : Route :=
    { name := routeName, service := serviceName, hosts, paths, methods, headers
      stripPath := input.stripPath.getD false, priority := input.priority }
  stripPathFits route
  let seen ← updatedAt kind input.updatedAt
  return (route, seen)

end Gapura.Control.Configuration
