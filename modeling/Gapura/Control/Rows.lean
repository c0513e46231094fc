import Gapura.Control.ConsoleView
import Gapura.Control.PathReach
import Gapura.Control.Requirements

/-! # An accepted write is read back

Rows are written by the console's endpoints and read by every snapshot, which
fails as a whole on a row it cannot read. What an endpoint accepts it stores as
JSON; the snapshot reads that without error and as the value that was accepted. -/
namespace Gapura.Control.Rows
open Gapura.Core (JwtPolicy KeyAuthPolicy Plugin RateLimit)
open Core.Matcher (RegexCrate RegexError compilePathRegex)
open Lib.Text Lib.Checks
open Control.Configuration (FieldError Route RouteInput Write)
open Policies (Json configFields)
open ConsoleView (Shapes parsePlugin)
open Control.Snapshot (BadEntry)
open Consumers (JwtInput KeyCrates Limit RateLimitInput)

/-- The crates behind the checks, and how Rust prints what an error quotes. -/
structure Crates where
  regex : RegexCrate
  reason : RegexError → String
  debug : String → String
  keys : KeyCrates
  /-- A JSON value as text. -/
  shown : Json → String

/-! ## Paths and headers -/

def pathJson (p : Configuration.PathMatch) : Json :=
  .object [("type", .string p.kind), ("value", .string p.value)]

def headerJson (h : Core.KvMatch) : Json :=
  .object [("name", .string h.name), ("value", .string h.value)]

/-- A field of an object. -/
def get? (v : Json) (name : String) : Option Json :=
  match v with
  | .object fields => fields.lookup name
  | _ => none

section
variable (crates : Crates)

def debugOption : Option String → String
  | none => "None"
  | some s => "Some(" ++ crates.debug s ++ ")"

/-- What the snapshot's error says of an entry. -/
def badEntry (e : Json) (kind : Option String) : BadEntry → String
  | .pathNotRooted value => "path " ++ crates.debug value ++ " does not start with /"
  | .pathRegex value err =>
    "path regex " ++ crates.debug value ++ " does not compile: " ++ crates.reason err
  | .pathType _ => "path type " ++ debugOption crates kind ++
      " is not one of exact, prefix, regex: " ++ crates.shown e
  | .header key => "header entry has no " ++ key ++ ": " ++ crates.shown e

/-- An entry without a type is of none of the types, as one with an empty type is. -/
def parsePath (e : Json) : Except String Core.PathMatch :=
  match (get? e "value").bind Json.text with
  | none => .error ("path entry has no string value: " ++ crates.shown e)
  | some value =>
    let kind := (get? e "type").bind Json.text
    (Snapshot.parsePath crates.regex ⟨kind.getD "", value⟩).mapError (badEntry crates e kind)

def parsePaths (v : Json) : Except String (List Core.PathMatch) :=
  match v.asArray with
  | none => .error ("paths is not a list: " ++ crates.shown v)
  | some entries => entries.mapM (parsePath crates)

/-- An absent text is refused as an empty one is. -/
def parseHeader (e : Json) : Except String Core.KvMatch :=
  let text := fun key => ((get? e key).bind Json.text).getD ""
  (Snapshot.parseHeader ⟨text "name", text "value"⟩).mapError (badEntry crates e none)

def parseHeaders (v : Json) : Except String (List Core.KvMatch) :=
  match v.asArray with
  | none => .error ("headers is not a list: " ++ crates.shown v)
  | some entries => entries.mapM (parseHeader crates)

/-! ## Policies -/

def jwtFields : List String :=
  ["issuer", "audience", "jwks", "jwks_uri", "jwks_ca_pem", "consumer_claim", "workspace"]

def optional (input : List (String × Json)) (name : String) : Option (Option String) :=
  Json.absentOr none Json.optionalText (input.lookup name)

def jwtOf (v : Json) : Option JwtPolicy := do
  let input ← v.recordOf jwtFields
  let issuer ← optional input "issuer"
  let audience ← optional input "audience"
  let jwks ← Json.absentOr "" Json.text (input.lookup "jwks")
  let jwksUri ← optional input "jwks_uri"
  let jwksCaPem ← optional input "jwks_ca_pem"
  let consumerClaim ← optional input "consumer_claim"
  let workspace ← optional input "workspace"
  return { issuer, audience, jwks, jwksUri, jwksCaPem, consumerClaim, workspace }

def keyAuthOf (v : Json) : Option KeyAuthPolicy := do
  let input ← v.recordOf ["header", "workspace"]
  let header ← (input.lookup "header").bind Json.text
  let workspace ← optional input "workspace"
  return { header, workspace }

/-- A derived reader's own message, which the snapshot's hides. -/
def derived {α : Type} : Option α → Except String α
  | some a => .ok a
  | none => .error "invalid type"

def sentence {α : Type} : Except FieldError α → Except String α
  | .ok a => .ok a
  | .error e => .error e.sentence

def parseRateLimit (config : Json) : Except String RateLimit :=
  match Limit.fromConfig config with
  | some limit => .ok limit.rateLimit
  | none => .error ("the configuration does not fit a rate_limit policy: a limit from 1 to " ++
      "1000000, a window_ms of 1000, 60000 or 3600000, and a by of ip, consumer or a lowercase " ++
      "header name")

/-- How each kind's row is read. -/
def shapes : Shapes Json where
  jwt v := derived (jwtOf v)
  keyAuth v := derived (keyAuthOf v)
  ipRestriction v := sentence (Policies.ipRestriction crates.debug v)
  requestSizeLimit v := sentence (Policies.requestSizeLimit v)
  requestTransformer v := sentence (Policies.requestTransformer v)
  responseTransformer v := sentence (Policies.responseTransformer v)
  cors v := sentence (Policies.cors v)
  auth v := sentence (Policies.auth v)
  acl v := sentence (Policies.acl v)
  rateLimit := parseRateLimit
  debug := crates.debug

end

/-! ## The key_auth row

Switching a requirement on over a row that exists merges the header into the
configuration the row holds. -/

def items : Json → List Json
  | .array l => l
  | v => [v]

/-- Postgres' `||` on `jsonb`. -/
def concat : Json → Json → Json
  | .object a, .object b =>
    .object (b ++ a.filter fun f => !b.any fun g => g.1 == f.1)
  | a, b => .array (items a ++ items b)

def putKeyAuth (row : Option Json) (header : String) : Json :=
  let built := Json.object [("header", .string header)]
  match row with
  | none => built
  | some config => concat config built

/-- The rows this endpoint alone can have made, over any number of writes. -/
inductive KeyAuthRow : Option Json → Prop where
  | absent : KeyAuthRow none
  | put {row : Option Json} {given : Option String} {header : String} (h : KeyAuthRow row)
      (accepted : Consumers.header given = .ok header) : KeyAuthRow (some (putKeyAuth row header))

variable {row : Option Json} {name : String} {given : Json}

theorem putKeyAuth_eq (h : KeyAuthRow row) (header : String) :
    putKeyAuth row header = .object [("header", .string header)] := by
  induction h generalizing header with
  | absent => rfl
  | put hrow _ ih =>
    rw [putKeyAuth, ih]
    rfl

/-! ## What is written, stored and read -/

/-- A write as a request sends it. -/
inductive Submission where
  | route (input : RouteInput) (kind : Write)
  | policy (kind : String) (config : Json)
  | jwt (input : JwtInput)
  | keyAuth (header : Option String)
  | rateLimit (input : RateLimitInput)

/-- What an endpoint accepted. -/
inductive Accepted where
  | route (r : Route)
  | policy (name : String) (p : Plugin)
  | keyAuth (header : String)
  | rateLimit (l : Limit)

def Submission.accept (crates : Crates) : Submission → Except FieldError Accepted
  | .route input kind =>
    (Configuration.route crates.regex crates.reason input kind).map fun out => .route out.1
  | .policy kind config => (Policies.parse crates.debug kind config).map (.policy kind)
  | .jwt input => (Consumers.jwt crates.keys input).map fun p => .policy "jwt" (.jwt p)
  | .keyAuth header => (Consumers.header header).map .keyAuth
  | .rateLimit input => (Consumers.rateLimit input).map .rateLimit

/-- The JSON columns of a row. -/
inductive Stored where
  | route (paths headers : Json)
  | policy (name : String) (config : Json)

/-- What is stored; `row` is the configuration a key_auth row already holds. -/
def Accepted.stored (row : Option Json) : Accepted → Stored
  | .route r => .route (.array (r.paths.map pathJson)) (.array (r.headers.map headerJson))
  | .policy name p => .policy name (Policies.config p)
  | .keyAuth header => .policy "key_auth" (putKeyAuth row header)
  | .rateLimit l => .policy "rate_limit" l.config

/-- What a snapshot makes of a row. -/
inductive Read where
  | route (paths : List Core.PathMatch) (headers : List Core.KvMatch)
  | plugin (p : Plugin)
  | rateLimit (l : RateLimit)

def Stored.read (crates : Crates) : Stored → Except String Read
  | .route paths headers => do
    let paths ← parsePaths crates paths
    let headers ← parseHeaders crates headers
    return .route paths headers
  | .policy name config =>
    if name = "rate_limit" then (parseRateLimit config).map .rateLimit
    else (parsePlugin (shapes crates) name config).map .plugin

/-- A stored path as the data plane matches it. -/
def served (p : Configuration.PathMatch) : Core.PathMatch :=
  if p.kind = "exact" then .exact p.value
  else if p.kind = "prefix" then .pathPrefix p.value
  else .regex p.value

/-- The value that was accepted, in the snapshot's types. -/
def Accepted.value : Accepted → Read
  | .route r => .route (r.paths.map served) r.headers
  | .policy _ p => .plugin p
  | .keyAuth header => .plugin (.keyAuth { header, workspace := none })
  | .rateLimit l => .rateLimit l.rateLimit

/-! ## Routes -/

section
variable {rx : RegexCrate} {reason : RegexError → String}

variable {i : Nat} {p : Configuration.PathMatch} {value : String}

/-- A regex is stored as it was given, and compiles. -/
theorem regex_of_pathValue (h : Configuration.pathValue rx reason i p = .ok value)
    (hkind : p.kind = "regex") : value = p.value ∧ ∃ re, compilePathRegex rx p.value = .ok re := by
  simp only [Configuration.pathValue] at h
  split at h
  · cases h
  split at h
  · cases h
  split at h
  · unfold Configuration.regexPath at h
    split at h
    · cases h
    rename_i re hre
    split at h
    · cases h
    · cases h
      exact ⟨rfl, re, hre⟩
  · rename_i hplain
    exact absurd hkind (by simpa using hplain)

/-- A path's stored value is read as what it stands for. -/
theorem parsePath_of_pathValue (h : Configuration.pathValue rx reason i p = .ok value) :
    Snapshot.parsePath rx ⟨p.kind, value⟩ = .ok (served ⟨p.kind, value⟩) := by
  by_cases hregex : p.kind = "regex"
  · obtain ⟨rfl, re, hre⟩ := regex_of_pathValue h hregex
    simp [Snapshot.parsePath, served, hregex, hre]
  · obtain ⟨hkind, field, hplain⟩ := PathReach.plainPath_of_pathValue h hregex
    have hroot := (PathReach.accepted_of_plainPath hplain).head?_stored
    rcases hkind with hkind | hkind
    · simp [Snapshot.parsePath, served, hkind, hroot]
    · simp [Snapshot.parsePath, served, hkind, hroot]

/-- Whatever the loop over paths stores was accepted, now or before it. -/
theorem mem_paths {entries out stored : List Configuration.PathMatch}
    (h : Configuration.paths rx reason i out entries = .ok stored) :
    ∀ p ∈ stored, p ∈ out ∨ Snapshot.parsePath rx p = .ok (served p) := by
  induction entries generalizing i out with
  | nil =>
    cases h
    exact fun p hp => .inl hp
  | cons path rest ih =>
    rw [Configuration.paths] at h
    split at h
    · cases h
    rename_i value hvalue
    intro p hp
    rcases ih h p hp with hout | hread
    · split at hout
      · exact .inl hout
      · rcases List.mem_append.mp hout with hout | hnew
        · exact .inl hout
        · rw [List.mem_singleton.mp hnew]
          exact .inr (parsePath_of_pathValue hvalue)
    · exact .inr hread

theorem parseHeader_of_checks {h : Core.KvMatch}
    (hname : ¬ (decide (Configuration.maxHeaderNameChars < len h.name) ||
      !Configuration.headerToken h.name) = true)
    (hvalue : ¬ (!Configuration.headerValueOk h.value) = true) :
    Snapshot.parseHeader ⟨toAsciiLowercase h.name, h.value⟩ =
      .ok ⟨toAsciiLowercase h.name, h.value⟩ := by
  have htoken : Configuration.headerToken h.name = true := by
    simp only [Bool.or_eq_true, not_or, Bool.not_eq_true, Bool.not_eq_false'] at hname
    exact hname.2
  have hlow := Consumers.headerToken_toAsciiLowercase htoken
  have hok : Configuration.headerValueOk h.value = true := by simpa using hvalue
  have hnamed : (toAsciiLowercase h.name).isEmpty = false := by
    simpa using (Bool.and_eq_true_iff.mp hlow).1
  have hvalued : h.value.isEmpty = false := by
    simp only [Configuration.headerValueOk, Bool.and_eq_true, Bool.not_eq_true'] at hok
    exact hok.1.1.1.1
  simp [Snapshot.parseHeader, hnamed, hvalued]

theorem mem_headers {given out stored : List Core.KvMatch}
    (h : Configuration.headers i out given = .ok stored) :
    ∀ header ∈ stored, header ∈ out ∨ Snapshot.parseHeader header = .ok header := by
  induction given generalizing i out with
  | nil =>
    cases h
    exact fun header hheader => .inl hheader
  | cons first rest ih =>
    rw [Configuration.headers] at h
    split at h
    · cases h
    rename_i hname
    split at h
    · cases h
    split at h
    · cases h
    split at h
    · cases h
    split at h
    · cases h
    rename_i hvalue
    intro header hheader
    rcases ih h header hheader with hout | hread
    · rcases List.mem_append.mp hout with hout | hnew
      · exact .inl hout
      · rw [List.mem_singleton.mp hnew]
        exact .inr (parseHeader_of_checks hname hvalue)
    · exact .inr hread

end

/-- Reading a written path or header is reading its columns, which is how the
snapshot's tables hold it. -/
theorem parsePath_pathJson (crates : Crates) (p : Configuration.PathMatch) :
    parsePath crates (pathJson p) = (Snapshot.parsePath crates.regex p).mapError
      (badEntry crates (pathJson p) (some p.kind)) := rfl

theorem parseHeader_headerJson (crates : Crates) (h : Core.KvMatch) :
    parseHeader crates (headerJson h) =
      (Snapshot.parseHeader h).mapError (badEntry crates (headerJson h) none) := rfl

theorem route_read_back (crates : Crates) {input : RouteInput} {kind : Write} {r : Route}
    {seen : Option String}
    (h : Configuration.route crates.regex crates.reason input kind = .ok (r, seen)) :
    parsePaths crates (.array (r.paths.map pathJson)) = .ok (r.paths.map served) ∧
      parseHeaders crates (.array (r.headers.map headerJson)) = .ok r.headers := by
  obtain ⟨hpaths, hheaders⟩ := PathReach.lists_of_route h
  constructor
  · refine mapM_map_of_forall fun p hp => ?_
    rcases mem_paths hpaths p hp with hnone | hread
    · cases hnone
    · rw [parsePath_pathJson, hread]
      rfl
  · have hread : ∀ header ∈ r.headers,
        parseHeader crates (headerJson header) = .ok (id header) := by
      intro header hheader
      rcases mem_headers hheaders header hheader with hnone | hread
      · cases hnone
      · rw [parseHeader_headerJson, hread]
        rfl
    show (r.headers.map headerJson).mapM (parseHeader crates) = .ok r.headers
    rw [mapM_map_of_forall hread, List.map_id]

/-! ## Policies -/

theorem optional_kept {fields : List (String × Option Json)} (h : (fields.map Prod.fst).Nodup)
    {value : Option String}
    (hname : fields.lookup name = some (value.map .string)) :
    optional (Json.kept fields) name = some value := by
  rw [optional, Json.lookup_kept h, hname]
  cases value with
  | none => rfl
  | some s => rfl

/-- A JWT policy is read from what its row holds. -/
theorem jwtOf_config (p : JwtPolicy) : jwtOf (Policies.config (.jwt p)) = some p := by
  have hnodup := Policies.configFields_nodup (.jwt p)
  have hjwks : Json.absentOr "" Json.text
      ((Json.kept (configFields (.jwt p))).lookup "jwks") = some p.jwks := by
    rw [Json.lookup_kept hnodup]
    rfl
  have hissuer : optional (Json.kept (configFields (.jwt p))) "issuer" = some p.issuer :=
    optional_kept hnodup rfl
  have haudience : optional (Json.kept (configFields (.jwt p))) "audience" =
      some p.audience := optional_kept hnodup rfl
  have huri : optional (Json.kept (configFields (.jwt p))) "jwks_uri" = some p.jwksUri :=
    optional_kept hnodup rfl
  have hpem : optional (Json.kept (configFields (.jwt p))) "jwks_ca_pem" =
      some p.jwksCaPem := optional_kept hnodup rfl
  have hclaim : optional (Json.kept (configFields (.jwt p))) "consumer_claim" =
      some p.consumerClaim := optional_kept hnodup rfl
  have hworkspace : optional (Json.kept (configFields (.jwt p))) "workspace" =
      some p.workspace := optional_kept hnodup rfl
  simp only [jwtOf, Policies.config, Json.recordOf, Option.bind_eq_bind, Option.bind_some, hissuer,
    haudience, hjwks, huri, hpem, hclaim, hworkspace]
  rfl

theorem jwt_read_back (crates : Crates) {input : JwtInput} {p : JwtPolicy}
    (h : Consumers.jwt crates.keys input = .ok p) :
    parsePlugin (shapes crates) "jwt" (Policies.config (.jwt p)) = .ok (.jwt p) := by
  have hone : (p.jwks.isEmpty != p.jwksUri.isNone) = true := bne_iff_ne.mpr (Consumers.jwt_ok h)
  simp [parsePlugin, shapes, jwtOf_config, derived, hone]

theorem keyAuth_read_back (crates : Crates) (hrow : KeyAuthRow row)
    (header : String) : parsePlugin (shapes crates) "key_auth" (putKeyAuth row header) =
      .ok (.keyAuth { header, workspace := none }) := by
  rw [putKeyAuth_eq hrow]
  rfl

variable {kind : String}

/-- A kind whose check accepts what is stored of a policy it accepted. -/
theorem kind_read_back {crates : Crates} {P : Type} {make : P → Plugin}
    {check : Json → Except FieldError P} {p : Plugin} (hkind : kind = name)
    (hreads : ∀ config, parsePlugin (shapes crates) name config =
      ConsoleView.fits name make (sentence (check config)))
    (hagain : ∀ {policy}, check given = .ok policy →
      check (Policies.config (make policy)) = .ok policy)
    (h : (check given).map make = .ok p) :
    parsePlugin (shapes crates) kind (Policies.config p) = .ok p := by
  obtain ⟨policy, hpolicy, rfl⟩ := map_eq_ok.mp h
  rw [hkind, hreads, hagain hpolicy]
  rfl

theorem policy_read_back (crates : Crates) {p : Plugin}
    (h : Policies.parse crates.debug kind given = .ok p) :
    kind ≠ "rate_limit" ∧ parsePlugin (shapes crates) kind (Policies.config p) = .ok p := by
  refine ⟨fun hlimit => ?_, ?_⟩
  · subst hlimit
    cases h
  unfold Policies.parse at h
  split_ifs at h with hkind hkind hkind hkind hkind hkind hkind
  · exact kind_read_back hkind (fun _ => rfl) Policies.ipRestriction_again h
  · exact kind_read_back hkind (fun _ => rfl) Policies.requestSizeLimit_again h
  · exact kind_read_back hkind (fun _ => rfl) Policies.requestTransformer_again h
  · exact kind_read_back hkind (fun _ => rfl) Policies.responseTransformer_again h
  · exact kind_read_back hkind (fun _ => rfl) Policies.cors_again h
  · exact kind_read_back hkind (fun _ => rfl) Policies.auth_again h
  · exact kind_read_back hkind (fun _ => rfl) Policies.acl_again h

/-- An accepted write never breaks the snapshot: its row is read without error,
and as the value that was accepted. -/
theorem accepted_write_read_back (crates : Crates) {row : Option Json} (hrow : KeyAuthRow row)
    {submission : Submission} {accepted : Accepted} (h : submission.accept crates = .ok accepted) :
    (accepted.stored row).read crates = .ok accepted.value := by
  cases submission with
  | route input kind =>
    obtain ⟨⟨r, seen⟩, hroute, rfl⟩ := map_eq_ok.mp h
    obtain ⟨hpaths, hheaders⟩ := route_read_back crates hroute
    exact bind_ok hpaths (bind_ok hheaders rfl)
  | policy kind config =>
    obtain ⟨p, hp, rfl⟩ := map_eq_ok.mp h
    obtain ⟨hkind, hread⟩ := policy_read_back crates hp
    simp only [Accepted.stored, Stored.read, if_neg hkind, hread]
    rfl
  | jwt input =>
    obtain ⟨p, hp, rfl⟩ := map_eq_ok.mp h
    have hread := jwt_read_back crates hp
    exact map_eq_ok.mpr ⟨_, hread, rfl⟩
  | keyAuth header =>
    obtain ⟨name, -, rfl⟩ := map_eq_ok.mp h
    have hread := keyAuth_read_back crates hrow name
    exact map_eq_ok.mpr ⟨_, hread, rfl⟩
  | rateLimit input =>
    obtain ⟨l, hl, rfl⟩ := map_eq_ok.mp h
    have hread : parseRateLimit l.config = .ok l.rateLimit := by
      rw [parseRateLimit, Consumers.fromConfig_config hl]
    exact map_eq_ok.mpr ⟨_, hread, rfl⟩

def fewCrates : Crates where
  regex := Core.Matcher.noRegex
  reason _ := ""
  debug := id
  keys := { json := fun _ => none, keySet := fun _ => none, url := fun _ => none
            anchors := fun _ => none }
  shown _ := ""

/-- One origin with its scheme's own port, in capitals, and one method. -/
def oneOrigin : Submission :=
  .policy "cors" (.object [("origins", .ofTexts ["HTTPS://App.Test:443"]),
    ("methods", .ofTexts ["get"])])

def oneOriginAccepted : Accepted :=
  .policy "cors" (.cors
    { origins := ["https://app.test"], methods := ["GET"], headers := [], exposeHeaders := []
      credentials := false, maxAge := none, preflightContinue := false })

/-- That policy, and a key requirement moved to another header. -/
theorem accepted_write_read_back_cors :
    (oneOriginAccepted.stored none).read fewCrates = .ok oneOriginAccepted.value ∧
    ((Accepted.keyAuth "x-team-key").stored (some (putKeyAuth none "x-api-key"))).read
      fewCrates = .ok (.plugin (.keyAuth { header := "x-team-key", workspace := none })) := by
  have hcors : oneOrigin.accept fewCrates = .ok oneOriginAccepted := by rfl
  have hkey : (Submission.keyAuth (some " X-Team-Key ")).accept fewCrates =
      .ok (.keyAuth "x-team-key") := by rfl
  have hdefault : Consumers.header none = .ok "x-api-key" := by rfl
  exact ⟨accepted_write_read_back fewCrates .absent hcors,
    accepted_write_read_back fewCrates (.put .absent hdefault) hkey⟩

end Gapura.Control.Rows
