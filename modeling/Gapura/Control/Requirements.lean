import Gapura.Control.ReadAgain
import Gapura.Control.Services

/-! # JWT requirements and request limits

What the console accepts of them, what their rows hold, and how a limit's row is
read back. Reading a key document or a URL is up to the crates that do it. -/
namespace Gapura.Control.Consumers
open Gapura.Core Lib.Text Lib.Checks
open Control.Configuration (FieldError)
open Policies (Json)

def maxClaimChars : Nat := 512
def maxJwksBytes : Nat := 64 * 1024
def maxJwksUriChars : Nat := 2048
def maxConsumerClaimChars : Nat := 64

/-! ## JWT requirements -/

structure JwtInput where
  issuer : Option String := none
  audience : Option String := none
  jwks : Option String := none
  jwksUri : Option String := none
  jwksCaPem : Option String := none
  consumerClaim : Option String := none
  deriving DecidableEq, Repr

/-- One key of a document: its `kid`, and whether a token can be verified with it. -/
structure Jwk where
  kid : Option String
  usable : Bool
  deriving DecidableEq, Repr

inductive JwksError where
  | unreadable
  | noUsableKey (skipped : Nat)
  deriving DecidableEq, Repr

structure Url where
  scheme : String
  host : Option String
  username : String
  password : Option String
  fragment : Option String
  deriving DecidableEq, Repr

/-- The crates that read key documents, URLs and certificates. -/
structure KeyCrates where
  /-- A document as JSON. -/
  json : String → Option Json
  /-- The keys of a document, nothing when it is no key set. -/
  keySet : String → Option (List Jwk)
  url : String → Option Url
  /-- How many certificates of a text become trust anchors. -/
  anchors : String → Option Nat

/-- A control character: the two blocks of Unicode's `Cc`. -/
def isControl (c : Char) : Bool :=
  decide (c.toNat < 32) || (decide (127 ≤ c.toNat) && decide (c.toNat < 160))

/-- A field of an object, null of anything else. -/
def member (v : Json) (name : String) : Json :=
  match v with
  | .object fields => Json.field fields name
  | _ => .null

def isSecret (key : Json) : Bool :=
  (match member key "kty" with
    | .string kty => kty == "oct"
    | _ => false) ||
    ["d", "p", "q", "dp", "dq", "qi"].any fun name => match member key name with
      | .null => false
      | _ => true

/-- A secret to verify with, or a private key: neither may be in a document. -/
def holdsASecret (crates : KeyCrates) (jwks : String) : Bool :=
  match (crates.json jwks).bind fun document => (member document "keys").asArray with
  | some keys => keys.any isSecret
  | none => false

/-- How many keys of a document a token can be verified with. -/
def keys (crates : KeyCrates) (jwks : String) : Except JwksError Nat :=
  match crates.keySet jwks with
  | none => .error .unreadable
  | some keys =>
    let usable := keys.filter (·.usable)
    -- two keys with one `kid` count once
    let count := (usable.filterMap (·.kid)).dedup.length +
      (usable.filter (·.kid.isNone)).length
    if count = 0 then .error (.noUsableKey (keys.length - usable.length)) else .ok count

/-- A value trimmed, nothing when it is absent or empty. -/
def claim (value : Option String) (at_ sentence : String) : Except FieldError (Option String) :=
  match (value.map trim).filter fun v => !v.isEmpty with
  | none => .ok none
  | some v =>
    if maxClaimChars < v.toList.length || v.toList.any isControl then .error ⟨at_, sentence⟩
    else .ok (some v)

def issuerRule : String :=
  "Name the issuer tokens must carry as iss, in 1 to " ++ toString maxClaimChars ++
    " characters with no control characters."

def consumerClaimRule : String :=
  "Name the claim that holds the consumer's name, such as sub, in 1 to " ++
    toString maxConsumerClaimChars ++
    " characters with no control characters, or leave it empty."

/-- A pasted document the data plane can verify with. -/
def pasted (crates : KeyCrates) (jwks : String) : Except FieldError Unit :=
  if maxJwksBytes < len jwks then .error ⟨"jwks", "Paste at most 64 KiB of keys."⟩
  else match keys crates jwks with
    | .error .unreadable =>
      .error ⟨"jwks", "Paste a JWKS document: a JSON object with a keys array."⟩
    | read =>
      if holdsASecret crates jwks then
        .error ⟨"jwks", "Use public keys only: an oct key is a shared secret, and anyone who " ++
          "can read this workspace could read it."⟩
      else match read with
        | .error _ => .error ⟨"jwks", "None of these keys can verify a token. Each needs an " ++
            "alg and key material the gateway reads."⟩
        | .ok _ => .ok ()

def publishesKeys (url : Url) : Bool :=
  url.scheme == "https" && url.host.any (fun host => !host.isEmpty) && url.username.isEmpty &&
    url.password.isNone && url.fragment.isNone

/-- Where an issuer publishes its keys, kept as written. -/
def keyUrl (crates : KeyCrates) (uri : String) : Except FieldError String :=
  if decide (uri.toList.length ≤ maxJwksUriChars) && !uri.toList.any isControl &&
      (crates.url uri).any publishesKeys then .ok uri
  else .error ⟨"jwks_uri", "Use the https URL the issuer publishes its keys at, with no user " ++
    "name, password or #fragment, in at most " ++ toString maxJwksUriChars ++ " characters."⟩

/-- The keys, pasted or published, of a requirement whose claims were accepted. -/
def withKeys (crates : KeyCrates) (input : JwtInput) (issuer : String)
    (audience consumerClaim : Option String) : Except FieldError JwtPolicy :=
  let jwks := input.jwks.filter fun d => !(trim d).isEmpty
  let jwksUri := (input.jwksUri.map trim).filter fun u => !u.isEmpty
  let jwksCaPem := input.jwksCaPem.filter fun pem => !(trim pem).isEmpty
  match jwks, jwksUri with
  | some _, some _ =>
    .error ⟨"jwks", "Give the keys or the URL they are published at, not both."⟩
  | none, none => .error ⟨"jwks",
      "Paste a JWKS document, or give the URL the issuer publishes its keys at."⟩
  | some document, none =>
    if jwksCaPem.isSome then .error ⟨"jwks_ca_pem",
      "A CA verifies the URL keys are fetched from; pasted keys need none."⟩
    else do
      pasted crates document
      return { issuer := some issuer, audience, jwks := document, jwksUri := none
               jwksCaPem := none, consumerClaim, workspace := none }
  | none, some uri => do
    let uri ← keyUrl crates uri
    let pem ← Services.caPem crates.anchors jwksCaPem "jwks_ca_pem"
    return { issuer := some issuer, audience, jwks := "", jwksUri := some uri
             jwksCaPem := pem, consumerClaim, workspace := none }

/-- A requirement: an issuer, an audience or none, and where its keys come from. -/
def jwt (crates : KeyCrates) (input : JwtInput) : Except FieldError JwtPolicy := do
  let issuer ← claim input.issuer "issuer" issuerRule
  match issuer with
  | none => .error ⟨"issuer", issuerRule⟩
  | some issuer =>
    let audience ← claim input.audience "audience" ("Leave the audience empty, or use 1 to " ++
      toString maxClaimChars ++ " characters with no control characters.")
    let consumerClaim ← claim input.consumerClaim "consumer_claim" consumerClaimRule
    if consumerClaim.any fun c => maxConsumerClaimChars < c.toList.length then
      .error ⟨"consumer_claim", consumerClaimRule⟩
    else withKeys crates input issuer audience consumerClaim

/-- An accepted requirement names exactly one place its keys come from. -/
theorem jwt_ok {crates : KeyCrates} {input : JwtInput} {p : JwtPolicy}
    (h : jwt crates input = .ok p) : p.jwks.isEmpty ≠ p.jwksUri.isNone := by
  obtain ⟨issuer, -, h⟩ := bind_eq_ok.mp h
  cases issuer with
  | none => cases h
  | some issuer =>
    obtain ⟨audience, -, h⟩ := bind_eq_ok.mp h
    obtain ⟨consumerClaim, -, h⟩ := bind_eq_ok.mp h
    split at h
    · cases h
    unfold withKeys at h
    simp only at h
    split at h
    · cases h
    · cases h
    · rename_i document hdocument _
      split at h
      · cases h
      obtain ⟨⟨⟩, -, h⟩ := bind_eq_ok.mp h
      cases h
      -- a document that is not blank is not empty
      obtain ⟨-, hblank⟩ := Option.filter_eq_some_iff.mp hdocument
      have hsome : document.isEmpty = false := by
        rw [Bool.eq_false_iff]
        intro hempty
        obtain rfl : document = "" := by simpa using hempty
        exact absurd hblank (by decide)
      simp [hsome]
    · obtain ⟨uri', -, h⟩ := bind_eq_ok.mp h
      obtain ⟨pem, -, h⟩ := bind_eq_ok.mp h
      cases h
      simp

/-! ## Request limits -/

def maxRateLimit : Nat := 1000000

inductive Per where
  | second
  | minute
  | hour
  deriving DecidableEq, Repr

def Per.windowMs : Per → Nat
  | .second => 1000
  | .minute => 60000
  | .hour => 3600000

def Per.ofWindow (windowMs : Nat) : Option Per :=
  [Per.second, .minute, .hour].find? fun p => p.windowMs == windowMs

structure RateLimitInput where
  limit : Option Json := none
  per : Option Json := none
  limitBy : Option Json := none

structure Limit where
  limit : Nat
  per : Per
  limitBy : LimitBy
  deriving DecidableEq, Repr

/-- How a limit's `by` is written: left out for the address. -/
def byJson : LimitBy → Option Json
  | .ip => none
  | .consumer => some (.string "consumer")
  | .header name => some (.object [("header", .string name)])

def Limit.fields (l : Limit) : List (String × Option Json) :=
  [("limit", some (.ofNat l.limit)), ("window_ms", some (.ofNat l.per.windowMs)),
    ("by", byJson l.limitBy)]

/-- What the row stores. -/
def Limit.config (l : Limit) : Json := .object (Json.kept l.fields)

/-- A variant by its name, or as an object of one field. -/
def byOf : Json → Option LimitBy
  | .string "ip" => some .ip
  | .string "consumer" => some .consumer
  | .object [("ip", .null)] => some .ip
  | .object [("consumer", .null)] => some .consumer
  | .object [("header", .string name)] => some (.header name)
  | _ => none

def storedLimit (config : Json) : Option (Nat × Nat × LimitBy) := do
  let input ← config.strictRecordOf ["limit", "window_ms", "by"]
  let limit ← ((input.lookup "limit").bind Json.asU64).filter (· < 2 ^ 32)
  let windowMs ← (input.lookup "window_ms").bind Json.asU64
  let limitBy ← Json.absentOr LimitBy.ip byOf (input.lookup "by")
  return (limit, windowMs, limitBy)

/-- Whether a header to count by is one `header` accepts as it is stored. -/
def byOk : LimitBy → Bool
  | .header name => (header (some name)).toOption == some name
  | _ => true

/-- A stored configuration read back, when it is one the API could have written. -/
def Limit.fromConfig (config : Json) : Option Limit := do
  let (limit, windowMs, limitBy) ← storedLimit config
  if 1 ≤ limit ∧ limit ≤ maxRateLimit ∧ byOk limitBy = true then
    (Per.ofWindow windowMs).map fun per => { limit, per, limitBy }
  else none

/-- What the data plane enforces. -/
def Limit.rateLimit (l : Limit) : RateLimit :=
  { limit := l.limit, windowMs := l.per.windowMs, limitBy := l.limitBy }

def byRefused : FieldError := ⟨"by", "Use ip, consumer or header:<name>."⟩

/-- `ip`, also when absent or null; `consumer`; or `header:<name>`. -/
def limitBy : Option Json → Except FieldError LimitBy
  | none | some .null => .ok .ip
  | some (.string text) =>
    if text = "ip" then .ok .ip
    else if text = "consumer" then .ok .consumer
    else match (text.toList.dropPrefix? "header:".toList).map fun n => trim (String.ofList n) with
      | some name =>
        if name.isEmpty then .error byRefused
        else match header (some name) with
          | .ok name => .ok (.header name)
          | .error e => .error ⟨"by", e.sentence⟩
      | none => .error byRefused
  | some _ => .error byRefused

def per (value : Option Json) : Except FieldError Per :=
  match value.bind Json.text with
  | some "second" => .ok .second
  | some "minute" => .ok .minute
  | some "hour" => .ok .hour
  | _ => .error ⟨"per", "Use second, minute or hour."⟩

def rateLimit (input : RateLimitInput) : Except FieldError Limit :=
  match ((input.limit.bind Json.asU64).filter (· < 2 ^ 32)).filter fun n =>
      decide (1 ≤ n ∧ n ≤ maxRateLimit) with
  | none => .error ⟨"limit",
      "Use a whole number of requests from 1 to " ++ toString maxRateLimit ++ "."⟩
  | some limit => do
    let per ← per input.per
    let limitBy ← limitBy input.limitBy
    return { limit, per, limitBy }

/-! ## A stored limit is read as the limit that was accepted -/

variable {c : Char} {s : String} (p : Per)

/-- A token character is visible ASCII. -/
theorem bounds_of_token (h : (c.isAlphanum || "!#$%&'*+-.^_`|~".toList.contains c) = true) :
    33 ≤ c.toNat ∧ c.toNat ≤ 126 := by
  rcases (Bool.or_eq_true _ _).mp h with halnum | hother
  · simp [Char.isAlphanum, Char.isAlpha, Char.isUpper, Char.isLower, Char.isDigit,
      UInt32.le_iff_toNat_le] at halnum
    omega
  · have hall : ("!#$%&'*+-.^_`|~".toList.all fun c => decide (33 ≤ c.toNat ∧ c.toNat ≤ 126)) =
        true := by decide
    simpa using List.all_eq_true.mp hall c (List.contains_iff_mem.mp hother)

theorem isWhiteSpace_of_bounds (h : 33 ≤ c.toNat ∧ c.toNat ≤ 126) : isWhiteSpace c = false := by
  simp [isWhiteSpace]
  omega

theorem trim_of_token (h : Configuration.headerToken s = true) : trim s = s := by
  obtain ⟨-, hall⟩ := Bool.and_eq_true_iff.mp h
  have hspace : ∀ c ∈ s.toList, isWhiteSpace c = false := fun c hc =>
    isWhiteSpace_of_bounds (bounds_of_token (List.all_eq_true.mp hall c hc))
  have hdrop : s.toList.dropWhile isWhiteSpace = s.toList := by
    refine List.dropWhile_eq_self_iff.mpr fun hpos => ?_
    simpa using hspace _ (List.getElem_mem hpos)
  have hrdrop : s.toList.rdropWhile isWhiteSpace = s.toList := by
    refine List.rdropWhile_eq_self_iff.mpr fun hne => ?_
    simpa using hspace _ (List.getLast_mem hne)
  rw [trim, hdrop, hrdrop, String.ofList_toList]

theorem headerToken_toAsciiLowercase (h : Configuration.headerToken s = true) :
    Configuration.headerToken (toAsciiLowercase s) = true := by
  obtain ⟨hsome, hall⟩ := Bool.and_eq_true_iff.mp h
  refine Bool.and_eq_true_iff.mpr ⟨?_, Policies.isToken_toAsciiLowercase hall⟩
  have hne : s ≠ "" := by simpa using hsome
  have hlow : toAsciiLowercase s ≠ "" := by
    intro hempty
    have hlen := congrArg len hempty
    rw [Policies.len_toAsciiLowercase] at hlen
    exact hne (String.utf8ByteSize_eq_zero_iff.mp hlen)
  simpa using hlow

/-- A header name that was accepted is accepted as it is. -/
theorem header_again {given : Option String} {name : String} (h : header given = .ok name) :
    header (some name) = .ok name := by
  simp only [header] at h
  generalize ((given.map trim).filter fun v => !v.isEmpty).getD defaultHeader = value at h
  split at h
  · cases h
  rename_i hvalue
  split at h
  · cases h
  rename_i hreserved
  cases h
  simp only [Bool.or_eq_true, decide_eq_true_eq, not_or, Nat.not_lt, Bool.not_eq_true,
    Bool.not_eq_false'] at hvalue
  obtain ⟨hshort, htoken⟩ := hvalue
  have hlow := headerToken_toAsciiLowercase htoken
  have hgiven : (((some (toAsciiLowercase value)).map trim).filter fun v => !v.isEmpty).getD
      defaultHeader = toAsciiLowercase value := by
    have hsome : (!(toAsciiLowercase value).isEmpty) = true :=
      (Bool.and_eq_true_iff.mp hlow).1
    rw [Option.map_some, trim_of_token hlow, Option.filter_some, if_pos hsome, Option.getD_some]
  have hfits : ¬ (decide (maxHeaderChars < len (toAsciiLowercase value)) ||
      !Configuration.headerToken (toAsciiLowercase value)) = true := by
    rw [Policies.len_toAsciiLowercase, hlow]
    simpa using hshort
  simp only [header, hgiven, if_neg hfits, Policies.toAsciiLowercase_idem, if_neg hreserved]

theorem byOf_byJson (b : LimitBy) : Json.absentOr LimitBy.ip byOf (byJson b) = some b := by
  cases b with
  | ip => rfl
  | consumer => rfl
  | header name => rfl

theorem windowMs_lt : p.windowMs < 2 ^ 64 := by
  cases p <;> decide

theorem ofWindow_windowMs : Per.ofWindow p.windowMs = some p := by
  cases p <;> rfl

/-- A limit in bounds is read from what its row stores. -/
theorem storedLimit_config (l : Limit) (h : l.limit ≤ maxRateLimit) :
    storedLimit l.config = some (l.limit, l.per.windowMs, l.limitBy) := by
  have hfields : ∀ f ∈ l.fields, f.2.isSome = true → f.1 ∈ ["limit", "window_ms", "by"] := by
    simp [Limit.fields]
  have hnodup : (l.fields.map Prod.fst).Nodup := by simp [Limit.fields]
  have hlimit : ((((Json.kept l.fields).lookup "limit").bind Json.asU64).filter
      (· < 2 ^ 32)) = some l.limit := by
    have hsmall : l.limit < 2 ^ 32 := by unfold maxRateLimit at h; omega
    rw [Json.lookup_kept hnodup]
    show ((Json.ofNat l.limit).asU64).filter (· < 2 ^ 32) = some l.limit
    rw [Json.asU64_ofNat (by omega)]
    exact Option.filter_eq_some_iff.mpr ⟨rfl, by simpa using hsmall⟩
  have hwindow : ((Json.kept l.fields).lookup "window_ms").bind Json.asU64 =
      some l.per.windowMs := by
    rw [Json.lookup_kept hnodup]
    exact Json.asU64_ofNat (windowMs_lt l.per)
  have hby : Json.absentOr LimitBy.ip byOf ((Json.kept l.fields).lookup "by") =
      some l.limitBy := by
    rw [Json.lookup_kept hnodup]
    exact byOf_byJson l.limitBy
  rw [storedLimit, Limit.config, Json.strictRecordOf_kept hfields]
  simp only [Option.bind_eq_bind, Option.bind_some, hlimit, hwindow, hby]
  rfl

theorem byOk_of_limitBy {value : Option Json} {b : LimitBy} (h : limitBy value = .ok b) :
    byOk b = true := by
  unfold limitBy at h
  split at h
  · cases h
    rfl
  · cases h
    rfl
  · split at h
    · cases h
      rfl
    split at h
    · cases h
      rfl
    split at h
    · split at h
      · cases h
      split at h
      · rename_i name hname
        cases h
        rw [byOk, header_again hname]
        simp [Except.toOption]
      · cases h
    · cases h
  · cases h

/-- An accepted limit is read from what its row stores. -/
theorem fromConfig_config {input : RateLimitInput} {l : Limit} (h : rateLimit input = .ok l) :
    Limit.fromConfig l.config = some l := by
  unfold rateLimit at h
  split at h
  · cases h
  rename_i limit hlimit
  obtain ⟨-, hbounds⟩ := Option.filter_eq_some_iff.mp hlimit
  obtain ⟨hpos, hmax⟩ : 1 ≤ limit ∧ limit ≤ maxRateLimit := by simpa using hbounds
  obtain ⟨per, -, h⟩ := bind_eq_ok.mp h
  obtain ⟨b, hb, h⟩ := bind_eq_ok.mp h
  cases h
  rw [Limit.fromConfig, storedLimit_config _ hmax]
  show (if 1 ≤ limit ∧ limit ≤ maxRateLimit ∧ byOk b = true then
    (Per.ofWindow per.windowMs).map fun per => Limit.mk limit per b else none) = _
  rw [if_pos ⟨hpos, hmax, byOk_of_limitBy hb⟩, ofWindow_windowMs]
  rfl

end Gapura.Control.Consumers
