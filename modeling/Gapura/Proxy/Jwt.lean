import Gapura.Core.Config
import Gapura.Lib.Headers

/-! # Verifying a token

What the `jsonwebtoken` crate does, reading a token's header and checking its
signature and claims against the clock, is a parameter. Of the claims only the
texts are asked for. -/
namespace Gapura.Proxy.Jwt
open Gapura.Core Lib.Text

/-- A key the crate can verify with, and the algorithm its document names. -/
structure DecodingKey where
  material : List UInt8
  alg : String
  deriving DecidableEq, Repr

/-- The keys of one document: by `kid`, and those without one. -/
structure Keys where
  byKid : Std.TreeMap String DecodingKey := ∅
  anonymous : List DecodingKey := []

def Keys.usable (keys : Keys) : Nat := keys.byKid.size + keys.anonymous.length

/-- What the crate is told to check of a token's claims. -/
structure Validation where
  issuer : Option String
  audience : Option String
  required : List String
  nbf : Bool
  deriving DecidableEq, Repr

inductive DecodeError where
  | invalidSignature
  | other
  deriving DecidableEq, Repr

/-- A verified token's claims that are texts. -/
abbrev Claims := String → Option String

/-- The crate: a token's `kid` if its header reads, and its claims if it verifies. -/
structure JwtCrate where
  decodeHeader : String → Option (Option String)
  decode : String → DecodingKey → Validation → Except DecodeError Claims

inductive Refusal where
  | missing
  | malformed
  | unknownKey
  | badSignature
  | claims
  deriving DecidableEq, Repr

def Refusal.asStr : Refusal → String
  | .missing => "missing"
  | .malformed => "malformed"
  | .unknownKey => "unknown_key"
  | .badSignature => "bad_signature"
  | .claims => "claims"

def validation (policy : JwtPolicy) : Validation where
  issuer := policy.issuer
  audience := policy.audience
  required := ["exp"] ++ (if policy.issuer.isSome then ["iss"] else []) ++
    (if policy.audience.isSome then ["aud"] else [])
  nbf := true

/-- The candidates in turn, with why the last one failed. -/
def tryKeys (crate : JwtCrate) (policy : JwtPolicy) (token : String) :
    Refusal → List DecodingKey → Except Refusal Claims
  | last, [] => .error last
  | _, key :: rest => match crate.decode token key (validation policy) with
    | .ok claims => .ok claims
    | .error .invalidSignature => tryKeys crate policy token .badSignature rest
    | .error .other => tryKeys crate policy token .claims rest

/-- A `kid` that names a key gets that key alone; otherwise the keys without a
`kid` are tried. -/
def candidates (keys : Keys) (kid : Option String) : List DecodingKey :=
  match kid.bind fun kid => keys.byKid[kid]? with
  | some key => [key]
  | none => keys.anonymous

def verify (crate : JwtCrate) (policy : JwtPolicy) (keys : Keys) (token : Option String) :
    Except Refusal Claims :=
  match token with
  | none => .error .missing
  | some token => match crate.decodeHeader token with
    | none => .error .malformed
    | some kid =>
      if (candidates keys kid).isEmpty then .error .unknownKey
      else tryKeys crate policy token .badSignature (candidates keys kid)

/-- `Bearer <token>`, the scheme in any case. -/
def bearer (header : Option String) : Option String :=
  header.bind fun value => (splitOnce " " value).bind fun p =>
    if eqIgnoreAsciiCase p.1 "bearer" then some (trim p.2) else none

variable (crate : JwtCrate)

variable (policy : JwtPolicy)

theorem tryKeys_ne_missing (token : String) (keys : List DecodingKey) {last : Refusal}
    (hlast : last ≠ .missing) : tryKeys crate policy token last keys ≠ .error .missing := by
  induction keys generalizing last with
  | nil =>
    intro h
    cases h
    exact hlast rfl
  | cons key rest ih =>
    unfold tryKeys
    split
    · intro h
      cases h
    · exact ih (by decide)
    · exact ih (by decide)

/-- Only a token that is not there is missing. -/
theorem verify_missing_iff (keys : Keys)
    (token : Option String) : verify crate policy keys token = .error .missing ↔ token = none := by
  constructor
  · intro h
    unfold verify at h
    split at h
    · rfl
    · split at h
      · cases h
      · split at h
        · cases h
        · exact absurd h (tryKeys_ne_missing crate policy _ _ (by decide))
  · intro h
    rw [h]
    rfl

end Gapura.Proxy.Jwt
