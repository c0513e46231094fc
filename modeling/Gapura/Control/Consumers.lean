import Gapura.Control.Configuration

/-! # Groups of consumers, and the header a key is read from -/
namespace Gapura.Control.Consumers
open Lib.Text Control.Configuration

def maxGroupChars : Nat := 64

/-- A group name, kept as it is. -/
def group (name : String) : Except FieldError String :=
  if 1 ≤ len name ∧ len name ≤ maxGroupChars ∧
      name.toList.all (fun c => c.isAlphanum || ".-_:".toList.contains c) = true then .ok name
  else .error ⟨"group", "Name a group in 1 to " ++ toString maxGroupChars ++
    " letters, digits, dots, dashes, underscores or colons."⟩

def defaultHeader : String := "x-api-key"

def maxHeaderChars : Nat := 64

/-- Names a key cannot be read from: the connection's own, and the one the data
plane writes for the upstream. -/
def reservedHeaders : List String :=
  [Core.Credentials.consumerHeader, "host", "content-length", "transfer-encoding", "connection",
    "te", "upgrade"]

/-- A header name, lowercased; `x-api-key` when absent. -/
def header (value : Option String) : Except FieldError String :=
  let value := ((value.map trim).filter fun v => !v.isEmpty).getD defaultHeader
  if maxHeaderChars < len value || !headerToken value then
    .error ⟨"header", "Use a header name of 1 to " ++ toString maxHeaderChars ++
      " letters, digits and - _ . ! # $ % & ' * + ^ ` | ~, with no spaces or colons."⟩
  else
    let value := toAsciiLowercase value
    if reservedHeaders.contains value then
      .error ⟨"header", "The " ++ value ++
        " header is set by the connection or the gateway. Pick another name."⟩
    else .ok value

variable {name : String} {value : Option String}

/-- An accepted name is in lower case and not reserved. -/
theorem header_ok (h : header value = .ok name) :
    toAsciiLowercase name = name ∧ name ∉ reservedHeaders := by
  simp only [header] at h
  split at h
  · cases h
  · split at h
    · cases h
    next hreserved =>
      cases h
      constructor
      · rw [← String.toList_inj]
        simp
      · simpa using hreserved

/-- Another name in lower case is another header. -/
theorem header_ne_of_ne {other : String}
    (h : header value = .ok name) (hlower : toAsciiLowercase other = other) (hne : name ≠ other) :
    eqIgnoreAsciiCase name other = false := by
  rw [Bool.eq_false_iff]
  intro heq
  have hsame := eqIgnoreAsciiCase_iff.mp heq
  rw [(header_ok h).1, hlower] at hsame
  exact hne hsame

/-- A reserved name is never the accepted one, in any case. -/
theorem header_ne (h : header value = .ok name) {reserved : String}
    (hr : reserved ∈ reservedHeaders) : eqIgnoreAsciiCase name reserved = false := by
  have hlower : ∀ r ∈ reservedHeaders, toAsciiLowercase r = r := by decide +kernel
  apply header_ne_of_ne h (hlower reserved hr)
  intro hname
  exact (header_ok h).2 (hname ▸ hr)

end Gapura.Control.Consumers
