import Gapura.Control.Configuration
import Gapura.Core.StoreClusters
import Gapura.Lib.Checks

/-! # Services as they are written

A service's host is a DNS name or an IPv4 address and its SNI a DNS name, both
lowercased. What an accepted service's host and SNI are spelled with is what
the cluster keys rest on. Reading PEM blocks is rustls', and an address of
either family the standard library's, so both are parameters. -/
namespace Gapura.Control.Services
open Lib.Text Lib.Checks Control.Configuration
open Gapura.Core (Protocol)
open Core.StoreClusters (HostText Spelled)

def maxTimeoutMs : Int := 3600000

def maxCaPemBytes : Nat := 64 * 1024

structure TlsInput where
  verify : Bool := true
  caPem : Option String := none
  sni : Option String := none
  deriving DecidableEq, Repr

structure ServiceInput where
  name : String
  protocol : String
  host : String
  port : Int
  connectTimeoutMs : Option Int := none
  readTimeoutMs : Option Int := none
  tls : Option TlsInput := none
  updatedAt : Option String := none
  deriving DecidableEq, Repr

/-- The default is the only value an `http` service may have. -/
structure Tls where
  verify : Bool := true
  caPem : Option String := none
  sni : Option String := none
  deriving DecidableEq, Repr

structure Service where
  name : String
  protocol : Protocol
  host : String
  port : Int
  connectTimeoutMs : Option Int
  readTimeoutMs : Option Int
  tls : Tls
  deriving DecidableEq, Repr

/-! ## Hosts -/

/-- At most three digits, no zero before another, at most 255. -/
def octet (cs : List Char) : Bool :=
  !cs.isEmpty && decide (cs.length ≤ 3) && cs.all Char.isDigit &&
    !(cs.head? == some '0' && decide (1 < cs.length)) && decide (Nat.ofDigitChars 10 cs 0 ≤ 255)

/-- What `Ipv4Addr` parses. -/
def ipv4Addr (value : List Char) : Bool :=
  let parts := value.splitOn '.'
  parts.length == 4 && parts.all octet

def upstreamHost (value : String) : Except FieldError String :=
  let lowered := toAsciiLowercase value
  if ipv4Addr value.toList || dnsName lowered.toList then .ok lowered
  else .error ⟨"host", "Use a host name or an IPv4 address, without a scheme, port or path."⟩

/-! ## TLS settings -/

/-- The lines of a text, without their line ends. -/
def lines (text : String) : List (List Char) :=
  let pieces := text.toList.splitOn '\n'
  let pieces := if pieces.getLast? == some [] then pieces.dropLast else pieces
  pieces.map fun line => (line.dropSuffix? ['\r']).getD line

/-- A line that begins a block other than a certificate. -/
def otherBlock (line : List Char) : Bool :=
  match (trim (String.ofList line)).toList.dropPrefix? "-----BEGIN ".toList with
  | some label => label.rdropWhile (· == '-') != "CERTIFICATE".toList
  | none => false

section
/- How many certificates of a text become trust anchors, `none` when a block is
not a certificate. -/
variable (anchors : String → Option Nat)
/- What `IpAddr` parses. -/
variable (ipAddr : String → Bool)

def caPem (value : Option String) («at» : String) : Except FieldError (Option String) :=
  let notPem : FieldError := ⟨«at»,
    "Paste PEM certificates, each between BEGIN CERTIFICATE and END CERTIFICATE lines."⟩
  match value with
  | none => .ok none
  | some pem =>
    if maxCaPemBytes < len pem then .error ⟨«at», "Paste at most 64 KiB of certificates."⟩
    else if (lines pem).any otherBlock then .error ⟨«at», "Paste CA certificates only."⟩
    else match anchors pem with
      | none => .error notPem
      | some 0 => .error notPem
      | some (_ + 1) => .ok (some pem)

def sniName : Option String → Except FieldError (Option String)
  | none => .ok none
  | some sni =>
    let lowered := toAsciiLowercase sni
    if dnsName lowered.toList then .ok (some lowered)
    else .error ⟨"tls.sni", "Use a host name, without a scheme, port or wildcard."⟩

/-- An empty bundle or SNI is none. -/
def tls (protocol : Protocol) : Option TlsInput → Except FieldError Tls
  | none => .ok {}
  | some input =>
    let pem := input.caPem.filter fun pem => !(trim pem).isEmpty
    let sni := input.sni.filter fun sni => !sni.isEmpty
    match protocol with
    | .http =>
      if input.verify && pem.isNone && sni.isNone then .ok {}
      else .error ⟨"tls", "TLS settings apply to an https service."⟩
    | .https => do
      let sni ← sniName sni
      let pem ← caPem anchors pem "tls.ca_pem"
      return { verify := input.verify, caPem := pem, sni }

def timeout (value : Option Int) («at» : String) : Except FieldError (Option Int) :=
  match value with
  | none => .ok none
  | some ms =>
    if 1 ≤ ms ∧ ms ≤ maxTimeoutMs then .ok (some ms)
    else .error ⟨«at», "Use a number of milliseconds from 1 to " ++ toString maxTimeoutMs ++
      ", or leave it empty."⟩

def protocolOf : String → Except FieldError Protocol
  | "http" => .ok .http
  | "https" => .ok .https
  | _ => .error ⟨"protocol", "Use http or https."⟩

def portOf (port : Int) : Except FieldError Int :=
  if 1 ≤ port ∧ port ≤ 65535 then .ok port else .error ⟨"port", "Use a port from 1 to 65535."⟩

/-- A certificate is checked against names, so an `https` host is one. -/
def hostFits (protocol : Protocol) (host : String) : Except FieldError Unit :=
  if protocol == .https && ipAddr host then
    .error ⟨"host", "An https service needs a host name: its certificate is checked against " ++
      "names, not addresses."⟩
  else .ok ()

/-- A service request, checked, and the `updated_at` it carried. -/
def service (input : ServiceInput) (kind : Write) :
    Except FieldError (Service × Option String) := do
  let serviceName ← name input.name "name"
  let protocol ← protocolOf input.protocol
  let port ← portOf input.port
  let host ← upstreamHost input.host
  hostFits ipAddr protocol host
  let connectTimeoutMs ← timeout input.connectTimeoutMs "connect_timeout_ms"
  let readTimeoutMs ← timeout input.readTimeoutMs "read_timeout_ms"
  let settings ← tls anchors protocol input.tls
  let sent ← updatedAt kind input.updatedAt
  return ({ name := serviceName, protocol, host, port, connectTimeoutMs, readTimeoutMs
            tls := settings }, sent)

end

/-! ## What an accepted service is spelled with -/

variable {s : String}

theorem hostText_of_dnsName (h : dnsName s.toList = true) : HostText s := by
  intro c hc
  simp only [dnsName, Bool.and_eq_true, List.all_eq_true] at h
  rcases mem_splitOn '.' hc with hdot | ⟨label, hlabel, hmem⟩
  · exact .inr (.inl hdot)
  · have hall := h.1.2 label hlabel
    simp only [dnsLabel, Bool.and_eq_true, List.all_eq_true, Bool.or_eq_true, beq_iff_eq] at hall
    rcases hall.2 c hmem with halnum | hdash
    · exact .inl halnum
    · exact .inr (.inr hdash)

theorem hostText_of_ipv4Addr (h : ipv4Addr s.toList = true) : HostText (toAsciiLowercase s) := by
  intro c hc
  rw [toList_toAsciiLowercase, lower, List.mem_map] at hc
  obtain ⟨d, hd, rfl⟩ := hc
  simp only [ipv4Addr, Bool.and_eq_true, List.all_eq_true] at h
  rcases mem_splitOn '.' hd with rfl | ⟨part, hpart, hmem⟩
  · exact .inr (.inl rfl)
  · have hoctet := h.2 part hpart
    simp only [octet, Bool.and_eq_true, List.all_eq_true] at hoctet
    have hdigit : d.isDigit = true := hoctet.1.1.2 d hmem
    left
    have hlower : d.toLower = d := by
      simp only [Char.isDigit, Bool.and_eq_true, decide_eq_true_eq] at hdigit
      rw [Char.toLower, dif_neg]
      rintro ⟨hupper, -⟩
      have hle : 'A'.val ≤ '9'.val := UInt32.le_trans hupper hdigit.2
      exact absurd hle (by decide)
    rw [hlower, Char.isAlphanum, hdigit, Bool.or_true]

theorem hostText_of_upstreamHost {value host : String} (h : upstreamHost value = .ok host) :
    HostText host := by
  unfold upstreamHost at h
  simp only at h
  split at h
  · rename_i hok
    cases h
    rcases Bool.or_eq_true_iff.mp hok with hip | hdns
    · exact hostText_of_ipv4Addr hip
    · exact hostText_of_dnsName hdns
  · cases h

section
variable {anchors : String → Option Nat} {ipAddr : String → Bool}

theorem hostText_of_sniName {sni out : Option String} (h : sniName sni = .ok out) :
    ∀ s ∈ out, HostText s := by
  cases sni with
  | none =>
    cases h
    simp
  | some sni =>
    unfold sniName at h
    simp only at h
    split at h
    · rename_i hdns
      cases h
      intro s hs
      obtain rfl : toAsciiLowercase sni = s := Option.some.inj hs
      exact hostText_of_dnsName hdns
    · cases h

theorem hostText_of_tls {protocol : Protocol} {input : Option TlsInput} {out : Tls}
    (h : tls anchors protocol input = .ok out) : ∀ s ∈ out.sni, HostText s := by
  cases input with
  | none =>
    cases h
    simp
  | some input => cases protocol with
    | http =>
      simp only [tls] at h
      split at h
      · cases h
        simp
      · cases h
    | https =>
      obtain ⟨sni, hsni, h⟩ := bind_eq_ok.mp h
      obtain ⟨pem, -, h⟩ := bind_eq_ok.mp h
      cases h
      exact hostText_of_sniName hsni

/-- A row whose host and SNI are those of an accepted service. -/
def Validated (anchors : String → Option Nat) (ipAddr : String → Bool)
    (s : Core.Store.StoreService) : Prop :=
  ∃ input kind out, service anchors ipAddr input kind = .ok out ∧
    s.host = out.1.host ∧ s.tlsSni = out.1.tls.sni

theorem Validated.spelled {s : Core.Store.StoreService} (h : Validated anchors ipAddr s) :
    Spelled s := by
  obtain ⟨input, kind, out, hok, hhost, hsni⟩ := h
  obtain ⟨serviceName, -, hok⟩ := bind_eq_ok.mp hok
  obtain ⟨protocol, -, hok⟩ := bind_eq_ok.mp hok
  obtain ⟨port, -, hok⟩ := bind_eq_ok.mp hok
  obtain ⟨host, hupstream, hok⟩ := bind_eq_ok.mp hok
  obtain ⟨-, -, hok⟩ := bind_eq_ok.mp hok
  obtain ⟨connectTimeout, -, hok⟩ := bind_eq_ok.mp hok
  obtain ⟨readTimeout, -, hok⟩ := bind_eq_ok.mp hok
  obtain ⟨settings, htls, hok⟩ := bind_eq_ok.mp hok
  obtain ⟨sent, -, hok⟩ := bind_eq_ok.mp hok
  cases hok
  refine ⟨?_, ?_⟩
  · rw [hhost]
    exact hostText_of_upstreamHost hupstream
  · rw [hsni]
    exact hostText_of_tls htls

end

end Gapura.Control.Services
