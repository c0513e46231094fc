import Gapura.Proxy.Access

/-! # Whose address a request is credited with

The hops of a forwarded chain are read from the right, and only as far as the
trust reaches. `walkChain_eq` says what the walk finds in terms of the list of
addresses the hops name; the rest places a suffix of hops written by trusted
proxies behind anything a caller wrote, on however many lines. -/
namespace Gapura.Proxy.ClientAddress
open Core.ClientIp Lib.Text Lib.Headers Proxy.Plugin Proxy.Access

/-! ## The walk -/

section
variable (parse : String → Option IpAddr)

/-- The addresses some hops name, left to right. -/
def hopAddresses (hops : List String) : List IpAddr :=
  hops.filterMap fun hop => (parse (trim hop)).map IpAddr.toCanonical

variable (trusts : IpAddr → Bool)

theorem walkChain_eq (hops : List String) (leftmost : Option IpAddr) :
    walkChain parse trusts hops leftmost =
      ((hopAddresses parse hops).find? (!trusts ·)).elim
        (.inr ((hopAddresses parse hops).getLast?.or leftmost)) .inl := by
  induction hops generalizing leftmost with
  | nil => rfl
  | cons hop hops ih =>
    cases hip : (parse (trim hop)).map IpAddr.toCanonical with
    | none => simp only [walkChain, hopAddresses, List.filterMap_cons, hip, ih]
    | some ip =>
      cases htrust : trusts ip with
      | false => simp [walkChain, hopAddresses, hip, htrust]
      | true =>
        simp only [walkChain, hopAddresses, List.filterMap_cons, hip, htrust, if_true, ih,
          Bool.not_true, List.find?_cons, List.getLast?_cons]
        -- the hops further left decide, and this one only when they name nobody
        cases (List.filterMap (fun hop => (parse (trim hop)).map IpAddr.toCanonical)
          hops).getLast? <;> rfl

theorem find?_reverse {α : Type} (p : α → Bool) (l : List α) :
    l.reverse.find? p = (l.filter p).getLast? := by
  rw [← List.head?_filter, List.filter_reverse, List.head?_reverse]

theorem walkChain_reverse (hops : List String) : walkChain parse trusts hops.reverse none =
      ((hopAddresses parse hops).filter (!trusts ·)).getLast?.elim
        (.inr (hopAddresses parse hops).head?) .inl := by
  rw [walkChain_eq]
  simp only [hopAddresses, List.filterMap_reverse, find?_reverse, List.getLast?_reverse,
    Option.or_none]

end

/-! ## Lines and hops -/

theorem toCanonical_idem (ip : IpAddr) : ip.toCanonical.toCanonical = ip.toCanonical := by
  cases ip with
  | v4 a => rfl
  | v6 a => cases h : toIpv4Mapped a <;> simp [IpAddr.toCanonical, h]

theorem contains_toCanonical (net : Cidr) (ip : IpAddr) :
    net.contains ip.toCanonical = net.contains ip := by
  simp only [Cidr.contains, toCanonical_idem]

theorem trim_space (s : List Char) : trim (String.ofList (' ' :: s)) = trim (String.ofList s) := by
  simp only [trim, String.toList_ofList]
  rw [List.dropWhile_cons_of_pos (by decide)]

/-- Lines joined by a comma and a space have the hops of each line in turn. -/
theorem hops_joined (lines : List String) (hne : lines ≠ []) :
    (splitOn ',' (joined lines)).map trim =
      lines.flatMap fun line => (splitOn ',' line).map trim := by
  induction lines with
  | nil => exact absurd rfl hne
  | cons line lines ih => cases lines with
    | nil => simp [joined]
    | cons next lines =>
      have hrest := ih (by simp)
      have htext : (joined (line :: next :: lines)).toList =
          line.toList ++ ',' :: ' ' :: (joined (next :: lines)).toList := by
        simp [joined, String.toList_intercalate, List.intercalate]
      rw [List.flatMap_cons, ← hrest]
      simp only [splitOn, htext, List.splitOn_append_cons_self, List.map_append]
      congr 1
      -- the space goes to the first hop of what follows, and trimming takes it off
      obtain ⟨first, others, hsplit⟩ :=
        List.exists_cons_of_ne_nil (List.splitOn_ne_nil ',' (joined (next :: lines)).toList)
      rw [List.splitOn_cons_eq_if_modifyHead, hsplit]
      simpa using trim_space first

variable (gw : Gateway)

def lineHops (line : List UInt8) : List String := (splitOn ',' (gw.fromUtf8Lossy line)).map trim

/-- The hops of the joined list, left to right. -/
def forwardedHops (req : RequestHeader) : List String :=
  match forwardedFor gw req with
  | none => []
  | some chain => (splitOn ',' chain).map trim

def trusts (ip : IpAddr) : Bool := gw.trustedProxies.any fun net => net.contains ip

/-- The addresses hops name, as they are compared and reported. -/
def addresses (hops : List String) : List IpAddr :=
  hops.filterMap fun hop => (gw.parseIp hop).map IpAddr.toCanonical

def namedIp (req : RequestHeader) : Option IpAddr :=
  namedHeaderIp gw.parseIp (gw.trustedClientHeaders.findSome? (headerStr req))

variable (req : RequestHeader)

theorem forwardedHops_eq :
    forwardedHops gw req = (req.headers.getAll "x-forwarded-for").flatMap (lineHops gw) := by
  unfold forwardedHops forwardedFor
  cases hlines : req.headers.getAll "x-forwarded-for" with
  | nil => rfl
  | cons line lines =>
    show (splitOn ',' (joined ((line :: lines).map gw.fromUtf8Lossy))).map trim = _
    rw [hops_joined _ (by simp), List.flatMap_map]
    rfl

theorem trusts_toCanonical (ip : IpAddr) : trusts gw ip.toCanonical = trusts gw ip := by
  simp only [trusts, contains_toCanonical]

theorem hopAddresses_eq (hops : List String) :
    hopAddresses gw.parseIp hops = addresses gw (hops.map trim) := by
  simp [hopAddresses, addresses, List.filterMap_map]

/-- The rightmost address no trusted network holds, else the leftmost one, else
the named header's, else the peer; and for a peer nobody trusts, the peer. -/
theorem clientIpOf_eq (peer : IpAddr) : clientIpOf gw req peer =
      if trusts gw peer then
        (((addresses gw (forwardedHops gw req)).filter (!trusts gw ·)).getLast?.or
          ((addresses gw (forwardedHops gw req)).head?.or (namedIp gw req))).getD peer.toCanonical
      else peer.toCanonical := by
  have hpeer : (gw.trustedProxies.any fun net => net.contains peer.toCanonical) =
      trusts gw peer := trusts_toCanonical gw peer
  unfold clientIpOf clientIp
  simp only [hpeer]
  cases htrusted : trusts gw peer with
  | false => rfl
  | true =>
    simp only [forwardedHops, Bool.not_true, Bool.false_eq_true, if_false, if_true]
    cases hchain : forwardedFor gw req with
    | none => rfl
    | some chain =>
      have hwalk := walkChain_reverse gw.parseIp (trusts gw) (splitOn ',' chain)
      rw [hopAddresses_eq] at hwalk
      unfold trusts at hwalk ⊢
      simp only [hwalk]
      cases (List.filter _ (addresses gw ((splitOn ',' chain).map trim))).getLast? with
      | some ip => rfl
      | none => cases (addresses gw ((splitOn ',' chain).map trim)).head? <;> rfl

/-- A suffix of hops that names an address nobody trusts decides alone. -/
theorem getLast?_untrusted {before suffix : List String} {ip : IpAddr}
    (h : ((addresses gw suffix).filter (!trusts gw ·)).getLast? = some ip) :
    ((addresses gw (before ++ suffix)).filter (!trusts gw ·)).getLast? = some ip := by
  rw [addresses, List.filterMap_append, List.filter_append, List.getLast?_append, ← addresses,
    ← addresses, h]
  rfl

theorem clientIpOf_of_suffix {req : RequestHeader} {peer ip : IpAddr} {before suffix : List String}
    (hpeer : trusts gw peer = true) (hhops : forwardedHops gw req = before ++ suffix)
    (hip : ((addresses gw suffix).filter (!trusts gw ·)).getLast? = some ip) :
    clientIpOf gw req peer = ip := by
  rw [clientIpOf_eq, if_pos hpeer, hhops, getLast?_untrusted gw hip]
  rfl

/-- Nobody chooses the address a request is credited with by writing in front of
what trusted proxies wrote: neither other hops, nor other lines, nor a named
header change it, and a peer that is not trusted is credited with its own. -/
theorem clientIpOf_unspoofable (gw : Gateway) (peer : IpAddr) :
    (trusts gw peer = false → ∀ req, clientIpOf gw req peer = peer.toCanonical) ∧
    (trusts gw peer = true → ∀ before suffix ip req,
      forwardedHops gw req = before ++ suffix →
      ((addresses gw suffix).filter (!trusts gw ·)).getLast? = some ip →
      clientIpOf gw req peer = ip) ∧
    (trusts gw peer = true → ∀ written kept ip req,
      req.headers.getAll "x-forwarded-for" = written ++ kept →
      ((addresses gw (kept.flatMap (lineHops gw))).filter (!trusts gw ·)).getLast? = some ip →
      clientIpOf gw req peer = ip) ∧
    (trusts gw peer = true → ∀ req,
      (∀ ip ∈ addresses gw (forwardedHops gw req), trusts gw ip = true) →
      clientIpOf gw req peer =
        ((addresses gw (forwardedHops gw req)).head?.or (namedIp gw req)).getD
          peer.toCanonical) := by
  refine ⟨?untrusted, ?hops, ?lines, ?reached⟩
  case untrusted =>
    intro hpeer req
    rw [clientIpOf_eq, hpeer]
    rfl
  case hops =>
    intro hpeer before suffix ip req hhops hip
    exact clientIpOf_of_suffix gw hpeer hhops hip
  case lines =>
    intro hpeer written kept ip req hlines hip
    have hhops : forwardedHops gw req =
        written.flatMap (lineHops gw) ++ kept.flatMap (lineHops gw) := by
      rw [forwardedHops_eq, hlines, List.flatMap_append]
    exact clientIpOf_of_suffix gw hpeer hhops hip
  case reached =>
    intro hpeer req hall
    have hnone : (addresses gw (forwardedHops gw req)).filter (!trusts gw ·) = [] := by
      refine List.filter_eq_nil_iff.mpr fun ip hip => ?_
      simp [hall ip hip]
    rw [clientIpOf_eq, if_pos hpeer, hnone]
    rfl

/-- Trusts 10.0.0.0/8, and reads three addresses. -/
def edgeGateway : Gateway where
  sha256 := id
  parseIp := fun text =>
    if text = "10.0.0.2" then some (.v4 0x0a000002)
    else if text = "203.0.113.9" then some (.v4 0xcb007109)
    else if text = "6.6.6.6" then some (.v4 0x06060606)
    else none
  fromUtf8Lossy := fun v => (toStr v).getD ""
  jwt := { decodeHeader := fun _ => none, decode := fun _ _ _ => .error .other }
  trustedProxies := [{ addr := .v4 0x0a000000, bits := 8 }]
  trustedClientHeaders := ["x-real-ip"]

/-- A caller's own line and header, then the line its first proxy added. -/
def forgedRequest : RequestHeader where
  method := "GET"
  uri := { path := "/", query := none }
  headers := ⟨[("X-Forwarded-For", bytes "6.6.6.6"), ("X-Real-IP", bytes "6.6.6.6"),
    ("X-Forwarded-For", bytes "203.0.113.9, 10.0.0.2")]⟩

def namedRequest : RequestHeader :=
  { forgedRequest with headers := ⟨[("X-Real-IP", bytes "6.6.6.6")]⟩ }

theorem clientIpOf_unspoofable_forged :
    clientIpOf edgeGateway forgedRequest (.v4 0x06060606) = .v4 0x06060606 ∧
    clientIpOf edgeGateway forgedRequest (.v4 0x0a000001) = .v4 0xcb007109 ∧
    clientIpOf edgeGateway namedRequest (.v4 0x0a000001) = .v4 0x06060606 := by
  refine ⟨?_, ?_, ?_⟩
  · exact (clientIpOf_unspoofable edgeGateway (.v4 0x06060606)).1 (by decide) forgedRequest
  · exact (clientIpOf_unspoofable edgeGateway (.v4 0x0a000001)).2.2.1 (by decide)
      [bytes "6.6.6.6"] [bytes "203.0.113.9, 10.0.0.2"] _ forgedRequest (by decide +kernel)
      (by decide +kernel)
  · have hread := (clientIpOf_unspoofable edgeGateway (.v4 0x0a000001)).2.2.2 (by decide)
      namedRequest (by decide +kernel)
    exact hread.trans (by decide +kernel)

end Gapura.Proxy.ClientAddress
