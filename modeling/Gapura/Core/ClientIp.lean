import Gapura.Lib.AddressText

/-! # Addresses, networks and the client's own address

An address is its 32 or 128 bits, read and written as text the way the standard
library does. Where the gateway only compares the bits it reads, the reader is a
parameter. -/
namespace Gapura.Core.ClientIp
open Lib.Text Lib.AddressText

inductive IpAddr where
  | v4 (bits : BitVec 32)
  | v6 (bits : BitVec 128)
  deriving DecidableEq, Repr

def IpAddr.fromStr (s : String) : Option IpAddr :=
  (readIp s.toList).map fun
    | .inl n => .v4 (.ofNat 32 n)
    | .inr n => .v6 (.ofNat 128 n)

def IpAddr.display : IpAddr → String
  | .v4 a => .ofList (ipv4Text a.toNat)
  | .v6 a => .ofList (ipv6Text a.toNat)

variable (ip : IpAddr)

theorem IpAddr.fromStr_display : fromStr ip.display = some ip := by
  cases ip with
  | v4 a => simp [fromStr, display, readIp_ipv4Text a.isLt]
  | v6 a => simp [fromStr, display, readIp_ipv6Text a.isLt]

theorem IpAddr.slash_notMem_display : '/' ∉ ip.display.toList := by
  cases ip with
  | v4 a => simpa [display] using slash_notMem_ipv4Text a.toNat
  | v6 a => simpa [display] using slash_notMem_ipv6Text a.toNat

/-- `::ffff:a.b.c.d`, the IPv6 spelling of an IPv4 address. -/
def toIpv6Mapped (a : BitVec 32) : BitVec 128 :=
  (0xffff : BitVec 96) ++ a

def toIpv4Mapped (a : BitVec 128) : Option (BitVec 32) :=
  if a.extractLsb (32 + 95) 32 = 0xffff then some (a.extractLsb 31 0) else none

def IpAddr.toCanonical : IpAddr → IpAddr
  | .v4 a => .v4 a
  | .v6 a => match toIpv4Mapped a with
    | some mapped => .v4 mapped
    | none => .v6 a

/-- A network: an address and how many of its leading bits it fixes, which the
parser bounds by the address's width. -/
structure Cidr where
  addr : IpAddr
  bits : Nat
  deriving DecidableEq, Repr

/-- The source widens both sides to 128 bits first; the shift is the same. -/
def samePrefix {w : Nat} (a b : BitVec w) (bits : Nat) : Bool :=
  bits == 0 || a >>> (w - bits) == b >>> (w - bits)

def Cidr.containsExactly (net : Cidr) (ip : IpAddr) : Bool :=
  match net.addr, ip with
  | .v4 n, .v4 a => samePrefix n a net.bits
  | .v6 n, .v6 a => samePrefix n a net.bits
  | _, _ => false

def Cidr.contains (net : Cidr) (ip : IpAddr) : Bool :=
  match net.addr, ip.toCanonical with
  | .v6 n, .v4 a =>
    decide (96 ≤ net.bits) && (toIpv4Mapped n).isSome &&
      net.containsExactly (.v6 (toIpv6Mapped a))
  | _, a => net.containsExactly a

section
variable (parse : String → Option IpAddr)

def namedHeaderIp (named : Option String) : Option IpAddr :=
  named.bind fun text => (parse (trim text)).map IpAddr.toCanonical

/-- The walk over the chain's hops, rightmost first. `leftmost` is the last
trusted hop read; the first hop no trusted network holds is the client. -/
def walkChain (trusts : IpAddr → Bool) : List String → Option IpAddr → IpAddr ⊕ Option IpAddr
  | [], leftmost => .inr leftmost
  | hop :: hops, leftmost =>
    match (parse (trim hop)).map IpAddr.toCanonical with
    | none => walkChain trusts hops leftmost
    | some ip => if trusts ip then walkChain trusts hops (some ip) else .inl ip

def clientIp (peer : IpAddr) (forwardedFor : Option String) (trusted : List Cidr)
    (named : Option String) : IpAddr :=
  let trusts := fun ip => trusted.any fun net => net.contains ip
  let peer := peer.toCanonical
  if !trusts peer then peer
  else match forwardedFor with
    | none => (namedHeaderIp parse named).getD peer
    | some chain => match walkChain parse trusts (splitOn ',' chain).reverse none with
      | .inl ip => ip
      | .inr leftmost => leftmost.getD ((namedHeaderIp parse named).getD peer)

end

end Gapura.Core.ClientIp
