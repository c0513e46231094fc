import Gapura.Core.Config
import Gapura.Lib.Headers

/-! # Request limits

One fixed window per window name and client, aligned to the epoch. The table
is swept of ended windows once it has doubled, and when one name's header
windows are full; past that cap a new header value counts by the request's
address. Times are milliseconds since the epoch. -/
namespace Gapura.Proxy.RateLimit
open Gapura.Core Core.ClientIp Lib.Headers

inductive Outcome where
  | allowed
  | limited (limit retryAfterSecs : Nat)
  deriving DecidableEq, Repr

/-- Who one window counts. A header's value stands as 16 bytes of its digest. -/
inductive Client where
  | ip (addr : IpAddr)
  | consumer (id : String)
  | header (short : List UInt8)
  deriving DecidableEq, Repr

def Client.ofHeader (sha256 : List UInt8 → List UInt8) (value : Value) : Client :=
  .header ((sha256 value).take 16)

/-- What `limitBy` names when the request has it, else the address. A header
counts only on exactly one line that is not empty. -/
def client (sha256 : List UInt8 → List UInt8) (limitBy : LimitBy) (ip : Option IpAddr)
    (consumer : Option String) (headers : HeaderMap) : Option Client :=
  let named := match limitBy with
    | .ip => none
    | .consumer => consumer.map Client.consumer
    | .header name => match headers.getAll name with
      | [line] => if line.isEmpty then none else some (.ofHeader sha256 line)
      | _ => none
  named.or (ip.map Client.ip)

def sweepFloor : Nat := 65536
def headerWindowCap : Nat := 65536
def cappedSweepMs : Nat := 1000

/-- When the window ends, and what it has counted. -/
structure Window where
  endsMs : Nat
  count : Nat
  deriving DecidableEq, Repr

abbrev Windows := AList fun _ : String × Client => Window
abbrev Counts := AList fun _ : String => Nat

structure Table where
  windows : Windows := ∅
  sweepAt : Nat := sweepFloor
  /-- How many windows of each name count a header's value. -/
  headerWindows : Counts := ∅
  sweptMs : Nat := 0

def Table.held (t : Table) (window : String) : Nat := (t.headerWindows.lookup window).getD 0

def addHeaderWindow (counts : Counts) (window : String) : Counts :=
  counts.insert window ((counts.lookup window).getD 0 + 1)

/-- The windows still open at `nowMs`. -/
def live (windows : Windows) (nowMs : Nat) : Windows where
  entries := windows.entries.filter fun e => nowMs < e.2.endsMs
  nodupKeys := windows.nodupKeys.sublist List.filter_sublist

def countHeaders (windows : Windows) : Counts :=
  windows.keys.foldl (fun counts key => match key.2 with
    | .header _ => addHeaderWindow counts key.1
    | _ => counts) ∅

def Table.sweep (t : Table) (nowMs : Nat) : Table :=
  let windows := live t.windows nowMs
  { windows, headerWindows := countHeaders windows
    sweepAt := max (windows.entries.length * 2) sweepFloor
    sweptMs := nowMs }

/-- An IPv6 address counts as its /64. -/
def grouped (ip : IpAddr) : IpAddr :=
  match ip.toCanonical with
  | .v6 a => .v6 ((a >>> 64) <<< 64)
  | v4 => v4

/-- The client a request is charged to, `none` when it is not charged at all:
a header value that opens one window too many counts by the address. -/
def charge (t : Table) (window : String) (client : Client) (ip : Option IpAddr) (nowMs : Nat) :
    Option Client × Table :=
  match client with
  | .header _ =>
    if (t.windows.lookup (window, client)).isSome then (some client, t)
    else
      -- a clock that stepped back is taken as a second gone by
      let due := nowMs < t.sweptMs || min (t.sweptMs + cappedSweepMs) (2 ^ 64 - 1) ≤ nowMs
      let t := if headerWindowCap ≤ t.held window && due then t.sweep nowMs else t
      if headerWindowCap ≤ t.held window then (ip.map fun addr => .ip (grouped addr), t)
      else (some client, { t with headerWindows := addHeaderWindow t.headerWindows window })
  | _ => (some client, t)

/-- One more request in the window of `key`, which starts over when the one
held has ended or had another length. -/
def count (t : Table) (key : String × Client) (rl : RateLimit) (endsMs nowMs : Nat) :
    Outcome × Table :=
  let held := (t.windows.lookup key).getD ⟨endsMs, 0⟩
  let w : Window := if held.endsMs = endsMs then held else ⟨endsMs, 0⟩
  if rl.limit ≤ w.count then
    (.limited rl.limit (max ((endsMs - nowMs) / 1000) 1),
      { t with windows := t.windows.insert key w })
  else (.allowed, { t with windows := t.windows.insert key { w with count := w.count + 1 } })

def checkAt (t : Table) (window : String) (client : Client) (ip : Option IpAddr) (rl : RateLimit)
    (nowMs : Nat) : Outcome × Table :=
  let windowMs := max rl.windowMs 1
  let endsMs := (nowMs / windowMs + 1) * windowMs
  let client := match client with
    | .ip addr => .ip (grouped addr)
    | named => named
  let t := if t.sweepAt < t.windows.entries.length then t.sweep nowMs else t
  match charge t window client ip nowMs with
  | (none, t) => (.allowed, t)
  | (some client, t) => count t (window, client) rl endsMs nowMs

end Gapura.Proxy.RateLimit
