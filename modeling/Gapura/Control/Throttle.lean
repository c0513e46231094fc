import Gapura.Core.ClientIp
import Gapura.Lib.Tables

/-! # Limits on sign-ins and sign-ups

An attempt is counted from the moment it is let through: it is reserved against
its counters as a failure in waiting, and its outcome settles it. A sign-in is
held to its name at its address and to its address, and fails open when the
counters are full; a sign-up is held to its address under two windows, and fails
closed. Instants and durations are nanoseconds. -/
namespace Gapura.Control.Throttle
open Lib.Tables
open Core.ClientIp (IpAddr)

structure Rule where
  limit : Nat
  window : Nat
  lock : Nat
  deriving DecidableEq, Repr

def minute : Nat := 60 * 1000000000

def pairRule : Rule := ⟨5, 15 * minute, 15 * minute⟩

def addressRule : Rule := ⟨10, minute, minute⟩

def signUpBurst : Rule := ⟨5, 10 * minute, 10 * minute⟩

def signUpDay : Rule := ⟨20, 24 * 60 * minute, 24 * 60 * minute⟩

/-- How an attempt ended, as far as the counters care. -/
inductive Outcome where
  | failed
  | succeeded
  | refunded
  deriving DecidableEq, Repr

/-- Which counters an attempt is held to. -/
structure Policy where
  pair : Option Rule
  address : List Rule
  /-- Full counters refuse an attempt rather than let it through uncounted. -/
  failClosed : Bool
  /-- What an attempt dropped unsettled is taken as. -/
  onDrop : Outcome
  deriving DecidableEq, Repr

def signIn : Policy := ⟨some pairRule, [addressRule], false, .refunded⟩

def signUp : Policy := ⟨none, [signUpBurst, signUpDay], true, .failed⟩

/-- What a counter counts: the digest of a name at an address, or an address
under the policy's rule at an index. -/
inductive Key (D : Type) where
  | pair (name : D) (addr : IpAddr)
  | address (addr : IpAddr) (window : Nat)
  deriving DecidableEq

variable {D : Type}

def Key.isPair : Key D → Bool
  | .pair _ _ => true
  | .address _ _ => false

/-- The rule of a key. A key is made only where the policy has a rule for it. -/
def Policy.rule (policy : Policy) : Key D → Rule
  | .pair _ _ => policy.pair.getD ⟨1, 0, 0⟩
  | .address _ window => policy.address.getD window ⟨1, 0, 0⟩

structure Counter where
  failures : Nat
  /-- Attempts let through and not yet settled. -/
  pending : Nat
  since : Nat
  lockedUntil : Option Nat
  deriving DecidableEq, Repr

namespace Counter

def fresh (now : Nat) : Counter := ⟨0, 0, now, none⟩

def locked (c : Counter) (now : Nat) : Option Nat :=
  (c.lockedUntil.filter (now < ·)).map (· - now)

/-- Unlocked and past its window: the failures it holds no longer count. -/
def lapsed (c : Counter) (rule : Rule) (now : Nat) : Bool :=
  (c.locked now).isNone && c.since + rule.window ≤ now

def expired (c : Counter) (rule : Rule) (now : Nat) : Bool :=
  c.pending == 0 && c.lapsed rule now

/-- How long another attempt must wait. -/
def wait (c : Counter) (rule : Rule) (now : Nat) : Option Nat :=
  match c.locked now with
  | some wait => some wait
  | none =>
    let failures := if c.lapsed rule now then 0 else c.failures
    if rule.limit ≤ failures + c.pending then some rule.lock else none

/-- Attempts in flight stay counted when a window is over. -/
def restart (c : Counter) (rule : Rule) (now : Nat) : Counter :=
  if c.lapsed rule now then { fresh now with pending := c.pending } else c

def reserve (c : Counter) : Counter := { c with pending := c.pending + 1 }

def release (c : Counter) : Counter := { c with pending := c.pending - 1 }

def fail (c : Counter) (rule : Rule) (now : Nat) : Counter :=
  let c := { c with failures := c.failures + 1 }
  if rule.limit ≤ c.failures && (c.locked now).isNone then
    { c with lockedUntil := some (now + rule.lock) }
  else c

def clear (c : Counter) : Counter := { c with failures := 0, lockedUntil := none }

def empty (c : Counter) : Bool := c.pending == 0 && c.failures == 0 && c.lockedUntil.isNone

end Counter

abbrev Counters (D : Type) := Table (Key D) Counter

/-- Why an attempt was not let through. -/
inductive Refused where
  | wait (time : Nat)
  | full
  deriving DecidableEq, Repr

/-- An IPv4 address as it is, an IPv6 one by its /64. -/
def bucket (addr : IpAddr) : IpAddr :=
  match addr.toCanonical with
  | .v6 a => .v6 (a &&& ~~~ (BitVec.ofNat 128 (2 ^ 64 - 1)))
  | .v4 a => .v4 a

section
variable [DecidableEq D] (policy : Policy) (capacity : Nat)

/-- The counters with room for `key`, if expired ones make some. -/
def makeRoom (counters : Counters D) (key : Key D) (now : Nat) : Counters D :=
  if key ∉ counters ∧ capacity ≤ size counters then
    retain counters fun k c => !c.expired (policy.rule k) now
  else counters

/-- The counter for `key`, made if there is none and restarted if its window has
lapsed, or none when the counters are full of entries still worth keeping. -/
def counter (counters : Counters D) (key : Key D) (now : Nat) : Counters D × Option Counter :=
  let counters := makeRoom policy capacity counters key now
  if key ∉ counters ∧ capacity ≤ size counters then (counters, none)
  else
    let c := ((counters.lookup key).getD (.fresh now)).restart (policy.rule key) now
    (counters.insert key c, some c)

/-- Gives a reservation back. -/
def giveBack (counters : Counters D) (held : Key D × Bool) : Counters D :=
  match held.2, counters.lookup held.1 with
  | true, some c => counters.insert held.1 c.release
  | _, _ => counters

def applyOutcome (outcome : Outcome) (now : Nat) (counters : Counters D) (key : Key D) :
    Counters D :=
  match outcome, key with
  | .failed, _ => match counter policy capacity counters key now with
    | (counters, some c) => counters.insert key (c.fail (policy.rule key) now)
    | (counters, none) => counters
  | .succeeded, .pair _ _ => match counters.lookup key with
    | some c => counters.insert key c.clear
    | none => counters
  | .succeeded, .address _ _ | .refunded, _ => counters

/-- One left holding nothing goes now rather than waiting for the cap. -/
def tidy (counters : Counters D) (key : Key D) : Counters D :=
  if (counters.lookup key).any Counter.empty then counters.erase key else counters

/-- One key of a settled attempt, with whether it holds a reservation there. -/
def settleKey (outcome : Outcome) (now : Nat) (counters : Counters D) (held : Key D × Bool) :
    Counters D :=
  tidy (applyOutcome policy capacity outcome now (giveBack counters held) held.1) held.1

def settleIn (counters : Counters D) (held : List (Key D × Bool)) (outcome : Outcome)
    (now : Nat) : Counters D :=
  held.foldl (settleKey policy capacity outcome now) counters

/-- Reserves the keys in turn. -/
def reserveAll (now : Nat) :
    Counters D → List (Key D × Bool) → List (Key D) →
      Counters D × Except Refused (List (Key D × Bool))
  | counters, reserved, [] => (counters, .ok reserved)
  | counters, reserved, key :: rest =>
    match counter policy capacity counters key now with
    | (counters, some c) =>
      reserveAll now (counters.insert key c.reserve) (reserved ++ [(key, true)]) rest
    | (counters, none) =>
      if policy.failClosed then
        -- what was reserved before the full one is given back
        (settleIn policy capacity counters reserved .refunded now, .error .full)
      else reserveAll now counters (reserved ++ [(key, false)]) rest

variable (digest : String → D)

/-- The keys of an attempt: its pair, where the policy has a rule for that, then
its address under each rule. -/
def keysOf (name : Option String) (addr : IpAddr) : List (Key D) :=
  ((name.filter fun _ => policy.pair.isSome).map fun n => .pair (digest n) addr).toList ++
    ((List.range policy.address.length).filter (· < 256)).map (.address addr)

def reserveAt (counters : Counters D) (name : Option String) (addr : IpAddr) (now : Nat) :
    Counters D × Except Refused (List (Key D × Bool)) :=
  let keys := keysOf policy digest name (bucket addr)
  match (keys.filterMap fun k =>
      (counters.lookup k).bind fun c => c.wait (policy.rule k) now).max? with
  | some wait => (counters, .error (.wait wait))
  | none => reserveAll policy capacity now counters [] keys

/-! ## Runs -/

/-- Whether settling one key adds a failure to its counter. -/
def counts (outcome : Outcome) (now : Nat) (counters : Counters D) (held : Key D × Bool) : Bool :=
  outcome == .failed && (counter policy capacity (giveBack counters held) held.1 now).2.isSome

/-- The keys for which settling an attempt counts a failure. -/
def countedIn (outcome : Outcome) (now : Nat) : Counters D → List (Key D × Bool) → List (Key D)
  | _, [] => []
  | counters, held :: rest =>
    (if counts policy capacity outcome now counters held then [held.1] else []) ++
      countedIn outcome now (settleKey policy capacity outcome now counters held) rest

structure State (D : Type) where
  counters : Counters D
  /-- The attempts let through and not yet settled. -/
  outstanding : List (List (Key D × Bool))
  /-- Every failure that was counted, and every success of a pair, with its
  time; kept for what is proved and read by nothing. -/
  counted : List (Nat × Key D)
  cleared : List (Nat × Key D)

inductive Op where
  | reserve (name : Option String) (addr : IpAddr)
  /-- Settles the outstanding attempt of that number. -/
  | settle (attempt : Nat) (outcome : Outcome)
  | drop (attempt : Nat)

def settle (s : State D) (n : Nat) (outcome : Outcome) (now : Nat) : State D :=
  match s.outstanding[n]? with
  | none => s
  | some held =>
    { counters := settleIn policy capacity s.counters held outcome now
      outstanding := s.outstanding.eraseIdx n
      counted := (countedIn policy capacity outcome now s.counters held).map (now, ·) ++ s.counted
      cleared := (if outcome = .succeeded then
        (held.filter fun h => h.1.isPair).map fun h => (now, h.1) else []) ++ s.cleared }

/-- The state after an operation, and how an attempt was refused. -/
def step (s : State D) (now : Nat) : Op → State D × Option Refused
  | .reserve name addr =>
    match reserveAt policy capacity digest s.counters name addr now with
    | (counters, .ok held) =>
      ({ s with counters, outstanding := s.outstanding ++ [held] }, none)
    | (counters, .error refused) => ({ s with counters }, some refused)
  | .settle n outcome => (settle policy capacity s n outcome now, none)
  | .drop n => (settle policy capacity s n policy.onDrop now, none)

/-- The state after operations, each at its time. -/
def run (ops : List (Nat × Op)) : State D :=
  ops.foldl (fun s op => (step policy capacity digest s op.1 op.2).1) ⟨∅, [], [], []⟩

end

end Gapura.Control.Throttle
