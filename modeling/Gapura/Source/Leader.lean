import Mathlib

/-! # Electing a leader on a Lease

Each replica runs one loop. On every tick it reads the Lease, decides, and if
the Lease is free or its own commits a new version of it; it calls itself leader
when the server told it that this commit was applied. A step is bounded in time.
Instants are nanoseconds of one clock, which all replicas read. -/
namespace Gapura.Source.Leader

def second : Nat := 1000000000

def leaseSecs : Nat := 15

def renewEvery : Nat := 5 * second

/-- A step's bound: strictly below the duration of a Lease. -/
def deadline : Nat := max (leaseSecs * second - renewEvery) second

/-- A stored time, in microseconds from the epoch. -/
abbrev MicroTime := Int

def MicroTime.asSecond (t : MicroTime) : Int := t.tdiv 1000000

/-- An instant as it is stored. -/
def microTime (now : Nat) : MicroTime := (now / 1000 : Nat)

structure LeaseSpec where
  holderIdentity : Option String := none
  leaseDurationSeconds : Option Int := none
  acquireTime : Option MicroTime := none
  renewTime : Option MicroTime := none
  leaseTransitions : Option Int := none
  deriving DecidableEq, Repr

inductive Decision where
  | acquire
  | renew
  | wait
  deriving DecidableEq, Repr

/-- Absent or expired leases are acquired, our own is renewed, a live one held
by someone else waits. -/
def decide (spec : Option LeaseSpec) (identity : String) (nowSecs : Int) : Decision :=
  match spec with
  | none => .acquire
  | some spec =>
    if spec.holderIdentity = some identity then .renew
    else if (spec.renewTime.map MicroTime.asSecond).getD 0 +
        spec.leaseDurationSeconds.getD 0 ≤ nowSecs then .acquire
    else .wait

/-- How long the next step may take: as leader, what is left of `deadline` since
the last renewal. -/
def stepBudget (renewedAt : Option Nat) (leader : Bool) (now : Nat) : Nat :=
  match renewedAt with
  | some at_ => if leader then at_ + deadline - now else deadline
  | none => deadline

/-- The Lease a step writes over the one it read. -/
def renewed (spec : Option LeaseSpec) (decision : Decision) (identity : String) (now : Nat) :
    LeaseSpec :=
  let spec := spec.getD {}
  let spec := if decision = .acquire then
    { spec with
      acquireTime := some (microTime now)
      leaseTransitions := some (spec.leaseTransitions.getD 0 + 1) }
  else spec
  { spec with
    holderIdentity := some identity
    leaseDurationSeconds := some leaseSecs
    renewTime := some (microTime now) }

/-! ## The server -/

/-- The Lease as the server keeps it: absent, or with a specification or
without. `version` changes with every write. -/
structure Stored where
  version : Nat
  lease : Option (Option LeaseSpec)

def Stored.spec (s : Stored) : Option LeaseSpec := s.lease.join

/-- A commit: a create, or a replacement of the version it names. -/
structure Request where
  create : Bool
  version : Nat
  spec : LeaseSpec

/-- Would the server apply it now? A create finds no Lease, a replacement the
version it names. -/
def Request.Applies (r : Request) (s : Stored) : Prop :=
  if r.create then s.lease = none else s.lease ≠ none ∧ s.version = r.version

def Stored.write (s : Stored) (spec : LeaseSpec) : Stored where
  version := s.version + 1
  lease := some (some spec)

/-! ## A replica -/

inductive Phase where
  | waiting
  /-- The tick was served, and the step begins. -/
  | started (at_ : Nat)
  /-- The clock was read as `now`, and the Lease asked for. -/
  | reading (at_ now : Nat)
  /-- The server has answered with what it held then. -/
  | answered (at_ now : Nat) (read : Stored)
  /-- A commit was sent, under its number. -/
  | committing (at_ : Nat) (request : Nat)
  | returned

/-- When the step that is under way began. -/
def Phase.stepAt : Phase → Option Nat
  | .started at_ | .reading at_ _ | .answered at_ _ _ | .committing at_ _ => some at_
  | .waiting | .returned => none

structure Replica where
  /-- What it publishes. -/
  leader : Bool
  /-- The start of the step that last renewed the Lease. -/
  renewedAt : Option Nat
  /-- When the interval ticks next; a tick that was missed fires at once. -/
  nextTick : Nat
  phase : Phase
  /-- When the timer it waits for goes off. -/
  due : Nat

def Replica.start (firstTick now : Nat) : Replica where
  leader := false
  renewedAt := none
  nextTick := firstTick
  phase := .waiting
  due := max now firstTick

def Replica.tick (r : Replica) (now : Nat) : Replica :=
  { r with
    nextTick := r.nextTick + renewEvery
    phase := .started now
    due := now + stepBudget r.renewedAt r.leader now }

/-- The step that began at `at_` ended with `leader`. -/
def Replica.finish (r : Replica) (now at_ : Nat) (leader : Bool) : Replica :=
  { r with
    leader := leader
    renewedAt := if leader then some at_ else none
    phase := .waiting
    due := max now r.nextTick }

/-! ## All of them -/

structure Cluster (I : Type) where
  now : Nat
  stored : Stored
  replica : I → Replica
  /-- Every commit ever sent, oldest first. One may arrive at any later time, or
  never, whatever became of the step that sent it. -/
  sent : List Request
  /-- The numbers of the commits that were applied. -/
  applied : List Nat

section
variable {I : Type} [DecidableEq I]

def Cluster.set (c : Cluster I) (i : I) (r : Replica) : Cluster I :=
  { c with replica := Function.update c.replica i r }

/-- Sends the commit of a step that decided to. -/
def Cluster.commit (c : Cluster I) (i : I) (identity : String) (at_ now : Nat) (read : Stored)
    (decision : Decision) : Cluster I :=
  { c.set i { c.replica i with phase := .committing at_ c.sent.length } with
    sent := c.sent ++ [
      { create := read.lease.isNone
        version := read.version
        spec := renewed read.spec decision identity now }] }

/-- A timer is served at most `lag` after it is due; no other bound is put on
anything. -/
inductive Step (identity : I → String) (lag : Nat) : Cluster I → Cluster I → Prop
  | pass {c : Cluster I} {now : Nat} (hnow : c.now ≤ now)
      (hdue : ∀ i, (c.replica i).phase ≠ .returned → now ≤ (c.replica i).due + lag) :
      Step identity lag c { c with now := now }
  | tick {c : Cluster I} {i : I} (hphase : (c.replica i).phase = .waiting)
      (htick : (c.replica i).nextTick ≤ c.now) :
      Step identity lag c (c.set i ((c.replica i).tick c.now))
  | read {c : Cluster I} {i : I} {at_ : Nat} (hphase : (c.replica i).phase = .started at_) :
      Step identity lag c (c.set i { c.replica i with phase := .reading at_ c.now })
  | answer {c : Cluster I} {i : I} {at_ now : Nat}
      (hphase : (c.replica i).phase = .reading at_ now) :
      Step identity lag c (c.set i { c.replica i with phase := .answered at_ now c.stored })
  | commit {c : Cluster I} {i : I} {at_ now : Nat} {read : Stored}
      (hphase : (c.replica i).phase = .answered at_ now read)
      (hdecision : decide read.spec (identity i) (now / second : Nat) ≠ .wait) :
      Step identity lag c (c.commit i (identity i) at_ now read
        (decide read.spec (identity i) (now / second : Nat)))
  /-- The server applies a commit that has reached it. -/
  | apply {c : Cluster I} {n : Nat} {r : Request} (hsent : c.sent[n]? = some r)
      (happlies : r.Applies c.stored) :
      Step identity lag c { c with stored := c.stored.write r.spec, applied := n :: c.applied }
  /-- The answer that the commit was applied. -/
  | renewed {c : Cluster I} {i : I} {at_ n : Nat}
      (hphase : (c.replica i).phase = .committing at_ n) (happlied : n ∈ c.applied) :
      Step identity lag c (c.set i ((c.replica i).finish c.now at_ true))
  /-- The step ends in any other way: it is to wait, a call was refused, failed
  or got no answer, or the time is up. -/
  | failed {c : Cluster I} {i : I} {at_ : Nat} (hphase : (c.replica i).phase.stepAt = some at_) :
      Step identity lag c (c.set i ((c.replica i).finish c.now at_ false))
  | shutdown {c : Cluster I} {i : I} :
      Step identity lag c (c.set i { c.replica i with phase := .returned })

/-- Replicas about to begin, with any Lease or none. -/
def start (now : Nat) (stored : Stored) (firstTick : I → Nat) : Cluster I where
  now := now
  stored := stored
  replica := fun i => .start (firstTick i) now
  sent := []
  applied := []

def Reachable (identity : I → String) (lag : Nat) (c : Cluster I) : Prop :=
  ∃ now stored firstTick, Relation.ReflTransGen (Step identity lag) (start now stored firstTick) c

end

end Gapura.Source.Leader
