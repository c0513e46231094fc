import Gapura.Lib.Tables
import Gapura.Proxy.Select

/-! # Passive outlier detection

Endpoints that keep failing are taken out of rotation for a while. Each
attempt's outcome is recorded against its endpoint's `Health`; the records are
keyed by address and outlive any one generation of the configuration. A record
is shared by every generation that names its address, so it is held by a number
here, the position of the record among all those ever made. -/
namespace Gapura.Proxy.Outlier
open Gapura.Core Core.ClientIp Lib.Tables Select

def u32Max : Nat := 2 ^ 32 - 1
def u64Max : Nat := 2 ^ 64 - 1

/-- The sum or product, or the largest value of the type when it does not fit. -/
def saturating (max n : Nat) : Nat := min n max

/-- What one attempt against an endpoint came to. -/
inductive Outcome where
  | success
  | failure
  deriving DecidableEq, Repr

/-- One cluster's policy, each number within its type. -/
structure OutlierDetection where
  consecutiveFailures : Nat := 5
  successesToRecover : Nat := 5
  baseEjectionMs : Nat := 30000
  maxEjectionMs : Nat := 300000
  maxEjectedPercent : Nat := 50
  failures_fit : consecutiveFailures ≤ u32Max := by decide
  successes_fit : successesToRecover ≤ u32Max := by decide
  base_fits : baseEjectionMs ≤ u64Max := by decide
  max_fits : maxEjectionMs ≤ u64Max := by decide
  percent_fits : maxEjectedPercent < 256 := by decide

structure Counts where
  failures : Nat := 0
  successes : Nat := 0
  ejections : Nat := 0
  deriving DecidableEq, Repr

/-- One endpoint's record. -/
structure Health where
  counts : Counts := {}
  ejectedUntil : Nat := 0
  deriving DecidableEq, Repr

def Health.isEjected (h : Health) (nowMs : Nat) : Bool := decide (h.ejectedUntil > nowMs)

/-- Counts one outcome, and says for how long when it is the one that ejected
the endpoint. Answers to requests already in flight when it was ejected neither
extend nor end its time out; on probation one failure is enough. -/
def Health.record (h : Health) (outcome : Outcome) (nowMs : Nat) (p : OutlierDetection) :
    Health × Option Nat :=
  if p.consecutiveFailures = 0 then (h, none)
  else if h.isEjected nowMs then (h, none)
  else match outcome with
    | .success =>
      let c := { h.counts with failures := 0 }
      if c.ejections > 0 then
        -- the one addition of the source that would wrap
        let c := { c with successes := (c.successes + 1) % 2 ^ 32 }
        if c.successes ≥ p.successesToRecover then ({ h with counts := {} }, none)
        else ({ h with counts := c }, none)
      else ({ h with counts := c }, none)
    | .failure =>
      let c := { h.counts with
        successes := 0, failures := saturating u32Max (h.counts.failures + 1) }
      let threshold := if c.ejections > 0 then 1 else p.consecutiveFailures
      if c.failures < threshold then ({ h with counts := c }, none)
      else
        let c := { c with failures := 0, ejections := saturating u32Max (c.ejections + 1) }
        let ms := min (saturating u64Max (p.baseEjectionMs * c.ejections)) p.maxEjectionMs
        ({ counts := c, ejectedUntil := saturating u64Max (nowMs + ms) }, some ms)

/-! ## The registry -/

/-- Every configured endpoint's record by address, and every record ever made:
a generation that is still serving may hold one its address has lost. -/
structure Registry where
  known : Table SocketAddr Nat := ∅
  records : List Health := []

/-- Per cluster key, one record per endpoint, in order; `none` where the address
does not parse. -/
abbrev ClusterHealth := Table String (List (Option Nat))

/-- The record of an address, a new one when it has none. -/
def Registry.entry (r : Registry) (addr : SocketAddr) : Nat × Registry :=
  match r.known.lookup addr with
  | some id => (id, r)
  | none => (r.records.length,
      { known := r.known.insert addr r.records.length, records := r.records ++ [{}] })

section
variable (parseIp : String → Option IpAddr)

def namedBy (config : Config) : List SocketAddr :=
  config.clusters.toList.flatMap fun c => c.2.endpoints.filterMap (endpointAddr parseIp)

def Registry.entries (r : Registry) : List Endpoint → List (Option Nat) × Registry
  | [] => ([], r)
  | e :: rest => match endpointAddr parseIp e with
    | none =>
      let (ids, r) := r.entries rest
      (none :: ids, r)
    | some addr =>
      let (id, r) := r.entry addr
      let (ids, r) := r.entries rest
      (some id :: ids, r)

def Registry.syncClusters (r : Registry) (out : ClusterHealth) :
    List (String × Cluster) → ClusterHealth × Registry
  | [] => (out, r)
  | (key, cluster) :: rest =>
    let (ids, r) := r.entries parseIp cluster.endpoints
    r.syncClusters (out.insert key ids) rest

/-- The records of a configuration's endpoints, sharing those of addresses seen
before. An address it does not name is forgotten. -/
def Registry.sync (r : Registry) (config : Config) : ClusterHealth × Registry :=
  let known := retain r.known fun addr _ => (namedBy parseIp config).contains addr
  { r with known }.syncClusters parseIp ∅ config.clusters.toList

end

/-- `pickEndpoint`'s question about the endpoint at an index. -/
def ejectedAt (r : Registry) (ids : List (Option Nat)) (nowMs i : Nat) : Bool :=
  match ids[i]? with
  | some (some id) => match r.records[id]? with
    | some h => h.isEjected nowMs
    | none => false
  | _ => false

end Gapura.Proxy.Outlier
