import Gapura.Core.Translate.Backends
import Gapura.Source.KeySources

/-! # The control source

The data plane polls the control plane, keeps the last configuration it was
sent, and on every tick refreshes key documents, resolves the backends named by
host and swaps the result into the store if it differs from what is served. A
disk cache holds the configuration for the next start. A tick is a sequence of
separate effects; the process may stop after any of them, and the cache file is
replaced by a rename, so it is at every moment the old file or the new one. -/
namespace Gapura.Source.Control
open Gapura.Core Jwks Lib.Ordered
open Core.Translate (endpointCmp)

structure Cached where
  version : String
  config : Config
  jwks : List Fetched

inductive Polled where
  | changed (version : String) (config : Config)
  | unchanged
  | incompatible (missing : List String)

/-- The control plane's answer, with its body read both ways a status asks for. -/
structure Response where
  status : Nat
  etag : Option String
  missing : Except String (List String)
  config : Except String Config

def poll (res : Except String Response) : Except String Polled := do
  let res ← res
  if res.status = 304 then return .unchanged
  else if res.status = 409 then return .incompatible (← res.missing)
  else if res.status < 200 ∨ 300 ≤ res.status then
    .error ("the control plane answered " ++ toString res.status)
  else return .changed (res.etag.getD "") (← res.config)

/-! ## Resolving backends -/

/-- What the resolver says of each `host:port`; nothing when it does not answer
in time. -/
abbrev Lookups := String → Option (Except String (List Endpoint))

def targetText (t : ResolveTarget) : String := t.host ++ ":" ++ toString t.port

/-- The addresses already served for a cluster, if it named the same host. -/
def kept (served : Config) (key : String) (cluster : Cluster) : List Endpoint :=
  (((served.clusters.get? key).filter fun c => c.resolve == cluster.resolve).map
    (·.endpoints)).getD []

def resolveCluster (served : Config) (lookups : Lookups) (key : String) (cluster : Cluster) :
    Cluster :=
  match cluster.resolve with
  | none => cluster
  | some target => match lookups (targetText target) with
    | some (.ok addrs) =>
      { cluster with endpoints := (sortBy endpointCmp addrs).destutter (· ≠ ·) }
    -- an error, or no answer within the timeout
    | _ => { cluster with endpoints := kept served key cluster }

def resolve (config served : Config) (lookups : Lookups) : Config :=
  { config with clusters := config.clusters.map (resolveCluster served lookups) }

/-! ## Comparing configurations -/

/-- A configuration with its maps listed in order, as two maps are compared. -/
structure Listing where
  listeners : List ListenerConfig
  ports : List (Nat × List PortEntry)
  clusters : List (String × Cluster)
  credentials : List (String × String)
  credentialWorkspaces : List (String × String)
  consumerRateLimits : List (String × List (String × RateLimit) × Option RateLimit)
  consumers : List (String × List String)
  deriving DecidableEq

def listing (config : Config) : Listing where
  listeners := config.listeners
  ports := config.ports.toList
  clusters := config.clusters.toList
  credentials := config.credentials.toList
  credentialWorkspaces := config.credentialWorkspaces.toList
  consumerRateLimits := config.consumerRateLimits.toList.map fun (consumer, limits) =>
    (consumer, limits.routes.toList, limits.any)
  consumers := config.consumers.toList

/-- A cluster without the addresses a resolver gave it. -/
def bareCluster (cluster : Cluster) : Cluster :=
  if cluster.resolve.isSome then { cluster with endpoints := [] } else cluster

/-- What a data plane cannot change: all but resolved addresses and fetched key
documents. -/
def Listing.outline (l : Listing) : Listing :=
  { l with
    listeners := l.listeners.map (mapPlugins barePlugin)
    clusters := l.clusters.map fun (key, cluster) => (key, bareCluster cluster) }

/-- Equal up to resolved addresses and fetched key documents. -/
def Same (a b : Config) : Prop := (listing a).outline = (listing b).outline

instance (a b : Config) : Decidable (Same a b) := inferInstanceAs (Decidable (_ = _))

theorem Same.trans {a b c : Config} (hab : Same a b) (hbc : Same b c) : Same a c :=
  Eq.trans hab hbc

theorem Same.symm {a b : Config} (h : Same a b) : Same b a := Eq.symm h

theorem Same.of_listing_eq {a b : Config} (h : listing a = listing b) : Same a b :=
  congrArg Listing.outline h

theorem bareCluster_resolveCluster (served : Config) (lookups : Lookups) (key : String)
    (cluster : Cluster) :
    bareCluster (resolveCluster served lookups key cluster) = bareCluster cluster := by
  cases htarget : cluster.resolve with
  | none => simp [resolveCluster, htarget]
  | some target =>
    simp only [resolveCluster, htarget]
    split <;> simp [bareCluster, htarget]

theorem same_resolve (config served : Config) (lookups : Lookups) :
    Same (resolve config served lookups) config := by
  have hclusters : ∀ entry : String × Cluster,
      (entry.1, bareCluster (resolveCluster served lookups entry.1 entry.2)) =
        (entry.1, bareCluster entry.2) := by
    intro entry
    rw [bareCluster_resolveCluster]
  simp [Same, listing, Listing.outline, resolve, Std.TreeMap.toList_map, hclusters]

theorem same_fill (keys : KeySources) (config : Config) : Same (fill keys config) config := by
  have hlisteners := bare_fill keys config
  simp only [Same, listing, Listing.outline]
  rw [hlisteners]
  rfl

/-! ## A run -/

/-- What a process holds, with the disk beside it. The last two fields are kept
for the record: what it swapped into the store, newest first, and whether the
cache file is its own. -/
structure Process where
  served : Config
  cache : Option Cached
  keys : KeySources
  held : Option String
  latest : Option Config
  swapped : List Config
  wrote : Bool

/-- What the other sides do in one tick. -/
structure Tick where
  response : Except String Response
  now : Nat
  kidMiss : Bool
  fetching : Fetching
  /-- Whether the cache file could be replaced. -/
  writable : Bool
  lookups : Lookups

/-- What the store holds before anything is swapped in. -/
def defaultConfig : Config where
  listeners := []
  ports := ∅
  clusters := ∅
  credentials := ∅
  credentialWorkspaces := ∅
  consumerRateLimits := ∅
  consumers := ∅

/-- A process that has not read its cache yet. -/
def Process.new (disk : Option Cached) : Process where
  served := defaultConfig
  cache := disk
  keys := ∅
  held := none
  latest := none
  swapped := []
  wrote := false

def Process.swap (p : Process) (config : Config) : Process :=
  { p with served := config, swapped := config :: p.swapped }

section
-- whether a cache path is configured
variable (cachePath : Bool)

/-- Start serving from the cache. A file that is missing, or cannot be read or
parsed, is no file. -/
def Process.prime (p : Process) (now : Nat) (lookups : Lookups) : Process :=
  match if cachePath then p.cache else none with
  | none => p
  | some cached =>
    let keys := seed p.keys cached.jwks now
    let config := fill keys (resolve cached.config p.served lookups)
    { p.swap config with keys, held := some cached.version, latest := some cached.config }

/-- The first effect of a tick, and whether it brought a configuration. Every
other answer keeps what is held. -/
def Process.polled (p : Process) (t : Tick) : Process × Bool :=
  match poll t.response with
  | .ok (.changed version config) =>
    ({ p with held := some version, latest := some config }, true)
  | _ => (p, false)

def Process.writeCache (p : Process) (version : String) (config : Config) (jwks : List Fetched)
    (writable : Bool) : Process :=
  if cachePath && writable then { p with cache := some { version, config, jwks }, wrote := true }
  else p

/-- The last effect of a tick. -/
def Process.serve (p : Process) (config : Config) (t : Tick) : Process :=
  let resolved := fill p.keys (resolve config p.served t.lookups)
  if listing p.served ≠ listing resolved then p.swap resolved else p

/-- A tick, one state after each of its effects. -/
def Process.moments (p : Process) (t : Tick) : List Process :=
  let (p, changed) := p.polled t
  match p.latest with
  | none => [p]
  | some config =>
    let (keys, fetched) := refresh p.keys config t.now t.kidMiss t.fetching
    let refreshed := { p with keys }
    let cached := if changed || fetched then
        refreshed.writeCache cachePath (refreshed.held.getD "") config (Jwks.held keys) t.writable
      else refreshed
    [p, refreshed, cached, cached.serve config t]

/-- The state after a whole tick. -/
def Process.tick (p : Process) (t : Tick) : Process := (p.moments cachePath t).getLastD p

/-- Every moment of a sequence of ticks. -/
def Process.during (p : Process) : List Tick → List Process
  | [] => []
  | t :: rest => p.moments cachePath t ++ (p.tick cachePath t).during rest

/-- Every moment of a run: before the cache is read, after, and in each tick.
A crash stops the run at one of them. -/
def run (disk : Option Cached) (now : Nat) (lookups : Lookups) (ticks : List Tick) :
    List Process :=
  let p := (Process.new disk).prime cachePath now lookups
  Process.new disk :: p :: p.during cachePath ticks

/-- The configuration a tick puts into the cache file, if it replaces it. -/
def Process.writes (p : Process) (t : Tick) : Option Config :=
  let (p, changed) := p.polled t
  p.latest.filter fun config =>
    (changed || (refresh p.keys config t.now t.kidMiss t.fetching).2) && cachePath && t.writable

end

end Gapura.Source.Control
