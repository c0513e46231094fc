import Gapura.Core.Config

/-! # Key documents fetched for JWT policies

A JWT policy may name the URI of its key document. The control source fetches
those documents beside its polls and writes the last good one of each into the
configuration before serving it. Instants are milliseconds of one clock. What a
fetch returns, and whether it ends in time, is up to the other side. -/
namespace Gapura.Jwks
open Gapura.Core
open Std (TreeMap TreeSet)

def defaultTtl : Nat := 600000
def minTtl : Nat := 60000
def maxTtl : Nat := 3600000
def retry : Nat := 30000
/-- The least time between two fetches that an unknown key id asks for. -/
def kidMissGap : Nat := 30000

/-- Two policies with one URI and different CAs are two sources. -/
structure Source where
  uri : String
  caPem : Option String
  deriving DecidableEq, Repr, Ord

/-- One fetched document, as the disk cache holds it. -/
structure Fetched where
  uri : String
  caPem : Option String
  document : String
  fetchedAt : Int
  deriving DecidableEq, Repr

structure Answer where
  document : String
  maxAge : Option Nat
  deriving DecidableEq, Repr

structure State where
  /-- The last good document and when it was fetched. -/
  document : Option (String × Int)
  due : Nat
  /-- When an unknown key id last caused a fetch. -/
  kidRefresh : Option Nat
  /-- Whether a fetch is running. -/
  task : Bool
  deriving DecidableEq, Repr

def State.new (now : Nat) : State :=
  { document := none, due := now, kidRefresh := none, task := false }

abbrev KeySources := TreeMap Source State

/-- Start from what the disk cache held; each document is fetched again on the
first tick. -/
def seed (keys : KeySources) (cached : List Fetched) (now : Nat) : KeySources :=
  cached.foldl (fun keys f => keys.insert { uri := f.uri, caPem := f.caPem }
    { State.new now with document := some (f.document, f.fetchedAt) }) keys

/-- The documents held, for the disk cache. -/
def held (keys : KeySources) : List Fetched :=
  keys.toList.filterMap fun (source, state) => state.document.map fun (document, fetchedAt) =>
    { uri := source.uri, caPem := source.caPem, document, fetchedAt }

def sourceOf : Plugin → Option Source
  | .jwt policy => policy.jwksUri.map fun uri => { uri, caPem := policy.jwksCaPem }
  | _ => none

/-- Every distinct source the configuration's policies name. -/
def sources (config : Config) : TreeSet Source :=
  TreeSet.ofList (((config.listeners.flatMap (·.rules)).flatMap (·.plugins)).filterMap sourceOf)

def ttl (maxAge : Option Nat) : Nat := max minTtl (min (maxAge.getD defaultTtl) maxTtl)

/-- Start a fetch if none runs and one is due or asked for. -/
def State.start (state : State) (now : Nat) (kidMiss : Bool) : State :=
  if state.task then state
  else
    let asked := kidMiss && state.kidRefresh.all fun at_ => decide (kidMissGap ≤ now - at_)
    let state := if asked then { state with kidRefresh := some now } else state
    if asked || decide (state.due ≤ now) then { state with task := true } else state

/-- What the other side did with the fetches of one tick. -/
structure Fetching where
  /-- Nothing for a fetch that does not end within the wait. -/
  outcome : Source → Option (Except String Answer)
  /-- Holds no secret, and a key that can be used. -/
  usable : Answer → Except String Answer
  /-- The wall clock, in seconds. -/
  nowSecs : Int

/-- The outcome a tick reads for a source, if it reads one. -/
def Fetching.result (fetching : Fetching) (source : Source) (state : State) :
    Option (Except String Answer) :=
  if state.task then (fetching.outcome source).map (·.bind fetching.usable) else none

/-- Read one outcome: a failed fetch keeps the document. -/
def State.read (state : State) (result : Option (Except String Answer)) (now : Nat)
    (nowSecs : Int) : State :=
  match result with
  | none => state
  | some (.ok answer) =>
    { state with
      task := false, document := some (answer.document, nowSecs), due := now + ttl answer.maxAge }
  | some (.error _) => { state with task := false, due := now + retry }

/-- One tick: forget sources no longer named, start what is due, read what has
ended. Also returns whether a fetch succeeded. -/
def refresh (keys : KeySources) (config : Config) (now : Nat) (kidMiss : Bool)
    (fetching : Fetching) : KeySources × Bool :=
  let wanted := sources config
  let kept := keys.filter fun source _ => wanted.contains source
  let started := wanted.foldl (fun keys source =>
    keys.insert source (((keys.get? source).getD (.new now)).start now kidMiss)) kept
  (started.map fun source state =>
      state.read (fetching.result source state) now fetching.nowSecs,
    started.any fun source state => match fetching.result source state with
      | some (.ok _) => true
      | _ => false)

/-! ## Writing the documents into a configuration -/

/-- One function at every plugin of a listener. -/
def mapPlugins (f : Plugin → Plugin) (l : ListenerConfig) : ListenerConfig :=
  { l with rules := l.rules.map fun r => { r with plugins := r.plugins.map f } }

theorem mapPlugins_mapPlugins (f g : Plugin → Plugin) (l : ListenerConfig) :
    mapPlugins f (mapPlugins g l) = mapPlugins (f ∘ g) l := by
  simp [mapPlugins, Function.comp_def]

/-- The last good document, or the empty one, which refuses every token. -/
def fillPlugin (keys : KeySources) : Plugin → Plugin
  | .jwt policy => match policy.jwksUri with
    | none => .jwt policy
    | some uri => .jwt { policy with
        jwks := (((keys.get? { uri, caPem := policy.jwksCaPem }).bind (·.document)).map
          (·.1)).getD "" }
  | plugin => plugin

def fill (keys : KeySources) (config : Config) : Config :=
  { config with listeners := config.listeners.map (mapPlugins (fillPlugin keys)) }

/-- A policy without the document its URI gave. -/
def barePlugin : Plugin → Plugin
  | .jwt policy => .jwt (if policy.jwksUri.isSome then { policy with jwks := "" } else policy)
  | plugin => plugin

variable (keys : KeySources)

theorem barePlugin_fillPlugin (plugin : Plugin) :
    barePlugin (fillPlugin keys plugin) = barePlugin plugin := by
  cases plugin with
  | jwt policy =>
    cases huri : policy.jwksUri with
    | none => simp [fillPlugin, huri]
    | some uri => simp [fillPlugin, barePlugin, huri]
  | _ => rfl

theorem bare_fill (config : Config) : (fill keys config).listeners.map (mapPlugins barePlugin) =
      config.listeners.map (mapPlugins barePlugin) := by
  have hbare : barePlugin ∘ fillPlugin keys = barePlugin :=
    funext (barePlugin_fillPlugin keys)
  simp [fill, mapPlugins_mapPlugins, hbare]

end Gapura.Jwks
