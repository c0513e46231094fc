import Gapura.Core.Translate.Assemble
import Gapura.Lib.Runs
import Gapura.Source.Watch

/-! # The Kubernetes source

Discovery finds the kinds to watch; their watchers send what changes into one
channel. The loop takes a change, lets more come in for a moment, takes those
too, and translates once every watched kind was listed whole and something did
change. A translator that panics leaves the store as it is. When the source
fails, or a kind appears that was not served before, it starts over: from an
empty snapshot, with what the store serves left in service. -/
namespace Gapura.Source.Reconcile
open Lib.Ordered (sortBy)
open Core.Input Core.Status Core.Translate Watch

/-! ## Discovery -/

def kinds : List Kind :=
  [.gatewayClass, .gateway, .httpRoute, .referenceGrant, .backendTlsPolicy, .namespace, .service,
    .endpointSlice, .secret, .configMap]

def isOptional : Kind → Bool
  | .backendTlsPolicy => true
  | _ => false

/-- The kinds to watch. The API server answers for each whether it serves it, or
not at all; only an optional kind may be missing. -/
def discover (resolve : Kind → Option Bool) : Option (List Kind) :=
  if kinds.all fun k => (resolve k).any (· || isOptional k) then
    some (kinds.filter fun k => resolve k = some true)
  else none

/-! ## Translation, guarded -/

/-- What a panic carries. -/
inductive Panic where
  | text (message : String)
  | other

/-- The translator as it runs: on some snapshots it may panic. -/
structure Translator where
  env : Env
  panics : Snapshot → Settings → Option Panic

def translateGuarded (tr : Translator) (snap : Snapshot) (settings : Settings) :
    Except String Translation :=
  match tr.panics snap settings with
  | none => .ok (translate tr.env snap settings)
  | some (.text message) => .error message
  | some .other => .error "unknown panic"

/-! ## The loop -/

structure KubeSource where
  settings : Settings
  publishService : Option ObjectRef
  /-- No status is written. -/
  readOnly : Bool

/-- What the proxy serves: nothing until the first swap. -/
structure Store where
  current : Option Translation := none
  generation : Nat := 0

def Store.swap (s : Store) (t : Translation) : Store where
  current := some t
  generation := s.generation + 1

inductive Phase where
  | waiting
  | debouncing (dirty : Bool)
  | draining (dirty : Bool)
  deriving DecidableEq, Repr

def Phase.dirty : Phase → Bool
  | .waiting => false
  | .debouncing dirty | .draining dirty => dirty

structure Loop where
  watched : List Kind
  state : State
  channel : List Change := []
  phase : Phase := .waiting
  /-- The status the writer is told of. -/
  published : List StatusPatch := []
  /-- The changes taken from the channel; kept for the record. -/
  received : List Change := []

def State.syncedAll (s : State) (watched : List Kind) : Bool :=
  watched.all fun k => s.synced.contains k.name

def channelCapacity : Nat := 1024

/-- The settings with the addresses of the published Service, sorted and each
once. -/
def settingsFor (src : KubeSource) (s : State) : Settings :=
  { src.settings with
    gatewayAddresses :=
      (sortBy compare (src.settings.gatewayAddresses ++ s.addresses)).destutter (· ≠ ·) }

structure System where
  store : Store := {}
  /-- What runs, if discovery succeeded. -/
  loop : Option Loop := none

inductive Event where
  | start (resolve : Kind → Option Bool)
  /-- A watcher sends what happened. -/
  | tell (kind : Kind) (event : Watch.Event)
  /-- The loop takes the first change. -/
  | wake
  /-- The debounce is over. -/
  | settle
  | drain
  /-- The channel is empty: translate, if there is reason to. -/
  | pass
  /-- A task ended, or a kind appeared. -/
  | fail

/-- Takes one change into the state. -/
def Loop.take (schema : Schema) (l : Loop) (c : Change) (rest : List Change)
    (phase : Bool → Phase) : Loop :=
  { l with
    state := (l.state.apply schema c).1
    channel := rest
    phase := phase (l.phase.dirty || (l.state.apply schema c).2)
    received := l.received ++ [c] }

/-- The end of a pass. -/
def reconcile (tr : Translator) (src : KubeSource) (store : Store) (l : Loop) (dirty : Bool) :
    System :=
  if !dirty || !State.syncedAll l.state l.watched then
    { store, loop := some { l with phase := .waiting } }
  else
    match translateGuarded tr l.state.snapshot (settingsFor src l.state) with
    | .ok t =>
      { store := store.swap t
        loop := some { l with
          phase := .waiting
          published := if src.readOnly then l.published else t.status } }
    | .error _ => { store, loop := some { l with phase := .waiting } }

def step (schema : Schema) (tr : Translator) (src : KubeSource) (s : System) :
    Event → Option System
  | .start resolve =>
    match s.loop with
    | some _ => none
    | none => some { s with loop := (discover resolve).map fun watched =>
        { watched, state := .new src.publishService } }
  | .tell kind event => do
    let l ← s.loop
    if kind ∈ l.watched ∧ l.channel.length < channelCapacity then
      some { s with loop := some { l with channel := l.channel ++ [changeOf kind event] } }
    else none
  | .wake => do
    let l ← s.loop
    match l.phase, l.channel with
    | .waiting, c :: rest => some { s with loop := some (l.take schema c rest .debouncing) }
    | _, _ => none
  | .settle => do
    let l ← s.loop
    match l.phase with
    | .debouncing dirty => some { s with loop := some { l with phase := .draining dirty } }
    | _ => none
  | .drain => do
    let l ← s.loop
    match l.phase, l.channel with
    | .draining _, c :: rest => some { s with loop := some (l.take schema c rest .draining) }
    | _, _ => none
  | .pass => do
    let l ← s.loop
    match l.phase, l.channel with
    | .draining dirty, [] => some (reconcile tr src s.store l dirty)
    | _, _ => none
  | .fail => do
    let l ← s.loop
    if l.phase = .waiting then some { s with loop := none } else none

end Gapura.Source.Reconcile
