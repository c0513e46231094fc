import Gapura.Control.Snapshot
import Gapura.Lib.Runs

/-! # The endpoint data planes poll

A poll that already holds what is served may ask to be held until that changes.
Beside it run the writers, and a listener that keeps one connection to the
database and counts what it hears: each notification, and each connection made,
for whatever was missed without one. The database is taken to deliver a write's
notification after its commit, in order, to a connection that is listening; what
is on its way when a connection is lost is lost. -/
namespace Gapura.Control.ConfigApi
open Lib.Text Core.Store Control.Snapshot
open Gapura.Core (Config Plugin)
open Core.Matcher (RegexCrate)
open Std (TreeSet)

/-! ## What a data plane can read -/

/-- What a data plane that names no features is taken to read. -/
def legacyFeatures : List String := ["jwt", "key_auth"]

def pluginNeeds (plugin : Plugin) : List String :=
  plugin.kind.tag :: match plugin with
    | .jwt policy => (if policy.jwksUri.isSome then ["jwks_uri"] else []) ++
        (if policy.consumerClaim.isSome then ["jwt_consumer_claim"] else [])
    | _ => []

/-- The features a configuration uses. -/
def needs (config : Config) : TreeSet String :=
  TreeSet.ofList (((config.listeners.flatMap (·.rules)).flatMap (·.plugins)).flatMap pluginNeeds)

def missing (needs : TreeSet String) (has : Option (List String)) : List String :=
  needs.toList.filter fun need => match has with
    | some has => !has.contains need
    | none => !legacyFeatures.contains need

/-! ## What is served -/

/-- The crates and settings the endpoint works with. -/
structure Api (J : Type) where
  settings : StoreSettings
  sha256 : String → List UInt8
  digest : List UInt8 → List UInt8
  toVec : Config → Except String (List UInt8)
  rx : RegexCrate
  reader : PolicyReader J
  collate : String → String → Ordering

structure Served where
  snapshot : StoreSnapshot
  body : List UInt8
  etag : String
  needs : TreeSet String

section
variable {J : Type} (api : Api J)

/-- The compiled configuration's bytes and their tag. -/
def served (snapshot : StoreSnapshot) : Except String Served :=
  let config := compile api.sha256 snapshot api.settings
  match api.toVec config with
  | .error e => .error e
  | .ok body => .ok
    { snapshot, body, etag := "\"" ++ hex (api.digest body) ++ "\"", needs := needs config }

inductive Failure where
  | reading
  | serialising
  deriving DecidableEq, Repr

/-- The configuration as the tables have it, if they can be reached. -/
def read (db : Db J) (now : Nat) (reachable : Bool) : Except Failure Served :=
  if !reachable then .error .reading
  else match db.snapshot api.rx api.reader api.collate now with
    | .error _ => .error .reading
    | .ok snapshot => match served api snapshot with
      | .error _ => .error .serialising
      | .ok served => .ok served

end

/-- What a poll's headers say: the tag it holds, how long it asks to be held, and
the features it names. -/
structure Request where
  sent : Option String
  wait : Option Nat
  has : Option (List String)
  deriving DecidableEq, Repr

inductive Answer where
  | unauthorized
  | unavailable
  | internalError
  | notModified (etag : String)
  | incompatible (missing : List String)
  | config (etag : String) (body : List UInt8)
  deriving DecidableEq, Repr

def answer (rq : Request) (now : Served) : Answer :=
  if rq.sent == some now.etag then .notModified now.etag
  else
    let missing := missing now.needs rq.has
    if !missing.isEmpty then .incompatible missing else .config now.etag now.body

/-! ## A poll beside the listener and the writers -/

/-- The listener's connection. -/
structure Line where
  up : Bool := true
  /-- How many writes had committed when the server began to deliver to it. -/
  listening : Option Nat := none
  /-- Whether the connection has been counted, and what it hears is. -/
  counted : Bool := false
  deriving DecidableEq, Repr

/-- What one step of the counter stood for. -/
inductive Heard where
  | connected (commits : Nat)
  | notified (write : Nat)
  deriving DecidableEq, Repr

/-- A configuration read: after how many writes, when, and what had been counted by
then. -/
structure Reading where
  version : Nat
  now : Nat
  served : Served
  heard : List Heard

inductive Stage where
  | arrived
  | known
  | marked
  | holding (now : Served)
  | woken
  | answered (a : Answer)

/-- The writes are numbered from 1. -/
structure State (J : Type) where
  first : Db J
  /-- The contents after each write. -/
  writes : List (Db J) := []
  line : Option Line := none
  /-- Notifications sent by the server, and those handed on to the listener. -/
  wire : List Nat := []
  channel : List Nat := []
  count : Nat := 0
  /-- Whether nobody will count any more. -/
  gone : Bool := false
  seen : Nat := 0
  stage : Stage := .arrived
  -- kept for the record: what was counted, what the poll read, and what had been
  -- counted when its wait ended
  heard : List Heard := []
  reads : List Reading := []
  ended : Option (List Heard) := none

inductive Event (J : Type) where
  | commit (db : Db J)
  | connect
  | listen
  | listened
  | drive
  | hear
  | lose
  | hangUp
  | listenerEnds
  | authenticated (outcome : Except String Bool)
  | mark
  | read (now : Nat) (reachable : Bool)
  | timeout
  | changed
  | reread (now : Nat) (reachable : Bool)

section
variable {J : Type}

def State.db (s : State J) : Db J := s.writes.getLast?.getD s.first

/-- The tables' contents after some writes. -/
def State.contents (s : State J) (version : Nat) : Option (Db J) := (s.first :: s.writes)[version]?

/-- Whether a notification sent now is sent to the listener. -/
def State.hears (s : State J) : Bool := s.line.any fun l => l.up && l.listening.isSome

/-- Count what was heard. -/
def State.hear (s : State J) (h : Heard) : State J :=
  { s with count := s.count + 1, heard := s.heard ++ [h] }

def State.reading (s : State J) (now : Nat) (served : Served) : State J :=
  { s with reads := s.reads ++ [⟨s.writes.length, now, served, s.heard⟩] }

variable (api : Api J) (rq : Request)

/-- The first read: a poll that holds what is served and asked to wait is held. -/
def State.firstRead (s : State J) (now : Nat) (reachable : Bool) : State J :=
  match read api s.db now reachable with
  | .error .reading => { s with stage := .answered .unavailable }
  | .error .serialising => { s with stage := .answered .internalError }
  | .ok v =>
    if rq.wait.isSome && rq.sent == some v.etag then { s.reading now v with stage := .holding v }
    else { s.reading now v with stage := .answered (answer rq v) }

def State.reread (s : State J) (now : Nat) (reachable : Bool) : State J :=
  match read api s.db now reachable with
  | .error _ => { s with stage := .answered .unavailable }
  | .ok v => { s.reading now v with stage := .answered (answer rq v) }

def step (s : State J) : Event J → Option (State J)
  | .commit db => some { s with
      writes := s.writes ++ [db]
      wire := if s.hears then s.wire ++ [s.writes.length + 1] else s.wire }
  | .connect => if s.line.isNone && !s.gone then some { s with line := some {} } else none
  | .listen => s.line.bind fun l =>
    if l.up && l.listening.isNone then
      some { s with line := some { l with listening := some s.writes.length } } else none
  | .listened => s.line.bind fun l => l.listening.bind fun commits =>
    if l.counted then none
    else some { s.hear (.connected commits) with line := some { l with counted := true } }
  | .drive => match s.wire with
    | [] => none
    | w :: rest => some { s with wire := rest, channel := s.channel ++ [w] }
  | .hear => match s.channel with
    | [] => none
    | w :: rest => if s.line.any (·.counted) then
        some { s.hear (.notified w) with channel := rest } else none
  | .lose => s.line.map fun l => { s with line := some { l with up := false }, wire := [] }
  -- `LISTEN` failed, or nothing more can be heard
  | .hangUp => s.line.bind fun l =>
    if !l.counted || (!l.up && s.channel.isEmpty) then
      some { s with line := none, wire := [], channel := [] } else none
  | .listenerEnds => some { s with gone := true, line := none, wire := [], channel := [] }
  | .authenticated outcome => match s.stage, outcome with
    | .arrived, .ok true => some { s with stage := .known }
    | .arrived, .ok false => some { s with stage := .answered .unauthorized }
    | .arrived, .error _ => some { s with stage := .answered .unavailable }
    | _, _ => none
  | .mark => match s.stage with
    | .known => some { s with seen := s.count, stage := .marked }
    | _ => none
  | .read now reachable => match s.stage with
    | .marked => some (s.firstRead api rq now reachable)
    | _ => none
  -- the wait looks at the counter before it gives up
  | .timeout => match s.stage with
    | .holding v => if s.count == s.seen && !s.gone then
        some { s with stage := .answered (answer rq v), ended := some s.heard } else none
    | _ => none
  | .changed => match s.stage with
    | .holding _ => if s.count != s.seen || s.gone then
        some { s with stage := .woken, ended := some s.heard } else none
    | _ => none
  | .reread now reachable => match s.stage with
    | .woken => some (s.reread api rq now reachable)
    | _ => none

/-- A poll that arrives, after some events. -/
def run (first : Db J) (events : List (Event J)) : Option (State J) :=
  Lib.Runs.run (step api rq) { first } events

end

end Gapura.Control.ConfigApi
