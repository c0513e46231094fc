import Gapura.Control.Snapshot

/-! # Writing routes

Each write is one transaction: the caller's rights are read and decided, the
row to change is read, the hosts are weighed against every other workspace's,
and one row is written. A refusal writes nothing. Writes are ordered by the
hosts lock, so a run is a sequence of them. The audit log is left out. -/
namespace Gapura.Control.RouteStore
open Control.Access Control.Configuration Control.Snapshot
open Core.Matcher (RegexCrate RegexError)

/-- Why a write failed: refused as a whole, refused at one field, or stopped by
the database. -/
inductive WriteError where
  | refusal (r : Refusal)
  | field (e : FieldError)
  | store
  deriving DecidableEq, Repr

def stale : String :=
  "Someone changed this since you opened it, so your change was not saved. Reload to see theirs."

def outsideYourWorkspaces : Refusal :=
  .forbidden "You can only change roles in workspaces you administer, so nothing was changed."

section
variable {J : Type}

/-- May `caller` do `action` in `workspace`, and who that is. -/
protected def decide (db : Db J) (caller workspace : Uuid) (action : Action) :
    Except Refusal User :=
  match db.access.users.find? fun u => u.id == caller with
  | none => .error outsideYourWorkspaces
  | some actor =>
    if !(db.access.workspaces.any fun w => w.id == workspace) then .error noRole
    else match allowed db.access actor workspace action with
      | .error e => .error e
      | .ok _ => .ok actor

/-- The hosts of every other workspace's routes. -/
def taken (db : Db J) (workspace : Uuid) : List String :=
  (db.routes.filter fun r => r.workspace != workspace).flatMap RouteRow.hosts

def mayClaimWildcards (actor : User) : List String → Except Refusal Unit
  | [] => .ok ()
  | host :: rest => match mayClaimWildcard actor host with
    | .error e => .error e
    | .ok () => mayClaimWildcards actor rest

def mayRoute (db : Db J) (actor : User) (workspace : Uuid) (hosts : List String) :
    Except Refusal Unit :=
  match if hosts.isEmpty then mayRouteAnyHost actor else .ok () with
  | .error e => .error e
  | .ok () => match mayClaimWildcards actor hosts with
    | .error e => .error e
    | .ok () =>
      match hosts.find? fun host => (taken db workspace).any (hostsOverlap host) with
      | some host => .error (.conflict (host ++ " is already routed by another workspace."))
      | none => .ok ()

/-- The route called `name` with the service it is joined to. -/
def findRoute (db : Db J) (workspace : Uuid) (name : String) : Option (RouteRow × ServiceRow) :=
  db.routes.findSome? fun r =>
    if r.workspace == workspace && r.name == name then
      (db.service? r.service).map fun s => (r, s)
    else none

def routeFrom (r : RouteRow) (s : ServiceRow) : Route where
  name := r.name
  service := s.name
  hosts := r.hosts
  paths := r.paths
  methods := r.methods
  headers := r.headers
  stripPath := r.stripPath
  priority := r.priority

/-- The columns a write sets. -/
def setColumns (row : RouteRow) (service : Uuid) (r : Route) (now : String) : RouteRow :=
  { row with service := some service, name := r.name, hosts := r.hosts, methods := r.methods
             paths := r.paths, headers := r.headers, stripPath := r.stripPath
             priority := r.priority, updatedAt := now }

/-- What a replace names besides the new contents. -/
structure Replacing where
  current : String
  seen : String
  serviceSeen : Option String
  kept : KeptOnReplace

/-- The row a write replaces, when it replaces one. -/
def existing (db : Db J) (workspace : Uuid) :
    Option Replacing → Except Refusal (Option (RouteRow × ServiceRow × KeptOnReplace))
  | none => .ok none
  | some p => match findRoute db workspace p.current with
    | none => .error (.notFound ("There is no route named " ++ p.current ++ " in this workspace."))
    | some (row, service) =>
      if row.updatedAt != p.seen then .error (.conflict stale)
      else if p.serviceSeen.any (· != service.updatedAt) then .error (.conflict stale)
      else .ok (some (row, service, p.kept))

/-- `r` with the fields a replace keeps as they are stored. -/
def keep (r : Route) : Option (RouteRow × ServiceRow × KeptOnReplace) → Route
  | none => r
  | some (row, _, kept) =>
    { r with headers := if kept.headers then row.headers else r.headers
             stripPath := if kept.stripPath then row.stripPath else r.stripPath }

def alreadyExists (name : String) : Refusal :=
  .conflict ("A route named " ++ name ++ " already exists in this workspace.")

def named (db : Db J) (workspace : Uuid) (name : String) : Bool :=
  db.routes.any fun r => r.workspace == workspace && r.name == name

/-- Writes `r`, which passed every check, as a new row or over an old one. The
new row's identity is the database's own choice, `id`; one already taken stops
the write. -/
def save (db : Db J) (workspace service id : Uuid) (now : String) (r : Route) :
    Option (RouteRow × ServiceRow × KeptOnReplace) → Except WriteError (Db J)
  | none =>
    if named db workspace r.name then .error (.refusal (alreadyExists r.name))
    else if db.routes.any fun row => row.id == id then .error .store
    else
      let row : RouteRow := { id, workspace, service := none, name := "", updatedAt := now }
      .ok { db with routes := db.routes ++ [setColumns row service r now] }
  | some (row, rowService, _) =>
    if r.name != row.name && named db workspace r.name then
      .error (.refusal (alreadyExists r.name))
    else if routeFrom row rowService = r then .ok db
    else .ok { db with routes := db.routes.map fun x =>
      if x.id == row.id then setColumns x service r now else x }

def tryWriteRoute (db : Db J) (caller workspace : Uuid) (replacing : Option Replacing) (r : Route)
    (id : Uuid) (now : String) : Except WriteError (Db J) := do
  let actor ← (RouteStore.decide db caller workspace .write).mapError .refusal
  let old ← (existing db workspace replacing).mapError .refusal
  let r := keep r old
  (stripPathFits r).mapError .field
  (mayRoute db actor workspace r.hosts).mapError .refusal
  match db.services.find? fun s => s.workspace == workspace && s.name == r.service with
  | none => .error (.refusal (.invalid
      ("There is no service named " ++ r.service ++ " in this workspace.")))
  | some service => save db workspace service.id id now r old

/-! ## Deleting -/

def namedConsumers : Nat := 3

/-- Whose own limits hang off the row, as a sentence. -/
def ownLimits (names : List String) (kind : String) : String :=
  let more := names.drop namedConsumers
  let listed := names.take namedConsumers ++
    if more.isEmpty then [] else [toString more.length ++ " more"]
  match listed.getLast? with
  | none => ""
  | some last =>
    let rest := listed.dropLast
    let list := if rest.isEmpty then last else ", ".intercalate rest ++ " and " ++ last
    if names.length == 1 then
      " " ++ list ++ " has a limit of its own here, which is removed from that consumer, not " ++
        "from the " ++ kind ++ "."
    else
      " " ++ list ++ " have limits of their own here, which are removed from those consumers, " ++
        "not from the " ++ kind ++ "."

/-- The consumers of a policy's own workspace, each once and in order. -/
def consumersOf (db : Db J) (policies : List (PolicyRow J)) : List String :=
  ((policies.filterMap fun p => (db.consumer? p.consumer).bind fun c =>
    if c.workspace == p.workspace then some c.username else none).insertionSort (· ≤ ·)).dedup

def noPolicies (db : Db J) (id : Uuid) : Except Refusal Unit :=
  let attached := db.policies.filter fun p => p.route == some id
  let whose := ownLimits (consumersOf db attached) "route"
  match attached.length with
  | 0 => .ok ()
  | 1 => .error (.conflict ("1 policy is attached to this route. Remove it first." ++ whose))
  | n => .error (.conflict
    (toString n ++ " policies are attached to this route. Remove them first." ++ whose))

def tryDeleteRoute (db : Db J) (caller workspace : Uuid) (name : String) :
    Except WriteError (Db J) := do
  let _ ← (RouteStore.decide db caller workspace .delete).mapError .refusal
  match findRoute db workspace name with
  | none => .error (.refusal
      (.notFound ("There is no route named " ++ name ++ " in this workspace.")))
  | some (row, _) =>
    (noPolicies db row.id).mapError .refusal
    return { db with routes := db.routes.filter fun r => r.id != row.id }

/-! ## Requests and runs -/

/-- What a console client asks of one workspace's routes. -/
inductive Request where
  | create (input : RouteInput)
  | replace (current : String) (input : RouteInput)
  | delete (name : String)

/-- A request as its handler serves it: the body is checked and normalised, and
then written. -/
def serve (rx : RegexCrate) (reason : RegexError → String) (db : Db J) (caller workspace id : Uuid)
    (now : String) : Request → Except WriteError (Db J)
  | .create input => match route rx reason input .create with
    | .error e => .error (.field e)
    | .ok (r, _) => tryWriteRoute db caller workspace none r id now
  | .replace current input => match route rx reason input .replace with
    | .error e => .error (.field e)
    | .ok (_, none) => .error .store
    | .ok (r, some seen) => tryWriteRoute db caller workspace
      (some ⟨current, seen, input.serviceUpdatedAt, .of input⟩) r id now
  | .delete name => tryDeleteRoute db caller workspace name

/-- The states that accepted route writes lead to from an empty routes table.
Writes to other tables come in between; one may delete routes with the
workspace they belong to, and none adds or changes one. -/
inductive Reachable (rx : RegexCrate) (reason : RegexError → String) : Db J → Prop where
  | empty {db : Db J} : db.routes = [] → Reachable rx reason db
  | write {db db' : Db J} {caller workspace id : Uuid} {now : String} {request : Request} :
    Reachable rx reason db → serve rx reason db caller workspace id now request = .ok db' →
    Reachable rx reason db'
  | other {db db' : Db J} : Reachable rx reason db → db'.routes.Sublist db.routes →
    Reachable rx reason db'

end

end Gapura.Control.RouteStore
