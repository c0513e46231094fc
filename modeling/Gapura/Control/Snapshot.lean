import Gapura.Control.Configuration
import Gapura.Lib.Checks

/-! # The rows a data plane is sent

The control plane's tables, and the snapshot read from them: every row joined
to its workspace's name, the JSON columns read, and a row that cannot be read
failing the whole snapshot. A `jsonb` column of paths or headers stands as the
list its writer serialised; a policy's `config` stays in the reader's type. -/
namespace Gapura.Control.Snapshot
open Lib.Checks Lib.Ordered Control.Access Core.Store
open Core.Matcher (RegexCrate RegexError compilePathRegex)

structure ServiceRow where
  id : Uuid
  workspace : Uuid
  name : String
  protocol : String
  host : String
  port : Int
  connectTimeoutMs : Option Int := none
  readTimeoutMs : Option Int := none
  tlsVerify : Bool := true
  tlsCaPem : Option String := none
  tlsSni : Option String := none
  updatedAt : String
  deriving DecidableEq, Repr

structure RouteRow where
  id : Uuid
  workspace : Uuid
  service : Option Uuid
  name : String
  hosts : List String := []
  methods : List String := []
  paths : List Configuration.PathMatch := []
  headers : List Core.KvMatch := []
  stripPath : Bool := false
  priority : Int := 0
  updatedAt : String
  deriving DecidableEq, Repr

structure PolicyRow (J : Type) where
  id : Uuid
  workspace : Uuid
  name : String
  config : J
  enabled : Bool := true
  service : Option Uuid := none
  route : Option Uuid := none
  consumer : Option Uuid := none
  updatedAt : String := ""

structure ConsumerRow where
  id : Uuid
  workspace : Uuid
  username : String
  groups : List String := []
  deriving DecidableEq, Repr

structure KeyRow where
  consumer : Uuid
  keyHash : String
  expiresAt : Option Nat := none
  deriving DecidableEq, Repr

/-- The tables a snapshot reads. A workspace is only ever created under a name
that passes the console's check. -/
structure Db (J : Type) where
  access : Rows
  named : ∀ w ∈ access.workspaces, Configuration.nameOk w.name = true
  services : List ServiceRow := []
  routes : List RouteRow := []
  policies : List (PolicyRow J) := []
  consumers : List ConsumerRow := []
  keys : List KeyRow := []

/-- Why an entry of a route's paths or headers could not be read. -/
inductive BadEntry where
  | pathNotRooted (value : String)
  | pathType (kind : String)
  | pathRegex (value : String) (error : RegexError)
  | header (key : String)

/-- Why a snapshot could not be read. -/
inductive Unreadable where
  | foreignService (route workspace : String)
  | entry (bad : BadEntry)
  | foreignTarget (policy workspace : String)
  | policy (name reason : String)

/-! ## Paths and headers -/

def parsePath (rx : RegexCrate) (e : Configuration.PathMatch) : Except BadEntry Core.PathMatch :=
  if e.value.toList.head? ≠ some '/' ∧ e.kind ≠ "regex" then .error (.pathNotRooted e.value)
  else if e.kind = "exact" then .ok (.exact e.value)
  else if e.kind = "prefix" then .ok (.pathPrefix e.value)
  else if e.kind = "regex" then
    match compilePathRegex rx e.value with
    | .ok _ => .ok (.regex e.value)
    | .error err => .error (.pathRegex e.value err)
  else .error (.pathType e.kind)

def parsePaths (rx : RegexCrate) (entries : List Configuration.PathMatch) :
    Except BadEntry (List Core.PathMatch) :=
  entries.mapM (parsePath rx)

def parseHeader (e : Core.KvMatch) : Except BadEntry Core.KvMatch :=
  if e.name.isEmpty then .error (.header "name")
  else if e.value.isEmpty then .error (.header "value")
  else .ok e

def parseHeaders (entries : List Core.KvMatch) : Except BadEntry (List Core.KvMatch) :=
  entries.mapM parseHeader

/-! ## The queries -/

/-- How a policy's `config` is read. -/
structure PolicyReader (J : Type) where
  plugin : String → J → Except String Core.Plugin
  rateLimit : J → Except String Core.RateLimit

section Queries

variable {J : Type} (rx : RegexCrate) (reader : PolicyReader J)
/- Postgres orders text by its collation, which no result here depends on. -/
variable (collate : String → String → Ordering)

def Db.workspaceName (db : Db J) (id : Uuid) : Option String :=
  (db.access.workspaces.find? fun w => w.id == id).map (·.name)

def Db.service? (db : Db J) (id : Option Uuid) : Option ServiceRow :=
  id.bind fun id => db.services.find? fun s => s.id == id

def Db.route? (db : Db J) (id : Option Uuid) : Option RouteRow :=
  id.bind fun id => db.routes.find? fun r => r.id == id

def Db.consumer? (db : Db J) (id : Option Uuid) : Option ConsumerRow :=
  id.bind fun id => db.consumers.find? fun c => c.id == id

/-- `order by` the workspace's name and then the row's. -/
def orderBy {α : Type} (name : α → String) (rows : List (String × α)) : List (String × α) :=
  sortBy (fun a b => (collate a.1 b.1).then (collate (name a.2) (name b.2))) rows

/-- Each row beside its workspace's name; a row of no workspace is not joined. -/
def Db.join {α : Type} (db : Db J) (workspace : α → Uuid) (rows : List α) : List (String × α) :=
  rows.filterMap fun row => (db.workspaceName (workspace row)).map fun w => (w, row)

def storeService (workspace : String) (s : ServiceRow) : StoreService :=
  { workspace, name := s.name
    protocol := if s.protocol == "https" then .https else .http
    host := s.host
    port := (s.port % 2 ^ 16).toNat
    connectTimeoutMs := s.connectTimeoutMs.bind Int.toNat?
    readTimeoutMs := s.readTimeoutMs.bind Int.toNat?
    tlsVerify := s.tlsVerify, tlsCaPem := s.tlsCaPem, tlsSni := s.tlsSni }

def storeRoute (workspace : String) (r : RouteRow) (s : ServiceRow) :
    Except Unreadable StoreRoute :=
  if r.workspace ≠ s.workspace then .error (.foreignService r.name workspace)
  else do
    let paths ← (parsePaths rx r.paths).mapError .entry
    let headers ← (parseHeaders r.headers).mapError .entry
    return { workspace, name := r.name, service := s.name, hosts := r.hosts, paths
             methods := r.methods, headers, stripPath := r.stripPath, priority := r.priority }

/-- A route joined to its service; a route of no service is not joined. -/
def Db.routeJoin (db : Db J) : List (String × RouteRow × ServiceRow) :=
  (db.join RouteRow.workspace db.routes).filterMap fun p =>
    (db.service? p.2.service).map fun s => (p.1, p.2, s)

/-- `coalesce(t.workspace_id <> p.workspace_id, false)` for a target joined or not. -/
def foreign (workspace : Uuid) (target : Option Uuid) : Bool := target.any (· != workspace)

/-- A policy as the snapshot holds it: one the data plane runs, or a limit. -/
inductive StorePolicy where
  | plugin (p : StorePlugin)
  | rateLimit (l : StoreRateLimit)

def rateLimitName : String := "rate_limit"

def storePolicy (db : Db J) (workspace : String) (p : PolicyRow J) :
    Except Unreadable StorePolicy :=
  let route := db.route? p.route
  let service := db.service? p.service
  let consumer := db.consumer? p.consumer
  if foreign p.workspace (route.map (·.workspace)) ||
      foreign p.workspace (service.map (·.workspace)) ||
      foreign p.workspace (consumer.map (·.workspace)) then
    .error (.foreignTarget p.name workspace)
  else if p.name == rateLimitName then
    match reader.rateLimit p.config with
    | .error e => .error (.policy p.name e)
    | .ok limit => .ok (.rateLimit
      { workspace, route := route.map (·.name), service := service.map (·.name)
        consumer := consumer.map (·.username), limit })
  else match reader.plugin p.name p.config with
    | .error e => .error (.policy p.name e)
    | .ok plugin => .ok (.plugin
      { workspace, route := route.map (·.name), service := service.map (·.name), plugin })

def Db.policyRows (db : Db J) : List (String × PolicyRow J) :=
  sortBy (fun a b => ((collate a.1 b.1).then (collate a.2.name b.2.name)).then
      (compare a.2.id b.2.id))
    ((db.join PolicyRow.workspace db.policies).filter fun p =>
      p.2.enabled && (p.2.consumer.isNone || p.2.name == rateLimitName))

def StorePolicy.plugin? : StorePolicy → Option StorePlugin
  | .plugin p => some p
  | .rateLimit _ => none

def StorePolicy.rateLimit? : StorePolicy → Option StoreRateLimit
  | .plugin _ => none
  | .rateLimit l => some l

/-- The keys that have not expired, each with its consumer and workspace. -/
def Db.credentials (db : Db J) (now : Nat) : List StoreCredential :=
  sortBy (fun a b => collate a.keyHash b.keyHash)
    ((db.keys.filter fun k => k.expiresAt.all (now < ·)).filterMap fun k => do
      let c ← db.consumer? (some k.consumer)
      let workspace ← db.workspaceName c.workspace
      return { keyHash := k.keyHash, consumer := c.username, workspace })

def Db.snapshot (db : Db J) (now : Nat) : Except Unreadable StoreSnapshot := do
  let services := (orderBy collate ServiceRow.name (db.join ServiceRow.workspace db.services)).map
    fun p => storeService p.1 p.2
  let routes ← (orderBy collate (fun p => p.1.name) db.routeJoin).mapM
    fun p => storeRoute rx p.1 p.2.1 p.2.2
  let policies ← (db.policyRows collate).mapM fun p => storePolicy reader db p.1 p.2
  let consumers := (orderBy collate ConsumerRow.username
    (db.join ConsumerRow.workspace db.consumers)).map
    fun p => { workspace := p.1, username := p.2.username, groups := p.2.groups }
  return { services, routes, plugins := policies.filterMap StorePolicy.plugin?
           credentials := db.credentials collate now
           rateLimits := policies.filterMap StorePolicy.rateLimit?, consumers }

/-! ## Where a snapshot's rows come from -/

variable {rx reader collate}
variable {db : Db J} {now : Nat} {snap : StoreSnapshot}

theorem mem_join {α : Type} {workspace : α → Uuid} {rows : List α} {p : String × α}
    (h : p ∈ db.join workspace rows) :
    p.2 ∈ rows ∧ db.workspaceName (workspace p.2) = some p.1 := by
  obtain ⟨row, hrow, hsome⟩ := List.mem_filterMap.mp h
  obtain ⟨w, hw, rfl⟩ := Option.map_eq_some_iff.mp hsome
  exact ⟨hrow, hw⟩

theorem snapshot_ok (h : db.snapshot rx reader collate now = .ok snap) :
    (orderBy collate (fun p => p.1.name) db.routeJoin).mapM
        (fun p => storeRoute rx p.1 p.2.1 p.2.2) = .ok snap.routes ∧
    snap.consumers = (orderBy collate ConsumerRow.username
      (db.join ConsumerRow.workspace db.consumers)).map
        fun p => { workspace := p.1, username := p.2.username, groups := p.2.groups } := by
  simp only [Db.snapshot, bind, Except.bind, pure, Except.pure] at h
  split at h
  · cases h
  rename_i routes hroutes
  split at h
  · cases h
  cases h
  exact ⟨hroutes, rfl⟩

/-- The policies of a snapshot are read from the rows, one from each. -/
theorem snapshot_policies (h : db.snapshot rx reader collate now = .ok snap) :
    ∃ policies, (db.policyRows collate).mapM (fun p => storePolicy reader db p.1 p.2) =
        .ok policies ∧ snap.plugins = policies.filterMap StorePolicy.plugin? := by
  simp only [Db.snapshot, bind, Except.bind, pure, Except.pure] at h
  split at h
  · cases h
  split at h
  · cases h
  rename_i policies hpolicies
  cases h
  exact ⟨policies, hpolicies, rfl⟩

variable {out : StoreRoute} {r : RouteRow} {s : ServiceRow}

variable {w : String}

theorem storeRoute_ok
    (h : storeRoute rx w r s = .ok out) : out.workspace = w ∧ out.hosts = r.hosts := by
  unfold storeRoute at h
  split at h
  · cases h
  simp only [bind, Except.bind, pure, Except.pure] at h
  split at h
  · cases h
  split at h
  · cases h
  cases h
  exact ⟨rfl, rfl⟩

theorem storeRoute_names (h : storeRoute rx w r s = .ok out) :
    out.workspace = w ∧ out.name = r.name ∧ out.service = s.name ∧ r.workspace = s.workspace := by
  unfold storeRoute at h
  split at h
  · cases h
  rename_i hw
  obtain ⟨paths, -, h⟩ := bind_eq_ok.mp h
  obtain ⟨headers, -, h⟩ := bind_eq_ok.mp h
  cases h
  exact ⟨rfl, rfl, rfl, not_not.mp hw⟩

theorem route_of_snapshot (h : db.snapshot rx reader collate now = .ok snap) {r : StoreRoute}
    (hr : r ∈ snap.routes) : ∃ row ∈ db.routes,
      db.workspaceName row.workspace = some r.workspace ∧ r.hosts = row.hosts := by
  obtain ⟨p, hp, hstore⟩ := exists_of_mem_mapM (snapshot_ok h).1 hr
  obtain ⟨hw, hh⟩ := storeRoute_ok hstore
  obtain ⟨q, hq, hsome⟩ := List.mem_filterMap.mp (mem_sortBy.mp hp)
  obtain ⟨s, -, rfl⟩ := Option.map_eq_some_iff.mp hsome
  obtain ⟨hrow, hname⟩ := mem_join hq
  exact ⟨q.2, hrow, by rw [hw, hname], hh⟩

theorem consumer_of_snapshot (h : db.snapshot rx reader collate now = .ok snap) {c : StoreConsumer}
    (hc : c ∈ snap.consumers) : ∃ id, db.workspaceName id = some c.workspace := by
  rw [(snapshot_ok h).2] at hc
  obtain ⟨p, hp, rfl⟩ := List.mem_map.mp hc
  exact ⟨p.2.workspace, (mem_join (mem_sortBy.mp hp)).2⟩

end Queries

end Gapura.Control.Snapshot
