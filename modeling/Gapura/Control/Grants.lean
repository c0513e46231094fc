import Gapura.Control.RouteStore
import Gapura.Lib.Checks
import Gapura.Lib.Tables

/-! # Changing who holds what

Direct grants and group mappings are rows of one table here, each keyed by whom
it is for and where. A write names some workspaces. It reads again what its
caller's right in those rests on, decides, changes rows of those workspaces
only, and refuses to leave one of them without an admin. The audit log is left
out. -/
namespace Gapura.Control.Access

def Role.parse : String → Option Role
  | "viewer" => some .viewer
  | "editor" => some .editor
  | "admin" => some .admin
  | _ => none

def Rows.isAdmin (rows : Rows) (user : User) (workspace : Uuid) : Bool :=
  (rows.effective user workspace).any fun access => access.role == .admin

/-- The workspaces where `caller` is admin. -/
def Rows.grantable (rows : Rows) (caller : User) : List Uuid :=
  (rows.workspaces.filter fun w => rows.isAdmin caller w.id).map Workspace.id

theorem Role.max_eq_admin {a b : Role} : a.max b = .admin ↔ a = .admin ∨ b = .admin := by
  cases a <;> cases b <;> decide

theorem foldl_max_eq_admin (sources : List Source) (r : Role) :
    sources.foldl (fun best s => best.max s.role) r = .admin ↔
      r = .admin ∨ ∃ s ∈ sources, s.role = .admin := by
  induction sources generalizing r with
  | nil => simp
  | cons s rest ih => simp [ih, Role.max_eq_admin, or_assoc]

variable {rows : Rows} {user : User} {w : Uuid}

/-- Nothing subtracts from a role: one source that gives admin is enough. -/
theorem Rows.isAdmin_iff : rows.isAdmin user w = true ↔
      user.disabled = false ∧ ∃ s ∈ rows.sources user w, s.role = .admin := by
  unfold isAdmin effective
  cases hd : user.disabled with
  | true => simp
  | false =>
    cases hs : rows.sources user w with
    | nil => simp
    | cons first rest => simp [foldl_max_eq_admin]

theorem Rows.mem_sources {s : Source} : s ∈ rows.sources user w ↔
      (user.superuser = true ∧ s = .superuser .admin) ∨
      (∃ role, ⟨user.id, w, role⟩ ∈ rows.grants ∧ s = .direct role) ∨
      ∃ group ∈ user.groups, ∃ role, ⟨group, w, role⟩ ∈ rows.groupGrants ∧
        s = .group group role := by
  unfold sources
  rw [List.mem_append, List.mem_append, or_assoc]
  refine or_congr ?_ (or_congr ?_ ?_)
  · cases user.superuser <;> simp
  · simp only [List.mem_map, List.mem_filter, Bool.and_eq_true, beq_iff_eq]
    constructor
    · intro h
      obtain ⟨⟨gu, gw, role⟩, ⟨hg, hu, hw⟩, hs⟩ := h
      simp only at hu hw
      subst hu hw
      exact ⟨role, hg, hs.symm⟩
    · intro h
      obtain ⟨role, hg, hs⟩ := h
      exact ⟨⟨user.id, w, role⟩, ⟨hg, rfl, rfl⟩, hs.symm⟩
  · simp only [List.mem_map, List.mem_filter, Bool.and_eq_true, beq_iff_eq, List.contains_iff_mem]
    constructor
    · intro h
      obtain ⟨⟨group, gw, role⟩, ⟨hg, hw, hgroup⟩, hs⟩ := h
      simp only at hw hgroup
      subst hw
      exact ⟨group, hgroup, role, hg, hs.symm⟩
    · intro h
      obtain ⟨group, hgroup, role, hg, hs⟩ := h
      exact ⟨⟨group, w, role⟩, ⟨hg, rfl, hgroup⟩, hs.symm⟩

/-- Who is admin of `w` is decided by the grants there. -/
theorem Rows.isAdmin_congr {rows' : Rows}
    (hgrants : ∀ role, ⟨user.id, w, role⟩ ∈ rows.grants ↔ ⟨user.id, w, role⟩ ∈ rows'.grants)
    (hgroups : ∀ group ∈ user.groups, ∀ role,
      ⟨group, w, role⟩ ∈ rows.groupGrants ↔ ⟨group, w, role⟩ ∈ rows'.groupGrants) :
    rows.isAdmin user w = rows'.isAdmin user w := by
  have hsources : ∀ s, s ∈ rows.sources user w ↔ s ∈ rows'.sources user w := by
    intro s
    rw [mem_sources, mem_sources]
    refine or_congr Iff.rfl (or_congr ?_ ?_)
    · simp only [hgrants]
    · refine exists_congr fun group => and_congr_right fun hgroup => ?_
      simp only [hgroups group hgroup]
  rw [Bool.eq_iff_iff, isAdmin_iff, isAdmin_iff]
  simp only [hsources]

theorem Rows.mem_grantable {caller : User} : w ∈ rows.grantable caller ↔
      (∃ ws ∈ rows.workspaces, ws.id = w) ∧ rows.isAdmin caller w = true := by
  simp only [grantable, List.mem_map, List.mem_filter]
  constructor
  · intro h
    obtain ⟨ws, ⟨hws, hadmin⟩, rfl⟩ := h
    exact ⟨⟨ws, hws, rfl⟩, hadmin⟩
  · intro h
    obtain ⟨⟨ws, hws, rfl⟩, hadmin⟩ := h
    exact ⟨ws, ⟨hws, hadmin⟩, rfl⟩

end Gapura.Control.Access

namespace Gapura.Control.Grants
open Lib.Ordered Lib.Checks Lib.Tables Control.Access Control.Configuration
open RouteStore (WriteError outsideYourWorkspaces)
open Std (TreeMap)

/-! ## The rules -/

/-- May `caller` change grants and mappings in every one of `workspaces`? A
workspace missing from `rows` is in nobody's grantable set. -/
def authorise (rows : Rows) (caller : User) (workspaces : List Uuid) : Except Refusal Unit :=
  if caller.disabled then .error outsideYourWorkspaces
  else if workspaces.all (rows.grantable caller).contains then .ok ()
  else .error outsideYourWorkspaces

/-- A binding before and after a write, where the two differ. -/
structure Change where
  before : Option Role
  after : Option Role
  deriving DecidableEq, Repr

def Change.between (before after : Option Role) : Option Change :=
  if before ≠ after then some ⟨before, after⟩ else none

/-- By workspace, the role to hold there, or none. -/
abbrev RoleChanges := TreeMap Uuid (Option Role)

def directChanges (held : TreeMap Uuid Role) (wanted : RoleChanges) : List (Uuid × Change) :=
  wanted.toList.filterMap fun (workspace, after) =>
    (Change.between held[workspace]? after).map fun change => (workspace, change)

theorem directChanges_workspace {held : TreeMap Uuid Role} {wanted : RoleChanges}
    {x : Uuid × Change} (h : x ∈ directChanges held wanted) : x.1 ∈ wanted.keys := by
  obtain ⟨⟨w, after⟩, hmem, hx⟩ := List.mem_filterMap.mp h
  obtain ⟨change, -, rfl⟩ := Option.map_eq_some_iff.mp hx
  rw [← TreeMap.map_fst_toList_eq_keys]
  exact List.mem_map_of_mem (f := Prod.fst) hmem

/-! ## The store -/

/-- The key of a row of `role_bindings` or of `group_bindings`. -/
inductive Binding where
  | direct (user workspace : Uuid)
  | mapping (group : String) (workspace : Uuid)
  deriving DecidableEq, Repr

def Binding.workspace : Binding → Uuid
  | .direct _ workspace | .mapping _ workspace => workspace

/-- Roles by the name they are stored under, which a later version of the
program may know more of. -/
abbrev Bindings := Table Binding String

structure Db where
  users : List User
  workspaces : List Workspace
  bindings : Bindings

/-- The direct grants, without those of a role this program does not know. -/
def Db.grants (db : Db) : List Grant :=
  db.bindings.entries.filterMap fun
    | ⟨.direct user workspace, role⟩ => (Role.parse role).map (⟨user, workspace, ·⟩)
    | ⟨.mapping _ _, _⟩ => none

def Db.groupGrants (db : Db) : List GroupGrant :=
  db.bindings.entries.filterMap fun
    | ⟨.direct _ _, _⟩ => none
    | ⟨.mapping group workspace, role⟩ => (Role.parse role).map (⟨group, workspace, ·⟩)

/-- All rows the console decides over. -/
def Db.accessRows (db : Db) : Rows where
  users := db.users
  workspaces := db.workspaces
  grants := db.grants
  groupGrants := db.groupGrants

variable {w caller : Uuid} {group : String} {workspaces : List Uuid} {actor : User}

variable {db db' : Db} {role : Role} {changes : List (Binding × Change)}

theorem Db.mem_grants {user : Uuid} : ⟨user, w, role⟩ ∈ db.grants ↔
      (db.bindings.lookup (.direct user w)).bind Role.parse = some role := by
  rw [Option.bind_eq_some_iff]
  simp only [← Option.mem_def (b := db.bindings.lookup _), AList.mem_lookup_iff, grants,
    List.mem_filterMap]
  constructor
  · intro h
    obtain ⟨⟨b, text⟩, hmem, hrow⟩ := h
    cases b with
    | direct u w' =>
      obtain ⟨r, hr, heq⟩ := Option.map_eq_some_iff.mp hrow
      cases heq
      exact ⟨text, hmem, hr⟩
    | mapping g w' => cases hrow
  · intro h
    obtain ⟨text, hmem, hr⟩ := h
    exact ⟨⟨.direct user w, text⟩, hmem, Option.map_eq_some_iff.mpr ⟨role, hr, rfl⟩⟩

theorem Db.mem_groupGrants : ⟨group, w, role⟩ ∈ db.groupGrants ↔
      (db.bindings.lookup (.mapping group w)).bind Role.parse = some role := by
  rw [Option.bind_eq_some_iff]
  simp only [← Option.mem_def (b := db.bindings.lookup _), AList.mem_lookup_iff, groupGrants,
    List.mem_filterMap]
  constructor
  · intro h
    obtain ⟨⟨b, text⟩, hmem, hrow⟩ := h
    cases b with
    | direct u w' => cases hrow
    | mapping g w' =>
      obtain ⟨r, hr, heq⟩ := Option.map_eq_some_iff.mp hrow
      cases heq
      exact ⟨text, hmem, hr⟩
  · intro h
    obtain ⟨text, hmem, hr⟩ := h
    exact ⟨⟨.mapping group w, text⟩, hmem, Option.map_eq_some_iff.mpr ⟨role, hr, rfl⟩⟩

/-- What `caller`'s rights in `concerned` rest on: their own row, the
workspaces, their direct grants there and the mappings their groups match, in
the order of each query. -/
def rights (db : Db) (caller : Uuid) (concerned : List Uuid) : Except WriteError (User × Rows) :=
  match db.users.find? fun u => u.id == caller with
  | none => .error (.refusal outsideYourWorkspaces)
  | some actor => .ok (actor, {
      users := [actor]
      workspaces := sortBy (compareOn Workspace.id)
        (db.workspaces.filter fun w => concerned.contains w.id)
      grants := sortBy (compareOn Grant.workspace)
        (db.grants.filter fun g => g.user == caller && concerned.contains g.workspace)
      groupGrants := sortBy
        (compareLex (compareOn GroupGrant.group) (compareOn GroupGrant.workspace))
        (db.groupGrants.filter fun g =>
          concerned.contains g.workspace && actor.groups.contains g.group) })

/-- The caller, and the workspaces concerned as they were read. -/
structure Authorised where
  actor : User
  workspaces : List Uuid

def authoriseAgain (db : Db) (caller : Uuid) (concerned : List Uuid) :
    Except WriteError Authorised := do
  let (actor, rows) ← rights db caller concerned
  (authorise rows actor concerned).mapError .refusal
  return { actor, workspaces := rows.workspaces.map Workspace.id }

/-- The role of a binding about to be changed, which cannot be guessed. -/
def known (name : String) : Except WriteError Role :=
  match Role.parse name with
  | some role => .ok role
  | none => .error .store

/-- Does an enabled account other than a superuser administer the workspace,
directly or through a group? -/
def anAdminIsLeft (users : List User) (bindings : Bindings) (workspace : Uuid) : Bool :=
  users.any fun u => !u.disabled && !u.superuser &&
    (bindings.lookup (.direct u.id workspace) == some "admin" ||
      u.groups.any fun g => bindings.lookup (.mapping g workspace) == some "admin")

def noAdminLeft : Refusal := .conflict
  ("This would leave the workspace with no admin, and only a superuser could " ++
    "give it one back. Make someone else an admin first.")

def keepsAnAdmin (users : List User) (bindings : Bindings) (actor : User)
    (workspaces : List Uuid) : Except WriteError Unit :=
  if actor.superuser then .ok ()
  else if workspaces.all (anAdminIsLeft users bindings) then .ok ()
  else .error (.refusal noAdminLeft)

/-- An update, an insert or a delete, whichever the change needs. -/
def writeTo (b : Binding) (change : Change) : Write Binding String :=
  (b, change.after.map Role.asStr)

def holdRole (bindings : Bindings) (target : Uuid) (held : TreeMap Uuid Role) (workspace : Uuid) :
    Except WriteError (TreeMap Uuid Role) :=
  match bindings.lookup (.direct target workspace) with
  | none => .ok held
  | some name => do return held.insert workspace (← known name)

/-- The roles `target` holds directly in `concerned`. -/
def heldRoles (bindings : Bindings) (target : Uuid) (concerned : List Uuid) :
    Except WriteError (TreeMap Uuid Role) :=
  concerned.foldlM (holdRole bindings target) ∅

def directWrites (target : Uuid) (held : TreeMap Uuid Role) (wanted : RoleChanges) :
    List (Write Binding String) :=
  (directChanges held wanted).map fun (workspace, change) =>
    writeTo (.direct target workspace) change

def setDirectRoles (db : Db) (caller target : Uuid) (wanted : RoleChanges) :
    Except WriteError Db := do
  let allowed ← authoriseAgain db caller wanted.keys
  if !(db.users.any fun u => u.id == target) then
    throw (.refusal (.notFound "There is no such account."))
  let held ← heldRoles db.bindings target wanted.keys
  let bindings := putAll db.bindings (directWrites target held wanted)
  keepsAnAdmin db.users bindings allowed.actor allowed.workspaces
  return { db with bindings }

/-- A mapping's role before the write, or none. -/
def heldMapping (bindings : Bindings) (group : String) (workspace : Uuid) :
    Except WriteError (Option Role) :=
  match bindings.lookup (.mapping group workspace) with
  | none => .ok none
  | some name => do return some (← known name)

/-- Puts the mapping at a role, or removes it. -/
def writeGroupMapping (db : Db) (caller workspace : Uuid) (group : String)
    (after : Option Role) : Except WriteError Db := do
  let allowed ← authoriseAgain db caller [workspace]
  let before ← heldMapping db.bindings group workspace
  if before.isNone && after.isNone then
    .error (.refusal (.notFound "There is no such group mapping."))
  else match Change.between before after with
  -- the role it already has: nothing to write
  | none => return db
  | some change =>
    let bindings := put db.bindings (writeTo (.mapping group workspace) change)
    keepsAnAdmin db.users bindings allowed.actor [workspace]
    return { db with bindings }

inductive Request where
  | setDirectRoles (target : Uuid) (wanted : RoleChanges)
  | putGroupMapping (workspace : Uuid) (group : String) (role : Role)
  | deleteGroupMapping (workspace : Uuid) (group : String)

/-- The workspaces a request names. -/
def Request.concerned : Request → List Uuid
  | .setDirectRoles _ wanted => wanted.keys
  | .putGroupMapping workspace _ _ | .deleteGroupMapping workspace _ => [workspace]

structure Call where
  caller : Uuid
  request : Request

def Call.perform (db : Db) (call : Call) : Except WriteError Db :=
  match call.request with
  | .setDirectRoles target wanted => setDirectRoles db call.caller target wanted
  | .putGroupMapping workspace group role =>
    writeGroupMapping db call.caller workspace group (some role)
  | .deleteGroupMapping workspace group => writeGroupMapping db call.caller workspace group none

/-- The store after a call: a failed one writes nothing. -/
def Call.after (db : Db) (call : Call) : Db :=
  match call.perform db with
  | .ok db' => db'
  | .error _ => db

def run (db : Db) (calls : List Call) : Db := calls.foldl Call.after db

/-! ## What one call can do -/

theorem authorise_eq_ok {rows : Rows} {caller : User}
    (h : authorise rows caller workspaces = .ok ()) :
    ∀ w ∈ workspaces, w ∈ rows.grantable caller := by
  unfold authorise at h
  split at h
  · cases h
  · split at h
    · rename_i hall
      simpa using hall
    · cases h

theorem authorise_congr {rows rows' : Rows} {caller : User}
    (h : ∀ w ∈ workspaces, w ∈ rows.grantable caller ↔ w ∈ rows'.grantable caller) :
    authorise rows caller workspaces = authorise rows' caller workspaces := by
  have hall : workspaces.all (rows.grantable caller).contains =
      workspaces.all (rows'.grantable caller).contains := by
    rw [Bool.eq_iff_iff, List.all_eq_true, List.all_eq_true]
    refine forall₂_congr fun w hw => ?_
    simp only [List.contains_iff_mem, h w hw]
  unfold authorise
  rw [hall]

/-- Read for `concerned` alone, a caller is admin of one of those workspaces
exactly where all rows say so. -/
theorem rights_eq (concerned : List Uuid)
    (hfind : (db.users.find? fun u => u.id == caller) = some actor) :
    ∃ rows, rights db caller concerned = .ok (actor, rows) ∧
      ∀ w ∈ concerned, w ∈ rows.grantable actor ↔ w ∈ db.accessRows.grantable actor := by
  have hid : actor.id = caller := by simpa using List.find?_some hfind
  unfold rights
  rw [hfind]
  refine ⟨_, rfl, fun w hw => ?_⟩
  rw [Rows.mem_grantable, Rows.mem_grantable]
  refine and_congr ?_ ?_
  · constructor
    · intro h
      obtain ⟨ws, hws, rfl⟩ := h
      exact ⟨ws, (List.mem_filter.mp (mem_sortBy.mp hws)).1, rfl⟩
    · intro h
      obtain ⟨ws, hws, rfl⟩ := h
      exact ⟨ws, mem_sortBy.mpr (List.mem_filter.mpr ⟨hws, by simpa using hw⟩), rfl⟩
  · rw [Rows.isAdmin_congr]
    · intro role
      simp [Db.accessRows, hid, hw]
    · intro group hgroup role
      simp [Db.accessRows, hgroup, hw]

/-- Deciding over the rows read again is deciding over all rows. -/
theorem authorise_rights (concerned : List Uuid)
    (hfind : (db.users.find? fun u => u.id == caller) = some actor) :
    ∃ rows, rights db caller concerned = .ok (actor, rows) ∧
      authorise rows actor concerned = authorise db.accessRows actor concerned := by
  obtain ⟨rows, hrights, hgrantable⟩ := rights_eq concerned hfind
  exact ⟨rows, hrights, authorise_congr hgrantable⟩

variable {allowed : Authorised} {request : Request} {call : Call}

theorem authoriseAgain_ok {concerned : List Uuid}
    (h : authoriseAgain db caller concerned = .ok allowed) :
    ∃ rows, (db.users.find? fun u => u.id == caller) = some allowed.actor ∧
      rights db caller concerned = .ok (allowed.actor, rows) ∧
      authorise rows allowed.actor concerned = .ok () ∧
      allowed.workspaces = rows.workspaces.map Workspace.id := by
  obtain ⟨⟨actor, rows⟩, hrights, h⟩ := bind_eq_ok.mp h
  obtain ⟨⟨⟩, hok, h⟩ := bind_eq_ok.mp h
  cases h
  refine ⟨rows, ?_, hrights, ?_, rfl⟩
  · cases hfind : db.users.find? fun u => u.id == caller with
    | none => simp [rights, hfind] at hrights
    | some u =>
      obtain ⟨rows', hrights', -⟩ := rights_eq concerned hfind
      cases hrights.symm.trans hrights'
      rfl
  · cases hv : authorise rows actor concerned with
    | error e =>
      rw [hv] at hok
      cases hok
    | ok v => rfl

/-- A caller who may write is admin of everything they name. -/
theorem isAdmin_of_authoriseAgain {concerned : List Uuid}
    (h : authoriseAgain db caller concerned = .ok allowed) :
    ∃ u ∈ db.users, u.id = caller ∧ ∀ w ∈ concerned, db.accessRows.isAdmin u w = true := by
  obtain ⟨rows, hfind, hrights, hverdict, -⟩ := authoriseAgain_ok h
  obtain ⟨rows', hrights', hauth⟩ := authorise_rights concerned hfind
  cases hrights.symm.trans hrights'
  rw [hauth] at hverdict
  refine ⟨allowed.actor, List.mem_of_find?_eq_some hfind, ?_, ?_⟩
  · simpa using List.find?_some hfind
  · intro w hw
    exact (Rows.mem_grantable.mp (authorise_eq_ok hverdict w hw)).2

/-- `db'` differs from `db` in bindings of `concerned` workspaces at most. -/
structure Within (concerned : List Uuid) (db db' : Db) : Prop where
  users : db'.users = db.users
  bindings : ∀ b : Binding, b.workspace ∉ concerned →
    db'.bindings.lookup b = db.bindings.lookup b

/-! ## A call, uniformly -/

/-- The workspaces `keeps_an_admin` looks at: none for a superuser. -/
def toCheck (request : Request) (allowed : Authorised) : List Uuid :=
  if allowed.actor.superuser then []
  else match request with
    | .setDirectRoles _ _ => allowed.workspaces
    | .putGroupMapping workspace _ _ | .deleteGroupMapping workspace _ => [workspace]

/-- The changes of a request, from the rows it found to change. -/
def changesOf (request : Request) (found : Bindings) :
    Except WriteError (List (Binding × Change)) :=
  match request with
  | .setDirectRoles target wanted => do
    let held ← heldRoles found target wanted.keys
    return (directChanges held wanted).map fun (workspace, change) =>
      (.direct target workspace, change)
  | .putGroupMapping workspace group role => do
    let before ← heldMapping found group workspace
    return (Change.between before (some role)).toList.map fun change =>
      (.mapping group workspace, change)
  | .deleteGroupMapping workspace group => do
    let before ← heldMapping found group workspace
    return (Change.between before none).toList.map fun change =>
      (.mapping group workspace, change)

/-- May the request go on to write? The account has to exist, and a mapping
write that changes nothing ends there. -/
def goesOn (users : List User) : Request → List (Binding × Change) → Bool
  | .setDirectRoles target _, _ => users.any fun u => u.id == target
  | .putGroupMapping _ _ _, changes | .deleteGroupMapping _ _, changes => !changes.isEmpty

theorem changesOf_workspace {found : Bindings} (h : changesOf request found = .ok changes) :
    ∀ c ∈ changes, c.1.workspace ∈ request.concerned := by
  intro c hc
  cases request with
  | setDirectRoles target wanted =>
    obtain ⟨held, -, h⟩ := bind_eq_ok.mp h
    cases h
    obtain ⟨x, hx, rfl⟩ := List.mem_map.mp hc
    exact directChanges_workspace hx
  | putGroupMapping workspace group role =>
    obtain ⟨before, -, h⟩ := bind_eq_ok.mp h
    cases h
    obtain ⟨x, -, rfl⟩ := List.mem_map.mp hc
    exact List.mem_singleton_self workspace
  | deleteGroupMapping workspace group =>
    obtain ⟨before, -, h⟩ := bind_eq_ok.mp h
    cases h
    obtain ⟨x, -, rfl⟩ := List.mem_map.mp hc
    exact List.mem_singleton_self workspace

theorem keepsAnAdmin_eq_ok {users : List User} {bindings : Bindings}
    (hcheck : toCheck request allowed = if allowed.actor.superuser then [] else workspaces)
    (h : keepsAnAdmin users bindings allowed.actor workspaces = .ok ()) :
    ∀ w ∈ toCheck request allowed, anAdminIsLeft users bindings w = true := by
  rw [hcheck]
  unfold keepsAnAdmin at h
  split at h
  · rename_i hsuper
    simp [hsuper]
  · rename_i hsuper
    split at h
    · rename_i hall
      simpa [hsuper] using hall
    · cases h

/-- What a call that succeeds did. -/
structure Performed (db : Db) (call : Call) (changes : List (Binding × Change))
    (allowed : Authorised) (db' : Db) : Prop where
  goesOn : goesOn db.users call.request changes = true
  left : ∀ w ∈ toCheck call.request allowed, anAdminIsLeft db.users db'.bindings w = true
  result : db' = { db with
    bindings := putAll db.bindings (changes.map fun c => writeTo c.1 c.2) }

theorem writeGroupMapping_ok {workspace : Uuid}
    {after : Option Role} (hconcerned : call.request.concerned = [workspace])
    (hcheck : ∀ allowed, toCheck call.request allowed =
      if allowed.actor.superuser then [] else [workspace])
    (hgo : ∀ changes, goesOn db.users call.request changes = !changes.isEmpty)
    (h : writeGroupMapping db call.caller workspace group after = .ok db') :
    ∃ allowed before, authoriseAgain db call.caller call.request.concerned = .ok allowed ∧
      heldMapping db.bindings group workspace = .ok before ∧
      (db' = db ∨ Performed db call ((Change.between before after).toList.map fun change =>
        (.mapping group workspace, change)) allowed db') := by
  obtain ⟨allowed, hallowed, h⟩ := bind_eq_ok.mp h
  obtain ⟨before, hbefore, h⟩ := bind_eq_ok.mp h
  refine ⟨allowed, before, hconcerned ▸ hallowed, hbefore, ?_⟩
  split at h
  · cases h
  · cases hchange : Change.between before after with
    | none =>
      rw [hchange] at h
      cases h
      exact .inl rfl
    | some change =>
      rw [hchange] at h
      obtain ⟨⟨⟩, hkeeps, h⟩ := bind_eq_ok.mp h
      cases h
      exact .inr ⟨hgo _, keepsAnAdmin_eq_ok (hcheck allowed) hkeeps, rfl⟩

theorem Call.perform_ok (h : call.perform db = .ok db') :
    ∃ allowed changes, authoriseAgain db call.caller call.request.concerned = .ok allowed ∧
      changesOf call.request db.bindings = .ok changes ∧
      (db' = db ∨ Performed db call changes allowed db') := by
  obtain ⟨caller, request⟩ := call
  cases request with
  | setDirectRoles target wanted =>
    obtain ⟨allowed, hallowed, h⟩ := bind_eq_ok.mp h
    split at h
    · cases h
    · rename_i hany
      obtain ⟨held, hheld, h⟩ := bind_eq_ok.mp h
      obtain ⟨⟨⟩, hkeeps, h⟩ := bind_eq_ok.mp h
      cases h
      refine ⟨allowed, _, hallowed, bind_ok hheld rfl, .inr ⟨?_, ?_, ?_⟩⟩
      · simpa [goesOn] using hany
      · exact keepsAnAdmin_eq_ok rfl hkeeps
      · simp [directWrites, Function.comp_def]
  | putGroupMapping workspace group role =>
    obtain ⟨allowed, before, hallowed, hbefore, hdone⟩ :=
      writeGroupMapping_ok rfl (fun _ => rfl) (fun _ => rfl) h
    exact ⟨allowed, _, hallowed, bind_ok hbefore rfl, hdone⟩
  | deleteGroupMapping workspace group =>
    obtain ⟨allowed, before, hallowed, hbefore, hdone⟩ :=
      writeGroupMapping_ok rfl (fun _ => rfl) (fun _ => rfl) h
    exact ⟨allowed, _, hallowed, bind_ok hbefore rfl, hdone⟩

/-- A call that succeeds changes bindings of the workspaces it names only. -/
theorem Call.perform_within (hchanges : changesOf call.request db.bindings = .ok changes)
    (h : db' = db ∨ Performed db call changes allowed db') :
    Within call.request.concerned db db' := by
  rcases h with rfl | h
  · exact ⟨rfl, fun _ _ => rfl⟩
  · rw [h.result]
    refine ⟨rfl, fun b hb => lookup_putAll_of_forall_ne _ fun w hw heq => hb ?_⟩
    obtain ⟨c, hc, rfl⟩ := List.mem_map.mp hw
    rw [heq]
    exact changesOf_workspace hchanges c hc

/-! ## No escalation -/

/-- Nothing about the workspace has changed. -/
structure SameIn (w : Uuid) (db db' : Db) : Prop where
  users : db'.users = db.users
  bindings : ∀ b : Binding, b.workspace = w → db'.bindings.lookup b = db.bindings.lookup b

theorem SameIn.refl (w : Uuid) (db : Db) : SameIn w db db := ⟨rfl, fun _ _ => rfl⟩

theorem SameIn.trans {a b c : Db} (h : SameIn w a b) (h' : SameIn w b c) : SameIn w a c :=
  ⟨h'.users.trans h.users, fun k hk => (h'.bindings k hk).trans (h.bindings k hk)⟩

theorem SameIn.isAdmin (h : SameIn w db db') (u : User) :
    db'.accessRows.isAdmin u w = db.accessRows.isAdmin u w := by
  apply Rows.isAdmin_congr
  · intro role
    show _ ∈ db'.grants ↔ _ ∈ db.grants
    rw [Db.mem_grants, Db.mem_grants, h.bindings (.direct u.id w) rfl]
  · intro group _ role
    show _ ∈ db'.groupGrants ↔ _ ∈ db.groupGrants
    rw [Db.mem_groupGrants, Db.mem_groupGrants, h.bindings (.mapping group w) rfl]

/-- The account is not an admin of the workspace; a superuser who is enabled
administers every one. -/
def Outsider (db : Db) (w account : Uuid) : Prop :=
  ∀ u ∈ db.users, u.id = account → db.accessRows.isAdmin u w = false

theorem Outsider.congr {account : Uuid} (h : SameIn w db db')
    (ho : Outsider db w account) : Outsider db' w account := by
  intro u hu hid
  rw [h.isAdmin]
  exact ho u (h.users ▸ hu) hid

theorem Call.after_sameIn (h : Outsider db w call.caller) : SameIn w db (call.after db) := by
  unfold Call.after
  cases hres : call.perform db with
  | error e => exact .refl w db
  | ok db' =>
    obtain ⟨allowed, changes, hallowed, hchanges, hdone⟩ := Call.perform_ok hres
    have hwithin := Call.perform_within hchanges hdone
    obtain ⟨u, hu, hid, hadmin⟩ := isAdmin_of_authoriseAgain hallowed
    refine ⟨hwithin.users, fun b hb => hwithin.bindings b fun hmem => ?_⟩
    have hyes := hadmin w (hb ▸ hmem)
    rw [h u hu hid] at hyes
    cases hyes

theorem run_sameIn {calls : List Call}
    (h : ∀ call ∈ calls, Outsider db w call.caller) : SameIn w db (run db calls) := by
  induction calls generalizing db with
  | nil => exact .refl w db
  | cons call rest ih =>
    have hstep : SameIn w db (call.after db) := Call.after_sameIn (h call List.mem_cons_self)
    refine hstep.trans (ih fun call' hcall' => ?_)
    exact (h call' (List.mem_cons_of_mem call hcall')).congr hstep

/-- Callers who are no admins of a workspace change nothing in it, however many
calls they make and whatever they change elsewhere, and none becomes its admin;
and the few rows a write reads again decide as all rows would. -/
theorem no_escalation (db : Db) (w : Uuid) (calls : List Call)
    (h : ∀ call ∈ calls, ∀ u ∈ db.users, u.id = call.caller →
      db.accessRows.isAdmin u w = false) :
    (∀ b : Binding, b.workspace = w →
      (run db calls).bindings.lookup b = db.bindings.lookup b) ∧
    (∀ n, ∀ call ∈ calls, ∀ u ∈ (run db (calls.take n)).users, u.id = call.caller →
      (run db (calls.take n)).accessRows.isAdmin u w = false) ∧
    ∀ (db : Db) (caller : Uuid) (concerned : List Uuid) (actor : User),
      (db.users.find? fun u => u.id == caller) = some actor →
      ∃ rows, rights db caller concerned = .ok (actor, rows) ∧
        authorise rows actor concerned = authorise db.accessRows actor concerned := by
  refine ⟨(run_sameIn h).bindings, ?_, fun db caller concerned actor => authorise_rights concerned⟩
  intro n call hcall
  have hsame : SameIn w db (run db (calls.take n)) :=
    run_sameIn fun call' hcall' => h call' (List.mem_of_mem_take hcall')
  exact Outsider.congr hsame (h call hcall)

def person (id : Uuid) (groups : List String) : User where
  id := id
  name := "someone"
  superuser := false
  disabled := false
  groups := groups

/-- Two workspaces, 10 and 20, administered by 1 and by 3. -/
def twoShops : Db where
  users := [person 1 [], person 2 ["staff"], person 3 []]
  workspaces := [⟨10, "cart"⟩, ⟨20, "billing"⟩]
  bindings := putAll ∅ [(.direct 1 10, some "admin"), (.direct 3 20, some "admin")]

/-- 1 makes 2 an admin of 10, then of 20 as well, and 2 maps a group of theirs
to 10 and to 20. -/
def hires : List Call :=
  [⟨1, .setDirectRoles 2 (TreeMap.ofList [((10 : Uuid), some Role.admin)] _)⟩,
   ⟨1, .setDirectRoles 2 (TreeMap.ofList [((20 : Uuid), some Role.admin)] _)⟩,
   ⟨2, .putGroupMapping 10 "staff" .editor⟩,
   ⟨2, .putGroupMapping 20 "staff" .editor⟩]

theorem no_escalation_two_shops :
    (run twoShops hires).bindings.lookup (.direct 2 10) = some "admin" ∧
    (run twoShops hires).bindings.lookup (.direct 2 20) = twoShops.bindings.lookup (.direct 2 20) :=
  ⟨by decide +kernel,
    (no_escalation twoShops 20 hires (by decide +kernel)).1 (.direct 2 20) rfl⟩

end Gapura.Control.Grants
