import Gapura.Lib.Ordered

/-! # Who may do what in a workspace

A person's role is the highest that any grant gives them, and nothing
subtracts; a superuser is admin everywhere; a disabled account holds nothing. -/
namespace Gapura.Control.Access
open Lib.Ordered

/-- A row's identity; only equality is ever asked of one. -/
abbrev Uuid := Nat

inductive Role where
  | viewer
  | editor
  | admin
  deriving DecidableEq, Repr

def Role.asStr : Role → String
  | .viewer => "viewer"
  | .editor => "editor"
  | .admin => "admin"

/-- Rising: each role can do everything the one before it can. -/
def Role.level : Role → Nat
  | .viewer => 0
  | .editor => 1
  | .admin => 2

def Role.max (a b : Role) : Role := if a.level < b.level then b else a

inductive Source where
  | superuser (role : Role)
  | direct (role : Role)
  | group (name : String) (role : Role)
  deriving DecidableEq, Repr

def Source.role : Source → Role
  | .superuser role | .direct role | .group _ role => role

/-- Declaration order, groups by name, then by role. -/
def Source.key : Source → Nat × String × Nat
  | .superuser role => (0, "", role.level)
  | .direct role => (1, "", role.level)
  | .group name role => (2, name, role.level)

def sourceCmp (a b : Source) : Ordering :=
  (compare a.key.1 b.key.1).then
    ((compare a.key.2.1 b.key.2.1).then (compare a.key.2.2 b.key.2.2))

structure User where
  id : Uuid
  name : String
  superuser : Bool
  disabled : Bool
  groups : List String
  deriving DecidableEq, Repr

structure Workspace where
  id : Uuid
  name : String
  deriving DecidableEq, Repr

structure Grant where
  user : Uuid
  workspace : Uuid
  role : Role
  deriving DecidableEq, Repr

structure GroupGrant where
  group : String
  workspace : Uuid
  role : Role
  deriving DecidableEq, Repr

structure Rows where
  users : List User := []
  workspaces : List Workspace := []
  grants : List Grant := []
  groupGrants : List GroupGrant := []
  deriving DecidableEq, Repr

/-- A role in one workspace, and every grant that gives one there: the source's
`Access`. -/
structure Effective where
  role : Role
  sources : List Source
  deriving DecidableEq, Repr

def Rows.sources (rows : Rows) (user : User) (workspace : Uuid) : List Source :=
  (if user.superuser then [.superuser .admin] else []) ++
  ((rows.grants.filter fun g => g.user == user.id && g.workspace == workspace).map fun g =>
    .direct g.role) ++
  ((rows.groupGrants.filter fun g => g.workspace == workspace && user.groups.contains g.group).map
    fun g => .group g.group g.role)

def Rows.effective (rows : Rows) (user : User) (workspace : Uuid) : Option Effective :=
  if user.disabled then none
  else match rows.sources user workspace with
    | [] => none
    | first :: rest => some
      { role := rest.foldl (fun best s => best.max s.role) first.role
        sources := (sortBy sourceCmp (first :: rest)).destutter (· ≠ ·) }

end Gapura.Control.Access
