import Gapura.Control.Grants
import Gapura.Lib.Transactions

/-! # Grant writes at the same moment

Each write is a transaction of several statements, and the statements of any
number of them interleave. Accounts, their groups and the workspaces stay as
they are meanwhile, so only the two binding tables and the locks are in the
state. A statement that locks the rows it finds waits for them and returns them
as they are then, without rows that were committed while it waited; so what it
found is some part of what is there. A transaction may end without a commit at
any point: refused, timed out, or stopped by the database as a deadlock or a
duplicate, after which it is tried again as another one. -/
namespace Gapura.Control.GrantRace
open Lib.Checks Lib.Tables Lib.Transactions Control.Access Grants

inductive Phase where
  /-- About to read the caller's direct grants. -/
  | rights
  /-- About to read the mappings, with the grants that were found. -/
  | mappings (grants : Bindings)
  /-- Allowed, and about to read the rows to change. -/
  | held (allowed : Authorised)
  /-- With changes to make, and then workspaces to check. -/
  | writing (changes : List (Binding × Change)) (check : List Uuid)
  /-- With workspaces still to check. -/
  | checking (rest : List Uuid)
  /-- Holding the lock of a workspace, about to look for an admin there. -/
  | counting (workspace : Uuid) (rest : List Uuid)
  | ended

section
variable {T L : Type}

structure System (T L : Type) where
  server : Server T Binding String L
  phase : T → Phase

/-- `s` after a statement of `t`. -/
def System.next [DecidableEq T] (s : System T L) (t : T) (server : Server T Binding String L)
    (phase : Phase) : System T L where
  server := server
  phase := Function.update s.phase t phase

/-- Rows a locking statement may find: some of those it asks for, as they are. -/
structure Found (bindings found : Bindings) (asked : Binding → Prop) : Prop where
  rows : ∀ b ∈ found.keys, asked b
  same : ∀ b ∈ found.keys, found.lookup b = bindings.lookup b

/-- What the transactions run against, and what each was asked to do. -/
structure Setting (T L : Type) where
  users : List User
  workspaces : List Workspace
  /-- The number an advisory lock is taken on, hashed from the workspace. -/
  lockKey : Uuid → L
  call : T → Call

variable (σ : Setting T L)

def Setting.concerned (t : T) : List Uuid := (σ.call t).request.concerned

/-- The row of the request's target or group. -/
def Request.Changes : Request → Binding → Prop
  | .setDirectRoles target wanted, b => ∃ w ∈ wanted.keys, b = .direct target w
  | .putGroupMapping workspace group _, b | .deleteGroupMapping workspace group, b =>
    b = .mapping group workspace

inductive Step [DecidableEq T] : System T L → System T L → Prop
  /-- The caller's grants in the workspaces concerned, locked for sharing. -/
  | grants {s : System T L} {t : T} {found : Bindings} (hphase : s.phase t = .rights)
      (hfound : Found (s.server.view t) found fun b =>
        ∃ w ∈ σ.concerned t, b = .direct (σ.call t).caller w)
      (hfree : s.server.Shareable t found.keys) :
      Step s (s.next t (s.server.share t found.keys) (.mappings found))
  /-- The mappings of the caller's groups there, and the decision. -/
  | mappings {s : System T L} {t : T} {grants found : Bindings} {allowed : Authorised}
      (hphase : s.phase t = .mappings grants)
      (hfound : Found (s.server.view t) found fun b =>
        ∃ u ∈ σ.users, u.id = (σ.call t).caller ∧
          ∃ group ∈ u.groups, ∃ w ∈ σ.concerned t, b = .mapping group w)
      (hfree : s.server.Shareable t found.keys)
      (hallowed : authoriseAgain ⟨σ.users, σ.workspaces, grants ∪ found⟩ (σ.call t).caller
        (σ.concerned t) = .ok allowed) :
      Step s (s.next t (s.server.share t found.keys) (.held allowed))
  /-- The rows to change, locked for the update. -/
  | held {s : System T L} {t : T} {allowed : Authorised} {found : Bindings}
      {changes : List (Binding × Change)} (hphase : s.phase t = .held allowed)
      (hfound : Found (s.server.view t) found (Request.Changes (σ.call t).request))
      (hfree : s.server.Ownable t found.keys)
      (hchanges : changesOf (σ.call t).request found = .ok changes)
      (hgo : goesOn σ.users (σ.call t).request changes = true) :
      Step s (s.next t (s.server.own t found.keys)
        (.writing changes (toCheck (σ.call t).request allowed)))
  /-- One change; an insert of a row that is there by now fails. -/
  | write {s : System T L} {t : T} {b : Binding} {change : Change}
      {rest : List (Binding × Change)} {check : List Uuid}
      (hphase : s.phase t = .writing ((b, change) :: rest) check)
      (hfree : s.server.Ownable t [b])
      (hinsert : change.before = none → (s.server.view t).lookup b = none) :
      Step s (s.next t (s.server.write t (writeTo b change)) (.writing rest check))
  | written {s : System T L} {t : T} {check : List Uuid} (hphase : s.phase t = .writing [] check) :
      Step s (s.next t s.server (.checking check))
  /-- The lock of the next workspace. -/
  | lock {s : System T L} {t : T} {w : Uuid} {rest : List Uuid}
      (hphase : s.phase t = .checking (w :: rest)) (hfree : s.server.Advisable t (σ.lockKey w)) :
      Step s (s.next t (s.server.advise t (σ.lockKey w)) (.counting w rest))
  | count {s : System T L} {t : T} {w : Uuid} {rest : List Uuid}
      (hphase : s.phase t = .counting w rest)
      (hleft : anAdminIsLeft σ.users (s.server.view t) w = true) :
      Step s (s.next t s.server (.checking rest))
  | commit {s : System T L} {t : T} (hphase : s.phase t = .checking []) :
      Step s (s.next t (s.server.commit t) .ended)
  | abort {s : System T L} {t : T} : Step s (s.next t (s.server.abort t) .ended)

/-- Nobody has begun. -/
def start (bindings : Bindings) : System T L where
  server := { committed := bindings, session := fun _ => {} }
  phase := fun _ => .rights

def Reachable [DecidableEq T] (bindings : Bindings) : System T L → Prop :=
  Relation.ReflTransGen (Step σ) (start bindings)

/-! ## What holds of one transaction -/

variable {w : Uuid} {rest : List Uuid}

theorem anAdminIsLeft_congr (users : List User) {bs bs' : Bindings}
    (h : ∀ b : Binding, b.workspace = w → bs.lookup b = bs'.lookup b) :
    anAdminIsLeft users bs w = anAdminIsLeft users bs' w := by
  have hdirect : ∀ u, bs.lookup (.direct u w) = bs'.lookup (.direct u w) := fun u => h _ rfl
  have hmapping : ∀ g, bs.lookup (.mapping g w) = bs'.lookup (.mapping g w) := fun g => h _ rfl
  simp only [anAdminIsLeft, hdirect, hmapping]

/-- `t` keeps others from changing who administers `w`, and has seen that it
leaves an admin there. -/
structure Secured (s : Server T Binding String L) (t : T) (w : Uuid) : Prop where
  locked : σ.lockKey w ∈ (s.session t).advisory
  left : anAdminIsLeft σ.users (s.view t) w = true

/-- What a phase promises about the rest of its transaction. -/
def Promise (s : Server T Binding String L) (t : T) : Phase → Prop
  | .held allowed => σ.concerned t ⊆ toCheck (σ.call t).request allowed
  | .writing changes check =>
    (∀ c ∈ changes, c.1.workspace ∈ σ.concerned t) ∧ σ.concerned t ⊆ check
  | .checking rest => ∀ w ∈ σ.concerned t, w ∈ rest ∨ Secured σ s t w
  | .counting w rest => σ.lockKey w ∈ (s.session t).advisory ∧
    ∀ w' ∈ σ.concerned t, w' ∈ w :: rest ∨ Secured σ s t w'
  | .rights | .mappings _ | .ended => True

/-- A transaction changes the workspaces it names only. -/
def InBounds (s : Server T Binding String L) (t : T) : Prop :=
  ∀ w ∈ (s.session t).writes, w.1.workspace ∈ σ.concerned t

theorem Secured.congr {s s' : Server T Binding String L} {t : T}
    (h : Secured σ s t w) (hadv : (s.session t).advisory ⊆ (s'.session t).advisory)
    (hview : ∀ b : Binding, b.workspace = w → (s.view t).lookup b = (s'.view t).lookup b) :
    Secured σ s' t w :=
  ⟨hadv h.locked, (anAdminIsLeft_congr _ hview).symm.trans h.left⟩

theorem Promise.mono {s s' : Server T Binding String L} {t : T} {p : Phase}
    (h : Promise σ s t p) (hadv : (s.session t).advisory ⊆ (s'.session t).advisory)
    (hsecured : ∀ w, Secured σ s t w → Secured σ s' t w) : Promise σ s' t p := by
  cases p with
  | rights | mappings | ended => trivial
  | held | writing => exact h
  | checking rest => exact fun w hw => (h w hw).imp_right (hsecured w)
  | counting w rest => exact ⟨hadv h.1, fun w' hw' => (h.2 w' hw').imp_right (hsecured w')⟩

/-- A caller who is no superuser has every workspace of the request checked. -/
theorem concerned_subset_toCheck {db : Db} {call : Call} {allowed : Authorised}
    (hcaller : ∀ u ∈ db.users, u.id = call.caller → u.superuser = false)
    (h : authoriseAgain db call.caller call.request.concerned = .ok allowed) :
    call.request.concerned ⊆ toCheck call.request allowed := by
  obtain ⟨rows, hfind, -, hverdict, hworkspaces⟩ := authoriseAgain_ok h
  have hsuper : allowed.actor.superuser = false :=
    hcaller _ (List.mem_of_find?_eq_some hfind) (by simpa using List.find?_some hfind)
  obtain ⟨caller, request⟩ := call
  unfold toCheck
  rw [if_neg (by simp [hsuper])]
  cases request with
  | setDirectRoles target wanted =>
    intro w hw
    obtain ⟨⟨ws, hws, rfl⟩, -⟩ := Rows.mem_grantable.mp (authorise_eq_ok hverdict w hw)
    rw [hworkspaces]
    exact List.mem_map_of_mem hws
  | putGroupMapping workspace group role => exact List.Subset.refl _
  | deleteGroupMapping workspace group => exact List.Subset.refl _

/-! ## What holds of all of them -/

structure Safe (bindings : Bindings) (s : System T L) : Prop where
  apart : s.server.Apart
  bounds : ∀ t, InBounds σ s.server t
  promise : ∀ t, Promise σ s.server t (s.phase t)
  left : ∀ w, anAdminIsLeft σ.users bindings w = true →
    anAdminIsLeft σ.users s.server.committed w = true

variable {σ} {bindings : Bindings} {s : System T L} {t : T}

theorem start_safe (bindings : Bindings) : Safe σ bindings (start bindings) where
  apart := fun _ _ _ h => nomatch h
  bounds := fun _ _ h => nomatch h
  promise := fun _ => trivial
  left := fun _ h => h

variable [DecidableEq T]

variable {phase : Phase}

/-- A statement other than a commit shows in its own session alone. -/
theorem Safe.next (h : Safe σ bindings s) {server : Server T Binding String L}
    (hcommitted : server.committed = s.server.committed)
    (hother : ∀ t', t' ≠ t → server.session t' = s.server.session t')
    (hapart : server.Apart) (hbounds : InBounds σ server t)
    (hpromise : Promise σ server t phase) : Safe σ bindings (s.next t server phase) where
  apart := hapart
  bounds t' := by
    by_cases ht : t' = t
    · rw [ht]
      exact hbounds
    · show ∀ w ∈ (server.session t').writes, _
      rw [hother t' ht]
      exact h.bounds t'
  promise t' := by
    by_cases ht : t' = t
    · subst ht
      simpa [System.next] using hpromise
    · have hview : server.view t' = s.server.view t' := by
        rw [Server.view, Server.view, hcommitted, hother t' ht]
      have hadv : (s.server.session t').advisory ⊆ (server.session t').advisory := by
        simp [hother t' ht]
      simp only [System.next, Function.update_of_ne ht]
      refine (h.promise t').mono σ hadv fun w hw => hw.congr σ hadv fun b _ => ?_
      rw [hview]
  left := by
    simp only [System.next, hcommitted]
    exact h.left

theorem setSession_of_ne (server : Server T Binding String L) (session : Session Binding String L)
    (t' : T) (h : t' ≠ t) : (server.setSession t session).session t' = server.session t' :=
  Function.update_of_ne h _ _

section
variable (h : Safe σ bindings s)

include h

/-- A statement that takes no advisory lock and writes nothing outside of the
request. -/
theorem Safe.statement {session : Session Binding String L}
    (hadv : session.advisory ⊆ (s.server.session t).advisory)
    (hwrites : ∀ w ∈ session.writes, w.1.workspace ∈ σ.concerned t)
    (hpromise : Promise σ (s.server.setSession t session) t phase) :
    Safe σ bindings (s.next t (s.server.setSession t session) phase) := by
  refine h.next rfl (setSession_of_ne _ _) (h.apart.setSession hadv) ?_ hpromise
  intro w hw
  exact hwrites w (by simpa using hw)

theorem Safe.lock
    (hphase : s.phase t = .checking (w :: rest)) (hfree : s.server.Advisable t (σ.lockKey w)) :
    Safe σ bindings (s.next t (s.server.advise t (σ.lockKey w)) (.counting w rest)) := by
  have hold := h.promise t
  rw [hphase] at hold
  have hsession : (s.server.advise t (σ.lockKey w)).session t = { s.server.session t with
      advisory := (s.server.session t).advisory ++ [σ.lockKey w] } := Function.update_self ..
  have hview : (s.server.advise t (σ.lockKey w)).view t = s.server.view t := by
    rw [Server.view, hsession]
    rfl
  refine h.next rfl (setSession_of_ne _ _) (h.apart.advise hfree) ?_ ⟨?_, ?_⟩
  · intro x hx
    rw [hsession] at hx
    exact h.bounds t x hx
  · rw [hsession]
    exact List.mem_append_right _ (List.mem_singleton_self _)
  · intro w' hw'
    refine (hold w' hw').imp_right fun hsec => hsec.congr σ ?_ fun b _ => by rw [hview]
    rw [hsession]
    exact List.subset_append_left _ _

theorem Safe.count (hphase : s.phase t = .counting w rest)
    (hleft : anAdminIsLeft σ.users (s.server.view t) w = true) :
    Safe σ bindings (s.next t s.server (.checking rest)) := by
  have hold := h.promise t
  rw [hphase] at hold
  obtain ⟨hlocked, hrest⟩ := hold
  refine h.next rfl (fun _ _ => rfl) h.apart (h.bounds t) fun w' hw' => ?_
  rcases hrest w' hw' with hmem | hsec
  · rcases List.mem_cons.mp hmem with rfl | hmem
    · exact .inr ⟨hlocked, hleft⟩
    · exact .inl hmem
  · exact .inr hsec

/-- A commit leaves alone what others have secured: they hold the lock of the
workspace, and it holds the lock of every workspace it wrote to. -/
theorem Safe.commit (hphase : s.phase t = .checking []) :
    Safe σ bindings (s.next t (s.server.commit t) .ended) := by
  have hown : ∀ w ∈ σ.concerned t, Secured σ s.server t w := by
    have hold := h.promise t
    rw [hphase] at hold
    exact fun w hw => (hold w hw).resolve_left List.not_mem_nil
  have hne : ∀ w, w ∉ σ.concerned t → ∀ b : Binding, b.workspace = w →
      ∀ x ∈ (s.server.session t).writes, b ≠ x.1 := by
    intro w hw b hb x hx heq
    subst hb heq
    exact hw (h.bounds t x hx)
  have hother : ∀ t', t' ≠ t → (s.server.commit t).session t' = s.server.session t' :=
    fun t' ht => Function.update_of_ne ht _ _
  refine ⟨h.apart.commit t, fun t' => ?_, fun t' => ?_, fun w hw => ?_⟩
  · by_cases ht : t' = t
    · subst ht
      intro x hx
      simp [System.next, Server.commit] at hx
    · intro x hx
      exact h.bounds t' x (by rwa [← hother t' ht])
  · by_cases ht : t' = t
    · subst ht
      simp [System.next, Promise]
    · have hadv : (s.server.session t').advisory ⊆ ((s.server.commit t).session t').advisory := by
        simp [hother t' ht]
      simp only [System.next, Function.update_of_ne ht]
      refine (h.promise t').mono σ hadv fun w hsec => hsec.congr σ hadv fun b hb => ?_
      have hw : w ∉ σ.concerned t := fun hmem =>
        ht (h.apart t' t _ hsec.locked (hown w hmem).locked)
      exact (s.server.lookup_view_commit ht (hne w hw b hb)).symm
  · by_cases hmem : w ∈ σ.concerned t
    · exact (hown w hmem).left
    · have hsame := anAdminIsLeft_congr σ.users fun b hb =>
        s.server.lookup_commit (hne w hmem b hb)
      exact hsame.trans (h.left w hw)

end

theorem Step.safe {s' : System T L} (hcallers : ∀ t, ∀ u ∈ σ.users, u.id = (σ.call t).caller →
    u.superuser = false) (h : Safe σ bindings s) (hstep : Step σ s s') : Safe σ bindings s' := by
  cases hstep with
  | grants => exact h.statement (List.Subset.refl _) (h.bounds _) trivial
  | @mappings t _ _ _ _ _ _ hallowed =>
    exact h.statement (List.Subset.refl _) (h.bounds _)
      (concerned_subset_toCheck (hcallers t) hallowed)
  | @held t _ _ _ hphase _ _ hchanges _ =>
    have hold := h.promise t
    rw [hphase] at hold
    exact h.statement (List.Subset.refl _) (h.bounds _) ⟨changesOf_workspace hchanges, hold⟩
  | @write t b change rest check hphase _ _ =>
    have hold := h.promise t
    rw [hphase] at hold
    obtain ⟨hchanges, hcheck⟩ := hold
    refine h.statement (List.Subset.refl _) ?_
      ⟨fun c hc => hchanges c (List.mem_cons_of_mem _ hc), hcheck⟩
    intro x hx
    rcases List.mem_append.mp hx with hx | hx
    · exact h.bounds t x hx
    · rw [List.mem_singleton.mp hx]
      exact hchanges (b, change) List.mem_cons_self
  | @written t check hphase =>
    have hold := h.promise t
    rw [hphase] at hold
    exact h.next rfl (fun _ _ => rfl) h.apart (h.bounds t) fun w hw => .inl (hold.2 hw)
  | lock hphase hfree => exact h.lock hphase hfree
  | count hphase hleft => exact h.count hphase hleft
  | commit hphase => exact h.commit hphase
  | abort => exact h.statement (List.nil_subset _) (fun _ hx => nomatch hx) trivial

variable (σ) in
theorem reachable_safe (hcallers : ∀ t, ∀ u ∈ σ.users, u.id = (σ.call t).caller →
    u.superuser = false) (hs : Reachable σ bindings s) : Safe σ bindings s := by
  induction hs with
  | refl => exact start_safe bindings
  | tail _ hstep ih => exact ih |> hstep.safe hcallers

/-- Grant writes of callers who are no superusers, however their statements
interleave, leave an admin in every workspace that had one. -/
theorem admin_survives (σ : Setting T L)
    (hcallers : ∀ t, ∀ u ∈ σ.users, u.id = (σ.call t).caller → u.superuser = false)
    (bindings : Bindings) (s : System T L) (hs : Reachable σ bindings s) (w : Uuid)
    (h : anAdminIsLeft σ.users bindings w = true) :
    anAdminIsLeft σ.users s.server.committed w = true :=
  (reachable_safe σ hcallers hs).left w h

/-! ## Two admins at once -/

theorem found_restrict {bs : Bindings} {rows : List Binding} {asked : Binding → Prop}
    (h : ∀ b ∈ rows, asked b) : Found bs (restrict bs rows) asked := by
  have hmem : ∀ b ∈ (restrict bs rows).keys, b ∈ rows := by
    intro b hb
    have hsome := AList.lookup_isSome.mpr (AList.mem_keys.mpr hb)
    rw [lookup_restrict] at hsome
    by_contra hne
    simp [hne] at hsome
  refine ⟨fun b hb => h b (hmem b hb), fun b hb => ?_⟩
  rw [lookup_restrict, if_pos (hmem b hb)]

end

/-- Both admins of 10 make themselves viewers there. -/
def bothLeave : Setting Bool Uuid where
  users := [person 1 [], person 2 []]
  workspaces := [⟨10, "cart"⟩]
  lockKey := id
  call
    | true => ⟨1, .setDirectRoles 1 (Std.TreeMap.ofList [((10 : Uuid), some Role.viewer)] _)⟩
    | false => ⟨2, .setDirectRoles 2 (Std.TreeMap.ofList [((10 : Uuid), some Role.viewer)] _)⟩

def bothAdmins : Db where
  users := bothLeave.users
  workspaces := bothLeave.workspaces
  bindings := putAll ∅ [(.direct 1 10, some "admin"), (.direct 2 10, some "admin")]

/-- The row that each of them reads, locks and changes. -/
def ownRow (t : Bool) : Binding := .direct (bothLeave.call t).caller 10

/-- In turns they get as far as their writes; then the first is checked and commits,
and the second, with the lock that it left, finds no admin. -/
theorem one_leaves : ∃ s, Reachable bothLeave bothAdmins.bindings s ∧
    s.phase false = .counting 10 [] ∧
    anAdminIsLeft bothLeave.users (s.server.view false) 10 = false ∧
    s.server.committed.lookup (.direct 1 10) = some "viewer" := by
  let row t := restrict bothAdmins.bindings [ownRow t]
  have hrow (t : Bool) {asked : Binding → Prop} (h : asked (ownRow t)) :
      Found bothAdmins.bindings (row t) asked :=
    found_restrict fun _ hb => List.mem_singleton.mp hb ▸ h
  have hconcerned (t : Bool) : 10 ∈ (bothLeave.call t).request.concerned := by
    cases t <;> decide +kernel
  have hrights (t : Bool) : authoriseAgain ⟨bothLeave.users, bothLeave.workspaces,
      row t ∪ restrict bothAdmins.bindings []⟩ (bothLeave.call t).caller (bothLeave.concerned t) =
      .ok ⟨person (bothLeave.call t).caller [], [10]⟩ := by
    cases t <;> with_unfolding_all rfl
  have hchanges (t : Bool) : changesOf (bothLeave.call t).request (row t) =
      .ok [(ownRow t, ⟨some .admin, some .viewer⟩)] := by
    cases t <;> with_unfolding_all rfl
  have hasked (t : Bool) : Request.Changes (bothLeave.call t).request (ownRow t) := by
    cases t with
    | true => exact ⟨10, hconcerned true, rfl⟩
    | false => exact ⟨10, hconcerned false, rfl⟩
  refine ⟨_, (((((((((((((Relation.ReflTransGen.refl.tail
    (.grants (t := true) rfl (hrow true ⟨10, hconcerned true, rfl⟩) ?_)).tail
    (.grants (t := false) rfl (hrow false ⟨10, hconcerned false, rfl⟩) ?_)).tail
    (.mappings (t := true) rfl (found_restrict (List.forall_mem_nil _)) ?_ (hrights true))).tail
    (.mappings (t := false) rfl (found_restrict (List.forall_mem_nil _)) ?_ (hrights false))).tail
    (.held (t := true) rfl (hrow true (hasked true)) ?_ (hchanges true) rfl)).tail
    (.held (t := false) rfl (hrow false (hasked false)) ?_ (hchanges false) rfl)).tail
    (.write (t := true) rfl ?_ nofun)).tail
    (.write (t := false) rfl ?_ nofun)).tail
    (.written (t := true) rfl)).tail
    (.lock (t := true) rfl ?_)).tail
    (.count (t := true) rfl ?_)).tail
    (.commit (t := true) rfl)).tail
    (.written (t := false) rfl)).tail
    (.lock (t := false) rfl ?_), rfl, ?_, ?_⟩
  all_goals decide +kernel

theorem admin_survives_one_leaves :
    ∃ s, Reachable bothLeave bothAdmins.bindings s ∧ s.phase false = .counting 10 [] ∧
      anAdminIsLeft bothLeave.users (s.server.view false) 10 = false ∧
      s.server.committed.lookup (.direct 1 10) = some "viewer" ∧
      anAdminIsLeft bothLeave.users s.server.committed 10 = true := by
  obtain ⟨s, hs, hphase, hnone, hviewer⟩ := one_leaves
  exact ⟨s, hs, hphase, hnone, hviewer,
    admin_survives bothLeave (by decide) bothAdmins.bindings s hs 10 (by decide +kernel)⟩

end Gapura.Control.GrantRace
