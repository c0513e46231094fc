import Gapura.Control.Access
import Gapura.Control.Configuration

/-! # The audit log, a page at a time

A page is keyed by the id of the last entry before it, so that what is written
while somebody reads older pages neither shifts them nor shows up twice. Of an
entry only what decides whether it is shown is in its row here. -/
namespace Gapura.Control.Audit
open Control.Access
open Control.Configuration (Refusal nameOk name)

structure Row where
  id : Nat
  objectKind : String
  workspaceId : Option Uuid

structure Db where
  auditLog : List Row
  workspaces : List Workspace
  distinct : (auditLog.map Row.id).Nodup
  named : ∀ w ∈ workspaces, nameOk w.name = true

inductive Visible where
  | everything
  | workspaces (ids : List Uuid)
  deriving DecidableEq

def visible (rows : Rows) (caller : User) : Except Refusal Visible :=
  if caller.superuser && !caller.disabled then .ok .everything
  else
    let reached := (rows.workspaces.filter fun w => (rows.effective caller w.id).isSome).map (·.id)
    if reached.isEmpty then .error (.forbidden
      "You hold no role in any workspace, so there is no audit log for you to read.")
    else .ok (.workspaces reached)

inductive WorkspaceFilter where
  | any
  | noWorkspace
  | named (name : String)
  deriving DecidableEq

structure Query where
  before : Option Nat
  limit : Nat
  workspace : WorkspaceFilter
  kind : Option String
  limits : 1 ≤ limit ∧ limit ≤ 200

def Query.matchesNothing (q : Query) (v : Visible) : Bool :=
  match q.workspace with
  | .any => false
  | .noWorkspace => v ≠ .everything
  | .named n => (name n "workspace").toOption.isNone

/-- What the query asks of an entry besides its id. -/
def Query.wants (q : Query) (v : Visible) (ws : List Workspace) (row : Row) : Bool :=
  q.kind.all (row.objectKind = ·) &&
  (match v with
    | .everything => true
    | .workspaces ids => row.workspaceId.any ids.contains) &&
  match q.workspace with
    | .any => true
    | .noWorkspace => row.workspaceId.isNone
    | .named n => row.workspaceId.any fun id => ws.any fun w => w.id = id && w.name = n

def Query.selects (q : Query) (v : Visible) (ws : List Workspace) (row : Row) : Bool :=
  q.before.all (row.id < ·) && q.wants v ws row

structure Page where
  entries : List Row
  next : Option Nat

def Db.newestFirst (db : Db) (v : Visible) (q : Query) : List Row :=
  (db.auditLog.filter (q.selects v db.workspaces)).mergeSort fun a b => b.id ≤ a.id

def audit (db : Db) (v : Visible) (q : Query) : Page :=
  if q.matchesNothing v then ⟨[], none⟩
  else
    -- one more than the page holds, to tell whether there is a page after it
    let fetched := (db.newestFirst v q).take (q.limit + 1)
    let entries := fetched.take q.limit
    ⟨entries, if q.limit < fetched.length then entries.getLast?.map (·.id) else none⟩

/-! ## One page -/

section
variable {db : Db} {v : Visible} {q : Query} {row : Row}

theorem mem_newestFirst :
    row ∈ db.newestFirst v q ↔ row ∈ db.auditLog ∧ q.selects v db.workspaces row = true := by
  rw [Db.newestFirst, List.mem_mergeSort, List.mem_filter]

theorem newestFirst_pairwise (db : Db) (v : Visible) (q : Query) :
    (db.newestFirst v q).Pairwise fun a b => b.id < a.id := by
  have hsorted : (db.newestFirst v q).Pairwise fun a b => decide (b.id ≤ a.id) = true :=
    List.pairwise_mergeSort (by simp; omega) (by simp; omega) _
  have hdistinct : ((db.newestFirst v q).map Row.id).Nodup :=
    ((List.mergeSort_perm _ _).map Row.id).nodup_iff.mpr
      (db.distinct.sublist (List.filter_sublist.map Row.id))
  refine hsorted.imp₂ (fun a b hle hne => ?_) (List.pairwise_map.mp hdistinct)
  rw [decide_eq_true_eq] at hle
  omega

/-- Where the store is not asked, it has nothing. -/
theorem wants_of_matchesNothing (h : q.matchesNothing v = true) :
    q.wants v db.workspaces row = false := by
  unfold Query.matchesNothing at h
  unfold Query.wants
  cases hfilter : q.workspace with
  | any => simp [hfilter] at h
  | noWorkspace =>
    cases v with
    | everything => simp [hfilter] at h
    | workspaces ids => cases row.workspaceId <;> simp
  | named n =>
    have hnone : ∀ id, (db.workspaces.any fun w => w.id = id && w.name = n) = false := by
      intro id
      rw [List.any_eq_false]
      intro w hw hboth
      simp only [Bool.and_eq_true, decide_eq_true_eq] at hboth
      have hok := db.named w hw
      rw [hboth.2] at hok
      simp [hfilter, name, hok, Except.toOption] at h
    simp [hnone]

/-- What a page shows, and what it leaves to the next. -/
structure Shows (db : Db) (v : Visible) (q : Query) (page : Page) : Prop where
  order : page.entries.Pairwise fun a b => b.id < a.id
  found : ∀ row ∈ page.entries, row ∈ db.auditLog ∧ q.selects v db.workspaces row = true
  next : ∀ id, page.next = some id → (∃ row ∈ page.entries, row.id = id) ∧
    ∀ row ∈ page.entries, id ≤ row.id
  rest : ∀ row ∈ db.auditLog, q.selects v db.workspaces row = true → row ∈ page.entries ∨
    ∃ id, page.next = some id ∧ row.id < id

theorem audit_shows (db : Db) (v : Visible) (q : Query) : Shows db v q (audit db v q) := by
  unfold audit
  split
  · rename_i hnothing
    refine ⟨.nil, by simp, by simp, fun row _ hselects => ?_⟩
    rw [Query.selects, wants_of_matchesNothing hnothing, Bool.and_false] at hselects
    cases hselects
  · have hlimit := q.limits.1
    have hordered := newestFirst_pairwise db v q
    rw [← List.take_append_drop q.limit (db.newestFirst v q), List.pairwise_append] at hordered
    obtain ⟨horder, -, hlater⟩ := hordered
    simp only [List.take_take, List.length_take, min_eq_left (Nat.le_succ q.limit)]
    refine ⟨horder, fun row hrow => mem_newestFirst.mp (List.mem_of_mem_take hrow), ?_, ?_⟩
    · intro id hid
      obtain ⟨-, hsome⟩ := Option.ite_none_right_eq_some.mp hid
      obtain ⟨last, hlast, rfl⟩ := Option.map_eq_some_iff.mp hsome
      obtain ⟨init, hinit⟩ := List.getLast?_eq_some_iff.mp hlast
      refine ⟨⟨last, List.mem_of_getLast? hlast, rfl⟩, fun row hrow => ?_⟩
      rw [hinit] at hrow horder
      rcases List.mem_append.mp hrow with hrow | hrow
      · exact ((List.pairwise_append.mp horder).2.2 row hrow last (by simp)).le
      · rw [List.mem_singleton.mp hrow]
    · intro row hrow hselects
      have hmem := mem_newestFirst.mpr ⟨hrow, hselects⟩
      rw [← List.take_append_drop q.limit (db.newestFirst v q), List.mem_append] at hmem
      refine hmem.imp_right fun hdropped => ?_
      have hlength := List.length_pos_of_mem hdropped
      rw [List.length_drop] at hlength
      have hne : (db.newestFirst v q).take q.limit ≠ [] := by
        rw [← List.length_pos_iff, List.length_take]
        omega
      refine ⟨_, ?_, hlater _ (List.getLast_mem hne) row hdropped⟩
      rw [if_pos (by omega), List.getLast?_eq_some_getLast hne]
      rfl

end

/-! ## Page after page -/

/-- The log as it is at each request: it grows, and the workspaces stay. -/
structure History where
  db : Nat → Db
  grows : ∀ n, (db n).auditLog ⊆ (db (n + 1)).auditLog
  kept : ∀ n, (db (n + 1)).workspaces = (db n).workspaces

/-- The entries of the `n`th page and of those its `next` leads to. -/
inductive Reads (h : History) (v : Visible) : Nat → Query → List Row → Prop
  | last {n : Nat} {q : Query} (hnext : (audit (h.db n) v q).next = none) :
      Reads h v n q (audit (h.db n) v q).entries
  | more {n id : Nat} {q : Query} {rest : List Row}
      (hnext : (audit (h.db n) v q).next = some id)
      (hrest : Reads h v (n + 1) { q with before := some id } rest) :
      Reads h v n q ((audit (h.db n) v q).entries ++ rest)

section
variable {h : History} {v : Visible} {n : Nat} {q : Query} {entries : List Row}

theorem next_lt {id : Nat} (hnext : (audit (h.db n) v q).next = some id) :
    ∀ b ∈ q.before, id < b := by
  intro b hb
  have hshows := audit_shows (h.db n) v q
  obtain ⟨⟨row, hrow, rfl⟩, -⟩ := hshows.next id hnext
  have hselects := (Bool.and_eq_true_iff.mp (hshows.found row hrow).2).1
  rw [hb] at hselects
  simpa using hselects

/-- Every page goes further back, so there is a last one. -/
theorem exists_reads (h : History) (v : Visible) (n : Nat) (q : Query) :
    ∃ entries, Reads h v n q entries := by
  obtain ⟨b, hbefore⟩ : ∃ b : WithTop ℕ, q.before = b := ⟨q.before, rfl⟩
  induction b using WellFoundedLT.induction generalizing n q with
  | _ b ih =>
    cases hnext : (audit (h.db n) v q).next with
    | none => exact ⟨_, .last hnext⟩
    | some id =>
      have hlt : (id : WithTop ℕ) < b := by
        cases b with
        | top => exact WithTop.coe_lt_top id
        | coe b => exact WithTop.coe_lt_coe.mpr (next_lt hnext b hbefore)
      obtain ⟨rest, hrest⟩ := ih id hlt (n + 1) { q with before := some id } rfl
      exact ⟨_, .more hnext hrest⟩

theorem Reads.whole (hreads : Reads h v n q entries) :
    entries.Pairwise (fun a b => b.id < a.id) ∧
    (∀ row ∈ (h.db n).auditLog, q.selects v (h.db n).workspaces row = true → row ∈ entries) ∧
    ∀ row ∈ entries, q.selects v (h.db n).workspaces row = true := by
  induction hreads with
  | @last n q hnext =>
    have hshows := audit_shows (h.db n) v q
    refine ⟨hshows.order, fun row hrow hselects => ?_, fun row hrow => (hshows.found row hrow).2⟩
    rcases hshows.rest row hrow hselects with hfound | ⟨id, hmore, -⟩
    · exact hfound
    · cases hnext.symm.trans hmore
  | @more n id q rest hnext _ ih =>
    have hshows := audit_shows (h.db n) v q
    obtain ⟨horder, hcomplete, hselected⟩ := ih
    obtain ⟨⟨last, hlast, rfl⟩, hleast⟩ := hshows.next id hnext
    have hbefore : ∀ row, Query.selects { q with before := some last.id } v
        (h.db (n + 1)).workspaces row = true ↔
        row.id < last.id ∧ q.wants v (h.db n).workspaces row = true := by
      intro row
      rw [h.kept]
      simp [Query.selects, Query.wants]
    have hrest := fun row hrow => (hbefore row).mp (hselected row hrow)
    refine ⟨List.pairwise_append.mpr ⟨hshows.order, horder, fun a ha b hb =>
      (hrest b hb).1.trans_le (hleast a ha)⟩, fun row hrow hselects => ?_, ?_⟩
    · rcases hshows.rest row hrow hselects with hfound | ⟨id, hmore, hlt⟩
      · exact List.mem_append_left _ hfound
      · obtain rfl := Option.mem_unique hnext hmore
        refine List.mem_append_right _ (hcomplete row (h.grows n hrow) ((hbefore row).mpr ⟨hlt, ?_⟩))
        exact (Bool.and_eq_true_iff.mp hselects).2
    · rw [List.forall_mem_append]
      refine ⟨fun row hrow => (hshows.found row hrow).2, fun row hrow => ?_⟩
      obtain ⟨hlt, hwants⟩ := hrest row hrow
      rw [Query.selects, hwants, Bool.and_true, Option.all_eq_true]
      exact fun b hb => decide_eq_true (hlt.trans (next_lt hnext b hb))

end

/-- Whoever may read the log and follows `next` gets to a last page, whatever is
written meanwhile. They have then seen every entry they asked for that was there
when they began, each once and the newest first, and none of a workspace they hold
no role in. -/
theorem audit_read_whole (h : History) (rows : Rows) (caller : User) (v : Visible) (q : Query)
    (hv : visible rows caller = .ok v) : ∃ entries, Reads h v 0 q entries ∧
      entries.Pairwise (fun a b => b.id < a.id) ∧
      (∀ row ∈ (h.db 0).auditLog, q.selects v (h.db 0).workspaces row = true → row ∈ entries) ∧
      ∀ row ∈ entries, caller.superuser = true ∨
        ∃ w ∈ row.workspaceId, (rows.effective caller w).isSome = true := by
  obtain ⟨entries, hreads⟩ := exists_reads h v 0 q
  obtain ⟨horder, hcomplete, hselected⟩ := hreads.whole
  refine ⟨entries, hreads, horder, hcomplete, fun row hrow => ?_⟩
  unfold visible at hv
  split at hv
  · rename_i hsuper
    exact .inl (Bool.and_eq_true_iff.mp hsuper).1
  · simp only at hv
    split at hv
    · cases hv
    · cases hv
      right
      have hwants := (Bool.and_eq_true_iff.mp (hselected row hrow)).2
      have hwithin := (Bool.and_eq_true_iff.mp (Bool.and_eq_true_iff.mp hwants).1).2
      obtain ⟨w, hw, hids⟩ := (Option.any_eq_true _ _).mp hwithin
      obtain ⟨ws, hws, rfl⟩ := List.mem_map.mp (List.contains_iff_mem.mp hids)
      exact ⟨ws.id, hw, (List.mem_filter.mp hws).2⟩

/-- Three entries and no workspace, read two at a time. -/
def threeEntries : History where
  db := fun _ => ⟨[⟨1, "user", none⟩, ⟨2, "setting", none⟩, ⟨3, "user", none⟩], [], by decide,
    fun _ hw => nomatch hw⟩
  grows := fun _ => List.Subset.refl _
  kept := fun _ => rfl

theorem audit_read_whole_superuser :
    ∃ entries, Reads threeEntries .everything 0 ⟨none, 2, .any, none, by decide⟩ entries ∧
      ∀ row ∈ (threeEntries.db 0).auditLog, row ∈ entries := by
  obtain ⟨entries, hreads, -, hcomplete, -⟩ := audit_read_whole threeEntries {}
    ⟨1, "ada", true, false, []⟩ .everything ⟨none, 2, .any, none, by decide⟩ rfl
  exact ⟨entries, hreads, fun row hrow => hcomplete row hrow rfl⟩

end Gapura.Control.Audit
