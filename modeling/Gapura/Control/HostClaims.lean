import Gapura.Control.RouteStore
import Gapura.Core.StoreWorkspace

/-! # Hosts belong to one workspace

Every accepted write keeps the hosts of different workspaces apart: a host
written is weighed against every other workspace's hosts, and hosts that do not
overlap share no name they match. So a request's host picks the workspace, and
that workspace's rows alone decide the rule. -/
namespace Gapura.Control.HostClaims
open Lib.Checks (ok_of_isSome)
open Control.Access Control.Configuration Control.Snapshot RouteStore Core.Store Core.StoreRouting
  Core.StoreWorkspace
open Core.Matcher (RegexCrate RegexError RequestAttrs PortMatch matchPortWith compileRegexes)

/-! ## Overlap -/

theorem hostsOverlap_comm (a b : String) : hostsOverlap a b = hostsOverlap b a := by
  unfold hostsOverlap
  rw [Bool.or_comm (Core.Hostname.matches a b), Bool.beq_comm]

/-- Two hosts overlap exactly when some name is matched by both. -/
theorem hostsOverlap_iff {a b : String} : hostsOverlap a b = true ↔
    ∃ host, Core.Hostname.matches a host = true ∧ Core.Hostname.matches b host = true := by
  constructor
  · intro h
    simp only [hostsOverlap, Bool.or_eq_true, beq_iff_eq] at h
    rcases h with rfl | h | h
    · exact ⟨a, Core.Hostname.matches_self a, Core.Hostname.matches_self a⟩
    · exact ⟨b, h, Core.Hostname.matches_self b⟩
    · exact ⟨a, Core.Hostname.matches_self a, h⟩
  · intro ⟨host, ha, hb⟩
    rcases Core.Hostname.matches_nested ha hb with h | h
    · simp [hostsOverlap, h]
    · simp [hostsOverlap, h]

/-! ## The invariant -/

section
variable {J : Type} {db db' : Db J}

/-- Hosts of routes of different workspaces never overlap. -/
def Apart (routes : List RouteRow) : Prop :=
  ∀ r ∈ routes, ∀ r' ∈ routes, r.workspace ≠ r'.workspace →
    ∀ a ∈ r.hosts, ∀ b ∈ r'.hosts, hostsOverlap a b = false

structure Claims (db : Db J) : Prop where
  ids : (db.routes.map RouteRow.id).Nodup
  apart : Apart db.routes

variable {workspace id : Uuid} {hosts : List String} {name : String} {row : RouteRow}
  {service : ServiceRow} {replacing : Option Replacing}

theorem mem_taken {host : String} : host ∈ taken db workspace ↔
    ∃ r ∈ db.routes, r.workspace ≠ workspace ∧ host ∈ r.hosts := by
  simp [taken, and_assoc]

/-- What passing the hosts check says of the hosts. -/
theorem clear_of_mayRoute {actor : User} (h : mayRoute db actor workspace hosts = .ok ()) :
    ∀ a ∈ hosts, ∀ b ∈ taken db workspace, hostsOverlap a b = false := by
  unfold mayRoute at h
  split at h
  · cases h
  split at h
  · cases h
  split at h
  · cases h
  rename_i hnone
  intro a ha b hb
  have hany := List.find?_eq_none.mp hnone a ha
  rw [Bool.not_eq_true, List.any_eq_false] at hany
  simpa using hany b hb

/-- Rows that are old, or hold hosts clear of every other workspace's, stay apart. -/
theorem Apart.accept (h : Apart db.routes)
    (hclear : ∀ a ∈ hosts, ∀ b ∈ taken db workspace, hostsOverlap a b = false)
    {routes : List RouteRow} (hrows : ∀ r ∈ routes, r ∈ db.routes ∨
      (r.workspace = workspace ∧ r.hosts = hosts)) : Apart routes := by
  have hnew : ∀ {r r' : RouteRow}, r.workspace = workspace → r.hosts = hosts → r' ∈ db.routes →
      r.workspace ≠ r'.workspace → ∀ a ∈ r.hosts, ∀ b ∈ r'.hosts, hostsOverlap a b = false := by
    intro r r' hw hh hr' hne a ha b hb
    rw [hh] at ha
    rw [hw] at hne
    exact hclear a ha b (mem_taken.mpr ⟨r', hr', hne.symm, hb⟩)
  intro r hr r' hr' hne a ha b hb
  rcases hrows r hr with hold | ⟨hw, hh⟩
  · rcases hrows r' hr' with hold' | ⟨hw', hh'⟩
    · exact h r hold r' hold' hne a ha b hb
    · rw [hostsOverlap_comm]
      exact hnew hw' hh' hold hne.symm b hb a ha
  · rcases hrows r' hr' with hold' | ⟨hw', -⟩
    · exact hnew hw hh hold' hne a ha b hb
    · exact absurd (hw.trans hw'.symm) hne

theorem findRoute_mem (h : findRoute db workspace name = some (row, service)) :
    row ∈ db.routes ∧ row.workspace = workspace := by
  obtain ⟨r, hr, hsome⟩ := List.exists_of_findSome?_eq_some h
  split at hsome
  · rename_i hcond
    obtain ⟨s, -, hpair⟩ := Option.map_eq_some_iff.mp hsome
    cases hpair
    exact ⟨hr, by simpa using (Bool.and_eq_true_iff.mp hcond).1⟩
  · cases hsome

theorem existing_mem {kept : KeptOnReplace}
    (h : existing db workspace replacing = .ok (some (row, service, kept))) :
    row ∈ db.routes ∧ row.workspace = workspace := by
  unfold existing at h
  split at h
  · cases h
  · split at h
    · cases h
    · rename_i hfind
      split at h
      · cases h
      split at h
      · cases h
      cases h
      exact findRoute_mem hfind

/-! ## Each write keeps it -/

variable {r : Route} {caller : Uuid} {w : String}

theorem Claims.save {service : Uuid} {now : String}
    {old : Option (RouteRow × ServiceRow × KeptOnReplace)} (h : Claims db)
    (hclear : ∀ a ∈ r.hosts, ∀ b ∈ taken db workspace, hostsOverlap a b = false)
    (hold : ∀ row s k, old = some (row, s, k) → row ∈ db.routes ∧ row.workspace = workspace)
    (hs : save db workspace service id now r old = .ok db') : Claims db' := by
  unfold RouteStore.save at hs
  split at hs
  · split at hs
    · cases hs
    split at hs
    · cases hs
    rename_i hfresh
    cases hs
    refine ⟨?_, h.apart.accept hclear ?_⟩
    · have hid : id ∉ db.routes.map RouteRow.id := by simpa using hfresh
      rw [List.map_append, List.nodup_append]
      refine ⟨h.ids, List.nodup_singleton id, ?_⟩
      intro a ha b hb hab
      obtain rfl : b = id := by simpa [setColumns] using hb
      rw [hab] at ha
      exact hid ha
    · intro x hx
      rcases List.mem_append.mp hx with hx | hx
      · exact .inl hx
      · obtain rfl := List.mem_singleton.mp hx
        exact .inr ⟨rfl, rfl⟩
  · rename_i row rowService kept
    obtain ⟨hrow, hws⟩ := hold row rowService kept rfl
    split at hs
    · cases hs
    split at hs
    · cases hs
      exact h
    cases hs
    refine ⟨?_, h.apart.accept hclear ?_⟩
    · have hmap : (db.routes.map fun x =>
          if x.id == row.id then setColumns x service r now else x).map RouteRow.id =
          db.routes.map RouteRow.id := by
        rw [List.map_map]
        apply List.map_congr_left
        intro x _
        simp only [Function.comp_apply]
        split <;> rfl
      rw [hmap]
      exact h.ids
    · intro x hx
      obtain ⟨y, hy, rfl⟩ := List.mem_map.mp hx
      split
      · rename_i hid
        -- ids are unique, so the row written is the row that was read
        obtain rfl : y = row := List.inj_on_of_nodup_map h.ids hy hrow (by simpa using hid)
        exact .inr ⟨hws, rfl⟩
      · exact .inl hy

theorem Claims.sublist (h : Claims db) (hs : db'.routes.Sublist db.routes) : Claims db' where
  ids := h.ids.sublist (hs.map RouteRow.id)
  apart := fun r hr r' hr' => h.apart r (hs.subset hr) r' (hs.subset hr')

theorem Claims.write {now : String} (h : Claims db)
    (hw : tryWriteRoute db caller workspace replacing r id now = .ok db') : Claims db' := by
  simp only [tryWriteRoute, bind, Except.bind] at hw
  split at hw
  · cases hw
  rename_i actor _
  split at hw
  · cases hw
  rename_i old hold
  split at hw
  · cases hw
  split at hw
  · cases hw
  rename_i hroute
  split at hw
  · cases hw
  rename_i service _
  have hmay : mayRoute db actor workspace (keep r old).hosts = .ok () := by
    cases hm : mayRoute db actor workspace (keep r old).hosts with
    | error e => rw [hm] at hroute; cases hroute
    | ok u => rfl
  refine h.save (clear_of_mayRoute hmay) ?_ hw
  · intro row s k heq
    cases he : existing db workspace replacing with
    | error e => rw [he] at hold; cases hold
    | ok found =>
      rw [he] at hold
      cases hold
      rw [heq] at he
      exact existing_mem he

theorem Claims.delete (h : Claims db)
    (hd : tryDeleteRoute db caller workspace name = .ok db') : Claims db' := by
  simp only [tryDeleteRoute, bind, Except.bind, pure, Except.pure] at hd
  split at hd
  · cases hd
  split at hd
  · cases hd
  split at hd
  · cases hd
  cases hd
  apply h.sublist
  exact List.filter_sublist

theorem Claims.serve {rx : RegexCrate} {reason : RegexError → String} {now : String}
    {request : Request} (h : Claims db)
    (hs : serve rx reason db caller workspace id now request = .ok db') : Claims db' := by
  unfold RouteStore.serve at hs
  cases request with
  | create input =>
    simp only at hs
    split at hs
    · cases hs
    · exact h.write hs
  | replace current input =>
    simp only at hs
    split at hs
    · cases hs
    · cases hs
    · exact h.write hs
  | delete name => exact h.delete hs

theorem claims_of_reachable {rx : RegexCrate} {reason : RegexError → String}
    (h : Reachable rx reason db) : Claims db := by
  induction h with
  | empty hempty =>
    refine ⟨by simp [hempty], ?_⟩
    intro r hr
    simp [hempty] at hr
  | write _ hserve ih => exact ih.serve hserve
  | other _ hsub ih => exact ih.sublist hsub

/-! ## One workspace decides -/

theorem named_of_nameOk (h : nameOk w = true) : Named w := by
  simp only [nameOk, Bool.and_eq_true, List.all_eq_true] at h
  obtain ⟨hhead, -, hall⟩ := h
  constructor
  · cases hempty : w.isEmpty with
    | false => rfl
    | true =>
      rw [String.isEmpty_iff.mp hempty] at hhead
      cases hhead
  · intro hslash
    exact absurd (hall '/' hslash) (by decide)

theorem named_of_workspaceName (h : db.workspaceName id = some w) : Named w := by
  obtain ⟨row, hrow, rfl⟩ := Option.map_eq_some_iff.mp h
  exact named_of_nameOk (db.named row (List.mem_of_find?_eq_some hrow))

variable {rx : RegexCrate} {reason : RegexError → String} {reader : PolicyReader J}
  {collate : String → String → Ordering} {now : Nat} {snap : StoreSnapshot}

/-- A route no host of which matches takes nothing, unless it has none. -/
theorem not_takes_of_hosts {r : StoreRoute} {req : RequestAttrs} (hne : r.hosts ≠ [])
    (h : ∀ a ∈ r.hosts, Core.Hostname.matches a req.host = false) :
    takes (pathTakes rx) r req = false := by
  have hempty : r.hosts.isEmpty = false := List.isEmpty_eq_false_iff.mpr hne
  have hany : (r.hosts.any fun a => Core.Hostname.matches a req.host) = false := by
    rw [List.any_eq_false]
    intro a ha
    rw [h a ha]
    decide
  rw [takes, hempty, hany]
  rfl

/-- In every reachable state no name is matched by hosts of two workspaces, and
with no host-less route the rows of the workspace whose host matches decide
the rule. -/
theorem reachable_hosts_one_workspace (h : Reachable rx reason db) :
    (∀ r ∈ db.routes, ∀ r' ∈ db.routes, r.workspace ≠ r'.workspace →
      ∀ a ∈ r.hosts, ∀ b ∈ r'.hosts, ∀ host,
        ¬ (Core.Hostname.matches a host = true ∧ Core.Hostname.matches b host = true)) ∧
    ∀ (sha256 : String → List UInt8) (settings : StoreSettings),
      db.snapshot rx reader collate now = .ok snap → (∀ r ∈ db.routes, r.hosts ≠ []) →
      ∀ port ∈ settings.httpPorts, ∀ (req : RequestAttrs), ∀ r ∈ db.routes,
      ∀ w, db.workspaceName r.workspace = some w →
      (∃ a ∈ r.hosts, Core.Hostname.matches a req.host = true) →
      (matchPortWith (compile sha256 snap settings) port req
        (compileRegexes rx (compile sha256 snap settings)).1).map PortMatch.rule =
      (matchPortWith (compile sha256 (restrict w snap) settings) port req
        (compileRegexes rx (compile sha256 (restrict w snap) settings)).1).map PortMatch.rule := by
  have hclaims := claims_of_reachable h
  have hshare : ∀ r ∈ db.routes, ∀ r' ∈ db.routes, r.workspace ≠ r'.workspace →
      ∀ a ∈ r.hosts, ∀ b ∈ r'.hosts, ∀ host,
        ¬ (Core.Hostname.matches a host = true ∧ Core.Hostname.matches b host = true) := by
    intro r hr r' hr' hne a ha b hb host hboth
    have hover := hclaims.apart r hr r' hr' hne a ha b hb
    rw [hostsOverlap_iff.mpr ⟨host, hboth⟩] at hover
    cases hover
  refine ⟨hshare, ?_⟩
  intro sha256 settings hsnap hhosts port hport req r hr w hw ⟨a, ha, hmatch⟩
  refine (rule_compile_restrict rx sha256 hport (named_of_workspaceName hw) ?_ ?_).symm
  · intro c hc
    obtain ⟨id, hid⟩ := consumer_of_snapshot hsnap hc
    exact named_of_workspaceName hid
  · intro r' hr' hne
    obtain ⟨row, hrow, hname, hrowHosts⟩ := route_of_snapshot hsnap hr'
    have hworkspace : r.workspace ≠ row.workspace := by
      intro heq
      rw [heq, hname] at hw
      exact hne (Option.some.inj hw)
    apply not_takes_of_hosts
    · rw [hrowHosts]
      exact hhosts row hrow
    · intro b hb
      rw [hrowHosts] at hb
      cases hbm : Core.Hostname.matches b req.host with
      | false => rfl
      | true => exact absurd ⟨hmatch, hbm⟩ (hshare r hr row hrow hworkspace a ha b hb req.host)

end

/-! ## Two workspaces, one route each -/

/-- Two workspaces with a service each, one superuser, no routes. -/
def start : Db Unit where
  access := {
    users := [{ id := 1, name := "root", superuser := true, disabled := false, groups := [] }]
    workspaces := [⟨1, "shop"⟩, ⟨2, "ops"⟩] }
  named := by decide
  services := [
    { id := 5, workspace := 1, name := "orders", protocol := "http", host := "orders.internal"
      port := 8080, updatedAt := "t0" },
    { id := 6, workspace := 2, name := "status", protocol := "http", host := "status.internal"
      port := 8080, updatedAt := "t0" }]

def shopRoute : RouteInput where
  name := "api"
  service := "orders"
  hosts := ["*.Shop.test"]

def opsRoute : RouteInput where
  name := "status"
  service := "status"
  hosts := ["ops.test"]

def create (db : Db Unit) (workspace id : Uuid) (input : RouteInput) : Except WriteError (Db Unit) :=
  serve Core.Matcher.noRegex (fun _ => "") db 1 workspace id "t1" (.create input)

def withShop : Db Unit := ((create start 1 10 shopRoute).toOption).getD start
def withBoth : Db Unit := ((create withShop 2 11 opsRoute).toOption).getD start

/-- No policy is stored, so none is read. -/
def noPolicy : PolicyReader Unit := ⟨fun _ _ => .error "", fun _ => .error ""⟩

def bothRows : StoreSnapshot :=
  ((withBoth.snapshot Core.Matcher.noRegex noPolicy compare 0).toOption).getD ⟨[], [], [], [], [], []⟩

def shopRequest : RequestAttrs where
  host := "api.shop.test"
  path := "/v1/orders"
  method := "GET"
  headers := []
  query := []

theorem reachable_hosts_one_workspace_shop :
    (withBoth.routes.map fun r => (r.workspace, r.hosts)) = [(1, ["*.shop.test"]), (2, ["ops.test"])] ∧
    (matchPortWith (compile noDigest bothRows {}) 80 shopRequest
      (compileRegexes Core.Matcher.noRegex (compile noDigest bothRows {})).1).map PortMatch.rule =
    (matchPortWith (compile noDigest (restrict "shop" bothRows) {}) 80 shopRequest
      (compileRegexes Core.Matcher.noRegex
        (compile noDigest (restrict "shop" bothRows) {})).1).map PortMatch.rule := by
  have hshop : create start 1 10 shopRoute = .ok withShop := ok_of_isSome start (by decide +kernel)
  have hboth : create withShop 2 11 opsRoute = .ok withBoth := ok_of_isSome start (by decide +kernel)
  have hreach : Reachable Core.Matcher.noRegex (fun _ => "") withBoth :=
    .write (.write (.empty rfl) hshop) hboth
  have hsnap : withBoth.snapshot Core.Matcher.noRegex noPolicy compare 0 = .ok bothRows :=
    ok_of_isSome _ (by decide +kernel)
  have hroutes : (withBoth.routes.map fun r => (r.workspace, r.hosts)) =
      [(1, ["*.shop.test"]), (2, ["ops.test"])] := by decide +kernel
  refine ⟨hroutes, ?_⟩
  obtain ⟨row, hrow, hpair⟩ := List.mem_map.mp
    (show (1, ["*.shop.test"]) ∈ withBoth.routes.map fun r => (r.workspace, r.hosts) by simp [hroutes])
  obtain ⟨hw, hh⟩ := Prod.mk.inj hpair
  refine (reachable_hosts_one_workspace hreach).2 noDigest {} hsnap ?_ 80 (by decide) shopRequest
    row hrow "shop" ?_ ⟨"*.shop.test", by simp [hh], by decide +kernel⟩
  · intro r hr hempty
    have hmem : (r.workspace, r.hosts) ∈ withBoth.routes.map fun r => (r.workspace, r.hosts) :=
      List.mem_map.mpr ⟨r, hr, rfl⟩
    rw [hroutes, hempty] at hmem
    simp at hmem
  · rw [hw]
    decide +kernel

end Gapura.Control.HostClaims
