import Gapura.Control.Snapshot
import Gapura.Core.StorePolicies
import Gapura.Core.StoreRouting

/-! # The policies the console lists

The console reads a workspace's policies of one name into maps by the id of
what they are attached to, and lists for a route its own, else its service's,
else the workspace's. The compiler reads the same rows by name, ranks them and
keeps the most specific. Both come to one row, for any order of the rows. -/
namespace Gapura.Control.ConsoleView
open Lib.Checks Lib.Ordered Control.Access Control.Snapshot Core.Store Core.StoreRouting
  Core.StoreAttached Core.StorePolicies
open Gapura.Core (Kind Plugin)
open Core.Matcher (RegexCrate)
open Std (HashMap)

variable {J T : Type}

/-! ## Reading a policy's configuration -/

/-- What each kind's configuration is read into, and how Rust prints a text in
quotes. -/
structure Shapes (J : Type) where
  jwt : J → Except String Core.JwtPolicy
  keyAuth : J → Except String Core.KeyAuthPolicy
  ipRestriction : J → Except String Core.IpRestrictionPolicy
  requestSizeLimit : J → Except String Core.RequestSizeLimitPolicy
  requestTransformer : J → Except String Core.RequestTransformerPolicy
  responseTransformer : J → Except String Core.ResponseTransformerPolicy
  cors : J → Except String Core.CorsPolicy
  auth : J → Except String Core.AuthPolicy
  acl : J → Except String Core.AclPolicy
  rateLimit : J → Except String Core.RateLimit
  debug : String → String

/-- A policy of the kinds `/policies` keeps, its own sentence in the error. -/
def fits {P : Type} (name : String) (make : P → Plugin) : Except String P → Except String Plugin
  | .ok policy => .ok (make policy)
  | .error e => .error ("the configuration does not fit a " ++ name ++ " policy: " ++ e)

def parsePlugin (shapes : Shapes J) (name : String) (config : J) : Except String Plugin :=
  if name = "jwt" then
    match shapes.jwt config with
    | .error _ => .error "the configuration does not fit a jwt policy"
    | .ok policy =>
      -- exactly one place the keys come from
      if policy.jwks.isEmpty != policy.jwksUri.isNone then .ok (.jwt policy)
      else .error "a jwt policy names exactly one of jwks and jwks_uri"
  else if name = "key_auth" then
    match shapes.keyAuth config with
    | .error _ => .error "the configuration does not fit a key_auth policy"
    | .ok policy => .ok (.keyAuth policy)
  else if name = "ip_restriction" then fits name .ipRestriction (shapes.ipRestriction config)
  else if name = "request_size_limit" then
    fits name .requestSizeLimit (shapes.requestSizeLimit config)
  else if name = "request_transformer" then
    fits name .requestTransformer (shapes.requestTransformer config)
  else if name = "response_transformer" then
    fits name .responseTransformer (shapes.responseTransformer config)
  else if name = "cors" then fits name .cors (shapes.cors config)
  else if name = "auth" then fits name .auth (shapes.auth config)
  else if name = "acl" then fits name .acl (shapes.acl config)
  else .error ("unknown policy name " ++ shapes.debug name)

def Shapes.reader (shapes : Shapes J) : PolicyReader J := ⟨parsePlugin shapes, shapes.rateLimit⟩

variable {name : String} {id : Option Uuid}

theorem exists_of_fits {P : Type} {make : P → Plugin} {x : Except String P}
    {p : Plugin} (h : fits name make x = .ok p) : ∃ policy, p = make policy := by
  cases x with
  | error e => cases h
  | ok policy =>
    cases h
    exact ⟨policy, rfl⟩

/-- A row's policy is of the kind the row is named after. -/
theorem tag_of_parsePlugin {shapes : Shapes J} {config : J} {p : Plugin}
    (h : parsePlugin shapes name config = .ok p) : p.kind.tag = name := by
  unfold parsePlugin at h
  split at h
  · rename_i hname
    split at h
    · cases h
    · split at h
      · cases h
        exact hname.symm
      · cases h
  split at h
  · rename_i hname
    split at h
    · cases h
    · cases h
      exact hname.symm
  -- the other kinds are read alike
  iterate 7
    split at h
    · rename_i hname
      obtain ⟨policy, rfl⟩ := exists_of_fits h
      exact hname.symm
  cases h

/-! ## The console's maps -/

/-- A workspace's policies of one name, by what they are attached to. -/
structure Attached (T : Type) where
  workspace : Option T := none
  services : HashMap Uuid T := ∅
  routes : HashMap Uuid T := ∅

/-- The rows `read` selects; the query gives them in no order. -/
def attachedRows (db : Db J) (workspace : Uuid) (name : String) : List (PolicyRow J) :=
  db.policies.filter fun p =>
    p.workspace == workspace && p.name == name && p.consumer.isNone && p.enabled

def Attached.put (found : Attached T) (row : PolicyRow J) (v : T) : Attached T :=
  match row.route, row.service with
  | some route, _ => { found with routes := found.routes.insert route v }
  | none, some service => { found with services := found.services.insert service v }
  | none, none => { found with workspace := some v }

/-- Each row's value as the list shows it, beside the row's `updated_at`. -/
def Attached.read (value : J → Except String T) (rows : List (PolicyRow J)) :
    Except String (Attached (T × String)) :=
  rows.foldlM (fun found row =>
    (value row.config).map fun v => found.put row (v, row.updatedAt)) {}

/-- A service's own policy, else the workspace's, and which it is. -/
def Attached.service (found : Attached T) (service : Uuid) : Option (T × String) :=
  ((found.services[service]?).map (·, "service")).or (found.workspace.map (·, "workspace"))

/-- A route's own policy, else its service's, else the workspace's, and which
it is. -/
def Attached.route (found : Attached T) (route service : Uuid) : Option (T × String) :=
  ((found.routes[route]?).map (·, "route")).or (found.service service)

/-! ## Which row is shown -/

/-- What a row is attached to, by id. -/
inductive On where
  | route (id : Uuid)
  | service (id : Uuid)
  | workspace
  deriving DecidableEq, Repr

def on (row : PolicyRow J) : On :=
  match row.route, row.service with
  | some route, _ => .route route
  | none, some service => .service service
  | none, none => .workspace

/-- The row on the route, else on its service, else on the workspace, and
which it is. -/
def topRow (rows : List (PolicyRow J)) (route service : Uuid) : Option (PolicyRow J × String) :=
  ((rows.find? fun row => on row = .route route).map (·, "route")).or
    (((rows.find? fun row => on row = .service service).map (·, "service")).or
      ((rows.find? fun row => on row = .workspace).map (·, "workspace")))

def Attached.at (found : Attached T) : On → Option T
  | .route id => found.routes[id]?
  | .service id => found.services[id]?
  | .workspace => found.workspace

theorem Attached.at_put (found : Attached T) (row : PolicyRow J) (v : T) (o : On) :
    (found.put row v).at o = if on row = o then some v else found.at o := by
  unfold Attached.put on
  cases row.route with
  | some route => cases o with
    | route id => simp [Attached.at, HashMap.getElem?_insert]
    | service id => simp [Attached.at]
    | workspace => simp [Attached.at]
  | none => cases row.service with
    | some service => cases o with
      | route id => simp [Attached.at]
      | service id => simp [Attached.at, HashMap.getElem?_insert]
      | workspace => simp [Attached.at]
    | none => cases o with
      | route id => simp [Attached.at]
      | service id => simp [Attached.at]
      | workspace => simp [Attached.at]

/-- What the list shows of a row. -/
def Shows (value : J → Except String T) (row : PolicyRow J) (shown : T × String) : Prop :=
  value row.config = .ok shown.1 ∧ shown.2 = row.updatedAt

/-- Rows attached to one thing are one row. -/
def OneOn (rows : List (PolicyRow J)) : Prop :=
  ∀ row ∈ rows, ∀ row' ∈ rows, on row = on row' → row = row'

variable {value : J → Except String T} {rows : List (PolicyRow J)}

variable {found : Attached (T × String)}

/-- What a run over the rows leaves at `o`: some row's value, or what was there. -/
theorem at_foldlM {found' : Attached (T × String)} (o : On) (h : rows.foldlM (fun found row =>
      (value row.config).map fun v => found.put row (v, row.updatedAt)) found = .ok found') :
    (∃ row ∈ rows, on row = o ∧ ∃ shown, Shows value row shown ∧ found'.at o = some shown) ∨
      ((∀ row ∈ rows, on row ≠ o) ∧ found'.at o = found.at o) := by
  induction rows generalizing found with
  | nil =>
    cases h
    exact .inr ⟨by simp, rfl⟩
  | cons row rest ih =>
    rw [List.foldlM_cons, bind_eq_ok] at h
    obtain ⟨mid, hmid, h⟩ := h
    cases hv : value row.config with
    | error e =>
      rw [hv] at hmid
      cases hmid
    | ok v =>
      rw [hv] at hmid
      obtain rfl : found.put row (v, row.updatedAt) = mid := Except.ok.inj hmid
      rcases ih h with ⟨row', hrow', hon, hshown⟩ | ⟨hnone, hat⟩
      · exact .inl ⟨row', List.mem_cons_of_mem row hrow', hon, hshown⟩
      · rw [Attached.at_put] at hat
        by_cases hon : on row = o
        · rw [if_pos hon] at hat
          exact .inl ⟨row, List.mem_cons_self, hon, _, ⟨hv, rfl⟩, hat⟩
        · rw [if_neg hon] at hat
          refine .inr ⟨?_, hat⟩
          intro row' hrow'
          rcases List.mem_cons.mp hrow' with rfl | hrow'
          · exact hon
          · exact hnone row' hrow'

theorem at_of_read (hone : OneOn rows) (h : Attached.read value rows = .ok found) (o : On) :
    Option.Rel (Shows value) (rows.find? fun row => on row = o) (found.at o) := by
  rcases at_foldlM o h with ⟨row, hrow, hon, shown, hshown, hat⟩ | ⟨hnone, hat⟩
  · have hsome : (rows.find? fun row => on row = o).isSome := by
      rw [List.find?_isSome]
      exact ⟨row, hrow, by simpa using hon⟩
    obtain ⟨row', hfind⟩ := Option.isSome_iff_exists.mp hsome
    have hon' : on row' = o := by simpa using List.find?_some hfind
    have : row' = row := hone row' (List.mem_of_find?_eq_some hfind) row hrow (by rw [hon', hon])
    rw [hfind, hat, this]
    exact .some hshown
  · have hfind : rows.find? (fun row => on row = o) = none := by
      rw [List.find?_eq_none]
      intro row hrow
      simpa using hnone row hrow
    have hempty : (({} : Attached (T × String)).at o) = none := by
      cases o <;> simp [Attached.at]
    rw [hfind, hat, hempty]
    exact .none

/-! ## Which row runs -/

/-- What the tables' keys and references keep: ids and names tell rows apart,
and a policy's target is there. -/
structure Keyed (db : Db J) : Prop where
  workspaces : ∀ w ∈ db.access.workspaces, ∀ w' ∈ db.access.workspaces,
    w.id = w'.id ∨ w.name = w'.name → w = w'
  routes : ∀ r ∈ db.routes, ∀ r' ∈ db.routes,
    r.id = r'.id ∨ r.workspace = r'.workspace ∧ r.name = r'.name → r = r'
  services : ∀ s ∈ db.services, ∀ s' ∈ db.services,
    s.id = s'.id ∨ s.workspace = s'.workspace ∧ s.name = s'.name → s = s'
  onRoute : ∀ p ∈ db.policies, ∀ id ∈ p.route, ∃ r ∈ db.routes, r.id = id
  onService : ∀ p ∈ db.policies, ∀ id ∈ p.service, ∃ s ∈ db.services, s.id = id

/-- At most one enabled row on everyone per workspace, name and target. -/
def OnePolicy (db : Db J) : Prop :=
  ∀ p ∈ db.policies, ∀ p' ∈ db.policies, p.enabled = true → p'.enabled = true →
    p.consumer = none → p'.consumer = none → p.workspace = p'.workspace → p.name = p'.name →
    on p = on p' → p = p'

/-- The name of what an id stands for, within a workspace. -/
inductive Names (db : Db J) (workspace : Uuid) : On → Target → Prop
  | route {r : RouteRow} (hr : r ∈ db.routes) (hw : r.workspace = workspace) :
      Names db workspace (.route r.id) (.route r.name)
  | service {s : ServiceRow} (hs : s ∈ db.services) (hw : s.workspace = workspace) :
      Names db workspace (.service s.id) (.service s.name)
  | workspace : Names db workspace .workspace .workspace

variable {db : Db J}

/-- A place has one name, and a name one place. -/
theorem Names.eq (hdb : Keyed db) {w : Uuid} {o o' : On} {t t' : Target} (h : Names db w o t)
    (h' : Names db w o' t') (hsame : o = o' ∨ t = t') : o = o' ∧ t = t' := by
  cases h with
  | route hr hw =>
    cases h' with
    | route hr' hw' =>
      rw [hdb.routes _ hr _ hr' (hsame.imp On.route.inj fun ht =>
        ⟨by rw [hw, hw'], Target.route.inj ht⟩)]
      exact ⟨rfl, rfl⟩
    | _ => rcases hsame with h | h <;> cases h
  | service hs hw =>
    cases h' with
    | service hs' hw' =>
      rw [hdb.services _ hs _ hs' (hsame.imp On.service.inj fun ht =>
        ⟨by rw [hw, hw'], Target.service.inj ht⟩)]
      exact ⟨rfl, rfl⟩
    | _ => rcases hsame with h | h <;> cases h
  | workspace =>
    cases h' with
    | workspace => exact ⟨rfl, rfl⟩
    | _ => rcases hsame with h | h <;> cases h

theorem route?_mem {r : RouteRow} (h : db.route? id = some r) : r ∈ db.routes ∧ id = some r.id := by
  obtain ⟨i, rfl, hfind⟩ := Option.bind_eq_some_iff.mp h
  have hid : r.id = i := by simpa using List.find?_some hfind
  exact ⟨List.mem_of_find?_eq_some hfind, by rw [hid]⟩

theorem service?_mem {s : ServiceRow} (h : db.service? id = some s) :
    s ∈ db.services ∧ id = some s.id := by
  obtain ⟨i, rfl, hfind⟩ := Option.bind_eq_some_iff.mp h
  have hid : s.id = i := by simpa using List.find?_some hfind
  exact ⟨List.mem_of_find?_eq_some hfind, by rw [hid]⟩

/-- A reference that is kept is found. -/
theorem route?_isSome {p : PolicyRow J} (hdb : Keyed db) (hp : p ∈ db.policies) {id : Uuid}
    (h : p.route = some id) : ∃ r, db.route? p.route = some r := by
  obtain ⟨r, hr, hid⟩ := hdb.onRoute p hp id h
  rw [h]
  apply Option.isSome_iff_exists.mp
  show (db.routes.find? fun r => r.id == id).isSome = true
  rw [List.find?_isSome]
  exact ⟨r, hr, by simpa using hid⟩

theorem service?_isSome {p : PolicyRow J} (hdb : Keyed db) (hp : p ∈ db.policies) {id : Uuid}
    (h : p.service = some id) : ∃ s, db.service? p.service = some s := by
  obtain ⟨s, hs, hid⟩ := hdb.onService p hp id h
  rw [h]
  apply Option.isSome_iff_exists.mp
  show (db.services.find? fun s => s.id == id).isSome = true
  rw [List.find?_isSome]
  exact ⟨s, hs, by simpa using hid⟩

variable {shapes : Shapes J} {w : String} {row : PolicyRow J} {p : StorePlugin}

/-- The policy a row is read into runs the row's configuration. -/
structure Runs (shapes : Shapes J) (row : PolicyRow J) (p : StorePlugin) : Prop where
  plugin : parsePlugin shapes row.name row.config = .ok p.plugin

theorem foreign_map {α : Type} {f : α → Uuid} {o : Option α} {workspace : Uuid} :
    foreign workspace (o.map f) = false ↔ ∀ a ∈ o, f a = workspace := by
  cases o <;> simp [foreign]

theorem storePolicy_plugin (h : storePolicy shapes.reader db w row = .ok (.plugin p)) :
    Runs shapes row p ∧ p.workspace = w ∧ p.route = (db.route? row.route).map (·.name) ∧
      p.service = (db.service? row.service).map (·.name) ∧
      (∀ r ∈ db.route? row.route, r.workspace = row.workspace) ∧
      (∀ s ∈ db.service? row.service, s.workspace = row.workspace) := by
  unfold storePolicy at h
  simp only at h
  split at h
  · cases h
  rename_i hforeign
  simp only [Bool.or_eq_true, not_or, Bool.not_eq_true, foreign_map] at hforeign
  split at h
  · split at h <;> cases h
  · split at h
    · cases h
    · rename_i plugin hplugin
      cases h
      exact ⟨⟨hplugin⟩, rfl, rfl, rfl, hforeign.1.1, hforeign.1.2⟩

/-- A row's policy stands at the name of what the row is attached to. -/
theorem names_of_storePolicy (hdb : Keyed db) (hrow : row ∈ db.policies)
    (h : storePolicy shapes.reader db w row = .ok (.plugin p)) :
    Names db row.workspace (on row) (target p.route p.service) := by
  obtain ⟨-, -, hroute, hservice, hr, hs⟩ := storePolicy_plugin h
  rw [hroute, hservice]
  cases hrid : row.route with
  | some id =>
    obtain ⟨r, hfind⟩ := route?_isSome hdb hrow hrid
    obtain ⟨hmem, hid⟩ := route?_mem hfind
    have hon : on row = .route r.id := by simp [on, hid]
    rw [← hrid, hfind, hon]
    exact .route hmem (hr r hfind)
  | none => cases hsid : row.service with
    | some id =>
      obtain ⟨s, hfind⟩ := service?_isSome hdb hrow hsid
      obtain ⟨hmem, hid⟩ := service?_mem hfind
      have hon : on row = .service s.id := by simp [on, hrid, hid]
      rw [← hsid, hfind, hon]
      exact .service hmem (hs s hfind)
    | none =>
      have hon : on row = .workspace := by simp [on, hrid, hsid]
      rw [hon]
      exact .workspace

theorem mem_policyRows {collate : String → String → Ordering} {q : String × PolicyRow J} :
    q ∈ db.policyRows collate ↔ q.2 ∈ db.policies ∧ db.workspaceName q.2.workspace = some q.1 ∧
      q.2.enabled = true ∧ (q.2.consumer = none ∨ q.2.name = rateLimitName) := by
  simp only [Db.policyRows, mem_sortBy, List.mem_filter, Bool.and_eq_true, Bool.or_eq_true,
    Option.isNone_iff_eq_none, beq_iff_eq]
  constructor
  · rintro ⟨hq, henabled, hconsumer⟩
    obtain ⟨hmem, hname⟩ := mem_join hq
    exact ⟨hmem, hname, henabled, hconsumer⟩
  · rintro ⟨hmem, hname, henabled, hconsumer⟩
    refine ⟨?_, henabled, hconsumer⟩
    rw [Db.join, List.mem_filterMap]
    exact ⟨q.2, hmem, by rw [hname]; rfl⟩

theorem workspaceName_inj (hdb : Keyed db) {a b : Uuid} (ha : db.workspaceName a = some w)
    (hb : db.workspaceName b = some w) : a = b := by
  obtain ⟨wa, hfa, rfl⟩ := Option.map_eq_some_iff.mp ha
  obtain ⟨wb, hfb, hname⟩ := Option.map_eq_some_iff.mp hb
  have hida : wa.id = a := by simpa using List.find?_some hfa
  have hidb : wb.id = b := by simpa using List.find?_some hfb
  rw [← hida, ← hidb, hdb.workspaces wa (List.mem_of_find?_eq_some hfa) wb
    (List.mem_of_find?_eq_some hfb) (.inr hname.symm)]

theorem mem_attachedRows {workspace : Uuid} : row ∈ attachedRows db workspace name ↔
    row ∈ db.policies ∧ row.workspace = workspace ∧ row.name = name ∧ row.consumer = none ∧
      row.enabled = true := by
  simp [attachedRows, and_assoc]

theorem oneOn_attachedRows (hone : OnePolicy db) (workspace : Uuid) (name : String) :
    OneOn (attachedRows db workspace name) := by
  intro a ha b hb hon
  obtain ⟨hma, hwa, hna, hca, hea⟩ := mem_attachedRows.mp ha
  obtain ⟨hmb, hwb, hnb, hcb, heb⟩ := mem_attachedRows.mp hb
  exact hone a hma b hmb hea heb hca hcb (by rw [hwa, hwb]) (by rw [hna, hnb]) hon

section
variable {rx : RegexCrate} {collate : String → String → Ordering} {now : Nat}
variable {snap : StoreSnapshot} {workspace : Uuid} {kind : Kind}

theorem rateLimitName_ne_tag (kind : Kind) : kind.tag ≠ rateLimitName := by
  cases kind <;> decide

variable {o : On} {t : Target}

/-- A policy of the snapshot at a place comes from a row on the id. -/
theorem row_of_plugin (hdb : Keyed db) (hsnap : db.snapshot rx shapes.reader collate now = .ok snap)
    (hw : db.workspaceName workspace = some w) (hnames : Names db workspace o t) {p : StorePlugin}
    (hp : p ∈ snap.plugins) (hkind : p.plugin.kind = kind) (hplace : policyPlace p = ⟨w, t⟩) :
    ∃ row ∈ attachedRows db workspace kind.tag, on row = o ∧ Runs shapes row p := by
  obtain ⟨policies, hmap, hplugins⟩ := snapshot_policies hsnap
  rw [hplugins, List.mem_filterMap] at hp
  obtain ⟨policy, hpolicy, hsome⟩ := hp
  obtain ⟨q, hq, hread⟩ := exists_of_mem_mapM hmap hpolicy
  cases policy with
  | rateLimit l => cases hsome
  | plugin p' =>
    obtain rfl : p' = p := Option.some.inj hsome
    obtain ⟨hmem, hname, henabled, hconsumer⟩ := mem_policyRows.mp hq
    obtain ⟨hruns, hpw, -⟩ := storePolicy_plugin hread
    obtain ⟨hwp, htp⟩ := Place.mk.inj hplace
    have htag : q.2.name = kind.tag := by rw [← tag_of_parsePlugin hruns.plugin, hkind]
    have hws : q.2.workspace = workspace := workspaceName_inj hdb (w := w)
      (by rw [hname, ← hpw, hwp]) hw
    have hon := names_of_storePolicy hdb hmem hread
    rw [hws, htp] at hon
    have hcons : q.2.consumer = none := hconsumer.resolve_right fun h =>
      rateLimitName_ne_tag kind (htag.symm.trans h)
    exact ⟨q.2, mem_attachedRows.mpr ⟨hmem, hws, htag, hcons, henabled⟩,
      (hon.eq hdb hnames (.inr rfl)).1, hruns⟩

/-- A row on the id is a policy of the snapshot at the place. -/
theorem plugin_of_row (hdb : Keyed db) (hsnap : db.snapshot rx shapes.reader collate now = .ok snap)
    (hw : db.workspaceName workspace = some w) (hnames : Names db workspace o t)
    (hrow : row ∈ attachedRows db workspace kind.tag) (hon : on row = o) :
    ∃ p ∈ snap.plugins, p.plugin.kind = kind ∧ policyPlace p = ⟨w, t⟩ := by
  obtain ⟨policies, hmap, hplugins⟩ := snapshot_policies hsnap
  obtain ⟨hmem, hws, htag, hcons, henabled⟩ := mem_attachedRows.mp hrow
  obtain ⟨policy, hpolicy, hread⟩ := exists_mem_of_mapM hmap
    (mem_policyRows (q := (w, row)).mpr ⟨hmem, by rw [hws, hw], henabled, .inl hcons⟩)
  cases policy with
  | rateLimit l =>
    exfalso
    unfold storePolicy at hread
    simp only [htag, beq_eq_false_iff_ne.mpr (rateLimitName_ne_tag kind)] at hread
    split at hread
    · cases hread
    · split at hread
      · rename_i hcontra
        cases hcontra
      · split at hread <;> cases hread
  | plugin p =>
    obtain ⟨hruns, hpw, -⟩ := storePolicy_plugin hread
    have htarget := names_of_storePolicy hdb hmem hread
    rw [hws, hon] at htarget
    refine ⟨p, ?_, ?_, ?_⟩
    · rw [hplugins, List.mem_filterMap]
      exact ⟨.plugin p, hpolicy, rfl⟩
    · exact Core.Kind.tag_inj (by rw [tag_of_parsePlugin hruns.plugin, htag])
    · rw [policyPlace, hpw, (htarget.eq hdb hnames (.inl rfl)).2]

/-- The compiler's row of a kind at a name is the console's row of the kind's
name at the id the name stands for. -/
theorem rowAt_snapshot (hdb : Keyed db) (hone : OnePolicy db)
    (hsnap : db.snapshot rx shapes.reader collate now = .ok snap)
    (hw : db.workspaceName workspace = some w) {rows : List (PolicyRow J)}
    (hrows : rows.Perm (attachedRows db workspace kind.tag)) (hnames : Names db workspace o t) :
    Option.Rel (Runs shapes) (rows.find? fun row => on row = o)
      (rowAt policyPlace (fun p => p.plugin.kind = kind) snap.plugins ⟨w, t⟩) := by
  have hfrom : ∀ p ∈ snap.plugins, (p.plugin.kind = kind && policyPlace p = ⟨w, t⟩) = true →
      ∃ row ∈ attachedRows db workspace kind.tag, on row = o ∧ Runs shapes row p := by
    intro p hp hpick
    rw [Bool.and_eq_true, decide_eq_true_iff, decide_eq_true_iff] at hpick
    exact row_of_plugin hdb hsnap hw hnames hp hpick.1 hpick.2
  cases hfind : rows.find? fun row => on row = o with
  | none =>
    have hnone : rowAt policyPlace (fun p => p.plugin.kind = kind) snap.plugins ⟨w, t⟩ = none := by
      rw [rowAt, List.find?_eq_none]
      intro p hp hpick
      obtain ⟨row, hrow, hon, -⟩ := hfrom p hp hpick
      exact List.find?_eq_none.mp hfind row (hrows.mem_iff.mpr hrow) (by simpa using hon)
    rw [hnone]
    exact .none
  | some row =>
    have hon : on row = o := by simpa using List.find?_some hfind
    have hrow := hrows.mem_iff.mp (List.mem_of_find?_eq_some hfind)
    obtain ⟨p, hp, hkind, hplace⟩ := plugin_of_row hdb hsnap hw hnames hrow hon
    have hsome : (rowAt policyPlace (fun p => p.plugin.kind = kind) snap.plugins
        ⟨w, t⟩).isSome := by
      rw [rowAt, List.find?_isSome]
      exact ⟨p, hp, by simp [hkind, hplace]⟩
    obtain ⟨p', hp'⟩ := Option.isSome_iff_exists.mp hsome
    have hpick := List.find?_some hp'
    obtain ⟨row', hrow', hon', hruns'⟩ := hfrom p' (List.mem_of_find?_eq_some hp') hpick
    -- one row of a kind is on an id, so the one found is the one that runs
    have hrr : row' = row :=
      oneOn_attachedRows hone workspace kind.tag row' hrow' row hrow (by rw [hon', hon])
    rw [hp']
    exact .some (hrr ▸ hruns')

/-! ## Shown and run -/

theorem rel_or {α β : Type} {R : α → β → Prop} {a a' : Option α} {b b' : Option β}
    (h : Option.Rel R a b) (h' : Option.Rel R a' b') : Option.Rel R (a.or a') (b.or b') := by
  cases h with
  | none => exact h'
  | some h => exact .some h

theorem rel_map {α β γ δ : Type} {R : α → β → Prop} {S : γ → δ → Prop} {f : α → γ} {g : β → δ}
    (hfg : ∀ a b, R a b → S (f a) (g b)) {a : Option α} {b : Option β} (h : Option.Rel R a b) :
    Option.Rel S (a.map f) (b.map g) := by
  cases h with
  | none => exact .none
  | some h => exact .some (hfg _ _ h)

theorem topRow_shown {found : Attached (T × String)} (hone : OneOn rows)
    (h : Attached.read value rows = .ok found) (route service : Uuid) :
    Option.Rel (fun top shown => Shows value top.1 shown.1 ∧ shown.2 = top.2)
      (topRow rows route service) (found.route route service) := by
  have hat := fun o => at_of_read hone h o
  refine rel_or (rel_map ?_ (hat (.route route)))
    (rel_or (rel_map ?_ (hat (.service service))) (rel_map ?_ (hat .workspace)))
  all_goals
    intro row shown hshown
    exact ⟨hshown, rfl⟩

variable {route : RouteRow} {service : ServiceRow} {r : StoreRoute}

theorem topRow_runs (hdb : Keyed db) (hone : OnePolicy db)
    (hsnap : db.snapshot rx shapes.reader collate now = .ok snap) (hroute : route ∈ db.routes)
    (hservice : db.service? route.service = some service)
    (hw : db.workspaceName route.workspace = some w) (hr : storeRoute rx w route service = .ok r)
    (hrows : rows.Perm (attachedRows db route.workspace kind.tag)) :
    Option.Rel (fun top p => Runs shapes top.1 p) (topRow rows route.id service.id)
      (mostSpecific policyPlace (fun p => p.plugin.kind = kind) snap.plugins r) := by
  obtain ⟨hrw, hrn, hrs, hsame⟩ := storeRoute_names hr
  have hrow := fun {o t} => rowAt_snapshot (o := o) (t := t) hdb hone hsnap hw hrows
  have honRoute := hrow (.route hroute rfl)
  have honService := hrow (.service (service?_mem hservice).1 hsame.symm)
  have honWorkspace := hrow .workspace
  rw [mostSpecific, hrw, hrn, hrs]
  have hlift : ∀ (at_ : String) {a : Option (PolicyRow J)} {b : Option StorePlugin},
      Option.Rel (Runs shapes) a b →
        Option.Rel (fun top p => Runs shapes top.1 p) (a.map (·, at_)) b := by
    intro at_ a b h
    cases h with
    | none => exact .none
    | some h => exact .some h
  exact rel_or (hlift "route" honRoute)
    (rel_or (hlift "service" honService) (hlift "workspace" honWorkspace))

theorem topRow_isSome (hrows : rows.Perm (attachedRows db route.workspace kind.tag)) :
    (topRow rows route.id service.id).isSome = true ↔
      ∃ row ∈ attachedRows db route.workspace kind.tag,
        on row = .route route.id ∨ on row = .service service.id ∨ on row = .workspace := by
  simp only [topRow, Option.isSome_or, Option.isSome_map, Bool.or_eq_true, List.find?_isSome,
    decide_eq_true_iff, hrows.mem_iff]
  constructor
  · rintro (⟨row, hrow, hon⟩ | ⟨row, hrow, hon⟩ | ⟨row, hrow, hon⟩)
    · exact ⟨row, hrow, .inl hon⟩
    · exact ⟨row, hrow, .inr (.inl hon)⟩
    · exact ⟨row, hrow, .inr (.inr hon)⟩
  · rintro ⟨row, hrow, hon | hon | hon⟩
    · exact .inl ⟨row, hrow, hon⟩
    · exact .inr (.inl ⟨row, hrow, hon⟩)
    · exact .inr (.inr ⟨row, hrow, hon⟩)

/-- Of each kind a route runs exactly the policy of the most specific row, or
none when no row applies, and the console lists that row for the route. -/
theorem console_shows_what_runs (hdb : Keyed db) (hone : OnePolicy db)
    (hsnap : db.snapshot rx shapes.reader collate now = .ok snap) (hroute : route ∈ db.routes)
    (hservice : db.service? route.service = some service)
    (hw : db.workspaceName route.workspace = some w) (hr : storeRoute rx w route service = .ok r)
    {sha256 : String → List UInt8} {rule : Core.RouteRule}
    (hrule : compiledRule sha256 snap r = some rule)
    (hrows : rows.Perm (attachedRows db route.workspace kind.tag))
    {found : Attached (T × String)} (hfound : Attached.read value rows = .ok found) :
    ((∃ p ∈ rule.plugins, p.kind = kind) ↔
      ∃ row ∈ attachedRows db route.workspace kind.tag,
        on row = .route route.id ∨ on row = .service service.id ∨ on row = .workspace) ∧
    match topRow rows route.id service.id with
    | none => rule.plugins.filter (fun p => p.kind = kind) = [] ∧
        found.route route.id service.id = none
    | some (row, at_) => ∃ plugin shown, parsePlugin shapes row.name row.config = .ok plugin ∧
        Shows value row shown ∧ rule.plugins.filter (fun p => p.kind = kind) =
          [stamp r (consumerTable snap) plugin] ∧
        found.route route.id service.id = some (shown, at_) := by
  have hruns := topRow_runs hdb hone hsnap hroute hservice hw hr hrows
  have hshown := topRow_shown (fun a ha b hb => oneOn_attachedRows hone route.workspace kind.tag a
    (hrows.mem_iff.mp ha) b (hrows.mem_iff.mp hb)) hfound route.id service.id
  obtain ⟨upstream, -, rfl⟩ := Option.map_eq_some_iff.mp hrule
  have hcompiled : (ruleOf sha256 snap (consumerTable snap) r upstream).plugins =
      pluginsFor snap.plugins r (consumerTable snap) := rfl
  have hplugins : (pluginsFor snap.plugins r (consumerTable snap)).filter (fun p => p.kind = kind) =
      ((mostSpecific policyPlace (fun p => p.plugin.kind = kind) snap.plugins r).map
        fun p => stamp r (consumerTable snap) p.plugin).toList := filter_pluginsFor _
  have hexists : (∃ p ∈ pluginsFor snap.plugins r (consumerTable snap), p.kind = kind) ↔
      (mostSpecific policyPlace (fun p => p.plugin.kind = kind) snap.plugins r).isSome = true := by
    have hne : (∃ p ∈ pluginsFor snap.plugins r (consumerTable snap), p.kind = kind) ↔
        (pluginsFor snap.plugins r (consumerTable snap)).filter (fun p => p.kind = kind) ≠ [] := by
      simp [List.filter_eq_nil_iff]
    rw [hne, hplugins]
    cases mostSpecific policyPlace (fun p => p.plugin.kind = kind) snap.plugins r <;> simp
  rw [← topRow_isSome hrows, hcompiled, hexists, hplugins]
  generalize topRow rows route.id service.id = top at hruns hshown ⊢
  generalize found.route route.id service.id = listed at hshown ⊢
  generalize mostSpecific policyPlace (fun p => p.plugin.kind = kind) snap.plugins r = run at hruns ⊢
  cases hshown with
  | none =>
    cases hruns
    exact ⟨by simp, rfl, rfl⟩
  | some hshown => cases hruns with
    | some hruns =>
      obtain ⟨hvalue, hat⟩ := hshown
      exact ⟨by simp, _, _, hruns.plugin, hvalue, rfl, by rw [← hat]⟩

end

/-- A configuration is the header it names, which only a key policy reads. -/
def headerShapes : Shapes String where
  jwt _ := .error ""
  keyAuth header := .ok ⟨header, none⟩
  ipRestriction _ := .error ""
  requestSizeLimit _ := .error ""
  requestTransformer _ := .error ""
  responseTransformer _ := .error ""
  cors _ := .error ""
  auth _ := .error ""
  acl _ := .error ""
  rateLimit _ := .error ""
  debug name := name

def paySvc : ServiceRow where
  id := 2
  workspace := 1
  name := "pay"
  protocol := "http"
  host := "10.0.0.1"
  port := 80
  updatedAt := "t0"

def payRoute : RouteRow where
  id := 3
  workspace := 1
  service := some 2
  name := "orders"
  updatedAt := "t0"

/-- A key for the workspace, and another for the one route. -/
def keyRows : Db String where
  access := { users := [], workspaces := [⟨1, "eu"⟩], grants := [], groupGrants := [] }
  named := by decide
  services := [paySvc]
  routes := [payRoute]
  policies := [
    { id := 10, workspace := 1, name := "key_auth", config := "x-eu", updatedAt := "t1" },
    { id := 11, workspace := 1, name := "key_auth", config := "x-orders", route := some 3
      updatedAt := "t2" }]

def keySnapshot : StoreSnapshot :=
  ((keyRows.snapshot Core.Matcher.noRegex headerShapes.reader compare 0).toOption).getD
    ⟨[], [], [], [], [], []⟩

def ordersRoute : StoreRoute where
  workspace := "eu"
  name := "orders"
  service := "pay"
  hosts := []
  paths := []
  methods := []
  headers := []
  stripPath := false
  priority := 0

theorem console_shows_what_runs_orders :
    ∃ rule found, compiledRule noDigest keySnapshot ordersRoute = some rule ∧
      Attached.read .ok (attachedRows keyRows 1 "key_auth") = .ok found ∧
      ((∃ p ∈ rule.plugins, p.kind = .keyAuth) ↔ ∃ row ∈ attachedRows keyRows 1 "key_auth",
        on row = .route 3 ∨ on row = .service 2 ∨ on row = .workspace) ∧
      rule.plugins.filter (fun p => p.kind = .keyAuth) =
        [.keyAuth ⟨"x-orders", some "eu"⟩] ∧
      found.route 3 2 = some (("x-orders", "t2"), "route") := by
  have hdb : Keyed keyRows := by
    constructor
    · decide
    · decide
    · decide
    · simp [keyRows, payRoute]
    · simp [keyRows]
  have hone : OnePolicy keyRows := by
    simp [OnePolicy, keyRows, on]
  have hsnap : keyRows.snapshot Core.Matcher.noRegex headerShapes.reader compare 0 =
      .ok keySnapshot := ok_of_isSome _ (by decide +kernel)
  have hserved : Served keySnapshot ordersRoute := by
    rw [← mem_servedRoutes]
    decide +kernel
  obtain ⟨rule, hrule⟩ := compiledRule_isSome noDigest hserved
  obtain ⟨found, hfound⟩ : ∃ found,
      Attached.read .ok (attachedRows keyRows 1 "key_auth") = .ok found := ⟨_, rfl⟩
  have hpay : payRoute ∈ keyRows.routes := by simp [keyRows]
  have hservice : keyRows.service? payRoute.service = some paySvc := rfl
  have hrows : (attachedRows keyRows 1 "key_auth").Perm
      (attachedRows keyRows payRoute.workspace Kind.keyAuth.tag) := .refl _
  have h := console_shows_what_runs hdb hone hsnap hpay hservice (w := "eu") (r := ordersRoute) rfl rfl
    hrule hrows hfound
  refine ⟨rule, found, hrule, hfound, h.1, ?_⟩
  obtain ⟨plugin, shown, hplugin, hshown, hrun, hlisted⟩ := h.2
  cases hplugin
  obtain ⟨v, at_⟩ := shown
  obtain ⟨hv, rfl⟩ := hshown
  cases hv
  exact ⟨hrun, hlisted⟩

end Gapura.Control.ConsoleView
