import Gapura.Proxy.Plugin

/-! # A transformer's edits

Edits of a head's headers and of a URI's query, both in one order: remove,
rename, replace, add, append. A query's names are compared once decoded, and
what an edit writes is encoded as a form encodes it. -/
namespace Gapura.Proxy.Transform
open Gapura.Core Lib.Headers Lib.Text Proxy.Plugin

/-! ## Headers -/

/-- The only line of a name, where both are what HTTP allows. -/
def set (m : HeaderMap) (name value : String) : HeaderMap :=
  if nameOk name then ((ofStr value).map (m.insert name)).getD m else m

def add (m : HeaderMap) (name value : String) : HeaderMap :=
  if nameOk name then ((ofStr value).map (m.append name)).getD m else m

/-- A value moved as it is. -/
def move (name : String) (m : HeaderMap) (v : Value) : HeaderMap :=
  if nameOk name then m.append name v else m

/-- Both names go before the values are written back, so a rename onto the same
name in another case keeps them. -/
def rename (m : HeaderMap) (p : String × String) : HeaderMap :=
  if (m.getAll p.1).isEmpty then m
  else (m.getAll p.1).foldl (move p.2) ((m.remove p.1).remove p.2)

def replace (m : HeaderMap) (p : String × String) : HeaderMap :=
  if (m.getAll p.1).isEmpty then m else set m p.1 p.2

def addAbsent (m : HeaderMap) (p : String × String) : HeaderMap :=
  if (m.getAll p.1).isEmpty then set m p.1 p.2 else m

def editHeaders (m : HeaderMap) (edits : HeaderEdits) : HeaderMap :=
  let m := edits.remove.foldl HeaderMap.remove m
  let m := edits.rename.foldl rename m
  let m := edits.replace.foldl replace m
  let m := edits.add.foldl addAbsent m
  edits.append.foldl (fun m p => add m p.1 p.2) m

/-! ## Form encoding -/

/-- The form_urlencoded crate: one name or value read, and one written. -/
structure Form where
  decode : String → String
  byteSerialize : String → String

/-- A space is written as `+`, and a `+` never is. -/
def spacesEscaped (s : String) : String :=
  String.ofList (s.toList.flatMap fun c => if c = '+' then ['%', '2', '0'] else [c])

def Form.encode (form : Form) (s : String) : String := spacesEscaped (form.byteSerialize s)

/-! ## The query -/

/-- One piece of a query: its name decoded, and the piece as it is sent. -/
structure Param where
  name : String
  raw : String
  deriving DecidableEq, Repr

section
variable (form : Form)

def Param.read (raw : String) : Param :=
  { name := form.decode (((splitOnce "=" raw).map Prod.fst).getD raw), raw }

def Param.new (name value : String) : Param :=
  { name, raw := spacesEscaped (form.byteSerialize name ++ "=" ++ form.byteSerialize value) }

/-- Under a new name, with its value as it was written. -/
def Param.renamed (p : Param) (name : String) : Param :=
  { name
    raw := match splitOnce "=" p.raw with
      | some (_, value) => form.encode name ++ "=" ++ value
      | none => form.encode name }

def renameParams (params : List Param) (p : String × String) : List Param :=
  if params.any fun q => q.name == p.1 then
    (params.filter fun q => q.name != p.1 && q.name != p.2) ++
      (params.filter fun q => q.name == p.1).map fun q => q.renamed form p.2
  else params

/-- The new value stands where the first old one did. -/
def replaceParam (params : List Param) (p : String × String) : List Param :=
  match params.findIdx? fun q => q.name == p.1 with
  | some i => (params.filter fun q => q.name != p.1).insertIdx i (.new form p.1 p.2)
  | none => params

def addParam (params : List Param) (p : String × String) : List Param :=
  if params.any fun q => q.name == p.1 then params else params ++ [.new form p.1 p.2]

def editParams (params : List Param) (edits : HeaderEdits) : List Param :=
  let params := params.filter fun p => !edits.remove.contains p.name
  let params := edits.rename.foldl (renameParams form) params
  let params := edits.replace.foldl (replaceParam form) params
  let params := edits.add.foldl (addParam form) params
  params ++ edits.append.map fun p => .new form p.1 p.2

def paramsOf (query : Option String) : List Param :=
  match query with
  | none => []
  | some q => if q.isEmpty then [] else (splitOn '&' q).map (Param.read form)

/-- The URI to send instead, `none` when nothing changed. Rebuilding a URI
around a path and query is the http crate's. -/
def editQuery (setPathAndQuery : Uri → String → Option Uri) (uri : Uri) (edits : HeaderEdits) :
    Option Uri :=
  if edits.len = 0 then none
  else
    let params := editParams form (paramsOf form uri.query) edits
    let edited := "&".intercalate (params.map Param.raw)
    if edited == uri.query.getD "" then none
    else setPathAndQuery uri (if edited.isEmpty then uri.path else uri.path ++ "?" ++ edited)

end

/-! ## A name no edit mentions -/

/-- Every header name an edit reads or writes. -/
def editNames (edits : HeaderEdits) : List String :=
  edits.remove ++ (edits.rename.flatMap fun p => [p.1, p.2]) ++
    (edits.replace ++ edits.add ++ edits.append).map Prod.fst

variable (value : String) {m : HeaderMap} {n name : String} {p : String × String}

section
variable (h : eqIgnoreAsciiCase name n = false)

include h

theorem getAll_set : (set m name value).getAll n = m.getAll n := by
  unfold set
  split
  · cases ofStr value with
    | none => rfl
    | some v => simp [h]
  · rfl

theorem getAll_add : (add m name value).getAll n = m.getAll n := by
  unfold add
  split
  · cases ofStr value with
    | none => rfl
    | some v => simp [h]
  · rfl

theorem getAll_foldl_move (values : List Value)
    (m : HeaderMap) : (values.foldl (move name) m).getAll n = m.getAll n := by
  induction values generalizing m with
  | nil => rfl
  | cons v rest ih =>
    rw [List.foldl_cons, ih]
    unfold move
    split
    · simp [h]
    · rfl

end

theorem getAll_rename (h1 : eqIgnoreAsciiCase p.1 n = false)
    (h2 : eqIgnoreAsciiCase p.2 n = false) : (rename m p).getAll n = m.getAll n := by
  unfold rename
  split
  · rfl
  · rw [getAll_foldl_move h2]
    simp [h1, h2]

theorem getAll_replace
    (h : eqIgnoreAsciiCase p.1 n = false) : (replace m p).getAll n = m.getAll n := by
  unfold replace
  split
  · rfl
  · exact getAll_set p.2 h

theorem getAll_addAbsent
    (h : eqIgnoreAsciiCase p.1 n = false) : (addAbsent m p).getAll n = m.getAll n := by
  unfold addAbsent
  split
  · exact getAll_set p.2 h
  · rfl

/-- A fold keeps the lines of a name that every step keeps. -/
theorem getAll_foldl {α : Type} (step : HeaderMap → α → HeaderMap) {l : List α}
    (h : ∀ a ∈ l, ∀ m, (step m a).getAll n = m.getAll n) (m : HeaderMap) :
    (l.foldl step m).getAll n = m.getAll n := by
  induction l generalizing m with
  | nil => rfl
  | cons a rest ih =>
    rw [List.foldl_cons, ih fun b hb => h b (List.mem_cons_of_mem _ hb)]
    exact h a List.mem_cons_self m

theorem getAll_editHeaders {edits : HeaderEdits}
    (h : ∀ name ∈ editNames edits, eqIgnoreAsciiCase name n = false) (m : HeaderMap) :
    (editHeaders m edits).getAll n = m.getAll n := by
  simp only [editNames, List.mem_append, List.mem_flatMap, List.mem_map] at h
  unfold editHeaders
  rw [getAll_foldl, getAll_foldl, getAll_foldl, getAll_foldl, getAll_foldl]
  · intro name hname m
    simp [h name (.inl (.inl hname))]
  · intro p hp m
    exact getAll_rename (h p.1 (.inl (.inr ⟨p, hp, by simp⟩))) (h p.2 (.inl (.inr ⟨p, hp, by simp⟩)))
  · intro p hp m
    exact getAll_replace (h p.1 (.inr ⟨p, .inl (.inl hp), rfl⟩))
  · intro p hp m
    exact getAll_addAbsent (h p.1 (.inr ⟨p, .inl (.inr hp), rfl⟩))
  · intro p hp m
    exact getAll_add p.2 (h p.1 (.inr ⟨p, .inr hp, rfl⟩))

end Gapura.Proxy.Transform
