import Gapura.Control.Configuration
import Gapura.Lib.Checks

/-! # Transformer policies as they are written

A policy's configuration is JSON, read by shape first and then name by name. A
stored transformer has been through `requestTransformer`, and one written since
the gateway sets the caller's groups through `newlyReserved` too. -/
namespace Gapura.Control.Policies
open Gapura.Core (HeaderEdits Plugin RequestTransformerPolicy)
open Lib.Text Lib.Checks Control.Configuration

inductive Json where
  | null
  | bool (value : Bool)
  | number (value : Int)
  | string (value : String)
  | array (items : List Json)
  | object (fields : List (String × Json))

namespace Json

/-- An absent field reads as null. -/
def field (fields : List (String × Json)) (name : String) : Json :=
  (fields.lookup name).getD .null

/-- An object that has no other fields. -/
def objectOf (known : List String) : Json → Option (List (String × Json))
  | .object fields => if fields.all fun f => known.contains f.1 then some fields else none
  | _ => none

def text : Json → Option String
  | .string s => some s
  | _ => none

def texts : Json → Option (List String)
  | .array items => items.mapM text
  | _ => none

def pair : Json → Option (String × String)
  | .array [.string a, .string b] => some (a, b)
  | _ => none

def pairs : Json → Option (List (String × String))
  | .array items => items.mapM pair
  | _ => none

end Json

def maxEdits : Nat := 64

def maxValueChars : Nat := 4096

def maxNameChars : Nat := 256

/-- What says how HTTP frames a message, where it goes, and what its connection does. -/
def framing : List String :=
  ["host", "content-length", "transfer-encoding", "connection", "keep-alive", "te", "trailer",
    "upgrade", "proxy-connection"]

/-- Why a transform cannot touch a refused header. -/
def refusal (name : String) : String :=
  if name == Core.Credentials.consumerHeader then
    name ++ " is set by the gateway from the consumer a key names, so a transform cannot write it."
  else if name == Core.Credentials.groupsHeader then
    name ++ " is set by the gateway from the groups of the consumer a credential names, so a " ++
      "transform cannot write it."
  else if name == Core.Credentials.anonymousHeader then
    name ++ " is set by the gateway when a caller without a credential is an auth policy's " ++
      "anonymous consumer, so a transform cannot write it."
  else
    name ++ " says how HTTP frames, routes or carries a message, which the gateway keeps for " ++
      "itself, so a transform cannot write it."

def isToken (c : Char) : Bool := c.isAlphanum || "!#$%&'*+-.^_`|~".toList.contains c

/-- One section of a transformer: its name, whether it is of headers, and the
names it may not touch. -/
structure Section where
  name : String
  header : Bool
  refused : List String

def Section.at (s : Section) (op : String) : String := s.name ++ "." ++ op

def names (s : Section) (op : String) (list : Json) : Except FieldError (List String) :=
  match list with
  | .null => .ok []
  | list => match list.texts with
    | some names => .ok names
    | none => .error ⟨s.at op, "List names, such as " ++
        (if s.header then "[\"x-debug\"]" else "[\"debug\"]") ++ "."⟩

def pairs (s : Section) (op : String) (list : Json) :
    Except FieldError (List (String × String)) :=
  match list with
  | .null => .ok []
  | list => match list.pairs with
    | some pairs => .ok pairs
    | none => .error ⟨s.at op,
        if op == "rename" then "List pairs of the old name and the new, such as " ++
          (if s.header then "[[\"x-old\", \"x-new\"]]" else "[[\"old\", \"new\"]]") ++ "."
        else "List pairs of a name and its value, such as " ++
          (if s.header then "[[\"x-team\", \"core\"]]" else "[[\"version\", \"2\"]]") ++ "."⟩

/-- A header name is a token, kept in lower case; a parameter's is any text. -/
def spelled (s : Section) (op name : String) : Except FieldError String :=
  let count := name.toList.length
  if s.header then
    if count < 1 || maxNameChars < count then
      .error ⟨s.at op, "Use header names of 1 to " ++ toString maxNameChars ++ " characters."⟩
    else if !name.toList.all isToken then
      .error ⟨s.at op, "Use header names made of letters, digits and !#$%&'*+-.^_`|~."⟩
    else .ok (toAsciiLowercase name)
  else if count < 1 || maxNameChars < count then
    .error ⟨s.at op, "Use parameter names of 1 to " ++ toString maxNameChars ++ " characters."⟩
  else .ok name

def name (s : Section) (op given : String) : Except FieldError String :=
  match spelled s op given with
  | .error e => .error e
  | .ok name => if s.refused.contains name then .error ⟨s.at op, refusal name⟩ else .ok name

def value (s : Section) (op value : String) : Except FieldError String :=
  if maxValueChars < value.toList.length then
    .error ⟨s.at op, "Use values of at most " ++ toString maxValueChars ++ " characters."⟩
  else if s.header && !value.toList.all fun c => c == '\t' || (' ' ≤ c && c ≤ '~') then
    .error ⟨s.at op, "Use header values of visible ASCII, spaces and tabs: no line breaks, " ++
      "other control characters or characters past ASCII."⟩
  else .ok value

def renamed (s : Section) (op : String) (p : String × String) :
    Except FieldError (String × String) := do
  let old ← name s op p.1
  let new ← name s op p.2
  return (old, new)

def written (s : Section) (op : String) (p : String × String) :
    Except FieldError (String × String) := do
  let name ← name s op p.1
  let value ← value s op p.2
  return (name, value)

/-- The edits of one section; absent, it edits nothing. -/
def edits (s : Section) (config : Json) : Except FieldError HeaderEdits :=
  match config with
  | .null => .ok {}
  | config => match config.objectOf ["remove", "rename", "replace", "add", "append"] with
    | none => .error ⟨s.name, "Send any of remove, rename, replace, add and append."⟩
    | some input => do
      let remove ← (← names s "remove" (Json.field input "remove")).mapM (name s "remove")
      let rename ← (← pairs s "rename" (Json.field input "rename")).mapM (renamed s "rename")
      let replace ← (← pairs s "replace" (Json.field input "replace")).mapM (written s "replace")
      let add ← (← pairs s "add" (Json.field input "add")).mapM (written s "add")
      let append ← (← pairs s "append" (Json.field input "append")).mapM (written s "append")
      return { remove, rename, replace, add, append }

/-- At least one edit and not too many, in one section or in all together. -/
def counted (sections : List (String × HeaderEdits)) : Except FieldError Unit :=
  let total := (sections.map fun s => s.2.len).sum
  if total = 0 then .error ⟨"headers", "List at least one edit."⟩
  else match sections.find? fun s => maxEdits < s.2.len with
    | some s => .error ⟨s.1, "List at most " ++ toString maxEdits ++ " edits in one policy."⟩
    | none =>
      if maxEdits < total then
        .error ⟨"config", "List at most " ++ toString maxEdits ++
          " edits in one policy, headers and query together."⟩
      else .ok ()

def requestHeaders : Section := ⟨"headers", true, framing ++ [Core.Credentials.consumerHeader]⟩

def requestQuery : Section := ⟨"query", false, []⟩

def requestTransformer (config : Json) : Except FieldError RequestTransformerPolicy :=
  match config.objectOf ["headers", "query"] with
  | none => .error ⟨"config",
      "Send headers and query, each with any of remove, rename, replace, add and append."⟩
  | some input => do
    let headers ← edits requestHeaders (Json.field input "headers")
    let query ← edits requestQuery (Json.field input "query")
    counted [("headers", headers), ("query", query)]
    return { headers, query }

/-- Each list of edits with the names it mentions. -/
def namedIn (edits : HeaderEdits) : List (String × List String) :=
  [("remove", edits.remove), ("rename", edits.rename.flatMap fun p => [p.1, p.2]),
    ("replace", edits.replace.map Prod.fst), ("add", edits.add.map Prod.fst),
    ("append", edits.append.map Prod.fst)]

/-- Refuses a request transformer that names a header the gateway came to set
later. Asked on a write only: a stored row keeps working as it did. -/
def newlyReserved : Plugin → Except FieldError Unit
  | .requestTransformer policy =>
    let mentions := (namedIn policy.headers).flatMap fun l => l.2.map fun name => (l.1, name)
    let reserved := fun (name : String) =>
      [Core.Credentials.groupsHeader, Core.Credentials.anonymousHeader].find? fun r =>
        eqIgnoreAsciiCase r name
    match mentions.findSome? fun m => (reserved m.2).map fun r => (m.1, r) with
    | some (op, r) => .error ⟨"headers." ++ op, refusal r⟩
    | none => .ok ()
  | _ => .ok ()

/-! ## What an accepted transformer may touch -/

variable {accepted op : String} {s : Section} {p : String × String} {config : Json}
  {e : HeaderEdits} {t : RequestTransformerPolicy}

variable {given : String}

theorem name_ok (h : name s op given = .ok accepted) : accepted ∉ s.refused := by
  unfold name at h
  split at h
  · cases h
  · split at h
    · cases h
    next hrefused =>
      cases h
      simpa using hrefused

theorem spelled_ok (hs : s.header = true)
    (h : spelled s op given = .ok accepted) : toAsciiLowercase accepted = accepted := by
  simp only [spelled, hs, if_true] at h
  split at h
  · cases h
  · split at h
    · cases h
    · cases h
      rw [← String.toList_inj]
      simp

/-- An accepted header name is in lower case and not refused. -/
theorem headerName_ok (hs : s.header = true) (h : name s op given = .ok accepted) :
    toAsciiLowercase accepted = accepted ∧ accepted ∉ s.refused := by
  refine ⟨?_, name_ok h⟩
  unfold name at h
  split at h
  · cases h
  next hspelled =>
    split at h
    · cases h
    · cases h
      exact spelled_ok hs hspelled

theorem mem_renamed {l out : List (String × String)} (h : l.mapM (renamed s op) = .ok out)
    (hp : p ∈ out) : (∃ given, name s op given = .ok p.1) ∧ ∃ given, name s op given = .ok p.2 := by
  obtain ⟨q, -, hq⟩ := exists_of_mem_mapM h hp
  obtain ⟨old, hold, hq⟩ := bind_eq_ok.mp hq
  obtain ⟨new, hnew, hq⟩ := bind_eq_ok.mp hq
  cases hq
  exact ⟨⟨q.1, hold⟩, ⟨q.2, hnew⟩⟩

theorem mem_written {l out : List (String × String)} (h : l.mapM (written s op) = .ok out)
    (hp : p ∈ out) : ∃ given, name s op given = .ok p.1 := by
  obtain ⟨q, -, hq⟩ := exists_of_mem_mapM h hp
  obtain ⟨n, hn, hq⟩ := bind_eq_ok.mp hq
  obtain ⟨v, -, hq⟩ := bind_eq_ok.mp hq
  cases hq
  exact ⟨q.1, hn⟩

/-- Each list of accepted edits is what its check made of a given one. -/
structure EditsRead (s : Section) (e : HeaderEdits) : Prop where
  remove : ∃ given : List String, given.mapM (name s "remove") = .ok e.remove
  rename : ∃ given, List.mapM (renamed s "rename") given = .ok e.rename
  replace : ∃ given, List.mapM (written s "replace") given = .ok e.replace
  add : ∃ given, List.mapM (written s "add") given = .ok e.add
  append : ∃ given, List.mapM (written s "append") given = .ok e.append

theorem edits_read (h : edits s config = .ok e) : EditsRead s e := by
  unfold edits at h
  split at h
  · cases h
    exact ⟨⟨[], rfl⟩, ⟨[], rfl⟩, ⟨[], rfl⟩, ⟨[], rfl⟩, ⟨[], rfl⟩⟩
  · split at h
    · cases h
    · obtain ⟨removes, -, h⟩ := bind_eq_ok.mp h
      obtain ⟨remove, hremove, h⟩ := bind_eq_ok.mp h
      obtain ⟨renames, -, h⟩ := bind_eq_ok.mp h
      obtain ⟨rename, hrename, h⟩ := bind_eq_ok.mp h
      obtain ⟨replaces, -, h⟩ := bind_eq_ok.mp h
      obtain ⟨replace, hreplace, h⟩ := bind_eq_ok.mp h
      obtain ⟨adds, -, h⟩ := bind_eq_ok.mp h
      obtain ⟨add, hadd, h⟩ := bind_eq_ok.mp h
      obtain ⟨appends, -, h⟩ := bind_eq_ok.mp h
      obtain ⟨append, happend, h⟩ := bind_eq_ok.mp h
      cases h
      exact ⟨⟨_, hremove⟩, ⟨_, hrename⟩, ⟨_, hreplace⟩, ⟨_, hadd⟩, ⟨_, happend⟩⟩

/-- Every name of accepted edits went through the section's check. -/
theorem edits_ok (h : edits s config = .ok e) :
    ∀ l ∈ namedIn e, ∀ n ∈ l.2, ∃ op given, name s op given = .ok n := by
  obtain ⟨⟨_, hremove⟩, ⟨_, hrename⟩, ⟨_, hreplace⟩, ⟨_, hadd⟩, ⟨_, happend⟩⟩ := edits_read h
  simp only [namedIn, List.forall_mem_cons, List.not_mem_nil, IsEmpty.forall_iff,
    implies_true, and_true, List.mem_flatMap, List.mem_map]
  refine ⟨?_, ?_, ?_, ?_, ?_⟩
  · intro n hn
    obtain ⟨given, -, hgiven⟩ := exists_of_mem_mapM hremove hn
    exact ⟨_, given, hgiven⟩
  · rintro n ⟨p, hp, hn⟩
    obtain ⟨⟨old, hold⟩, ⟨new, hnew⟩⟩ := mem_renamed hrename hp
    rcases List.mem_pair.mp hn with rfl | rfl
    · exact ⟨_, old, hold⟩
    · exact ⟨_, new, hnew⟩
  · rintro n ⟨p, hp, rfl⟩
    exact ⟨_, mem_written hreplace hp⟩
  · rintro n ⟨p, hp, rfl⟩
    exact ⟨_, mem_written hadd hp⟩
  · rintro n ⟨p, hp, rfl⟩
    exact ⟨_, mem_written happend hp⟩

theorem requestTransformer_ok (h : requestTransformer config = .ok t) :
    ∃ headers, edits requestHeaders headers = .ok t.headers := by
  unfold requestTransformer at h
  split at h
  · cases h
  next input _ =>
    obtain ⟨headers, hheaders, h⟩ := bind_eq_ok.mp h
    obtain ⟨query, -, h⟩ := bind_eq_ok.mp h
    obtain ⟨_, -, h⟩ := bind_eq_ok.mp h
    cases h
    exact ⟨_, hheaders⟩

theorem newlyReserved_ok (h : newlyReserved (.requestTransformer t) = .ok ()) :
    ∀ l ∈ namedIn t.headers, ∀ n ∈ l.2,
      eqIgnoreAsciiCase Core.Credentials.groupsHeader n = false ∧
      eqIgnoreAsciiCase Core.Credentials.anonymousHeader n = false := by
  simp only [newlyReserved] at h
  split at h
  · cases h
  next hnone =>
    intro l hl n hn
    rw [List.findSome?_eq_none_iff] at hnone
    have hmention := hnone (l.1, n)
      (List.mem_flatMap.mpr ⟨l, hl, List.mem_map.mpr ⟨n, hn, rfl⟩⟩)
    simpa using hmention

/-- A request transformer accepted on a write names none of the headers the
gateway tells the upstream about the caller in. -/
theorem transformer_spares_gatewayHeaders
    (h : requestTransformer config = .ok t) (hw : newlyReserved (.requestTransformer t) = .ok ()) :
    ∀ l ∈ namedIn t.headers, ∀ n ∈ l.2, ∀ g ∈ Core.Credentials.gatewayHeaders,
      eqIgnoreAsciiCase n g = false := by
  obtain ⟨headers, hheaders⟩ := requestTransformer_ok h
  intro l hl n hn
  obtain ⟨op, given, hname⟩ := edits_ok hheaders l hl n hn
  obtain ⟨hlower, hrefused⟩ := headerName_ok rfl hname
  obtain ⟨hgroups, hanonymous⟩ := newlyReserved_ok hw l hl n hn
  simp only [Core.Credentials.gatewayHeaders, List.forall_mem_cons, List.not_mem_nil,
    IsEmpty.forall_iff, implies_true, and_true]
  refine ⟨?_, ?_, ?_⟩
  · rw [Bool.eq_false_iff]
    intro heq
    have hconsumer : toAsciiLowercase Core.Credentials.consumerHeader =
        Core.Credentials.consumerHeader := by decide +kernel
    have hsame := eqIgnoreAsciiCase_iff.mp heq
    rw [hlower, hconsumer] at hsame
    exact hrefused (hsame ▸ List.mem_append_right _ (List.mem_singleton.mpr rfl))
  · rw [eqIgnoreAsciiCase_comm]
    exact hgroups
  · rw [eqIgnoreAsciiCase_comm]
    exact hanonymous

end Gapura.Control.Policies
