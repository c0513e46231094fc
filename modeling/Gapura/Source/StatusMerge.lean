import Gapura.Source.Status

/-! # Status writes converge

A body written and merged is the body the next write computes, whatever the time:
each of its conditions finds itself in the merged status. What the live status has
decides the times, and the entries of other controllers are carried along. -/
namespace Gapura.Source.Status
open Lib.Json
open Core.Input (ParentReference)

/-! ## Lists and first entries -/

/-- The first entry with a property. -/
def First {α : Type} (P : α → Prop) (xs : List α) (x : α) : Prop :=
  ∃ before after, xs = before ++ x :: after ∧ P x ∧ ∀ y ∈ before, ¬ P y

theorem find?_eq_some_iff_first {α : Type} {P : α → Prop} {p : α → Bool} (h : ∀ x, p x = true ↔ P x)
    {xs : List α} {x : α} : xs.find? p = some x ↔ First P xs x := by
  rw [List.find?_eq_some_iff_append]
  constructor
  · rintro ⟨hx, before, after, hxs, hbefore⟩
    refine ⟨before, after, hxs, (h x).mp hx, fun y hy hP => ?_⟩
    have hnot := hbefore y hy
    rw [(h y).mpr hP] at hnot
    cases hnot
  · rintro ⟨before, after, hxs, hx, hbefore⟩
    refine ⟨(h x).mpr hx, before, after, hxs, fun y hy => ?_⟩
    rw [Bool.not_eq_true', ← Bool.not_eq_true]
    exact fun hp => hbefore y hy ((h y).mp hp)

/-- With distinct keys, what one element is written as is found by its key. -/
theorem find?_map_of_nodup {α β κ : Type} {f : α → β} {key : α → κ} {p : β → Bool} {l : List α}
    (hdistinct : (l.map key).Nodup) {a : α} (ha : a ∈ l) (hp : p (f a) = true)
    (hkey : ∀ b ∈ l, p (f b) = true → key b = key a) : (l.map f).find? p = some (f a) := by
  induction l with
  | nil => cases ha
  | cons b rest ih =>
    obtain ⟨hb, hrest⟩ := List.nodup_cons.mp hdistinct
    rw [List.map_cons, List.find?_cons]
    rcases List.mem_cons.mp ha with rfl | ha
    · rw [hp]
    · have hnot : p (f b) = false := by
        rw [← Bool.not_eq_true]
        intro hfound
        exact hb (hkey b List.mem_cons_self hfound ▸ List.mem_map_of_mem ha)
      rw [hnot]
      exact ih hrest ha fun c hc => hkey c (List.mem_cons_of_mem _ hc)

/-! ## Conditions -/

theorem index_conditionJson (c : Condition) (time : String) :
    (conditionJson c time).index "type" = .string c.type ∧
    (conditionJson c time).index "status" = .string c.status.text ∧
    (conditionJson c time).index "lastTransitionTime" = .string time := ⟨rfl, rfl, rfl⟩

/-- Conditions stamped again from where they were written keep their times. -/
theorem stamp_stamp {conds : List Condition} (hdistinct : (conds.map (·.type)).Nodup)
    (live : Option Value) (now later : String) :
    stamp conds (some (.array (stamp conds live now))) later = stamp conds live now := by
  unfold stamp
  refine List.map_congr_left fun c hc => ?_
  have hfound : liveCondition c (some (.array (stamp conds live now))) = some (conditionJson c
      (((liveCondition c live).bind fun p => (p.index "lastTransitionTime").asStr).getD now)) := by
    refine find?_map_of_nodup hdistinct hc ?_ fun b _ hb => ?_
    · simp [index_conditionJson]
    · simpa [index_conditionJson] using (Bool.and_eq_true_iff.mp hb).1
  unfold stamp at hfound
  rw [hfound]
  rfl

/-- A live condition of the type and status of one. -/
def Matches (c : Condition) (p : Value) : Prop :=
  p.get "type" = some (.string c.type) ∧ p.get "status" = some (.string c.status.text)

/-- The first live condition of its type and status has a time. -/
def Keeps (live : Option Value) (c : Condition) (time : String) : Prop :=
  ∃ items p, live = some (.array items) ∧ First (Matches c) items p ∧
    p.get "lastTransitionTime" = some (.string time)

/-- Each condition as it is written, with the live time exactly where there is one to
keep. -/
def Stamped (live : Option Value) (now : String) (conds : List Condition) (out : List Value) : Prop :=
  List.Forall₂ (fun c e => ∃ time, e = conditionJson c time ∧ Matches c e ∧
    e.get "lastTransitionTime" = some (.string time) ∧
    (Keeps live c time ∨ (∀ other, ¬ Keeps live c other) ∧ time = now)) conds out

theorem keeps_iff {live : Option Value} {c : Condition} {time : String} :
    Keeps live c time ↔
      ((liveCondition c live).bind fun p => (p.index "lastTransitionTime").asStr) = some time := by
  have hmatch : ∀ p : Value, (p.index "type" = .string c.type &&
      p.index "status" = .string c.status.text) = true ↔ Matches c p := by
    intro p
    simp [Matches, Value.index_eq_string]
  rw [Option.bind_eq_some_iff]
  constructor
  · rintro ⟨items, p, rfl, hfirst, htime⟩
    exact ⟨p, (find?_eq_some_iff_first hmatch).mpr hfirst, Value.asStr_index.mpr htime⟩
  · rintro ⟨p, hfound, htime⟩
    have hfirst := (find?_eq_some_iff_first hmatch).mp hfound
    cases live with
    | none =>
      obtain ⟨before, after, hnone, -⟩ := hfirst
      simp at hnone
    | some v =>
      cases v with
      | array items => exact ⟨items, p, rfl, hfirst, Value.asStr_index.mp htime⟩
      | _ =>
        obtain ⟨before, after, hnone, -⟩ := hfirst
        simp [Value.asArray] at hnone

theorem stamped_stamp (conds : List Condition) (live : Option Value) (now : String) :
    Stamped live now conds (stamp conds live now) := by
  unfold Stamped stamp
  rw [List.forall₂_map_right_iff, List.forall₂_same]
  intro c _
  refine ⟨_, rfl, ⟨rfl, rfl⟩, rfl, ?_⟩
  cases hlive : (liveCondition c live).bind fun p => (p.index "lastTransitionTime").asStr with
  | some time => exact .inl (keeps_iff.mpr hlive)
  | none =>
    refine .inr ⟨fun other hkeeps => ?_, rfl⟩
    rw [keeps_iff.mp hkeeps] at hlive
    cases hlive

/-! ## Listeners and parents -/

/-- The fields that tell two parents apart. -/
def identity (p : ParentReference) : Option String × String × Option String × Option Nat :=
  (p.namespace, p.name, p.sectionName, p.port)

theorem get_parentRefJson (p : ParentReference) :
    (parentRefJson p).get "namespace" = p.namespace.map .string ∧
    (parentRefJson p).get "name" = some (.string p.name) ∧
    (parentRefJson p).get "sectionName" = p.sectionName.map .string ∧
    (parentRefJson p).get "port" = p.port.map fun (port : Nat) => integer port := by
  obtain ⟨group, kind, ns, name, sectionName, port⟩ := p
  cases ns <;> cases sectionName <;> cases port <;> exact ⟨rfl, rfl, rfl, rfl⟩

theorem identity_of_sameParent {p q : ParentReference}
    (h : sameParent (parentRefJson p) (parentRefJson q) = true) : identity p = identity q := by
  obtain ⟨hns, hname, hsection, hport⟩ := get_parentRefJson p
  obtain ⟨hns', hname', hsection', hport'⟩ := get_parentRefJson q
  simp only [sameParent, List.all_cons, List.all_nil, Bool.and_true, Bool.and_eq_true,
    decide_eq_true_eq, hns, hname, hsection, hport, hns', hname', hsection', hport'] at h
  obtain ⟨hns, hname, hsection, hport⟩ := h
  have hstring : Function.Injective Value.string := fun _ _ he => Value.string.inj he
  have hinteger : Function.Injective fun (port : Nat) => integer port := by
    intro a b he
    simpa [integer] using he
  simp only [identity, Option.map_injective hstring hns, Value.string.inj (Option.some.inj hname),
    Option.map_injective hstring hsection, Option.map_injective hinteger hport]

theorem sameParent_self (v : Value) : sameParent v v = true := by simp [sameParent]

/-- What a patch must be for its entries to find themselves again. -/
def Separate (controllerName : String) : StatusPatch → Prop
  | .gatewayClass _ _ conditions _ => (conditions.map (·.type)).Nodup
  | .gateway _ _ _ conditions listeners => (conditions.map (·.type)).Nodup ∧
      (listeners.map (·.name)).Nodup ∧ ∀ l ∈ listeners, (l.conditions.map (·.type)).Nodup
  | .httpRoute _ _ parents => (parents.map fun p => identity p.parentRef).Nodup ∧
      ∀ p ∈ parents, p.controllerName = controllerName ∧ (p.conditions.map (·.type)).Nodup

/-- A listener written once is written the same again. -/
theorem listenerJson_again {listeners : List ListenerStatus} (hnames : (listeners.map (·.name)).Nodup)
    {live merged : Value} {now : String} (later : String)
    (hmerged : itemsOf merged "listeners" = listeners.map (listenerJson live now))
    {l : ListenerStatus} (hl : l ∈ listeners) (htypes : (l.conditions.map (·.type)).Nodup) :
    listenerJson merged later l = listenerJson live now l := by
  have hfound : (itemsOf merged "listeners").find? (fun x => x.index "name" = .string l.name) =
      some (listenerJson live now l) := by
    rw [hmerged]
    refine find?_map_of_nodup hnames hl (decide_eq_true rfl) fun b _ hb => ?_
    exact Value.string.inj (of_decide_eq_true hb)
  unfold listenerJson at hfound ⊢
  simp only [hfound, Option.bind_some]
  rw [show Value.get _ "conditions" = some (.array (stamp l.conditions _ now)) from rfl,
    stamp_stamp htypes]

theorem parentJson_again {controllerName : String} {parents : List RouteParentStatus}
    (hidentities : (parents.map fun p => identity p.parentRef).Nodup)
    {live merged : Value} {others : List Value} {now : String} (later : String)
    (hothers : ∀ x ∈ others, ours controllerName x = false)
    (hmerged : itemsOf merged "parents" = others ++ parents.map (parentJson controllerName live now))
    {p : RouteParentStatus} (hp : p ∈ parents) (hours : p.controllerName = controllerName)
    (htypes : (p.conditions.map (·.type)).Nodup) :
    parentJson controllerName merged later p = parentJson controllerName live now p := by
  have hfound : (itemsOf merged "parents").find? (fun x => ours controllerName x &&
      sameParent (x.index "parentRef") (parentRefJson p.parentRef)) =
        some (parentJson controllerName live now p) := by
    have hnone : others.find? (fun x => ours controllerName x &&
        sameParent (x.index "parentRef") (parentRefJson p.parentRef)) = none := by
      refine List.find?_eq_none.mpr fun x hx => ?_
      rw [hothers x hx, Bool.false_and]
      exact Bool.false_ne_true
    rw [hmerged, List.find?_append, hnone, Option.none_or]
    refine find?_map_of_nodup hidentities hp ?_ fun b _ hb => ?_
    · rw [Bool.and_eq_true]
      exact ⟨decide_eq_true (congrArg Value.string hours), sameParent_self _⟩
    · exact identity_of_sameParent (Bool.and_eq_true_iff.mp hb).2
  unfold parentJson at hfound ⊢
  simp only [hfound, Option.bind_some]
  rw [show Value.get _ "conditions" = some (.array (stamp p.conditions _ now)) from rfl,
    stamp_stamp htypes]

/-! ## The merged status -/

section
variable {isIp : String → Bool} {controllerName : String}

variable (p : StatusPatch)

/-- The status after a write: the body's fields over the live ones. -/
theorem index_written (object : Value) (now : String) :
    (written isIp controllerName p object now).index "status" = (object.index "status").merge
      (.object (statusFields isIp controllerName p (object.index "status") now)) := by
  unfold written body
  rw [Value.index, Value.get_merge (by simp) (by simp)]
  rfl

/-- A field of the body stands as it is in the merged status. -/
theorem get_merged (live : Value) (now : String) {name : String} {items : List Value}
    (h : (statusFields isIp controllerName p live now).lookup name = some (.array items)) :
    (live.merge (.object (statusFields isIp controllerName p live now))).get name =
      some (.array items) := by
  rw [Value.get_merge, h]
  · rfl
  · cases p <;> simp [statusFields]
  · cases p <;> simp [statusFields]

theorem itemsOf_merged (live : Value) (now : String) {name : String} {items : List Value}
    (h : (statusFields isIp controllerName p live now).lookup name = some (.array items)) :
    itemsOf (live.merge (.object (statusFields isIp controllerName p live now))) name = items := by
  rw [itemsOf, get_merged p live now h]
  rfl

/-- The fields written are the fields the next write computes. -/
theorem statusFields_again {p : StatusPatch} (h : Separate controllerName p) (live : Value)
    (now later : String) :
    statusFields isIp controllerName p
        (live.merge (.object (statusFields isIp controllerName p live now))) later =
      statusFields isIp controllerName p live now := by
  have hget := fun {name items} => @get_merged isIp controllerName p live now name items
  have hitems := fun {name items} => @itemsOf_merged isIp controllerName p live now name items
  generalize
    live.merge (.object (statusFields isIp controllerName p live now)) = merged at hget hitems ⊢
  cases p with
  | gatewayClass name uid conditions features =>
    have hconds : merged.get "conditions" = some (.array (stamp conditions _ now)) := hget rfl
    simp only [statusFields, hconds, stamp_stamp h]
  | gateway ref uid addresses conditions listeners =>
    obtain ⟨htypes, hnames, hlisteners⟩ := h
    have hconds : merged.get "conditions" = some (.array (stamp conditions _ now)) := hget rfl
    have hsame : listeners.map (listenerJson merged later) = listeners.map (listenerJson live now) :=
      List.map_congr_left fun l hl => listenerJson_again hnames later (hitems rfl) hl (hlisteners l hl)
    simp only [statusFields, hconds, stamp_stamp htypes, hsame]
  | httpRoute ref uid parents =>
    obtain ⟨hidentities, hparents⟩ := h
    have hothers : ∀ x ∈ (itemsOf live "parents").filter (fun x => !ours controllerName x),
        ours controllerName x = false := fun x hx => by simpa using (List.mem_filter.mp hx).2
    have hmerged : itemsOf merged "parents" = _ ++ parents.map (parentJson controllerName live now) :=
      hitems rfl
    have hsame : parents.map (parentJson controllerName merged later) =
        parents.map (parentJson controllerName live now) :=
      List.map_congr_left fun p hp => parentJson_again hidentities later hothers hmerged hp
        (hparents p hp).1 (hparents p hp).2
    have hgone : (parents.map (parentJson controllerName live now)).filter
        (fun x => !ours controllerName x) = [] := by
      refine List.filter_eq_nil_iff.mpr fun x hx => ?_
      obtain ⟨p, hp, rfl⟩ := List.mem_map.mp hx
      have hours : ours controllerName (parentJson controllerName live now p) = true :=
        decide_eq_true (congrArg Value.string (hparents p hp).1)
      simp [hours]
    simp only [statusFields, hmerged, hsame, List.filter_append, List.filter_filter, Bool.and_self,
      hgone, List.append_nil]

/-! ## What a write leaves -/

/-- The conditions of the first live entry with a property, if there is one. -/
def Prev (P : Value → Prop) (items : List Value) (prev : Option Value) : Prop :=
  (∃ x, First P items x ∧ prev = x.get "conditions") ∨ (∀ x ∈ items, ¬ P x) ∧ prev = none

theorem prev_find? {P : Value → Prop} {p : Value → Bool} (h : ∀ x, p x = true ↔ P x)
    (items : List Value) : Prev P items ((items.find? p).bind (·.get "conditions")) := by
  cases hfound : items.find? p with
  | some x => exact .inl ⟨x, (find?_eq_some_iff_first h).mp hfound, rfl⟩
  | none =>
    refine .inr ⟨fun x hx hP => ?_, rfl⟩
    exact List.find?_eq_none.mp hfound x hx ((h x).mpr hP)

/-- An entry of ours for a parent. -/
def OurEntry (controllerName : String) (p : ParentReference) (x : Value) : Prop :=
  x.get "controllerName" = some (.string controllerName) ∧
    ∀ k ∈ ["namespace", "name", "sectionName", "port"],
      (x.index "parentRef").get k = (parentRefJson p).get k

/-- The conditions an entry holds: those of the patch, with the times of the live
ones. -/
def Holds (e : Value) (prev : Option Value) (now : String) (conds : List Condition) : Prop :=
  ∃ out, e.get "conditions" = some (.array out) ∧ Stamped prev now conds out

/-- What a merged status says of a patch. -/
def Says (controllerName : String) (live merged : Value) (now : String) : StatusPatch → Prop
  | .gatewayClass _ _ conditions _ => Holds merged (live.get "conditions") now conditions
  | .gateway _ _ _ conditions listeners =>
    Holds merged (live.get "conditions") now conditions ∧
    ∃ out, merged.get "listeners" = some (.array out) ∧
      List.Forall₂ (fun l e => e.get "name" = some (.string l.name) ∧
        ∃ prev, Prev (fun x => x.get "name" = some (.string l.name)) (itemsOf live "listeners") prev ∧
          Holds e prev now l.conditions) listeners out
  | .httpRoute _ _ parents =>
    ∃ out, merged.get "parents" = some (.array ((itemsOf live "parents").filter
        (fun x => decide (x.get "controllerName" ≠ some (.string controllerName))) ++ out)) ∧
      List.Forall₂ (fun p e => e.get "controllerName" = some (.string controllerName) ∧
        e.get "parentRef" = some (parentRefJson p.parentRef) ∧
        ∃ prev, Prev (OurEntry controllerName p.parentRef) (itemsOf live "parents") prev ∧
          Holds e prev now p.conditions) parents out

theorem ours_iff {x : Value} :
    ours controllerName x = true ↔ x.get "controllerName" = some (.string controllerName) := by
  rw [ours, decide_eq_true_eq, Value.index_eq_string]

theorem ourEntry_iff {p : ParentReference} (x : Value) :
    (ours controllerName x && sameParent (x.index "parentRef") (parentRefJson p)) = true ↔
      OurEntry controllerName p x := by
  rw [Bool.and_eq_true, ours_iff, sameParent, List.all_eq_true]
  simp only [decide_eq_true_eq, OurEntry]

theorem says_merged {p : StatusPatch} (h : Separate controllerName p) (live : Value) (now : String) :
    Says controllerName live
      (live.merge (.object (statusFields isIp controllerName p live now))) now p := by
  have hget := fun {name items} => @get_merged isIp controllerName p live now name items
  generalize live.merge (.object (statusFields isIp controllerName p live now)) = merged at hget ⊢
  cases p with
  | gatewayClass name uid conditions features => exact ⟨_, hget rfl, stamped_stamp _ _ _⟩
  | gateway ref uid addresses conditions listeners =>
    refine ⟨⟨_, hget rfl, stamped_stamp _ _ _⟩, _, hget rfl, ?_⟩
    rw [List.forall₂_map_right_iff, List.forall₂_same]
    intro l _
    refine ⟨rfl, _, prev_find? (fun x => ?_) _, _, rfl, stamped_stamp _ _ _⟩
    rw [decide_eq_true_eq, Value.index_eq_string]
  | httpRoute ref uid parents =>
    have hothers : (itemsOf live "parents").filter (fun x => !ours controllerName x) =
        (itemsOf live "parents").filter
          (fun x => decide (x.get "controllerName" ≠ some (.string controllerName))) := by
      refine List.filter_congr fun x _ => ?_
      rw [Bool.eq_iff_iff, Bool.not_eq_true', ← Bool.not_eq_true, ours_iff, decide_eq_true_eq]
    have hparents : merged.get "parents" = some (.array (_ ++
      parents.map (parentJson controllerName live now))) := hget rfl
    rw [hothers] at hparents
    refine ⟨_, hparents, ?_⟩
    rw [List.forall₂_map_right_iff, List.forall₂_same]
    intro p hp
    exact ⟨congrArg (fun c => some (Value.string c)) (h.2 p hp).1, rfl, _,
      prev_find? ourEntry_iff _, _, rfl, stamped_stamp _ _ _⟩

/-- Once a body is merged, the next write computes the same. -/
theorem body_written {p : StatusPatch} (h : Separate controllerName p) (object : Value)
    (now later : String) :
    body isIp controllerName p
        ((written isIp controllerName p object now).index "status") later =
      body isIp controllerName p (object.index "status") now := by
  rw [index_written, body, statusFields_again h, body]

/-- For a patch whose entries are told apart, any object and any times: once its
body is merged, the next write computes the same body; each condition has the time
of the first live condition of its type and status, of the same listener or parent
of ours, if that has one, and `now` otherwise; and a route's entries of other
controllers are kept as they are and in order, ours being those of the patch. -/
theorem status_writes_converge (isIp : String → Bool) (controllerName : String) (p : StatusPatch)
    (h : Separate controllerName p) (object : Value) (now later : String) :
    body isIp controllerName p
        ((written isIp controllerName p object now).index "status") later =
      body isIp controllerName p (object.index "status") now ∧
    Says controllerName (object.index "status")
      ((written isIp controllerName p object now).index "status") now p := by
  refine ⟨body_written h object now later, ?_⟩
  rw [index_written]
  exact says_merged h _ now

end

def accepted : Condition where
  type := "Accepted"
  status := .true
  reason := "Accepted"
  message := ""
  observedGeneration := some 3

def resolved : Condition := { accepted with type := "ResolvedRefs", reason := "ResolvedRefs" }

def mainParent : ParentReference := { «namespace» := some "infra", name := "main" }

def routePatch : StatusPatch :=
  .httpRoute ⟨"apps", "echo"⟩ none [⟨mainParent, "gapura.dev/controller", [accepted, resolved]⟩]

/-- An entry of another controller, without a parent. -/
def foreignEntry : Value := .object [("controllerName", .string "other/controller")]

/-- A route that another controller and ours hold entries of, ours for a parent it no
longer names and for one whose references did not resolve. -/
def routeObject : Value :=
  .object [("status", .object [("parents", .array [
    .object [("controllerName", .string "gapura.dev/controller"),
      ("parentRef", .object [("name", .string "old")])],
    .object [("controllerName", .string "gapura.dev/controller"),
      ("parentRef", parentRefJson mainParent),
      ("conditions", .array [conditionJson accepted "2026-01-01T00:00:00Z",
        conditionJson { resolved with status := .false } "2026-01-01T00:00:00Z"])],
    foreignEntry])])]

theorem status_writes_converge_route :
    ((written (fun _ => false) "gapura.dev/controller" routePatch routeObject "now").index
        "status").get "parents" = some (.array [foreignEntry, .object
      [("parentRef", parentRefJson mainParent),
        ("controllerName", .string "gapura.dev/controller"),
        ("conditions", .array [conditionJson accepted "2026-01-01T00:00:00Z",
          conditionJson resolved "now"])]]) ∧
    body (fun _ => false) "gapura.dev/controller" routePatch
        ((written (fun _ => false) "gapura.dev/controller" routePatch routeObject "now").index
          "status") "later" =
      body (fun _ => false) "gapura.dev/controller" routePatch (routeObject.index "status") "now" := by
  have hseparate : Separate "gapura.dev/controller" routePatch := by
    simp [Separate, routePatch, accepted, resolved]
  exact ⟨rfl, (status_writes_converge (fun _ => false) _ routePatch hseparate routeObject "now"
    "later").1⟩

/-- Two live conditions of one type and status, the second with a time. -/
def twiceAccepted : List Value :=
  [.object [("type", .string "Accepted"), ("status", .string "True")],
    .object [("type", .string "Accepted"), ("status", .string "True"),
      ("lastTransitionTime", .string "2026-01-01T00:00:00Z")]]

/-- A live status may have a condition of the type, the same status and a time, and
yet the condition is stamped anew: only the first of them is looked at. -/
theorem second_time_not_kept :
    (∃ p ∈ twiceAccepted, Matches accepted p ∧
      p.get "lastTransitionTime" = some (.string "2026-01-01T00:00:00Z")) ∧
    stamp [accepted] (some (.array twiceAccepted)) "now" = [conditionJson accepted "now"] :=
  ⟨⟨_, List.mem_cons_of_mem _ List.mem_cons_self, ⟨rfl, rfl⟩, rfl⟩, rfl⟩

end Gapura.Source.Status
