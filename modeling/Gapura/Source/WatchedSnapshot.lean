import Gapura.Source.Watch

/-! # The watched snapshot is the cluster's

What the watcher told of a kind is a list of words, each an object with its
document or without. The words that count are those since the last complete list,
which counts as a whole once it is complete; the last word about an object
decides. The state keeps in step with the words after every change: the snapshot,
the known references and the published addresses are read off them. -/
namespace Gapura.Source.Watch
open Std (TreeMap TreeSet LawfulEqCmp)
open Lib.Json Core.Input

/-! ## What was told -/

/-- An object with its document, or with none where it is gone. -/
abbrev Word := ObjectRef × Option Value

structure Heard where
  /-- The words of a list in progress. -/
  relist : List Word := []
  /-- The words that count. -/
  told : List Word := []

def hear (kind : String) (h : Heard) : Change → Heard
  | .init k => if k = kind then { h with relist := [] } else h
  | .upsert k r doc true => if k = kind then { h with relist := h.relist ++ [(r, doc)] } else h
  | .upsert k r doc false => if k = kind then { h with told := h.told ++ [(r, doc)] } else h
  | .delete k r => if k = kind then { h with told := h.told ++ [(r, none)] } else h
  | .initDone k => if k = kind then { relist := [], told := h.relist } else h

def heard (kind : String) (changes : List Change) : Heard := changes.foldl (hear kind) {}

theorem heard_concat (kind : String) (changes : List Change) (c : Change) :
    heard kind (changes ++ [c]) = hear kind (heard kind changes) c := by
  rw [heard, List.foldl_concat]
  rfl

def lastWord (words : List Word) (r : ObjectRef) : Option (Option Value) :=
  (words.reverse.find? fun w => w.1 = r).map (·.2)

/-- The document an object stands with: the last word about it, if that is a
document the schema accepts. -/
def standing (schema : Schema) (words : List Word) (r : ObjectRef) : Option Value :=
  (lastWord words r).bind (·.filter fun d => (accepted schema d).isSome)

theorem lastWord_concat (words : List Word) (w : Word) (r : ObjectRef) :
    lastWord (words ++ [w]) r = if w.1 = r then some w.2 else lastWord words r := by
  simp only [lastWord, List.reverse_append, List.reverse_singleton, List.singleton_append,
    List.find?_cons]
  by_cases h : w.1 = r
  · simp [h]
  · simp [h]

variable {words : List Word}

theorem lastWord_eq_none {r : ObjectRef} : lastWord words r = none ↔ ∀ w ∈ words, w.1 ≠ r := by
  simp [lastWord]

theorem mem_of_lastWord {r : ObjectRef} {doc : Option Value}
    (h : lastWord words r = some doc) : (r, doc) ∈ words := by
  obtain ⟨w, hw, rfl⟩ := Option.map_eq_some_iff.mp h
  have hr : w.1 = r := by simpa using List.find?_some hw
  have hmem := List.mem_of_find?_eq_some hw
  rw [← hr]
  exact List.mem_reverse.mp hmem

/-! ## Views

A view says which document each object of each kind stands with. -/

abbrev View := String → ObjectRef → Option Value

/-- A view after one more word. -/
def tell (schema : Schema) (kind : String) (W : View) (w : Word) : View := fun kind' r =>
  if kind' = kind ∧ r = w.1 then w.2.filter fun d => (accepted schema d).isSome else W kind' r

theorem foldl_tell (schema : Schema) (kind : String) (words : List Word) (W : View) (kind' : String)
    (r : ObjectRef) :
    words.foldl (tell schema kind) W kind' r =
      if kind' = kind then
        ((lastWord words r).map (·.filter fun d => (accepted schema d).isSome)).getD (W kind' r)
      else W kind' r := by
  induction words using List.reverseRecOn with
  | nil => simp [lastWord]
  | append_singleton words w ih =>
    rw [List.foldl_concat, tell, ih, lastWord_concat]
    by_cases hkind : kind' = kind
    · by_cases hr : w.1 = r
      · simp [hkind, hr]
      · simp [hkind, hr, Ne.symm hr]
    · simp [hkind]

/-- The view the words of a run of changes give. -/
def view (schema : Schema) (changes : List Change) : View := fun kind =>
  standing schema (heard kind changes).told

/-! ## A state in step with a view -/

/-- What is asked of a word: its reference is one the kind's objects have, and a
document the schema accepts is of the kind and of the object it is told of. -/
def Agreed (schema : Schema) (kind : String) (w : Word) : Prop :=
  (∀ k : Kind, k.name = kind → Scoped k w.1) ∧
    ∀ d o, w.2 = some d → accepted schema d = some o → o.kind.name = kind ∧ o.ref = w.1

def Change.Agrees (schema : Schema) : Change → Prop
  | .upsert kind r doc _ => Agreed schema kind (r, doc)
  | .delete kind r => Agreed schema kind (r, none)
  | .init _ | .initDone _ => True

structure Tells (schema : Schema) (s : State) (W : View) : Prop where
  snapshot : ∀ k r, s.snapshot.find k r = (W k.name r).bind (accepted schema)
  known : ∀ kind r, s.knows kind r = (W kind r).isSome
  addresses : s.addresses = ((s.publish.bind (W "Service")).map addressesOf).getD []
  object : ∀ kind r d, W kind r = some d →
    ∃ o, accepted schema d = some o ∧ o.kind.name = kind ∧ o.ref = r ∧ Scoped o.kind r

/-- What one step of the code makes of a state and its view. -/
structure Moved (schema : Schema) (s : State) (W : View) (out : State × Bool) (W' : View) :
    Prop where
  tells : Tells schema out.1 W'
  same : out.2 = false → W' = W
  publish : out.1.publish = s.publish
  pending : out.1.pending = s.pending

section
variable {schema : Schema} {s : State} {W : View} {kind : String} {r : ObjectRef}

theorem knows_drop (s : State) (kind : String) (r : ObjectRef) (kind' : String) (r' : ObjectRef) :
    (s.drop kind r).1.knows kind' r' =
      if kind' = kind ∧ r' = r then false else s.knows kind' r' := by
  change Option.any (·.contains r') (forget s.known kind r)[kind']? = _
  unfold forget
  by_cases hkind : kind' = kind
  · subst hkind
    cases hrefs : s.known[kind']? with
    | none => simp [hrefs, State.knows]
    | some refs =>
      by_cases hr : r' = r
      · simp [hr, TreeSet.contains_erase]
      · simp [hr, hrefs, State.knows, TreeSet.contains_erase, Ne.symm hr]
  · rw [if_neg fun h => hkind h.1]
    cases hrefs : s.known[kind]? with
    | none => rfl
    | some refs =>
      simp [State.knows, TreeMap.getElem?_insert, Ne.symm hkind]

theorem knows_insert (s : State) (kind : String) (r : ObjectRef) (addresses : List String)
    (snapshot : Snapshot) (kind' : String) (r' : ObjectRef) :
    State.knows { s with
        addresses
        snapshot
        known := s.known.insert kind ((s.known.getD kind ∅).insert r) } kind' r' =
      if kind' = kind ∧ r' = r then true else s.knows kind' r' := by
  unfold State.knows
  by_cases hkind : kind' = kind
  · subst hkind
    by_cases hr : r' = r
    · simp [hr]
    · cases hrefs : s.known[kind']? with
      | none => simp [hr, hrefs, TreeMap.getD_eq_getD_getElem?, TreeSet.contains_insert, Ne.symm hr]
      | some refs =>
        simp [hr, hrefs, TreeMap.getD_eq_getD_getElem?, TreeSet.contains_insert, Ne.symm hr]
  · simp [TreeMap.getElem?_insert, hkind, Ne.symm hkind]

theorem find_drop (hscoped : ∀ k : Kind, k.name = kind → Scoped k r) (k' : Kind) (r' : ObjectRef) :
    (s.drop kind r).1.snapshot.find k' r' =
      if k'.name = kind ∧ r' = r then none else s.snapshot.find k' r' := by
  change (s.snapshot.remove kind r).1.find k' r' = _
  cases hnamed : Kind.named kind with
  | none =>
    have hne : k'.name ≠ kind := by
      intro he
      rw [← he, Kind.named_name] at hnamed
      cases hnamed
    rw [Snapshot.remove_of_unnamed hnamed, if_neg fun h => hne h.1]
  | some k =>
    obtain rfl := Kind.name_of_named hnamed
    rw [Snapshot.find_remove (hscoped k rfl)]
    by_cases hk : k = k'
    · simp [hk, eq_comm]
    · have hne : k'.name ≠ k.name := fun he => hk (Kind.name_inj he).symm
      simp [hk, hne]

/-- A word about the published Service replaces its addresses, no other does. -/
theorem addresses_tell (schema : Schema) (kind : String) (W : View) (publish : Option ObjectRef)
    (w : Word) :
    ((publish.bind (tell schema kind W w "Service")).map addressesOf).getD [] =
      if kind = "Service" ∧ publish = some w.1 then
        ((w.2.filter fun d => (accepted schema d).isSome).map addressesOf).getD []
      else ((publish.bind (W "Service")).map addressesOf).getD [] := by
  cases publish with
  | none => simp
  | some p =>
    simp only [tell, Option.bind_some, Option.some.injEq, @eq_comm _ kind]
    split <;> rfl

theorem drop_moved (h : Tells schema s W) (hscoped : ∀ k : Kind, k.name = kind → Scoped k r) :
    Moved schema s W (s.drop kind r) (tell schema kind W (r, none)) where
  tells := by
    refine ⟨?_, ?_, ?_, ?_⟩
    · intro k' r'
      rw [find_drop hscoped, tell, h.snapshot]
      split <;> rfl
    · intro kind' r'
      rw [knows_drop, tell, h.known]
      split <;> rfl
    · change (if kind = "Service" ∧ s.publish = some r then [] else s.addresses) =
        ((s.publish.bind _).map addressesOf).getD []
      rw [addresses_tell, h.addresses]
      rfl
    · intro kind' r' d hd
      unfold tell at hd
      split at hd
      · cases hd
      · exact h.object kind' r' d hd
  same := by
    intro hfalse
    have hunknown : s.knows kind r = false := (Bool.or_eq_false_iff.mp hfalse).2
    have hnone : W kind r = none := by
      rw [h.known] at hunknown
      exact Option.isNone_iff_eq_none.mp (Option.isSome_eq_false_iff.mp hunknown)
    funext kind' r'
    unfold tell
    split
    · rename_i heq
      rw [heq.1, heq.2, hnone]
      rfl
    · rfl
  publish := rfl
  pending := rfl

/-- Where the published Service is dropped, the addresses it had do not matter. -/
theorem drop_addresses (h : kind = "Service" ∧ s.publish = some r) (addresses : List String) :
    { s with addresses }.drop kind r = s.drop kind r := by
  simp [State.drop, State.knows, h]

theorem put_cases (schema : Schema) (s : State) (kind : String) (r : ObjectRef)
    (doc : Option Value) :
    (∃ d o, doc = some d ∧ accepted schema d = some o ∧ s.put schema kind r doc =
      ({ s with
          addresses := if kind = "Service" ∧ s.publish = some r then addressesOf d else s.addresses
          snapshot := s.snapshot.put o
          known := s.known.insert kind ((s.known.getD kind ∅).insert r) }, true)) ∨
    (doc.filter (fun d => (accepted schema d).isSome) = none ∧
      s.put schema kind r doc = s.drop kind r) := by
  by_cases hpublish : kind = "Service" ∧ s.publish = some r
  · cases doc with
    | none => exact .inr ⟨rfl, by simp only [State.put, if_pos hpublish, drop_addresses hpublish]⟩
    | some d =>
      obtain ⟨o, hacc, hin⟩ | ⟨hacc, e, hin⟩ := insertJson_cases schema s.snapshot d
      · refine .inl ⟨d, o, rfl, hacc, ?_⟩
        simp only [State.put, if_pos hpublish, hin]
        rfl
      · refine .inr ⟨by simp [hacc], ?_⟩
        simp only [State.put, if_pos hpublish, hin, drop_addresses hpublish]
  · cases doc with
    | none => exact .inr ⟨rfl, by simp only [State.put, if_neg hpublish]⟩
    | some d =>
      obtain ⟨o, hacc, hin⟩ | ⟨hacc, e, hin⟩ := insertJson_cases schema s.snapshot d
      · refine .inl ⟨d, o, rfl, hacc, ?_⟩
        simp only [State.put, if_neg hpublish, hin]
      · refine .inr ⟨by simp [hacc], ?_⟩
        simp only [State.put, if_neg hpublish, hin]

theorem put_moved {doc : Option Value} (h : Tells schema s W)
    (hagreed : Agreed schema kind (r, doc)) :
    Moved schema s W (s.put schema kind r doc) (tell schema kind W (r, doc)) := by
  obtain ⟨d, o, rfl, hacc, hput⟩ | ⟨hnone, hput⟩ := put_cases schema s kind r doc
  · obtain ⟨rfl, href⟩ := hagreed.2 d o rfl hacc
    have hscoped : Scoped o.kind o.ref := href ▸ hagreed.1 o.kind rfl
    have hstands : (some d).filter (fun d => (accepted schema d).isSome) = some d := by simp [hacc]
    rw [hput]
    refine ⟨⟨?_, ?_, ?_, ?_⟩, nofun, rfl, rfl⟩
    · intro k' r'
      rw [Snapshot.find_put hscoped, href, tell, h.snapshot]
      by_cases hk : o.kind = k'
      · subst hk
        by_cases hr : r' = r
        · simp [hr, hstands, hacc]
        · simp [hr, Ne.symm hr]
      · have hne : k'.name ≠ o.kind.name := fun he => hk (Kind.name_inj he).symm
        simp [hk, hne]
    · intro kind' r'
      rw [knows_insert, h.known, tell]
      split
      · rw [hstands]
        rfl
      · rfl
    · change (if o.kind.name = "Service" ∧ s.publish = some r then addressesOf d else s.addresses) =
        ((s.publish.bind _).map addressesOf).getD []
      rw [addresses_tell, h.addresses, hstands]
      rfl
    · intro kind' r' d' hd'
      unfold tell at hd'
      split at hd'
      · rename_i heq
        rw [hstands] at hd'
        cases hd'
        exact ⟨o, hacc, heq.1.symm, href.trans heq.2.symm, heq.2 ▸ href ▸ hscoped⟩
      · exact h.object kind' r' d' hd'
  · have htell : tell schema kind W (r, doc) = tell schema kind W (r, none) := by
      funext kind' r'
      simp [tell, hnone]
    rw [hput, htell]
    exact drop_moved h hagreed.1

/-! ## Whole lists -/

variable {acc : State × Bool}

theorem Moved.also {W' W'' : View} {f : State → State × Bool}
    (hacc : Moved schema s W acc W') (hf : Moved schema acc.1 W' (f acc.1) W'') :
    Moved schema s W (State.also f acc) W'' where
  tells := hf.tells
  same := by
    intro hfalse
    obtain ⟨hfirst, hsecond⟩ := Bool.or_eq_false_iff.mp hfalse
    rw [hf.same hsecond, hacc.same hfirst]
  publish := hf.publish.trans hacc.publish
  pending := hf.pending.trans hacc.pending

theorem Moved.foldl {W' : View} {words : List Word}
    (f : Word → State → State × Bool) (hacc : Moved schema s W acc W')
    (hf : ∀ w ∈ words, ∀ t W, Tells schema t W → Moved schema t W (f w t) (tell schema kind W w)) :
    Moved schema s W (words.foldl (fun acc w => State.also (f w) acc) acc)
      (words.foldl (tell schema kind) W') := by
  induction words generalizing acc W' with
  | nil => exact hacc
  | cons w rest ih =>
    obtain ⟨hw, hrest⟩ := List.forall_mem_cons.mp hf
    exact ih (hacc.also (hw acc.1 W' hacc.tells)) hrest

theorem mem_stale {items : List Word} :
    r ∈ s.stale kind items ↔ s.knows kind r = true ∧ lastWord items r = none := by
  have hknows : r ∈ (s.known.getD kind ∅).toList ↔ s.knows kind r = true := by
    rw [TreeSet.mem_toList, TreeMap.getD_eq_getD_getElem?, State.knows]
    cases s.known[kind]? with
    | none => simp
    | some refs => simp [TreeSet.contains_iff_mem]
  rw [State.stale, List.mem_filter, hknows, lastWord_eq_none]
  refine and_congr_right fun _ => ?_
  simp only [TreeSet.contains_ofList, List.contains_eq_mem, List.mem_map, Bool.not_eq_true',
    decide_eq_false_iff_not, not_exists, not_and, ne_eq]

theorem scoped_of_knows (h : Tells schema s W) (hknows : s.knows kind r = true) (k : Kind)
    (hk : k.name = kind) : Scoped k r := by
  rw [h.known] at hknows
  obtain ⟨d, hd⟩ := Option.isSome_iff_exists.mp hknows
  obtain ⟨o, -, hkind, -, hscoped⟩ := h.object kind r d hd
  rwa [Kind.name_inj (hk.trans hkind.symm)]

/-- What is told of a kind once its stale objects are gone and a list is through. -/
theorem tell_list (h : Tells schema s W) (items : List Word) :
    items.foldl (tell schema kind)
        (((s.stale kind items).map fun r => (r, none)).foldl (tell schema kind) W) =
      fun kind' r => if kind' = kind then standing schema items r else W kind' r := by
  funext kind' r
  simp only [foldl_tell]
  by_cases hkind : kind' = kind
  · subst hkind
    simp only [if_true, standing]
    cases hitem : lastWord items r with
    | some doc => rfl
    | none =>
      -- no word of the list is about the object: it was stale or not known at all
      simp only [Option.map_none, Option.getD_none, Option.bind_none]
      cases hgone : lastWord ((s.stale kind' items).map fun r => (r, none)) r with
      | some doc =>
        obtain ⟨_, -, heq⟩ := List.mem_map.mp (mem_of_lastWord hgone)
        cases heq
        rfl
      | none =>
        have hunknown : s.knows kind' r = false := by
          by_contra hknown
          have hstale : r ∈ s.stale kind' items :=
            mem_stale.mpr ⟨Bool.not_eq_false _ ▸ hknown, hitem⟩
          exact lastWord_eq_none.mp hgone _ (List.mem_map_of_mem hstale) rfl
        rw [h.known] at hunknown
        exact Option.isNone_iff_eq_none.mp (Option.isSome_eq_false_iff.mp hunknown)
  · simp [hkind]

/-- A complete list replaces what was told of its kind. -/
theorem initDone_moved (h : Tells schema s W)
    (hitems : ∀ w ∈ s.pending.getD kind [], Agreed schema kind w) :
    Moved schema { s with pending := s.pending.erase kind } W (s.apply schema (.initDone kind))
      fun kind' r =>
        if kind' = kind then standing schema (s.pending.getD kind []) r else W kind' r := by
  have hstart : Moved schema { s with pending := s.pending.erase kind } W
      ({ s with pending := s.pending.erase kind }, false) W :=
    ⟨⟨h.snapshot, h.known, h.addresses, h.object⟩, fun _ => rfl, rfl, rfl⟩
  have hdrops : ∀ w ∈ (s.stale kind (s.pending.getD kind [])).map fun r => (r, none),
      ∀ t W, Tells schema t W → Moved schema t W (t.drop kind w.1) (tell schema kind W w) := by
    intro w hw t W ht
    obtain ⟨r, hr, rfl⟩ := List.mem_map.mp hw
    exact drop_moved ht (scoped_of_knows h (mem_stale.mp hr).1)
  have hputs := (hstart.foldl (fun w t => t.drop kind w.1) hdrops).foldl
    (fun w t => t.put schema kind w.1 w.2) fun w hw t W ht => put_moved ht (hitems w hw)
  rw [tell_list h, List.foldl_map] at hputs
  refine ⟨⟨hputs.tells.snapshot, hputs.tells.known, hputs.tells.addresses, hputs.tells.object⟩,
    fun hfalse => hputs.same (Bool.or_eq_false_iff.mp hfalse).1, hputs.publish, hputs.pending⟩

end

/-! ## Whole runs -/

/-- A state in step with the changes that led to it. -/
structure Follows (schema : Schema) (publish : Option ObjectRef) (changes : List Change)
    (s : State) : Prop where
  tells : Tells schema s (view schema changes)
  pending : ∀ kind, s.pending.getD kind [] = (heard kind changes).relist
  agreed : ∀ kind, ∀ w ∈ (heard kind changes).relist, Agreed schema kind w
  publish : s.publish = publish

section
variable {schema : Schema} {publish : Option ObjectRef} {changes : List Change} {s : State}

theorem follows_new (schema : Schema) (publish : Option ObjectRef) :
    Follows schema publish [] (.new publish) where
  tells := by
    refine ⟨?_, ?_, ?_, ?_⟩
    · intro k r
      cases k with
      | gatewayClass | «namespace» => exact ite_self none
      | _ => rfl
    · exact fun kind r => rfl
    · cases publish <;> rfl
    · nofun
  pending := fun kind => rfl
  agreed := nofun
  publish := rfl

variable {c : Change}

section
variable (h : Follows schema publish changes s)

include h

theorem Follows.told {out : State × Bool}
    {kind : String} {w : Word}
    (hmoved : Moved schema s (view schema changes) out (tell schema kind (view schema changes) w))
    (hhear : ∀ kind' h, hear kind' h c =
      if kind = kind' then { h with told := h.told ++ [w] } else h) :
    Follows schema publish (changes ++ [c]) out.1 ∧
      (out.2 = false → view schema (changes ++ [c]) = view schema changes) := by
  have hview : view schema (changes ++ [c]) = tell schema kind (view schema changes) w := by
    funext kind' r
    simp only [view, heard_concat, hhear, tell]
    by_cases hkind : kind = kind'
    · subst hkind
      simp only [if_true, true_and, standing, lastWord_concat, @eq_comm _ r]
      split <;> rfl
    · simp [hkind, Ne.symm hkind]
  have hrelist : ∀ kind', (heard kind' (changes ++ [c])).relist = (heard kind' changes).relist := by
    intro kind'
    rw [heard_concat, hhear]
    split <;> rfl
  refine ⟨⟨hview ▸ hmoved.tells, ?_, ?_, hmoved.publish.trans h.publish⟩,
    fun hfalse => hview.trans (hmoved.same hfalse)⟩
  · intro kind'
    rw [hmoved.pending, hrelist, h.pending]
  · intro kind'
    rw [hrelist]
    exact h.agreed kind'

/-- A change to the list in progress only: what counts is as before. -/
theorem Follows.listed {kind : String}
    (f : List Word → List Word) (hhear : ∀ kind' h, hear kind' h c =
      if kind = kind' then { h with relist := f h.relist } else h)
    (hagreed : ∀ w ∈ f (heard kind changes).relist, Agreed schema kind w) :
    Follows schema publish (changes ++ [c])
        { s with pending := s.pending.insert kind (f (s.pending.getD kind [])) } ∧
      (false = false → view schema (changes ++ [c]) = view schema changes) := by
  have hview : view schema (changes ++ [c]) = view schema changes := by
    funext kind'
    rw [view, view, heard_concat, hhear]
    split <;> rfl
  refine ⟨⟨?_, ?_, ?_, h.publish⟩, fun _ => hview⟩
  · rw [hview]
    exact ⟨h.tells.snapshot, h.tells.known, h.tells.addresses, h.tells.object⟩
  · intro kind'
    simp only [TreeMap.getD_insert, LawfulEqCmp.compare_eq_iff_eq, heard_concat, hhear, h.pending]
    split
    · rename_i hkind
      rw [hkind]
    · rfl
  · intro kind'
    rw [heard_concat, hhear]
    split
    · rename_i hkind
      exact hkind ▸ hagreed
    · exact h.agreed kind'

/-- The end of a list: its words are those that count. -/
theorem Follows.complete (kind : String) :
    Follows schema publish (changes ++ [.initDone kind]) (s.apply schema (.initDone kind)).1 ∧
      ((s.apply schema (.initDone kind)).2 = false →
        view schema (changes ++ [.initDone kind]) = view schema changes) := by
  have hitems : ∀ w ∈ s.pending.getD kind [], Agreed schema kind w := by
    rw [h.pending]
    exact h.agreed kind
  have hmoved := initDone_moved h.tells hitems
  have hview : view schema (changes ++ [.initDone kind]) = fun kind' r =>
      if kind' = kind then standing schema (s.pending.getD kind []) r
      else view schema changes kind' r := by
    funext kind' r
    simp only [view, heard_concat, hear, h.pending, @eq_comm _ kind']
    split
    · rename_i hkind
      rw [hkind]
    · rfl
  refine ⟨⟨hview ▸ hmoved.tells, ?_, ?_, hmoved.publish.trans h.publish⟩,
    fun hfalse => hview.trans (hmoved.same hfalse)⟩
  · intro kind'
    rw [hmoved.pending, heard_concat, hear, TreeMap.getD_erase, h.pending]
    simp only [LawfulEqCmp.compare_eq_iff_eq]
    split <;> rfl
  · intro kind'
    rw [heard_concat, hear]
    split
    · simp
    · exact h.agreed kind'

theorem Follows.step (hc : c.Agrees schema) :
    Follows schema publish (changes ++ [c]) (s.apply schema c).1 ∧
      ((s.apply schema c).2 = false → view schema (changes ++ [c]) = view schema changes) := by
  cases c with
  | init kind => exact h.listed (fun _ => []) (fun _ _ => rfl) (by simp)
  | upsert kind r doc initial =>
    cases initial with
    | true =>
      refine h.listed (· ++ [(r, doc)]) (fun _ _ => rfl) ?_
      intro w hw
      rcases List.mem_append.mp hw with hold | hnew
      · exact h.agreed kind w hold
      · obtain rfl := List.mem_singleton.mp hnew
        exact hc
    | false => exact h.told (put_moved h.tells hc) fun _ _ => rfl
  | delete kind r => exact h.told (drop_moved h.tells hc.1) fun _ _ => rfl
  | initDone kind => exact h.complete kind

end

theorem follows_run (schema : Schema) (publish : Option ObjectRef)
    (hagrees : ∀ c ∈ changes, c.Agrees schema) :
    Follows schema publish changes (.run schema publish changes) := by
  induction changes using List.reverseRecOn with
  | nil => exact follows_new schema publish
  | append_singleton changes c ih =>
    obtain ⟨hbefore, hc⟩ := List.forall_mem_append.mp hagrees
    have hfollows := ih hbefore
    rw [State.run, List.foldl_concat]
    exact (hfollows.step (hc c (List.mem_singleton_self c))).1

/-- Only the changes since a list was started count for it. -/
theorem relist_after_init (kind : String) (before since : List Change) :
    (heard kind (before ++ .init kind :: since)).relist = (heard kind since).relist := by
  induction since using List.reverseRecOn with
  | nil =>
    rw [heard_concat, hear, if_pos rfl]
    rfl
  | append_singleton since c ih =>
    rw [← List.cons_append, ← List.append_assoc, heard_concat, heard_concat]
    cases c with
    | upsert k r doc initial =>
      cases initial <;> (simp only [hear]; split <;> simp [ih])
    | _ => simp only [hear]; split <;> simp [ih]

end

/-! ## Projected documents agree -/

section
variable {schema : Schema} {kind : Kind} {obj : DynamicObject} {doc : Value}

/-- A document that carries its kind and the object's name and namespace. -/
structure Carries (kind : Kind) (obj : DynamicObject) (doc : Value) : Prop where
  kind : doc.get "kind" = some (.string kind.name)
  metadata : ∃ m, doc.get "metadata" = some m ∧ m.get "name" = obj.name.map .string ∧
    m.get "namespace" = obj.namespace.map .string

variable {doc' : Value}

theorem Carries.of_get_eq (h : Carries kind obj doc) (hkind : doc'.get "kind" = doc.get "kind")
    (hmeta : doc'.get "metadata" = doc.get "metadata") : Carries kind obj doc' :=
  ⟨hkind ▸ h.kind, hmeta ▸ h.metadata⟩

theorem Carries.projectStatus (h : Carries kind obj doc) :
    Carries kind obj (projectStatus kind doc) := by
  cases kind with
  | service => exact h
  | httpRoute =>
    exact h.of_get_eq (Value.get_set_of_ne (by simp) _ _) (Value.get_set_of_ne (by simp) _ _)
  | _ =>
    exact h.of_get_eq (Value.get_without_of_ne (by simp) _) (Value.get_without_of_ne (by simp) _)

theorem Carries.projectData (h : Carries kind obj doc)
    (hdoc : projectData kind doc = some doc') : Carries kind obj doc' := by
  have hset : ∀ data, Carries kind obj (doc.set "data" data) := fun data =>
    h.of_get_eq (Value.get_set_of_ne (by simp) _ _) (Value.get_set_of_ne (by simp) _ _)
  cases kind with
  | configMap =>
    obtain ⟨ca, -, hca⟩ := Option.bind_eq_some_iff.mp hdoc
    cases hca
    exact hset _
  | _ =>
    cases hdoc
    first | exact h | exact hset _

theorem project_carries (h : project kind obj = some doc) : Carries kind obj doc := by
  obtain ⟨fields, hfields, hdoc⟩ := Option.bind_eq_some_iff.mp h
  obtain ⟨m, hmeta, hname, hns⟩ := obj.metadata fields hfields
  refine Carries.projectData (Carries.projectStatus ?_) hdoc
  have hset : ((Value.object fields).set "kind" (.string kind.name)).get "metadata" =
      some (.object m) := (Value.get_set_of_ne (by simp) _ _).trans hmeta
  refine ⟨?_, _, Value.get_modify_self hset, ?_, ?_⟩
  · rw [Value.get_modify_of_ne (by simp), Value.get_set_object, if_pos rfl]
  · rw [Value.get_modify_of_ne (by simp), Value.get_without_of_ne (by simp)]
    exact hname
  · rw [Value.get_modify_of_ne (by simp), Value.get_without_of_ne (by simp)]
    exact hns

theorem project_agreed (hname : obj.name.isSome = true) (hscoped : Scoped kind (objectRef obj)) :
    Agreed schema kind.name (objectRef obj, project kind obj) := by
  refine ⟨fun k hk => Kind.name_inj hk ▸ hscoped, ?_⟩
  intro doc o hdoc hacc
  obtain ⟨n, hn⟩ := Option.isSome_iff_exists.mp hname
  obtain ⟨hkind, m, hmeta, hmname, hmns⟩ := project_carries hdoc
  have hdecode : schema.decode kind doc = .ok o := by
    simp only [accepted, hkind, Option.bind_some, Value.asStr, Kind.named_name] at hacc
    cases hresult : schema.decode kind doc with
    | error e =>
      rw [hresult] at hacc
      cases hacc
    | ok o' =>
      rw [hresult] at hacc
      cases hacc
      rfl
  cases m with
  | object fields =>
    refine ⟨congrArg Kind.name (schema.kind_eq hdecode), (schema.ref_eq hdecode hmeta).trans ?_⟩
    have hmname : fields.lookup "name" = obj.name.map .string := hmname
    have hmns : fields.lookup "namespace" = obj.namespace.map .string := hmns
    rw [hmname, hmns, hn, objectRef, hn]
    cases obj.namespace <;> rfl
  | _ =>
    rw [hn] at hmname
    cases hmname

/-- The objects an event is about. -/
def Event.object : Event → Option DynamicObject
  | .initApply o | .apply o | .delete o => some o
  | .init | .initDone => none

/-- A watcher's own changes agree: its objects have names, and namespaces where
their kind has any. -/
theorem changeOf_agrees {e : Event} (hname : ∀ o ∈ e.object, o.name.isSome = true)
    (hscoped : ∀ o ∈ e.object, Scoped kind (objectRef o)) : (changeOf kind e).Agrees schema := by
  cases e with
  | init | initDone => trivial
  | initApply o | apply o => exact project_agreed (hname o rfl) (hscoped o rfl)
  | delete o =>
    refine ⟨fun k hk => Kind.name_inj hk ▸ hscoped o rfl, fun _ _ hdoc => ?_⟩
    cases hdoc

end

/-! ## The snapshot, the references and the addresses -/

/-- After every run of changes the snapshot of each kind is what the watcher told:
the objects whose last word is a document the schema accepts, among the words of
the last complete list and those since. Right after a list is complete those are
the words since it was started, however often it was started before. The known
references are the snapshot's, the addresses those of the published Service, and a
change that reports nothing changed neither. -/
theorem watched_snapshot_is_clusters (schema : Schema) (publish : Option ObjectRef)
    (changes : List Change) (hagrees : ∀ c ∈ changes, c.Agrees schema) :
    let s := State.run schema publish changes
    (∀ k r, s.snapshot.find k r =
      (standing schema (heard k.name changes).told r).bind (accepted schema)) ∧
    (∀ (k : Kind) (before : List Change), changes = before ++ [Change.initDone k.name] →
      ∀ r, s.snapshot.find k r =
        (standing schema (heard k.name before).relist r).bind (accepted schema)) ∧
    (∀ (k : Kind) (before since : List Change),
      changes = before ++ Change.init k.name :: since ++ [Change.initDone k.name] →
      ∀ r, s.snapshot.find k r =
        (standing schema (heard k.name since).relist r).bind (accepted schema)) ∧
    (∀ k r, s.knows k.name r = (s.snapshot.find k r).isSome) ∧
    (∀ kind, Kind.named kind = none → ∀ r, s.knows kind r = false) ∧
    s.addresses = ((publish.bind (standing schema (heard "Service" changes).told)).map
      addressesOf).getD [] ∧
    ∀ c : Change, c.Agrees schema → (s.apply schema c).2 = false →
      (∀ k r, (s.apply schema c).1.snapshot.find k r = s.snapshot.find k r) ∧
        (s.apply schema c).1.addresses = s.addresses := by
  intro s
  have hfollows : Follows schema publish changes s := follows_run schema publish hagrees
  have hdone : ∀ (k : Kind) (before : List Change), changes = before ++ [Change.initDone k.name] →
      ∀ r, s.snapshot.find k r =
        (standing schema (heard k.name before).relist r).bind (accepted schema) := by
    intro k before hlast r
    rw [hfollows.tells.snapshot, view, hlast, heard_concat, hear, if_pos rfl]
  refine ⟨hfollows.tells.snapshot, hdone, ?_, ?_, ?_, ?_, ?_⟩
  · intro k before since hlast r
    rw [hdone k _ hlast, relist_after_init]
  · intro k r
    rw [hfollows.tells.known, hfollows.tells.snapshot]
    cases hview : view schema changes k.name r with
    | none => rfl
    | some d =>
      obtain ⟨o, hacc, -⟩ := hfollows.tells.object _ _ d hview
      rw [Option.bind_some, hacc]
      rfl
  · intro kind hnamed r
    rw [hfollows.tells.known]
    cases hview : view schema changes kind r with
    | none => rfl
    | some d =>
      obtain ⟨o, -, hkind, -⟩ := hfollows.tells.object _ _ d hview
      rw [← hkind, Kind.named_name] at hnamed
      cases hnamed
  · rw [hfollows.tells.addresses, hfollows.publish]
    rfl
  · intro c hc hfalse
    obtain ⟨hnext, hsame⟩ := hfollows.step hc
    rw [hnext.tells.addresses, hfollows.tells.addresses, hnext.publish, hfollows.publish,
      hsame hfalse]
    refine ⟨fun k r => ?_, rfl⟩
    rw [hnext.tells.snapshot, hfollows.tells.snapshot, hsame hfalse]

/-- A document with its kind and metadata only. -/
def bareDoc (kind : String) (r : ObjectRef) : Value :=
  .object [("kind", .string kind), ("metadata", .object
    [("name", .string r.name), ("namespace", .string r.namespace)])]

theorem bareDoc_agreed {k : Kind} {r : ObjectRef} (hscoped : Scoped k r) :
    Agreed bareSchema k.name (r, some (bareDoc k.name r)) := by
  refine ⟨fun k' hk => Kind.name_inj hk ▸ hscoped, ?_⟩
  intro d o hd hacc
  cases hd
  have hbare : accepted bareSchema (bareDoc k.name r) =
      some (.bare k { name := r.name, «namespace» := some r.namespace }) := by
    cases k <;> rfl
  rw [hbare] at hacc
  cases hacc
  cases k <;> exact ⟨rfl, rfl⟩

/-- A list of Gateways is interrupted and started again: what only the first had
does not appear. -/
def relisted : List Change :=
  [.init "Gateway",
    .upsert "Gateway" ⟨"infra", "a"⟩ (some (bareDoc "Gateway" ⟨"infra", "a"⟩)) true,
    .init "Gateway",
    .upsert "Gateway" ⟨"infra", "b"⟩ (some (bareDoc "Gateway" ⟨"infra", "b"⟩)) true,
    .initDone "Gateway"]

theorem watched_snapshot_is_clusters_relisted :
    (∀ c ∈ relisted, c.Agrees bareSchema) ∧
      (State.run bareSchema none relisted).snapshot.find .gateway ⟨"infra", "a"⟩ = none ∧
      ((State.run bareSchema none relisted).snapshot.find .gateway ⟨"infra", "b"⟩).isSome = true ∧
      (State.run bareSchema none relisted).knows "Gateway" ⟨"infra", "b"⟩ = true := by
  have hagrees : ∀ c ∈ relisted, c.Agrees bareSchema := by
    have hgateway : ∀ r, Scoped .gateway r := nofun
    simp only [relisted, List.forall_mem_cons]
    exact ⟨trivial, bareDoc_agreed (k := .gateway) (hgateway _), trivial,
      bareDoc_agreed (k := .gateway) (hgateway _), trivial, by simp⟩
  obtain ⟨hsnapshot, -, -, hknown, -⟩ :=
    watched_snapshot_is_clusters bareSchema none relisted hagrees
  have hb : ((State.run bareSchema none relisted).snapshot.find .gateway ⟨"infra", "b"⟩).isSome =
      true := by
    rw [hsnapshot]
    rfl
  refine ⟨hagrees, ?_, hb, ?_⟩
  · rw [hsnapshot]
    rfl
  · exact (hknown .gateway _).trans hb

/-- Two GatewayClasses of one name that claim a namespace, as none in a cluster
does, are two known references and one entry of the snapshot. -/
theorem namespaced_class_known_twice :
    let s := State.run bareSchema none
      [.upsert "GatewayClass" ⟨"a", "x"⟩ (some (bareDoc "GatewayClass" ⟨"a", "x"⟩)) false,
        .upsert "GatewayClass" ⟨"b", "x"⟩ (some (bareDoc "GatewayClass" ⟨"b", "x"⟩)) false]
    (accepted bareSchema (bareDoc "GatewayClass" ⟨"a", "x"⟩)).map Object.ref = some ⟨"a", "x"⟩ ∧
      (accepted bareSchema (bareDoc "GatewayClass" ⟨"b", "x"⟩)).map Object.ref = some ⟨"b", "x"⟩ ∧
      s.knows "GatewayClass" ⟨"a", "x"⟩ = true ∧ s.knows "GatewayClass" ⟨"b", "x"⟩ = true ∧
      s.snapshot.gatewayClasses.size = 1 := by
  refine ⟨rfl, rfl, ?_, ?_, ?_⟩ <;> decide

end Gapura.Source.Watch
