import Gapura.Control.Requirements
import Gapura.Source.KeySources

/-! # Fetching key documents, call after call

A source has one slot for a running fetch and two clocks: when the next fetch is
due, and when an unknown key id last asked for one. The scheduled fetches and
those asked for are each kept apart by their own clock, so together they are few;
and a document is only ever replaced by one that can be used. -/
namespace Gapura.Jwks
open Gapura.Core
open Control.Consumers (KeyCrates JwksError holdsASecret)
open Std (TreeMap TreeSet TransOrd LawfulEqOrd)

def errorText : JwksError → String
  | .unreadable => "not a JWKS document"
  | .noUsableKey skipped => "no usable key (" ++ toString skipped ++ " unusable)"

/-- A document the verifier may use. -/
def usable (crates : KeyCrates) (answer : Answer) : Except String Answer :=
  if holdsASecret crates answer.document then
    .error "the document holds an oct key or a private key, which is refused"
  else match Control.Consumers.keys crates answer.document with
    | .error e => .error (errorText e)
    | .ok _ => .ok answer

/-- One call of `refresh`, with what became of the fetches it waited for. -/
structure Call where
  config : Config
  now : Nat
  kidMiss : Bool
  outcome : Source → Option (Except String Answer)
  nowSecs : Int

section
variable (crates : KeyCrates)

def Call.fetching (c : Call) : Fetching where
  outcome := c.outcome
  usable := usable crates
  nowSecs := c.nowSecs

def Call.refresh (keys : KeySources) (c : Call) : KeySources :=
  (Jwks.refresh keys c.config c.now c.kidMiss (c.fetching crates)).1

def refreshAll (keys : KeySources) (calls : List Call) : KeySources :=
  calls.foldl (Call.refresh crates) keys

/-! ## What a call does with one source -/

/-- One call as one source saw it. -/
structure Round where
  now : Nat
  /-- The slot was free before the call and taken after its start. -/
  started : Bool
  /-- The clock of unknown key ids moved. -/
  asked : Bool
  ended : Bool
  /-- The document of a fetch that ended and was usable. -/
  document : Option String
  deriving DecidableEq, Repr

/-- The state a call starts from; a source named for the first time is new. -/
def State.found (state : Option State) (c : Call) : State := state.getD (.new c.now)

def Call.begun (c : Call) (state : Option State) : State :=
  (State.found state c).start c.now c.kidMiss

def Call.result (c : Call) (source : Source) (state : Option State) :
    Option (Except String Answer) :=
  (c.fetching crates).result source (c.begun state)

def Call.left (c : Call) (source : Source) (state : Option State) : State :=
  (c.begun state).read (c.result crates source state) c.now c.nowSecs

def Call.round (c : Call) (source : Source) (state : Option State) : Round where
  now := c.now
  started := !(State.found state c).task && (c.begun state).task
  asked := (c.begun state).kidRefresh != (State.found state c).kidRefresh
  ended := (c.result crates source state).isSome
  document := match c.result crates source state with
    | some (.ok answer) => some answer.document
    | _ => none

/-- The calls as one source saw them. -/
def rounds (source : Source) : KeySources → List Call → List Round
  | _, [] => []
  | keys, c :: rest =>
    c.round crates source (keys.get? source) :: rounds source (c.refresh crates keys) rest

end

/-! ## One entry of the table -/

theorem compare_source : (compare : Source → Source → Ordering) =
    compareLex (compareOn Source.uri) (compareOn Source.caPem) := by
  funext a b
  show (compare a.uri b.uri).then ((compare a.caPem b.caPem).then .eq) = _
  rw [Ordering.then_eq]
  rfl

instance : TransOrd Source := by
  unfold TransOrd
  rw [compare_source]
  infer_instance

instance : LawfulEqOrd Source where
  eq_of_compare {a b} h := by
    rw [compare_source] at h
    obtain ⟨huri, hca⟩ := Ordering.then_eq_eq.mp h
    cases a
    cases b
    simp only [compareOn, Std.compare_eq_iff_eq] at huri hca
    rw [huri, hca]

/-- A loop that visits each key once updates each entry once. -/
theorem get?_foldl_insert (f : Option State → State) {source : Source} {l : List Source}
    (hdistinct : l.Pairwise fun a b => ¬ compare a b = .eq) (keys : KeySources) :
    (l.foldl (fun keys s => keys.insert s (f (keys.get? s))) keys).get? source =
      if source ∈ l then some (f (keys.get? source)) else keys.get? source := by
  induction l generalizing keys with
  | nil => rfl
  | cons s rest ih =>
    obtain ⟨hfirst, hrest⟩ := List.pairwise_cons.mp hdistinct
    rw [List.foldl_cons, ih hrest]
    simp only [TreeMap.get?_eq_getElem?, TreeMap.getElem?_insert, Std.compare_eq_iff_eq,
      List.mem_cons]
    by_cases hs : s = source
    · subst hs
      have hout : s ∉ rest := fun hmem => hfirst s hmem (Std.compare_self)
      simp [hout]
    · by_cases hmem : source ∈ rest
      · simp [hs, hmem]
      · simp [hs, hmem, Ne.symm hs]

section
variable {crates : KeyCrates} {source : Source} {keys : KeySources}

theorem get?_refresh {c : Call} (h : (sources c.config).contains source = true) :
    (c.refresh crates keys).get? source = some (c.left crates source (keys.get? source)) := by
  have hkept : (keys.filter fun s _ => (sources c.config).contains s).get? source =
      keys.get? source := by
    simp only [TreeMap.get?_eq_getElem?, TreeMap.getElem?_filter, TreeMap.getKey_eq, h]
    cases keys[source]? <;> rfl
  have hmem : source ∈ (sources c.config).toList := by
    rw [TreeSet.mem_toList]
    exact TreeSet.mem_iff_contains.mpr h
  unfold Call.refresh Jwks.refresh
  simp only [TreeMap.get?_eq_getElem?, TreeMap.getElem?_map]
  rw [TreeSet.foldl_eq_foldl_toList]
  have hstarted := @get?_foldl_insert
    (fun state => (state.getD (.new c.now)).start c.now c.kidMiss) source
    (sources c.config).toList TreeSet.distinct_toList
    (keys.filter fun s _ => (sources c.config).contains s)
  rw [if_pos hmem, hkept] at hstarted
  simp only [TreeMap.get?_eq_getElem?] at hstarted
  rw [hstarted]
  rfl

/-! ## One call -/

/-- What a call makes of the slot before it reads an outcome. -/
inductive Begins (s : State) (now : Nat) : State → Prop
  | running (htask : s.task = true) : Begins s now s
  | idle (htask : s.task = false) : Begins s now s
  | due (htask : s.task = false) (hdue : s.due ≤ now) : Begins s now { s with task := true }
  | asked (htask : s.task = false) (hmoved : some now ≠ s.kidRefresh)
      (hgap : ∀ at_ ∈ s.kidRefresh, at_ + kidMissGap ≤ now) :
      Begins s now { s with kidRefresh := some now, task := true }

theorem begins_start (s : State) (now : Nat) (kidMiss : Bool) :
    Begins s now (s.start now kidMiss) := by
  unfold State.start
  split
  · exact .running ‹_›
  · rename_i htask
    have htask : s.task = false := by simpa using htask
    cases hasked : kidMiss && s.kidRefresh.all fun at_ => decide (kidMissGap ≤ now - at_) with
    | true =>
      have hpos : 0 < kidMissGap := by decide
      have hgap : ∀ at_ ∈ s.kidRefresh, at_ + kidMissGap ≤ now := by
        intro at_ hat
        have hgap : kidMissGap ≤ now - at_ := by simp_all
        omega
      exact .asked htask (fun hnow => by have := hgap now hnow.symm; omega) hgap
    | false =>
      by_cases hdue : s.due ≤ now
      · simpa [hdue] using Begins.due htask hdue
      · simpa [hdue] using Begins.idle htask

theorem retry_le_ttl (maxAge : Option Nat) : retry ≤ ttl maxAge :=
  (by decide : retry ≤ minTtl).trans (le_max_left _ _)

end

section
variable {crates : KeyCrates} {source : Source} {state : Option State} {c : Call}

/-- The state a call leaves behind, in terms of what the source saw of it. -/
structure Left (before after : State) (r : Round) : Prop where
  task : after.task = ((before.task || r.started) && !r.ended)
  slot : r.ended = true → (before.task || r.started) = true
  ended : r.ended = true → r.now + retry ≤ after.due
  running : r.ended = false → after.due = before.due
  kidRefresh : after.kidRefresh = if r.asked then some r.now else before.kidRefresh
  document : after.document.map (·.1) = r.document.or (before.document.map (·.1))
  /-- A fetch is started only into an empty slot. -/
  free : r.started = true → before.task = false
  asked : r.asked = true → r.started = true ∧ ∀ at_ ∈ before.kidRefresh, at_ + kidMissGap ≤ r.now
  scheduled : r.started = true → r.asked = false → before.due ≤ r.now

theorem left_spec (crates : KeyCrates) (source : Source) (state : Option State) (c : Call) :
    Left (State.found state c) (c.left crates source state) (c.round crates source state) := by
  have hbegins : Begins (State.found state c) c.now (c.begun state) := begins_start _ _ _
  have hrunning : (c.result crates source state).isSome = true → (c.begun state).task = true := by
    unfold Call.result Fetching.result
    split
    · intro _
      assumption
    · exact nofun
  unfold Call.left Call.round
  generalize c.result crates source state = result at *
  generalize c.begun state = begun at *
  generalize State.found state c = before at *
  have hgap : ∀ maxAge, c.now + retry ≤ c.now + ttl maxAge := fun maxAge =>
    Nat.add_le_add_left (retry_le_ttl maxAge) c.now
  cases hbegins <;> rcases result with _ | _ | answer <;> constructor <;>
    simp_all [State.read]

/-! ## Every call -/

/-- The source is named in every one of the calls. -/
def Named (source : Source) (calls : List Call) : Prop :=
  ∀ c ∈ calls, (sources c.config).contains source = true

/-- The running fetch, if any, of a source that may not be named yet. -/
def running (keys : KeySources) (source : Source) : Bool :=
  (keys.get? source).any (·.task)

def documentOf (keys : KeySources) (source : Source) : Option String :=
  ((keys.get? source).bind (·.document)).map (·.1)

theorem running_eq (keys : KeySources) (source : Source) (c : Call) :
    running keys source = (State.found (keys.get? source) c).task := by
  unfold running State.found
  cases keys.get? source <;> rfl

theorem documentOf_eq (keys : KeySources) (source : Source) (c : Call) :
    documentOf keys source = (State.found (keys.get? source) c).document.map (·.1) := by
  unfold documentOf State.found
  cases keys.get? source <;> rfl

theorem running_left {keys : KeySources} (h : (sources c.config).contains source = true) :
    running (c.refresh crates keys) source = (c.left crates source (keys.get? source)).task := by
  rw [running, get?_refresh h]
  rfl

theorem documentOf_left {keys : KeySources} (h : (sources c.config).contains source = true) :
    documentOf (c.refresh crates keys) source =
      (c.left crates source (keys.get? source)).document.map (·.1) := by
  rw [documentOf, get?_refresh h]
  rfl

variable {calls : List Call} {keys : KeySources}

/-- Every fetch started has ended or runs in the one slot. -/
theorem started_balanced (h : Named source calls) :
    (running keys source).toNat + (rounds crates source keys calls).countP (·.started) =
      (rounds crates source keys calls).countP (·.ended) +
        (running (refreshAll crates keys calls) source).toNat := by
  induction calls generalizing keys with
  | nil => simp [rounds, refreshAll]
  | cons c rest ih =>
    obtain ⟨hfirst, hrest⟩ := List.forall_mem_cons.mp h
    have hleft := left_spec crates source (keys.get? source) c
    have hslot := hleft.slot
    have hfree := hleft.free
    have hafter := @ih (c.refresh crates keys) hrest
    rw [running_left hfirst, hleft.task] at hafter
    simp only [rounds, List.countP_cons, refreshAll, List.foldl_cons] at hafter ⊢
    rw [running_eq keys source c]
    generalize (State.found (keys.get? source) c).task = task at *
    generalize (c.round crates source (keys.get? source)).started = started at *
    generalize (c.round crates source (keys.get? source)).ended = ended at *
    cases task <;> cases started <;> cases ended <;> simp at hslot hfree hafter ⊢ <;> omega

/-- The document is that of the last usable fetch, else what was held. -/
theorem document_refreshAll (h : Named source calls) :
    documentOf (refreshAll crates keys calls) source =
      ((rounds crates source keys calls).filterMap (·.document)).getLast?.or
        (documentOf keys source) := by
  induction calls generalizing keys with
  | nil => simp [rounds, refreshAll]
  | cons c rest ih =>
    obtain ⟨hfirst, hrest⟩ := List.forall_mem_cons.mp h
    have hleft := (left_spec crates source (keys.get? source) c).document
    have hafter := @ih (c.refresh crates keys) hrest
    rw [documentOf_left hfirst, hleft, ← documentOf_eq] at hafter
    refine hafter.trans ?_
    simp only [rounds]
    cases hdocument : (c.round crates source (keys.get? source)).document with
    | none => rw [List.filterMap_cons_none hdocument]; simp
    | some document =>
      rw [List.filterMap_cons_some hdocument, List.getLast?_cons]
      cases ((rounds crates source (c.refresh crates keys) rest).filterMap (·.document)).getLast? <;>
        rfl

/-! ## The two clocks -/

/-- Times at least so far apart, in order. -/
def Apart (gap : Nat) (times : List Nat) : Prop := times.Pairwise fun a b => a + gap ≤ b

/-- An interval as long as the gap holds one of them at most. -/
theorem Apart.count_le_one {gap : Nat} {times : List Nat} (h : Apart gap times) (t : Nat) :
    times.countP (fun x => decide (t ≤ x ∧ x < t + gap)) ≤ 1 := by
  induction times with
  | nil => simp
  | cons a rest ih =>
    obtain ⟨hfirst, hrest⟩ := List.pairwise_cons.mp h
    rw [List.countP_cons]
    split
    · rename_i hin
      have hin := of_decide_eq_true hin
      have hnone : rest.countP (fun x => decide (t ≤ x ∧ x < t + gap)) = 0 := by
        refine List.countP_eq_zero.mpr fun b hb hin' => ?_
        have hgap := hfirst b hb
        have hin' := of_decide_eq_true hin'
        omega
      omega
    · exact ih hrest

/-- When fetches were started for an unknown key id. -/
def askedTimes (rs : List Round) : List Nat := (rs.filter (·.asked)).map (·.now)

/-- When fetches were started because they were due. -/
def scheduledTimes (rs : List Round) : List Nat :=
  (rs.filter fun r => r.started && !r.asked).map (·.now)

def startTimes (rs : List Round) : List Nat := (rs.filter (·.started)).map (·.now)

variable (r : Round)

variable (rs : List Round)

theorem askedTimes_cons :
    askedTimes (r :: rs) = if r.asked then r.now :: askedTimes rs else askedTimes rs := by
  unfold askedTimes
  rw [List.filter_cons]
  split <;> simp_all

theorem scheduledTimes_cons : scheduledTimes (r :: rs) =
      if r.started && !r.asked then r.now :: scheduledTimes rs else scheduledTimes rs := by
  unfold scheduledTimes
  rw [List.filter_cons]
  split <;> simp_all

variable {st : State}

section
variable (h : Named source calls)

include h

theorem asked_after (hst : keys.get? source = some st)
    {at_ : Nat} (hat : st.kidRefresh = some at_) :
    ∀ t ∈ askedTimes (rounds crates source keys calls), at_ + kidMissGap ≤ t := by
  induction calls generalizing keys st at_ with
  | nil => simp [rounds, askedTimes]
  | cons c rest ih =>
    obtain ⟨hfirst, hrest⟩ := List.forall_mem_cons.mp h
    have hleft := left_spec crates source (keys.get? source) c
    have hkid := hleft.kidRefresh
    have hfound : (State.found (keys.get? source) c).kidRefresh = some at_ := by
      rw [hst]
      exact hat
    rw [rounds, askedTimes_cons]
    split
    · rename_i hasked
      rw [if_pos hasked] at hkid
      have hgap := (hleft.asked hasked).2 at_ hfound
      refine List.forall_mem_cons.mpr ⟨hgap, fun t ht => ?_⟩
      have hlater := ih hrest (get?_refresh hfirst) hkid t ht
      exact hgap.trans ((Nat.le_add_right _ _).trans hlater)
    · rename_i hasked
      rw [if_neg hasked, hfound] at hkid
      exact ih hrest (get?_refresh hfirst) hkid

theorem asked_apart : Apart kidMissGap (askedTimes (rounds crates source keys calls)) := by
  induction calls generalizing keys with
  | nil => exact List.Pairwise.nil
  | cons c rest ih =>
    obtain ⟨hfirst, hrest⟩ := List.forall_mem_cons.mp h
    have hkid := (left_spec crates source (keys.get? source) c).kidRefresh
    rw [rounds, askedTimes_cons]
    split
    · rename_i hasked
      rw [if_pos hasked] at hkid
      exact List.pairwise_cons.mpr ⟨asked_after hrest (get?_refresh hfirst) hkid, ih hrest⟩
    · exact ih hrest

/-- No scheduled fetch starts before it is due, and due times only move on. -/
theorem scheduled_of_due (hst : keys.get? source = some st)
    {d : Nat} (hdue : d ≤ st.due) (hlater : ∀ c ∈ calls, d ≤ c.now + retry) :
    ∀ t ∈ scheduledTimes (rounds crates source keys calls), d ≤ t := by
  induction calls generalizing keys st with
  | nil => simp [rounds, scheduledTimes]
  | cons c rest ih =>
    obtain ⟨hfirst, hrest⟩ := List.forall_mem_cons.mp h
    obtain ⟨hnow, hlater⟩ := List.forall_mem_cons.mp hlater
    have hleft := left_spec crates source (keys.get? source) c
    have hfound : d ≤ (State.found (keys.get? source) c).due := by
      rw [hst]
      exact hdue
    have hnext : d ≤ (c.left crates source (keys.get? source)).due := by
      cases hended : (c.round crates source (keys.get? source)).ended with
      | true => exact hnow.trans (hleft.ended hended)
      | false => exact hfound.trans (hleft.running hended).ge
    have hothers := ih hrest (get?_refresh hfirst) hnext hlater
    rw [rounds, scheduledTimes_cons]
    split
    · rename_i hscheduled
      obtain ⟨hstarted, hasked⟩ := Bool.and_eq_true_iff.mp hscheduled
      refine List.forall_mem_cons.mpr ⟨?_, hothers⟩
      exact hfound.trans (hleft.scheduled hstarted (by simpa using hasked))
    · exact hothers

/-- While a fetch runs none is started, and the next is due no sooner than a
retry after it ended. -/
theorem scheduled_of_running (hst : keys.get? source = some st)
    (htask : st.task = true) {n : Nat} (hlater : ∀ c ∈ calls, n ≤ c.now) :
    ∀ t ∈ scheduledTimes (rounds crates source keys calls), n + retry ≤ t := by
  induction calls generalizing keys st with
  | nil => simp [rounds, scheduledTimes]
  | cons c rest ih =>
    obtain ⟨hfirst, hrest⟩ := List.forall_mem_cons.mp h
    obtain ⟨hnow, hlater⟩ := List.forall_mem_cons.mp hlater
    have hleft := left_spec crates source (keys.get? source) c
    have hfound : (State.found (keys.get? source) c).task = true := by
      rw [hst]
      exact htask
    have hidle : (c.round crates source (keys.get? source)).started = false := by
      by_contra hstarted
      rw [hleft.free (by simpa using hstarted)] at hfound
      cases hfound
    rw [rounds, scheduledTimes_cons, hidle]
    simp only [Bool.false_and, Bool.false_eq_true, if_false]
    cases hended : (c.round crates source (keys.get? source)).ended with
    | true =>
      refine scheduled_of_due hrest (get?_refresh hfirst) ?_
        fun c hc => Nat.add_le_add_right (hlater c hc) retry
      exact (Nat.add_le_add_right hnow retry).trans (hleft.ended hended)
    | false =>
      refine ih hrest (get?_refresh hfirst) ?_ hlater
      rw [hleft.task, hfound, hended]
      rfl

theorem scheduled_apart (hmono : (calls.map (·.now)).Pairwise (· ≤ ·)) :
    Apart retry (scheduledTimes (rounds crates source keys calls)) := by
  induction calls generalizing keys with
  | nil => exact List.Pairwise.nil
  | cons c rest ih =>
    obtain ⟨hfirst, hrest⟩ := List.forall_mem_cons.mp h
    obtain ⟨hnow, hmono⟩ := List.pairwise_cons.mp hmono
    have hlater : ∀ c' ∈ rest, c.now ≤ c'.now := fun c' hc' => hnow _ (List.mem_map_of_mem hc')
    have hleft := left_spec crates source (keys.get? source) c
    rw [rounds, scheduledTimes_cons]
    split
    · rename_i hscheduled
      have hstarted := (Bool.and_eq_true_iff.mp hscheduled).1
      refine List.pairwise_cons.mpr ⟨?_, ih hrest hmono⟩
      show ∀ t ∈ scheduledTimes (rounds crates source (c.refresh crates keys) rest), c.now + retry ≤ t
      cases hended : (c.round crates source (keys.get? source)).ended with
      | true =>
        exact scheduled_of_due hrest (get?_refresh hfirst) (hleft.ended hended)
          fun c' hc' => Nat.add_le_add_right (hlater c' hc') retry
      | false =>
        refine scheduled_of_running hrest (get?_refresh hfirst) ?_ hlater
        rw [hleft.task, hstarted, hended, Bool.or_true]
        rfl
    · exact ih hrest hmono

end

theorem countP_startTimes (p : Nat → Bool) :
    (startTimes (rounds crates source keys calls)).countP p =
      (askedTimes (rounds crates source keys calls)).countP p +
        (scheduledTimes (rounds crates source keys calls)).countP p := by
  induction calls generalizing keys with
  | nil => rfl
  | cons c rest ih =>
    have hasked := (left_spec crates source (keys.get? source) c).asked
    have hrest := @ih (c.refresh crates keys)
    unfold startTimes at hrest ⊢
    rw [rounds, askedTimes_cons, scheduledTimes_cons, List.filter_cons]
    cases ha : (c.round crates source (keys.get? source)).asked with
    | true =>
      simp only [(hasked ha).1, if_true, List.map_cons, List.countP_cons, hrest, Bool.not_true,
        Bool.and_false, Bool.false_eq_true, if_false]
      omega
    | false =>
      cases hs : (c.round crates source (keys.get? source)).started with
      | true =>
        simp only [if_true, List.map_cons, List.countP_cons, hrest, Bool.not_false, Bool.and_true,
          Bool.false_eq_true, if_false]
        omega
      | false => simpa using hrest

end

/-! ## Seeding and filling -/

/-- The document the disk cache held for a source. -/
def seededDocument (cached : List Fetched) (source : Source) : Option String :=
  (cached.filter fun f => f.uri = source.uri && f.caPem = source.caPem).getLast?.map (·.document)

theorem documentOf_seed (cached : List Fetched) (now : Nat) (source : Source) :
    documentOf (seed ∅ cached now) source = seededDocument cached source := by
  induction cached using List.reverseRecOn with
  | nil => simp [seed, documentOf, seededDocument]
  | append_singleton before f ih =>
    have hstep : seed ∅ (before ++ [f]) now = (seed ∅ before now).insert ⟨f.uri, f.caPem⟩
        { State.new now with document := some (f.document, f.fetchedAt) } := by
      simp [seed]
    unfold documentOf seededDocument at ih ⊢
    simp only [hstep, TreeMap.get?_eq_getElem?, TreeMap.getElem?_insert, Std.compare_eq_iff_eq,
      List.filter_append] at ih ⊢
    by_cases hsame : (⟨f.uri, f.caPem⟩ : Source) = source
    · subst hsame
      simp
    · have hother : (decide (f.uri = source.uri) && decide (f.caPem = source.caPem)) = false := by
        rw [← Bool.not_eq_true, Bool.and_eq_true, decide_eq_true_eq, decide_eq_true_eq]
        rintro ⟨huri, hca⟩
        exact hsame (by rw [huri, hca])
      rw [if_neg hsame, ih]
      simp [hother]

/-- A call forgets a source it does not name. -/
theorem documentOf_refresh_of_unnamed {crates : KeyCrates} {source : Source} {c : Call}
    (keys : KeySources) (h : (sources c.config).contains source = false) :
    documentOf (c.refresh crates keys) source = none := by
  have hmem : source ∉ (sources c.config).toList := by
    rw [TreeSet.mem_toList, TreeSet.mem_iff_contains, h]
    exact Bool.false_ne_true
  have hstarted := @get?_foldl_insert
    (fun state => (state.getD (.new c.now)).start c.now c.kidMiss) source
    (sources c.config).toList TreeSet.distinct_toList
    (keys.filter fun s _ => (sources c.config).contains s)
  rw [if_neg hmem] at hstarted
  unfold documentOf Call.refresh Jwks.refresh
  simp only [TreeMap.get?_eq_getElem?, TreeMap.getElem?_map, TreeMap.getElem?_filter,
    TreeMap.getKey_eq, h] at hstarted ⊢
  rw [TreeSet.foldl_eq_foldl_toList, hstarted]
  cases keys[source]? <;> rfl

/-- A plugin of a configuration, by its place. -/
def pluginAt (config : Config) (i j k : Nat) : Option Plugin :=
  ((config.listeners[i]?).bind (·.rules[j]?)).bind (·.plugins[k]?)

theorem pluginAt_fill (keys : KeySources) (config : Config) (i j k : Nat) :
    pluginAt (fill keys config) i j k = (pluginAt config i j k).map (fillPlugin keys) := by
  unfold pluginAt fill
  simp only [List.getElem?_map]
  cases config.listeners[i]? with
  | none => rfl
  | some l =>
    simp only [Option.map_some, Option.bind_some, mapPlugins, List.getElem?_map]
    cases l.rules[j]? with
    | none => rfl
    | some r => simp only [Option.map_some, Option.bind_some, List.getElem?_map]

/-- While a source stays named, the one running fetch it came with included: at
most one of its fetches runs, two at most start within 30 seconds, those for an
unknown key id are 30 seconds apart, and what is held, and written into every
policy that names it, is the document of the last usable fetch, or else the one it
came with: at the start what the disk cache held, and after a call that did not
name it none. -/
theorem key_fetches_bounded (crates : KeyCrates) (cached : List Fetched) (seeded : Nat)
    (earlier calls : List Call) (source : Source) (keys : KeySources)
    (hkeys : keys = refreshAll crates (seed ∅ cached seeded) earlier)
    (hmono : (calls.map (·.now)).Pairwise (· ≤ ·)) (hnamed : Named source calls) :
    (running keys source).toNat + (rounds crates source keys calls).countP (·.started) ≤
      (rounds crates source keys calls).countP (·.ended) + 1 ∧
    (∀ t, (startTimes (rounds crates source keys calls)).countP
      (fun x => decide (t ≤ x ∧ x < t + 30000)) ≤ 2) ∧
    (askedTimes (rounds crates source keys calls)).Pairwise (fun a b => a + 30000 ≤ b) ∧
    documentOf (refreshAll crates keys calls) source =
      ((rounds crates source keys calls).filterMap (·.document)).getLast?.or
        (documentOf keys source) ∧
    (earlier = [] → documentOf keys source = seededDocument cached source) ∧
    (∀ before c, earlier = before ++ [c] → (sources c.config).contains source = false →
      documentOf keys source = none) ∧
    ∀ config i j k policy uri, pluginAt config i j k = some (.jwt policy) →
      policy.jwksUri = some uri → source = ⟨uri, policy.jwksCaPem⟩ →
      pluginAt (fill (refreshAll crates keys calls) config) i j k = some (.jwt { policy with
        jwks := (documentOf (refreshAll crates keys calls) source).getD "" }) := by
  refine ⟨?_, fun t => ?_, asked_apart hnamed, document_refreshAll hnamed, ?_, ?_, ?_⟩
  · have hbalance := @started_balanced crates source calls keys hnamed
    have hone := (running (refreshAll crates keys calls) source).toNat_le
    omega
  · have hasked := (@asked_apart crates source calls keys hnamed).count_le_one t
    have hscheduled := (@scheduled_apart crates source calls keys hnamed hmono).count_le_one t
    rw [countP_startTimes]
    exact Nat.add_le_add hasked hscheduled
  · rintro rfl
    rw [hkeys]
    exact documentOf_seed cached seeded source
  · intro before c hearlier hunnamed
    rw [hkeys, hearlier, refreshAll, List.foldl_append]
    exact documentOf_refresh_of_unnamed _ hunnamed
  · intro config i j k policy uri hplugin huri hsource
    rw [pluginAt_fill, hplugin, Option.map_some, fillPlugin, huri, hsource]
    rfl

def issuerPolicy : JwtPolicy where
  issuer := some "https://id"
  audience := none
  jwks := ""
  jwksUri := some "https://id/keys"
  jwksCaPem := none
  consumerClaim := none
  workspace := none

/-- One rule whose tokens are verified with the keys of a URI. -/
def issuerConfig : Config where
  listeners := [{
    id := "http", port := 8080, clientPort := none, protocol := .http, hostname := none, tls := none
    rules := [{
      route := "shop/orders", ruleIndex := 0, creationTimestamp := "", «matches» := [], filters := {}
      backends := [], timeouts := {}, rateLimit := none, plugins := [.jwt issuerPolicy] }] }]
  ports := ∅
  clusters := ∅
  credentials := ∅
  credentialWorkspaces := ∅
  consumerRateLimits := ∅
  consumers := ∅

/-- A document with a public key for each id. -/
def keyDocument (kids : List String) : String :=
  "\x7b\"keys\":[" ++ ",".intercalate (kids.map fun kid =>
    "\x7b\"kty\":\"EC\",\"kid\":\"" ++ kid ++ "\"\x7d") ++ "]\x7d"

/-- Which ids a document of the issuer has keys for. -/
def kidsOf (document : String) : Option (List String) :=
  [[], ["old"], ["new"]].find? fun kids => keyDocument kids == document

/-- They read the issuer's documents, and take nothing else for a key set. -/
def issuerCrates : KeyCrates where
  json document := (kidsOf document).map fun kids => .object [("keys", .array (kids.map fun kid =>
    .object [("kty", .string "EC"), ("kid", .string kid)]))]
  keySet document := (kidsOf document).map fun kids => kids.map fun kid => ⟨some kid, true⟩
  url := fun _ => none
  anchors := fun _ => none

def issuerCall (now : Nat) (kidMiss : Bool) (outcome : Option (Except String Answer)) : Call where
  config := issuerConfig
  now
  kidMiss
  outcome := fun _ => outcome
  nowSecs := 0

/-- A fetch read a call later, then one for an unknown key id whose answer has no
key, then one that runs on. -/
def issuerCalls : List Call :=
  [issuerCall 0 false none, issuerCall 10000 true (some (.ok ⟨keyDocument ["new"], none⟩)),
    issuerCall 10001 true (some (.ok ⟨keyDocument [], none⟩)), issuerCall 40001 true none]

/-- The key document the last run left on disk. -/
def issuerCache : List Fetched := [⟨"https://id/keys", none, keyDocument ["old"], 0⟩]

theorem key_fetches_bounded_issuer :
    let source : Source := ⟨"https://id/keys", none⟩
    let keys := seed ∅ issuerCache 0
    documentOf keys source = some (keyDocument ["old"]) ∧
    startTimes (rounds issuerCrates source keys issuerCalls) = [0, 10001, 40001] ∧
    pluginAt (fill (refreshAll issuerCrates keys issuerCalls) issuerConfig) 0 0 0 =
      some (.jwt { issuerPolicy with jwks := keyDocument ["new"] }) := by
  intro source keys
  have hnamed : Named source issuerCalls := by
    intro c hc
    have hconfig : c.config = issuerConfig := by
      simp only [issuerCalls, List.mem_cons, List.not_mem_nil, or_false] at hc
      rcases hc with rfl | rfl | rfl | rfl <;> rfl
    rw [hconfig]
    decide +kernel
  obtain ⟨-, -, -, hdocument, hseeded, -, hfill⟩ :=
    key_fetches_bounded issuerCrates issuerCache 0 [] issuerCalls source keys rfl (by decide) hnamed
  refine ⟨(hseeded rfl).trans (by decide +kernel), by decide +kernel, ?_⟩
  rw [hfill issuerConfig 0 0 0 issuerPolicy "https://id/keys" rfl rfl rfl, hdocument]
  decide +kernel

end Gapura.Jwks
