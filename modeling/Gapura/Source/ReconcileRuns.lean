import Gapura.Source.Reconcile
import Gapura.Source.WatchedSnapshot

/-! # What the Kubernetes source serves

A batch that changed nothing is no reason to translate, and one that changed
something while a kind was still being listed is given up. No change is lost by
either: what ends the last first list is itself a change. So whenever the loop
waits with every watched kind listed, the store serves the translation of a state
in step with everything that was received, unless the translator panicked on it;
and nothing was ever served that was not of a cluster listed whole. -/
namespace Gapura.Source.Reconcile
open Lib.Json (Value)
open Lib.Runs Core.Input Core.Status Core.Translate Watch

/-! ## Lists that are complete -/

section
variable {schema : Schema} {s : State} {kind : String} {c : Change}

theorem synced_put (schema : Schema) (s : State) (kind : String) (r : ObjectRef)
    (doc : Option Value) : (s.put schema kind r doc).1.synced = s.synced := by
  obtain ⟨d, o, -, -, hput⟩ | ⟨-, hput⟩ := put_cases schema s kind r doc
  · rw [hput]
  · rw [hput]
    rfl

theorem synced_foldl {α : Type} (f : α → State → State × Bool)
    (hf : ∀ a t, (f a t).1.synced = t.synced) (items : List α) (acc : State × Bool) :
    (items.foldl (fun acc a => State.also (f a) acc) acc).1.synced = acc.1.synced := by
  induction items generalizing acc with
  | nil => rfl
  | cons a rest ih => exact (ih _).trans (hf a acc.1)

/-- The end of a list is what syncs its kind, and is a change the first time. -/
theorem synced_initDone (schema : Schema) (s : State) (kind : String) :
    (s.apply schema (.initDone kind)).1.synced = s.synced.insert kind ∧
      ((s.apply schema (.initDone kind)).2 = false → s.synced.contains kind = true) := by
  let dropped := (s.stale kind (s.pending.getD kind [])).foldl
    (fun acc r => State.also (·.drop kind r) acc) ({ s with pending := s.pending.erase kind }, false)
  let acc := (s.pending.getD kind []).foldl
    (fun acc item => State.also (·.put schema kind item.1 item.2) acc) dropped
  have hsynced : acc.1.synced = s.synced :=
    (synced_foldl (fun (item : Word) t => t.put schema kind item.1 item.2)
      (fun _ t => synced_put schema t kind _ _) _ dropped).trans
      (synced_foldl (fun r t => t.drop kind r) (fun _ _ => rfl) _ _)
  refine ⟨congrArg (·.insert kind) hsynced, fun hclean => ?_⟩
  have hfirst : (!acc.1.synced.contains kind) = false := (Bool.or_eq_false_iff.mp hclean).2
  rw [hsynced] at hfirst
  simpa using hfirst

theorem synced_apply (schema : Schema) (s : State) (c : Change) (kind : String) :
    (s.apply schema c).1.synced.contains kind = true ↔
      s.synced.contains kind = true ∨ c = .initDone kind := by
  cases c with
  | init k => simp [State.apply]
  | upsert k r doc initial =>
    cases initial with
    | true => simp [State.apply]
    | false => simp [State.apply, synced_put]
  | delete k r => simp [State.apply, State.drop]
  | initDone k =>
    rw [(synced_initDone schema s k).1, Std.TreeSet.contains_insert]
    by_cases hk : k = kind
    · simp [hk]
    · simp [hk]

/-- Where nothing changed, nothing was listed for the first time either. -/
theorem synced_of_clean (h : (s.apply schema c).2 = false)
    (hsynced : (s.apply schema c).1.synced.contains kind = true) :
    s.synced.contains kind = true := by
  rcases (synced_apply schema s c kind).mp hsynced with hold | rfl
  · exact hold
  · exact (synced_initDone schema s kind).2 h

end

/-! ## In step -/

def Event.tells (changes : List Change) : Event → List Change
  | .start _ => []
  | .tell kind event => changes ++ [changeOf kind event]
  | .wake | .settle | .drain | .pass | .fail => changes

/-- What the watchers told since the source last started. -/
def told (events : List Event) : List Change := events.foldl Event.tells []

theorem told_concat (events : List Event) (e : Event) :
    told (events ++ [e]) = e.tells (told events) :=
  List.foldl_concat ..

/-- The steps the loop takes of itself. -/
def Event.works : Event → Bool
  | .wake | .settle | .drain | .pass => true
  | .start _ | .tell _ _ | .fail => false

theorem told_concat_works (events : List Event) {e : Event} (h : e.works = true) :
    told (events ++ [e]) = told events := by
  rw [told_concat]
  cases e with
  | start | tell | fail => cases h
  | wake | settle | drain | pass => rfl

/-- What discovery gave when the source last started. -/
def Started (events : List Event) (watched : List Kind) : Prop :=
  ∃ earlier resolve since, events = earlier ++ .start resolve :: since ∧
    (∀ again, Event.start again ∉ since) ∧ discover resolve = some watched

theorem Started.later {events : List Event} {watched : List Kind} (h : Started events watched)
    {e : Event} (he : ∀ again, e ≠ .start again) : Started (events ++ [e]) watched := by
  obtain ⟨earlier, resolve, since, rfl, hsince, hwatched⟩ := h
  refine ⟨earlier, resolve, since ++ [e], by simp, fun again hmem => ?_, hwatched⟩
  rcases List.mem_append.mp hmem with hmem | hmem
  · exact hsince again hmem
  · exact he again (List.mem_singleton.mp hmem).symm

theorem not_start_of_works {e : Event} (h : e.works = true) (again : Kind → Option Bool) :
    e ≠ .start again := by
  rintro rfl
  cases h

section
variable (schema : Schema) (tr : Translator) (src : KubeSource)

/-- A translation of a cluster listed whole: every kind that discovery gave when the
watchers were started was, in what was received of them. -/
structure Whole (events : List Event) (t : Translation) (watched : List Kind)
    (received : List Change) (st : State) : Prop where
  history : ∃ before, before <+: events ∧ Started before watched ∧ received <+: told before
  required : ∀ k ∈ kinds, isOptional k = false → k ∈ watched
  listed : ∀ k ∈ watched, Change.initDone k.name ∈ received
  tells : Tells schema st (view schema received)
  publish : st.publish = src.publishService
  translated : t = translate tr.env st.snapshot (settingsFor src st)

/-- The store serves, and the writer is told, the translation of a state in step
with what was received; if the translator panicked on it, they are as before. -/
def Fresh (store : Store) (l : Loop) : Prop :=
  ∃ st : State, Tells schema st (view schema l.received) ∧ st.publish = src.publishService ∧
    (tr.panics st.snapshot (settingsFor src st) = none →
      store.current = some (translate tr.env st.snapshot (settingsFor src st)) ∧
        (src.readOnly = false →
          l.published = (translate tr.env st.snapshot (settingsFor src st)).status))

structure InStep (events : List Event) (store : Store) (l : Loop) : Prop where
  history : l.received ++ l.channel = told events
  agrees : ∀ c ∈ l.channel, c.Agrees schema
  follows : Follows schema src.publishService l.received l.state
  synced : ∀ kind, l.state.synced.contains kind = true ↔ .initDone kind ∈ l.received
  started : Started events l.watched
  fresh : l.phase.dirty = false → State.syncedAll l.state l.watched = true →
    Fresh schema tr src store l

/-- What holds of a system after its events. -/
structure Served (events : List Event) (s : System) : Prop where
  loop : ∀ l, s.loop = some l → InStep schema tr src events s.store l
  whole : ∀ t, s.store.current = some t → ∃ watched received st,
    Whole schema tr src events t watched received st

/-- The objects the watchers tell of have a name, and a namespace where their kind
has any. -/
def Event.Named : Event → Prop
  | .tell kind event => ∀ o ∈ event.object, o.name.isSome = true ∧ Scoped kind (objectRef o)
  | _ => True

end

section
variable {schema : Schema} {tr : Translator} {src : KubeSource} {events : List Event}
  {store : Store} {l : Loop} {s s' : System} {e : Event}

variable {watched : List Kind}

theorem discover_required {resolve : Kind → Option Bool}
    (h : discover resolve = some watched) : ∀ k ∈ kinds, isOptional k = false → k ∈ watched := by
  obtain ⟨hall, heq⟩ := Option.ite_none_right_eq_some.mp h
  cases heq
  intro k hk hrequired
  have hserved := List.all_eq_true.mp hall k hk
  rw [List.mem_filter]
  cases hresolve : resolve k with
  | none => simp [hresolve] at hserved
  | some served =>
    rw [hresolve, Option.any_some, hrequired, Bool.or_false] at hserved
    exact ⟨hk, by rw [hserved]; rfl⟩

theorem Started.required (h : Started events watched) :
    ∀ k ∈ kinds, isOptional k = false → k ∈ watched := by
  obtain ⟨earlier, resolve, since, -, -, hwatched⟩ := h
  exact discover_required hwatched

theorem Whole.later {t : Translation} {received : List Change} {st : State}
    (h : Whole schema tr src events t watched received st) (e : Event) :
    Whole schema tr src (events ++ [e]) t watched received st where
  history := by
    obtain ⟨before, hbefore, hreceived⟩ := h.history
    exact ⟨before, hbefore.trans (List.prefix_append _ _), hreceived⟩
  required := h.required
  listed := h.listed
  tells := h.tells
  publish := h.publish
  translated := h.translated

section
variable (h : InStep schema tr src events store l)

include h

/-- A change that is taken in: one that changed nothing leaves what is served in
step, and any other makes the batch dirty. -/
theorem InStep.take (he : e.works = true) {c : Change}
    {rest : List Change} (hchannel : l.channel = c :: rest) {phase : Bool → Phase}
    (hphase : ∀ dirty, (phase dirty).dirty = dirty) :
    InStep schema tr src (events ++ [e]) store (l.take schema c rest phase) := by
  have hagrees : ∀ c' ∈ c :: rest, c'.Agrees schema := hchannel ▸ h.agrees
  obtain ⟨hc, hrest⟩ := List.forall_mem_cons.mp hagrees
  obtain ⟨hfollows, hsame⟩ := h.follows.step hc
  refine ⟨?_, hrest, hfollows, ?_, h.started.later (not_start_of_works he), ?_⟩
  · rw [told_concat_works events he, ← h.history, hchannel]
    simp [Loop.take]
  · intro kind
    rw [Loop.take, synced_apply, h.synced, List.mem_append, List.mem_singleton, eq_comm]
  · intro hclean hsynced
    have hflags : l.phase.dirty = false ∧ (l.state.apply schema c).2 = false := by
      simpa [Loop.take, hphase] using hclean
    have hsyncedBefore : State.syncedAll l.state l.watched = true := by
      simp only [State.syncedAll, List.all_eq_true] at hsynced ⊢
      exact fun k hk => synced_of_clean hflags.2 (hsynced k hk)
    obtain ⟨st, htells, hpublish, hserved⟩ := h.fresh hflags.1 hsyncedBefore
    refine ⟨st, ?_, hpublish, hserved⟩
    show Tells schema st (view schema (l.received ++ [c]))
    rw [hsame hflags.2]
    exact htells

theorem InStep.rephase (he : e.works = true) {phase : Phase}
    (hphase : phase.dirty = l.phase.dirty) :
    InStep schema tr src (events ++ [e]) store { l with phase } where
  history := (told_concat_works events he).symm ▸ h.history
  agrees := h.agrees
  follows := h.follows
  synced := h.synced
  started := h.started.later (not_start_of_works he)
  fresh := fun hclean => h.fresh (hphase.symm.trans hclean)

theorem InStep.listed (hsynced : State.syncedAll l.state l.watched = true) :
    ∀ k ∈ l.watched, Change.initDone k.name ∈ l.received := by
  intro k hk
  rw [← h.synced]
  exact List.all_eq_true.mp hsynced k hk

end

theorem Served.keepStore (h : Served schema tr src events s) (e : Event) {loop : Option Loop}
    (hloop : ∀ l, loop = some l → InStep schema tr src (events ++ [e]) s.store l) :
    Served schema tr src (events ++ [e]) ⟨s.store, loop⟩ where
  loop := hloop
  whole := by
    intro t ht
    obtain ⟨watched, received, st, hw⟩ := h.whole t ht
    exact ⟨watched, received, st, hw.later e⟩

/-- The end of a pass over a state in step: it is given up, kept, or served. -/
theorem Served.reconcile (hserved : Served schema tr src events ⟨store, some l⟩) {dirty : Bool}
    (hphase : l.phase = .draining dirty) :
    Served schema tr src (events ++ [.pass]) (reconcile tr src store l dirty) := by
  have h := hserved.loop l rfl
  have hkept : InStep schema tr src (events ++ [.pass]) store { l with phase := .waiting } →
      Served schema tr src (events ++ [.pass]) ⟨store, some { l with phase := .waiting }⟩ :=
    fun hin => hserved.keepStore _ fun _ heq => Option.some.inj heq ▸ hin
  have hhistory := (told_concat_works events (e := .pass) rfl).symm ▸ h.history
  have hstarted := h.started.later (not_start_of_works (e := .pass) rfl)
  unfold Reconcile.reconcile
  split
  · rename_i hskip
    refine hkept ⟨hhistory, h.agrees, h.follows, h.synced, hstarted, fun _ hsynced => ?_⟩
    have hclean : dirty = false := by simpa [hsynced] using hskip
    exact h.fresh (by rw [hphase]; exact hclean) hsynced
  · rename_i hgo
    have hsynced : State.syncedAll l.state l.watched = true := by
      simp only [Bool.or_eq_true, Bool.not_eq_true', not_or] at hgo
      simpa using hgo.2
    split
    · rename_i t htranslated
      obtain ⟨hcalm, ht⟩ : tr.panics l.state.snapshot (settingsFor src l.state) = none ∧
          t = translate tr.env l.state.snapshot (settingsFor src l.state) := by
        unfold translateGuarded at htranslated
        split at htranslated
        · rename_i hcalm
          cases htranslated
          exact ⟨hcalm, rfl⟩
        · cases htranslated
        · cases htranslated
      refine ⟨fun l' hl' => ?_, fun t' ht' => ?_⟩
      · cases hl'
        refine ⟨hhistory, h.agrees, h.follows, h.synced, hstarted, fun _ _ => ?_⟩
        refine ⟨l.state, h.follows.tells, h.follows.publish, fun _ => ⟨congrArg some ht, ?_⟩⟩
        intro hwrites
        simp [hwrites, ht]
      · obtain rfl : t = t' := Option.some.inj ht'
        refine ⟨l.watched, l.received, l.state, ⟨?_, h.started.required, h.listed hsynced,
          h.follows.tells, h.follows.publish, ht⟩⟩
        exact ⟨events, List.prefix_append _ _, h.started, h.history ▸ List.prefix_append _ _⟩
    · rename_i message htranslated
      refine hkept ⟨hhistory, h.agrees, h.follows, h.synced, hstarted, fun _ _ => ?_⟩
      refine ⟨l.state, h.follows.tells, h.follows.publish, fun hcalm => ?_⟩
      simp [translateGuarded, hcalm] at htranslated

theorem Served.start (h : Served schema tr src events s) (resolve : Kind → Option Bool) :
    Served schema tr src (events ++ [.start resolve]) ⟨s.store, (discover resolve).map fun watched =>
      { watched, state := .new src.publishService }⟩ := by
  refine h.keepStore _ fun l hl => ?_
  obtain ⟨watched, hwatched, rfl⟩ := Option.map_eq_some_iff.mp hl
  have hrequired := discover_required hwatched
  refine ⟨(told_concat events (.start resolve)).symm, (fun c hc => nomatch hc),
    follows_new schema src.publishService, fun kind => ?_,
    ⟨events, resolve, [], rfl, by simp, hwatched⟩, fun _ hsynced => ?_⟩
  · simp [State.new]
  · -- a required kind is watched and none was listed yet
    have hgateway : .gateway ∈ watched := hrequired .gateway (by simp [kinds]) rfl
    have hlisted := List.all_eq_true.mp hsynced .gateway hgateway
    simp [State.new] at hlisted

theorem InStep.tell (h : InStep schema tr src events store l) {kind : Kind} {event : Watch.Event}
    (hnamed : (Event.tell kind event).Named) :
    InStep schema tr src (events ++ [.tell kind event]) store
      { l with channel := l.channel ++ [changeOf kind event] } where
  history := by rw [told_concat, Event.tells, ← h.history, List.append_assoc]
  agrees := by
    rw [List.forall_mem_append, List.forall_mem_singleton]
    exact ⟨h.agrees, changeOf_agrees (fun o ho => (hnamed o ho).1) fun o ho => (hnamed o ho).2⟩
  follows := h.follows
  synced := h.synced
  started := h.started.later fun _ => nofun
  fresh := h.fresh

theorem step_served (h : Served schema tr src events s) (hnamed : e.Named)
    (hstep : step schema tr src s e = some s') : Served schema tr src (events ++ [e]) s' := by
  obtain ⟨store, loop⟩ := s
  cases loop with
  | none =>
    cases e with
    | start resolve =>
      cases hstep
      exact h.start resolve
    | tell | wake | settle | drain | pass | fail => cases hstep
  | some l =>
    have hin := h.loop l rfl
    have hkept : ∀ {l'}, InStep schema tr src (events ++ [e]) store l' →
        Served schema tr src (events ++ [e]) ⟨store, some l'⟩ := fun hl' =>
      h.keepStore e fun _ heq => Option.some.inj heq ▸ hl'
    cases e with
    | start resolve => cases hstep
    | tell kind event =>
      obtain ⟨-, hs'⟩ := Option.ite_none_right_eq_some.mp hstep
      cases hs'
      exact hkept (hin.tell hnamed)
    | fail =>
      obtain ⟨-, hs'⟩ := Option.ite_none_right_eq_some.mp hstep
      cases hs'
      exact h.keepStore _ fun l hl => nomatch hl
    | wake | drain =>
      simp only [step, Option.bind_eq_bind, Option.bind_some] at hstep
      split at hstep
      · rename_i hchannel
        cases hstep
        exact hkept (hin.take rfl hchannel fun _ => rfl)
      · cases hstep
    | settle =>
      simp only [step, Option.bind_eq_bind, Option.bind_some] at hstep
      split at hstep
      · rename_i hphase
        cases hstep
        exact hkept (hin.rephase rfl (by rw [hphase]; rfl))
      · cases hstep
    | pass =>
      simp only [step, Option.bind_eq_bind, Option.bind_some] at hstep
      split at hstep
      · rename_i hphase _
        cases hstep
        exact h.reconcile hphase
      · cases hstep

theorem run_served (hnamed : ∀ e ∈ events, e.Named)
    (h : run (step schema tr src) {} events = some s) : Served schema tr src events s := by
  induction events using List.reverseRecOn generalizing s with
  | nil =>
    cases h
    exact ⟨(fun l hl => nomatch hl), fun t ht => nomatch ht⟩
  | append_singleton before e ih =>
    obtain ⟨hbefore, he⟩ := List.forall_mem_append.mp hnamed
    obtain ⟨mid, hmid, hlast⟩ := run_append_eq_some.mp h
    obtain ⟨s', hstep, hend⟩ := run_cons_eq_some.mp hlast
    cases hend
    exact step_served (ih hbefore hmid) (he e (List.mem_singleton_self e)) hstep

end

/-- Whatever the source serves is the translation of a state in step with what one
run of the watchers had told up to some moment, when all the kinds that discovery
gave it, and so all that are not optional, had been listed whole. -/
theorem served_cluster_listed_whole (schema : Schema) (tr : Translator) (src : KubeSource)
    (events : List Event) (hnamed : ∀ e ∈ events, e.Named) (s : System)
    (h : run (step schema tr src) {} events = some s) (t : Translation)
    (ht : s.store.current = some t) :
    ∃ watched received st, Whole schema tr src events t watched received st :=
  (run_served hnamed h).whole t ht

/-! ## Catching up -/

section
variable {schema : Schema} {tr : Translator} {src : KubeSource}

/-- How many steps the loop is from where it waits with nothing in the channel. -/
def Loop.owes (l : Loop) : Nat :=
  match l.phase with
  | .waiting => if l.channel = [] then 0 else l.channel.length + 2
  | .debouncing _ => l.channel.length + 2
  | .draining _ => l.channel.length + 1

theorem owes_le (l : Loop) : l.owes ≤ l.channel.length + 2 := by
  unfold Loop.owes
  split
  · split <;> omega
  · exact le_rfl
  · omega

theorem waits_of_owes {l : Loop} (h : l.owes = 0) : l.phase = .waiting ∧ l.channel = [] := by
  unfold Loop.owes at h
  cases hphase : l.phase with
  | waiting => exact ⟨rfl, by simpa [hphase] using h⟩
  | debouncing dirty => simp [hphase] at h
  | draining dirty => simp [hphase] at h

theorem reconcile_waits (tr : Translator) (src : KubeSource) (store : Store) (l : Loop)
    (dirty : Bool) : ∃ store' l', reconcile tr src store l dirty = ⟨store', some l'⟩ ∧
      l'.phase = .waiting ∧ l'.channel = l.channel ∧ l'.watched = l.watched := by
  unfold reconcile
  split
  · exact ⟨_, _, rfl, rfl, rfl, rfl⟩
  · split
    · exact ⟨_, _, rfl, rfl, rfl, rfl⟩
    · exact ⟨_, _, rfl, rfl, rfl, rfl⟩

/-- One of the loop's own steps is always possible, until it owes none. -/
theorem exists_step (schema : Schema) (tr : Translator) (src : KubeSource) (store : Store)
    {l : Loop} {n : Nat} (h : l.owes = n + 1) : ∃ e store' l', e.works = true ∧
      step schema tr src ⟨store, some l⟩ e = some ⟨store', some l'⟩ ∧ l'.owes = n ∧
      l'.watched = l.watched := by
  unfold Loop.owes at h
  cases hphase : l.phase with
  | waiting =>
    cases hchannel : l.channel with
    | nil => simp [hphase, hchannel] at h
    | cons c rest =>
      refine ⟨.wake, store, l.take schema c rest .debouncing, rfl, ?_, ?_, rfl⟩
      · simp [step, hphase, hchannel]
      · show rest.length + 2 = n
        simpa [hphase, hchannel] using h
  | debouncing dirty =>
    refine ⟨.settle, store, { l with phase := .draining dirty }, rfl, ?_, ?_, rfl⟩
    · simp [step, hphase]
    · show l.channel.length + 1 = n
      simpa [hphase] using h
  | draining dirty =>
    cases hchannel : l.channel with
    | nil =>
      obtain ⟨store', l', hreconcile, hwaits, hempty, hwatched⟩ :=
        reconcile_waits tr src store l dirty
      refine ⟨.pass, store', l', rfl, ?_, ?_, hwatched⟩
      · simp [step, hphase, hchannel, hreconcile]
      · simpa [hphase, hchannel, Loop.owes, hwaits, hempty, eq_comm] using h
    | cons c rest =>
      refine ⟨.drain, store, l.take schema c rest .draining, rfl, ?_, ?_, rfl⟩
      · simp [step, hphase, hchannel]
      · show rest.length + 1 = n
        simpa [hphase, hchannel] using h

/-- From this loop its own steps lead to where it waits with nothing in the channel. -/
structure Drained (schema : Schema) (tr : Translator) (src : KubeSource) (s : System) (l : Loop)
    (own : List Event) (s' : System) (l' : Loop) : Prop where
  works : ∀ e ∈ own, e.works = true
  run : run (step schema tr src) s own = some s'
  loop : s'.loop = some l'
  phase : l'.phase = .waiting
  channel : l'.channel = []
  watched : l'.watched = l.watched

theorem exists_drained (schema : Schema) (tr : Translator) (src : KubeSource) (store : Store)
    (l : Loop) : ∃ own s' l',
      Drained schema tr src ⟨store, some l⟩ l own s' l' ∧ own.length = l.owes := by
  induction h : l.owes generalizing store l with
  | zero =>
    obtain ⟨hphase, hchannel⟩ := waits_of_owes h
    exact ⟨[], _, l, ⟨by simp, rfl, rfl, hphase, hchannel, rfl⟩, rfl⟩
  | succ n ih =>
    obtain ⟨e, store', mid, he, hstep, howes, hwatched⟩ := exists_step schema tr src store h
    obtain ⟨own, s', l', hdrained, hlength⟩ := ih store' mid howes
    refine ⟨e :: own, s', l', ⟨List.forall_mem_cons.mpr ⟨he, hdrained.works⟩, ?_, hdrained.loop,
      hdrained.phase, hdrained.channel, hdrained.watched.trans hwatched⟩, congrArg Nat.succ hlength⟩
    exact run_cons_eq_some.mpr ⟨_, hstep, hdrained.run⟩

variable {own : List Event}

theorem told_append_works (events : List Event)
    (h : ∀ e ∈ own, e.works = true) : told (events ++ own) = told events := by
  induction own using List.reverseRecOn with
  | nil => rw [List.append_nil]
  | append_singleton before e ih =>
    obtain ⟨hbefore, he⟩ := List.forall_mem_append.mp h
    rw [← List.append_assoc, told_concat_works _ (he e (List.mem_singleton_self e)), ih hbefore]

theorem named_of_works {e : Event} (h : e.works = true) : e.Named := by
  cases e with
  | start | tell | fail => cases h
  | wake | settle | drain | pass => trivial

/-- What is served once the loop has caught up. -/
theorem Drained.inStep {events : List Event} {s s' : System} {l l' : Loop}
    (hnamed : ∀ e ∈ events, e.Named) (h : Lib.Runs.run (step schema tr src) {} events = some s)
    (hdrained : Drained schema tr src s l own s' l') :
    InStep schema tr src (events ++ own) s'.store l' ∧ l'.received = told events := by
  have hserved : Served schema tr src (events ++ own) s' := by
    refine run_served ?_ (run_append_eq_some.mpr ⟨s, h, hdrained.run⟩)
    exact List.forall_mem_append.mpr ⟨hnamed, fun e he => named_of_works (hdrained.works e he)⟩
  have hin := hserved.loop l' hdrained.loop
  refine ⟨hin, ?_⟩
  have hhistory := hin.history
  rwa [hdrained.channel, List.append_nil, told_append_works events hdrained.works] at hhistory

theorem InStep.syncedAll {events : List Event} {store : Store} {l : Loop}
    (h : InStep schema tr src events store l)
    (hlisted : ∀ k ∈ l.watched, Change.initDone k.name ∈ l.received) :
    State.syncedAll l.state l.watched = true :=
  List.all_eq_true.mpr fun k hk => (h.synced k.name).mpr (hlisted k hk)

end

/-- From wherever the source is, so many steps of the loop as there are changes in
the channel, and two, take in everything the watchers told. Once every watched
kind was listed the store then serves a state in step with all of it, if the
translator does not panic on it, and so is the status that is written. -/
theorem told_changes_are_served (schema : Schema) (tr : Translator) (src : KubeSource)
    (events : List Event) (hnamed : ∀ e ∈ events, e.Named) (s : System)
    (h : run (step schema tr src) {} events = some s) (l : Loop) (hl : s.loop = some l) :
    ∃ own s' l', (∀ e ∈ own, e.works = true) ∧ own.length ≤ l.channel.length + 2 ∧
      run (step schema tr src) s own = some s' ∧ s'.loop = some l' ∧ l'.phase = .waiting ∧
      l'.received = told events ∧
      ((∀ k ∈ l.watched, Change.initDone k.name ∈ told events) →
        Fresh schema tr src s'.store l') := by
  obtain ⟨store, loop⟩ := s
  cases hl
  obtain ⟨own, s', l', hdrained, hlength⟩ := exists_drained schema tr src store l
  obtain ⟨hin, hreceived⟩ := hdrained.inStep hnamed h
  refine ⟨own, s', l', hdrained.works, hlength.le.trans (owes_le l), hdrained.run, hdrained.loop,
    hdrained.phase, hreceived, fun hlisted => ?_⟩
  refine hin.fresh (by rw [hdrained.phase]; rfl) (hin.syncedAll ?_)
  rw [hdrained.watched, hreceived]
  exact hlisted

/-! ### A list that is given up -/

def gatewayObject (name : String) : DynamicObject where
  name := some name
  generateName := none
  «namespace» := some "infra"
  fields := some [("metadata", .object [("name", .string name), ("namespace", .string "infra")])]
  metadata := by
    rintro fs ⟨⟩
    exact ⟨_, rfl, rfl, rfl⟩

/-- The first list of Gateways breaks off after one object, the second has another. -/
def brokenOff : List Event :=
  [.tell .gateway .init, .tell .gateway (.initApply (gatewayObject "a")), .tell .gateway .init,
    .tell .gateway (.initApply (gatewayObject "b"))]

def listedCluster : List Event :=
  .start (fun _ => some true) :: (brokenOff ++ kinds.map fun k => .tell k .initDone)

def calm : Translator where
  env := bareEnv
  panics := fun _ _ => none

def plainSource : KubeSource where
  settings := {}
  publishService := none
  readOnly := false

theorem listedCluster_named : ∀ e ∈ listedCluster, e.Named := by
  have hgateway : ∀ r, Scoped .gateway r := nofun
  simp [listedCluster, brokenOff, kinds, Event.Named, Watch.Event.object, gatewayObject, hgateway]

/-- The first list left nothing behind, and what the second has is served. -/
theorem told_changes_are_served_relisted :
    view bareSchema (told listedCluster) "Gateway" ⟨"infra", "a"⟩ = none ∧
    (view bareSchema (told listedCluster) "Gateway" ⟨"infra", "b"⟩).isSome = true ∧
    ∃ own s' l', (∀ e ∈ own, e.works = true) ∧
      run (step bareSchema calm plainSource) {} (listedCluster ++ own) = some s' ∧
      s'.loop = some l' ∧ l'.received = told listedCluster ∧
      Fresh bareSchema calm plainSource s'.store l' := by
  obtain ⟨s, hs⟩ : ∃ s, run (step bareSchema calm plainSource) {} listedCluster = some s :=
    ⟨_, rfl⟩
  obtain ⟨l, hl, hwatched⟩ : ∃ l, s.loop = some l ∧ l.watched = kinds := by
    cases hs
    exact ⟨_, rfl, rfl⟩
  obtain ⟨own, s', l', hworks, -, hrun, hl', -, hreceived, hfresh⟩ := told_changes_are_served
    bareSchema calm plainSource listedCluster listedCluster_named s hs l hl
  have hlisted : ∀ k ∈ l.watched, Change.initDone k.name ∈ told listedCluster := by
    have htold : told listedCluster = told (.start (fun _ => some true) :: brokenOff) ++
      kinds.map fun k => .initDone k.name := rfl
    intro k hk
    rw [htold]
    exact List.mem_append_right _ (List.mem_map_of_mem (hwatched ▸ hk))
  exact ⟨rfl, rfl, own, s', l', hworks, run_append_eq_some.mpr ⟨s, hs, hrun⟩, hl', hreceived,
    hfresh hlisted⟩

theorem served_cluster_listed_whole_relisted :
    let own := .wake :: .settle :: (List.replicate 13 .drain ++ [.pass])
    ∃ s t, run (step bareSchema calm plainSource) {} (listedCluster ++ own) = some s ∧
      s.store.current = some t ∧ ∃ watched received st,
        Whole bareSchema calm plainSource (listedCluster ++ own) t watched received st := by
  intro own
  have hserves : ((run (step bareSchema calm plainSource) {} (listedCluster ++ own)).bind
      (·.store.current)).isSome = true := by decide +kernel
  obtain ⟨t, ht⟩ := Option.isSome_iff_exists.mp hserves
  obtain ⟨s, hs, hcurrent⟩ := Option.bind_eq_some_iff.mp ht
  have hworks : ∀ e ∈ own, e.works = true := by decide
  have hnamed : ∀ e ∈ listedCluster ++ own, e.Named :=
    List.forall_mem_append.mpr ⟨listedCluster_named, fun e he => named_of_works (hworks e he)⟩
  exact ⟨s, t, hs, hcurrent, served_cluster_listed_whole bareSchema calm plainSource _ hnamed s hs t
    hcurrent⟩

end Gapura.Source.Reconcile
