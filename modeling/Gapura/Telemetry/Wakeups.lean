import Gapura.Telemetry.Export

/-! # The export worker is woken

A notification is sent outside the lock, and only when a push left one entry or a
full batch behind. The worker waits for a first entry only after it has seen the
queue empty, and only it empties the queue: the push that ends its emptiness is
one that notifies, and nobody else can take that notification. -/
namespace Gapura.Telemetry.Export

section
variable {T β : Type} {encode : List T → β} {s s' : State T β}

/-- The worker in a wait for a first entry, not called yet. -/
def State.Blocked (s : State T β) : Prop :=
  ∃ stopping turn, s.point = .wait (.first stopping) turn ∧ turn ≠ .notified

/-- Neither waits in vain. -/
structure Awake (s : State T β) : Prop where
  /-- Entries that a blocked worker has not seen have a notification on its way. -/
  called : s.Blocked → s.queue.items ≠ [] → s.permit = true ∨ 0 < s.pending
  /-- A worker in line has left no permit behind. -/
  inLine : ∀ what, s.point = .wait what .registered → s.permit = false

/-- A push into an empty queue notifies, whatever the limits. -/
theorem push_notifies {q : Queue T} (hempty : q.items = []) (item : T) (weight : Nat)
    (hqueued : (q.push item weight).1.items ≠ []) : (q.push item weight).2 = true := by
  unfold Queue.push at hqueued ⊢
  split
  · rename_i hover
    rw [if_pos hover] at hqueued
    exact absurd hempty hqueued
  · rw [hempty]
    rfl

theorem Awake.push (h : Awake s) (item : T) (weight : Nat) : Awake (s.push item weight) := by
  refine ⟨fun hblocked hqueued => ?_, h.inLine⟩
  by_cases hempty : s.queue.items = []
  · have hnotifies := push_notifies hempty ⟨s.pushed.length, item⟩ weight hqueued
    refine .inr ?_
    simp only [State.push, hnotifies, Bool.toNat_true]
    exact Nat.succ_pos _
  · refine (h.called hblocked hempty).imp id fun hpending => ?_
    exact Nat.lt_of_lt_of_le hpending (Nat.le_add_right _ _)

theorem awake_notify (hnotify : s.notify = some s') : Awake s' := by
  unfold State.notify at hnotify
  split at hnotify
  · cases hnotify
  · split at hnotify <;> cases hnotify
    · refine ⟨fun hblocked => ?_, fun _ hpoint => nomatch hpoint⟩
      obtain ⟨stopping, turn, hpoint, hturn⟩ := hblocked
      cases hpoint
      exact absurd rfl hturn
    · rename_i hline
      exact ⟨fun _ _ => .inl rfl, fun what hpoint => absurd hpoint (hline what)⟩

theorem Awake.worker (h : Awake s) (hwork : Works encode s s') : Awake s' := by
  cases hwork with
  | walked permit point hwait _ _ =>
    refine ⟨fun hblocked => ?_, fun what hpoint => ?_⟩
    · obtain ⟨stopping, turn, hpoint, -⟩ := hblocked
      cases (hwait _ _ hpoint).1
    · cases (hwait _ _ hpoint).2
  | idled stopping hpoint hempty =>
    exact ⟨fun _ hqueued => absurd hempty hqueued, fun _ hpoint => nomatch hpoint⟩
  | lined what hpoint hpermit =>
    refine ⟨fun hblocked hqueued => ?_, fun _ _ => hpermit⟩
    obtain ⟨stopping, turn, hwaits, -⟩ := hblocked
    cases hwaits
    exact h.called ⟨stopping, .unpolled, hpoint, nofun⟩ hqueued
  | took _ | delivered _ _ | lost _ _ =>
    refine ⟨fun hblocked => ?_, fun _ hpoint => nomatch hpoint⟩
    obtain ⟨stopping, turn, hpoint, -⟩ := hblocked
    cases hpoint

theorem Awake.step {event : Event T} (h : Awake s) (hstep : step encode s event = some s') :
    Awake s' := by
  cases event with
  | push item weight =>
    cases hstep
    exact h.push item weight
  | notify => exact awake_notify hstep
  | stop | senderGone =>
    cases hstep
    exact ⟨h.called, h.inLine⟩
  | worker move => exact h.worker (works_of_worker hstep)

/-- A blocked worker that is notified, or finds a permit, goes on. -/
theorem wakes (hblocked : s.Blocked) (h : Awake s) (hcalled : s.permit = true ∨ 0 < s.pending) :
    ∃ s', Lib.Runs.run (step encode) s
        (if 0 < s.pending then [.notify, .worker .poll] else [.worker .poll]) = some s' ∧
      s'.point = .top := by
  obtain ⟨stopping, turn, hpoint, hturn⟩ := hblocked
  cases turn with
  | notified => exact absurd rfl hturn
  | unpolled =>
    by_cases hpending : 0 < s.pending
    · simp [hpending, Lib.Runs.run, step, State.notify, State.worker, hpoint,
        Nat.ne_of_gt hpending, Awaited.called]
    · have hpermit := hcalled.resolve_right hpending
      simp [hpending, Lib.Runs.run, step, State.worker, hpoint, hpermit, Awaited.called]
  | registered =>
    have hpending : 0 < s.pending := by
      have hnone := h.inLine _ hpoint
      rw [hnone] at hcalled
      exact hcalled.resolve_left Bool.false_ne_true
    simp [hpending, Lib.Runs.run, step, State.notify, State.worker, hpoint,
      Nat.ne_of_gt hpending, Awaited.called]

/-- Under every interleaving, whatever the limits: a worker blocked in the wait for
a first entry while entries are queued has a permit to find or a push yet to
notify it, and that one notification, or the permit, is enough to set it going. -/
theorem worker_never_sleeps_on_records (encode : List T → β) (capacity maxBytes : Nat)
    (events : List (Event T)) (s : State T β) (h : run encode capacity maxBytes events = some s)
    (hblocked : s.Blocked) (hqueued : s.queue.items ≠ []) :
    (s.permit = true ∨ 0 < s.pending) ∧
    ∃ s', Lib.Runs.run (step encode) s
        (if 0 < s.pending then [.notify, .worker .poll] else [.worker .poll]) = some s' ∧
      s'.point = .top := by
  have hawake : Awake s := by
    refine Lib.Runs.invariant h ?_ fun t event t' _ ht hstep => ht.step hstep
    exact ⟨fun ⟨_, _, hpoint, _⟩ => (nomatch hpoint), fun _ hpoint => nomatch hpoint⟩
  have hcalled := hawake.called hblocked hqueued
  exact ⟨hcalled, wakes hblocked hawake hcalled⟩

end

/-- A queue of one: the worker is in line when two pushes come, the second dropping
the record of the first, and neither has notified yet. -/
def caughtInLine : List (Event String) :=
  [.worker .advance, .worker .advance, .worker .poll, .push "a" 1, .push "b" 1]

theorem worker_never_sleeps_on_records_one :
    ∃ s s' : State String (List String), run id 1 8 caughtInLine = some s ∧
      s.Blocked ∧ s.queue.items.length = 1 ∧ s.pending = 2 ∧
      Lib.Runs.run (step id) s [.notify, .worker .poll] = some s' ∧ s'.point = .top := by
  obtain ⟨s, hs⟩ : ∃ s : State String (List String), run id 1 8 caughtInLine = some s := ⟨_, rfl⟩
  have hblocked : s.Blocked := by
    cases hs
    exact ⟨false, .registered, rfl, nofun⟩
  have hqueued : s.queue.items ≠ [] := by
    cases hs
    exact List.cons_ne_nil _ _
  obtain ⟨-, s', hwoken, hpoint⟩ :=
    worker_never_sleeps_on_records id 1 8 caughtInLine s hs hblocked hqueued
  cases hs
  exact ⟨_, s', rfl, hblocked, rfl, rfl, hwoken, hpoint⟩

end Gapura.Telemetry.Export
