import Gapura.Telemetry.Export

/-! # The books of an export queue

Every record pushed is queued, under delivery, delivered or counted as lost, and
the queue is bounded by its capacity and its byte budget. The byte sum is exact as
long as two budgets fit in a machine word; past that it wraps. -/
namespace Gapura.Telemetry.Export

/-! ## Sizes that do not wrap -/

theorem addSize_eq {a b : Nat} (h : a + b < sizeEnd) : addSize a b = a + b := Nat.mod_eq_of_lt h

theorem subSize_eq {a b : Nat} (hle : b ≤ a) (h : a < sizeEnd) : subSize a b = a - b := by
  unfold subSize
  rw [Nat.sub_add_comm hle, Nat.add_mod_right, Nat.mod_eq_of_lt (by omega)]

section
variable {T β : Type}

/-- The bytes of some entries. -/
def weights (entries : List (T × Nat)) : Nat := (entries.map (·.2)).sum

@[simp] theorem weights_nil : weights ([] : List (T × Nat)) = 0 := rfl

@[simp] theorem weights_cons (entry : T × Nat) (rest : List (T × Nat)) :
    weights (entry :: rest) = entry.2 + weights rest := by simp [weights]

@[simp] theorem weights_append (first second : List (T × Nat)) :
    weights (first ++ second) = weights first + weights second := by simp [weights]

theorem foldl_addSize (entries : List (T × Nat)) (freed : Nat)
    (h : freed + weights entries < sizeEnd) :
    entries.foldl (fun freed entry => addSize freed entry.2) freed = freed + weights entries := by
  induction entries generalizing freed with
  | nil => rfl
  | cons entry rest ih =>
    rw [weights_cons] at h
    rw [List.foldl_cons, addSize_eq (by omega), ih _ (by omega), weights_cons]
    omega

/-! ## One call of the queue -/

/-- The queue's own bounds. -/
structure Queue.Sound (q : Queue T) : Prop where
  bytes : q.bytes = weights q.items
  budget : q.bytes ≤ q.maxBytes
  length : q.items.length ≤ max q.capacity 1

/-- What is left when a push has made room for its entry. -/
structure Room (q : Queue T) (weight : Nat) (items dropped kept : List (T × Nat)) (bytes : Nat) :
    Prop where
  split : items = dropped ++ kept
  sum : bytes = weights kept
  room : kept = [] ∨ kept.length < q.capacity ∧ bytes + weight ≤ q.maxBytes

variable {q : Queue T}

theorem evict_room {weight : Nat} (hword : q.maxBytes < 2 ^ 63)
    (hweight : weight ≤ q.maxBytes) {items : List (T × Nat)} (hle : weights items ≤ q.maxBytes) :
    Room q weight items (q.evict weight items (weights items)).1
      (q.evict weight items (weights items)).2.1 (q.evict weight items (weights items)).2.2 := by
  induction items with
  | nil => exact ⟨rfl, rfl, .inl rfl⟩
  | cons entry rest ih =>
    rw [weights_cons] at hle
    have hsub : subSize (weights (entry :: rest)) entry.2 = weights rest := by
      rw [weights_cons, subSize_eq (Nat.le_add_right _ _) (by unfold sizeEnd; omega)]
      exact Nat.add_sub_cancel_left _ _
    unfold Queue.evict
    rw [hsub]
    split
    · obtain ⟨hsplit, hbytes, hroom⟩ := ih (by omega)
      exact ⟨congrArg (entry :: ·) hsplit, hbytes, hroom⟩
    · rename_i hfull
      simp only [Bool.or_eq_true, decide_eq_true_eq, not_or, not_le, not_lt] at hfull
      rw [weights_cons, addSize_eq (by unfold sizeEnd; omega)] at hfull
      exact ⟨rfl, rfl, .inr ⟨hfull.1, by rw [weights_cons]; exact hfull.2⟩⟩

/-- What a push does: it is refused, or it takes the place of what it drops. -/
theorem Queue.push_cases (h : q.Sound) (hword : q.maxBytes < 2 ^ 63) (item : T) (weight : Nat) :
    (q.maxBytes < weight ∧ q.dropped weight = [] ∧
      (q.push item weight).1 = { q with queueFull := q.queueFull + 1 }) ∨
    ¬ q.maxBytes < weight ∧ ∃ kept warned, q.items = q.dropped weight ++ kept ∧
      weights kept + weight ≤ q.maxBytes ∧ kept.length + 1 ≤ max q.capacity 1 ∧
      (q.push item weight).1 = { q with
        items := kept ++ [(item, weight)]
        bytes := weights kept + weight
        warned
        queueFull := q.queueFull + (q.dropped weight).length } := by
  by_cases hover : q.maxBytes < weight
  · exact .inl ⟨hover, if_pos hover, by rw [Queue.push, if_pos hover]⟩
  · have hbudget := h.budget
    rw [h.bytes] at hbudget
    obtain ⟨hsplit, hbytes, hroom⟩ := evict_room hword (not_lt.mp hover) hbudget
    rw [← h.bytes] at hsplit hbytes hroom
    have hfits : weights (q.evict weight q.items q.bytes).2.1 + weight ≤ q.maxBytes := by
      rw [← hbytes]
      rcases hroom with hempty | hroom
      · rw [hbytes, hempty, weights_nil, Nat.zero_add]
        exact not_lt.mp hover
      · exact hroom.2
    refine .inr ⟨hover, (q.evict weight q.items q.bytes).2.1, (q.push item weight).1.warned, ?_,
      hfits, ?_, ?_⟩
    · rw [Queue.dropped, if_neg hover]
      exact hsplit
    · rcases hroom with hempty | hroom
      · rw [hempty]
        exact le_max_right _ _
      · exact le_max_of_le_left hroom.1
    · rw [Queue.push, if_neg hover, Queue.dropped, if_neg hover]
      have hsum := addSize_eq (show weights (q.evict weight q.items q.bytes).2.1 + weight < sizeEnd by
        unfold sizeEnd
        omega)
      simp only [hbytes, hsum]

theorem Queue.Sound.push (h : q.Sound) (hword : q.maxBytes < 2 ^ 63) (item : T)
    (weight : Nat) : (q.push item weight).1.Sound := by
  obtain ⟨-, -, hpush⟩ | ⟨-, kept, warned, -, hfits, hlength, hpush⟩ :=
    Queue.push_cases h hword item weight
  · rw [hpush]
    exact ⟨h.bytes, h.budget, h.length⟩
  · rw [hpush]
    exact ⟨by simp, hfits, by simpa using hlength⟩

theorem weights_take_le (items : List (T × Nat)) (max : Nat) :
    weights (items.take max) ≤ weights items := by
  have hsplit := weights_append (items.take max) (items.drop max)
  rw [List.take_append_drop] at hsplit
  omega

theorem Queue.Sound.take (h : q.Sound) (hword : q.maxBytes < 2 ^ 63) (max : Nat) :
    (q.take max).2.Sound := by
  have hbudget := h.budget
  have hbytes := h.bytes
  have hle := weights_take_le q.items max
  have hsplit := weights_append (q.items.take max) (q.items.drop max)
  rw [List.take_append_drop] at hsplit
  have hfreed : (q.items.take max).foldl (fun freed entry => addSize freed entry.2) 0 =
      weights (q.items.take max) := by
    rw [foldl_addSize _ _ (by unfold sizeEnd; omega), Nat.zero_add]
  have hleft : (q.take max).2.bytes = weights (q.items.drop max) := by
    show subSize q.bytes _ = _
    rw [hfreed, subSize_eq (by omega) (by unfold sizeEnd; omega)]
    omega
  refine ⟨hleft, ?_, ?_⟩
  · rw [hleft]
    show _ ≤ q.maxBytes
    omega
  · show (q.items.drop max).length ≤ _
    rw [List.length_drop]
    exact (Nat.sub_le _ _).trans h.length

theorem weights_dropped_le (h : q.Sound) (hword : q.maxBytes < 2 ^ 63)
    (weight : Nat) : weights (q.dropped weight) ≤ q.bytes := by
  unfold Queue.dropped
  split
  · exact Nat.zero_le _
  · rename_i hover
    have hbudget := h.budget
    rw [h.bytes] at hbudget ⊢
    have hsplit := congrArg weights (evict_room hword (not_lt.mp hover) hbudget).split
    rw [weights_append] at hsplit
    omega

/-! ## Every event -/

structure Books (capacity maxBytes : Nat) (s : State T β) : Prop where
  limits : s.queue.capacity = capacity ∧ s.queue.maxBytes = maxBytes
  sound : s.queue.Sound
  numbered : s.pushed.map (·.place) = List.range s.pushed.length
  order : (s.taken ++ s.queue.items.map (·.1)).Sublist s.pushed
  known : ∀ r ∈ s.evicted, r ∈ s.pushed
  older : ∀ r ∈ s.evicted, ∀ entry ∈ s.queue.items, r.place < entry.1.place
  fates : s.queue.queueFull + (s.taken.length + s.queue.items.length) = s.pushed.length
  batch : s.point.batch.length = s.point.inFlight
  settled : s.delivered.length + s.queue.sendFailed + s.point.inFlight = s.taken.length

section
variable {capacity maxBytes : Nat} {s s' : State T β}

variable {r : Record T} {encode : List T → β} {event : Event T}

section
variable (h : Books capacity maxBytes s)

include h

theorem Books.places_lt (hr : r ∈ s.pushed) : r.place < s.pushed.length := by
  have hplace : r.place ∈ s.pushed.map (·.place) := List.mem_map_of_mem hr
  rw [h.numbered] at hplace
  exact List.mem_range.mp hplace

/-- The entries queued stand in the order of their pushes. -/
theorem Books.sorted : (s.queue.items.map (·.1)).Pairwise (fun a b => a.place < b.place) := by
  have hpushed : s.pushed.Pairwise (fun a b => a.place < b.place) := by
    rw [← List.pairwise_map (f := Record.place), h.numbered]
    exact List.pairwise_lt_range
  exact (hpushed.sublist h.order).sublist (List.sublist_append_right _ _)

/-- Where the entries `items` go out from the front, every record out is known and
older than those that stay. -/
theorem Books.leave {items kept : List (Record T × Nat)}
    (hsplit : s.queue.items = items ++ kept) (hr : r ∈ s.evicted ++ items.map (·.1)) :
    r ∈ s.pushed ∧ ∀ entry ∈ kept, r.place < entry.1.place := by
  have hsorted := h.sorted
  have horder := h.order
  rw [hsplit, List.map_append] at hsorted horder
  rcases List.mem_append.mp hr with hold | hout
  · exact ⟨h.known r hold, fun entry hkept =>
      h.older r hold entry (hsplit ▸ List.mem_append_right _ hkept)⟩
  · exact ⟨horder.subset (List.mem_append_right _ (List.mem_append_left _ hout)), fun entry hkept =>
      (List.pairwise_append.mp hsorted).2.2 r hout entry.1 (List.mem_map_of_mem hkept)⟩

theorem Books.push (hword : maxBytes < 2 ^ 63) (item : T)
    (weight : Nat) : Books capacity maxBytes (s.push item weight) := by
  obtain ⟨hcapacity, hmax⟩ := h.limits
  have hword' : s.queue.maxBytes < 2 ^ 63 := hmax ▸ hword
  have hsound := h.sound.push hword' ⟨s.pushed.length, item⟩ weight
  have hnumbered : (s.push item weight).pushed.map (·.place) =
      List.range (s.push item weight).pushed.length := by
    simp only [State.push, List.map_append, h.numbered, List.length_append, List.map_cons,
      List.map_nil, List.length_singleton, List.range_succ]
  have hfates := h.fates
  obtain ⟨-, hdropped, hpush⟩ | ⟨-, kept, warned, hsplit, -, -, hpush⟩ :=
    Queue.push_cases h.sound hword' (⟨s.pushed.length, item⟩ : Record T) weight
  · refine ⟨?_, hsound, hnumbered, ?_, ?_, ?_, ?_, h.batch, ?_⟩
    all_goals simp only [State.push, hpush, hdropped, List.map_nil, List.append_nil]
    · exact h.limits
    · exact h.order.trans (List.sublist_append_left _ _)
    · exact fun r hr => List.mem_append_left _ (h.known r hr)
    · exact h.older
    · rw [List.length_append, List.length_singleton]
      omega
    · exact h.settled
  · have horder := h.order
    rw [hsplit, List.map_append] at horder
    rw [hsplit, List.length_append] at hfates
    refine ⟨?_, hsound, hnumbered, ?_, ?_, ?_, ?_, h.batch, ?_⟩
    all_goals simp only [State.push, hpush]
    · exact h.limits
    · rw [List.map_append, ← List.append_assoc]
      refine List.Sublist.append ?_ (List.Sublist.refl _)
      exact (List.Sublist.append_left (List.sublist_append_right _ _) _).trans horder
    · exact fun r hr => List.mem_append_left _ (h.leave hsplit hr).1
    · intro r hr entry hentry
      rcases List.mem_append.mp hentry with hkept | hnew
      · exact (h.leave hsplit hr).2 entry hkept
      · rw [List.mem_singleton.mp hnew]
        exact h.places_lt (h.leave hsplit hr).1
    · simp only [List.length_append, List.length_singleton]
      omega
    · exact h.settled

theorem Books.takeBatch (hword : maxBytes < 2 ^ 63) (hpoint : s.point = .take)
    (encode : List T → β) : Books capacity maxBytes (s.takeBatch encode) := by
  have hfates := h.fates
  have hsettled := h.settled
  have hlength := congrArg List.length (List.take_append_drop maxBatch s.queue.items)
  rw [List.length_append] at hlength
  rw [hpoint] at hsettled
  refine ⟨h.limits, h.sound.take (h.limits.2 ▸ hword) maxBatch, h.numbered, ?_, h.known, ?_, ?_, rfl,
    ?_⟩
  · show (s.taken ++ (s.queue.items.take maxBatch).map (·.1) ++
      (s.queue.items.drop maxBatch).map (·.1)).Sublist s.pushed
    rw [List.append_assoc, ← List.map_append, List.take_append_drop]
    exact h.order
  · intro r hr entry hentry
    exact h.older r hr entry (List.mem_of_mem_drop hentry)
  · show s.queue.queueFull + ((s.taken ++ (s.queue.items.take maxBatch).map (·.1)).length +
      (s.queue.items.drop maxBatch).length) = s.pushed.length
    rw [List.length_append, List.length_map]
    omega
  · show s.delivered.length + s.queue.sendFailed +
      ((s.queue.items.take maxBatch).map (·.1)).length =
        (s.taken ++ (s.queue.items.take maxBatch).map (·.1)).length
    rw [List.length_append]
    simp only [Point.inFlight] at hsettled
    omega

theorem Books.worker
    (hword : maxBytes < 2 ^ 63) (hwork : Works encode s s') : Books capacity maxBytes s' := by
  have hsettled := h.settled
  have hbatch := h.batch
  cases hwork with
  | walked permit point _ hsame hflight =>
    refine { h with batch := ?_, settled := ?_ }
    · rw [hsame, hflight]
      exact hbatch
    · rw [hflight]
      exact hsettled
  | idled stopping hpoint _ =>
    rw [hpoint] at hsettled
    exact { h with batch := rfl, settled := hsettled }
  | lined what hpoint _ =>
    rw [hpoint] at hsettled
    exact { h with batch := rfl, settled := hsettled }
  | took hpoint => exact h.takeBatch hword hpoint encode
  | delivered d hpoint =>
    rw [hpoint] at hsettled hbatch
    refine { h with batch := rfl, settled := ?_ }
    simp only [Point.inFlight, Point.batch, List.length_append] at hsettled hbatch ⊢
    omega
  | lost d hpoint =>
    rw [hpoint] at hsettled
    refine { h with sound := { h.sound with }, batch := rfl, settled := ?_ }
    simp only [Point.inFlight] at hsettled ⊢
    omega

theorem Books.notify (hnotify : s.notify = some s') : Books capacity maxBytes s' := by
  unfold State.notify at hnotify
  split at hnotify
  · cases hnotify
  · have hbatch := h.batch
    have hsettled := h.settled
    split at hnotify <;> cases hnotify
    · rename_i hpoint
      rw [hpoint] at hbatch hsettled
      exact { h with batch := hbatch, settled := hsettled }
    · exact { h with batch := hbatch, settled := hsettled }

theorem Books.step (hword : maxBytes < 2 ^ 63)
    (hstep : step encode s event = some s') : Books capacity maxBytes s' := by
  cases event with
  | push item weight =>
    cases hstep
    exact h.push hword item weight
  | notify => exact h.notify hstep
  | stop | senderGone =>
    cases hstep
    exact { h with }
  | worker move => exact h.worker hword (works_of_worker hstep)

end

/-- The record an event pushes. -/
def Event.pushed : Event T → Option T
  | .push item _ => some item
  | _ => none

theorem pushed_step (hstep : step encode s event = some s') :
    s'.pushed.map (·.item) = s.pushed.map (·.item) ++ event.pushed.toList := by
  cases event with
  | push item weight =>
    cases hstep
    simp [State.push, Event.pushed]
  | notify =>
    change s.notify = some s' at hstep
    unfold State.notify at hstep
    split at hstep
    · cases hstep
    · split at hstep <;> cases hstep <;> simp [Event.pushed]
  | stop | senderGone =>
    cases hstep
    simp [Event.pushed]
  | worker move => cases works_of_worker hstep <;> simp [State.takeBatch, Event.pushed]

end

/-- Over every interleaving: each record pushed is queued, under delivery,
delivered or counted as lost; the byte sum is exact and within the budget, and
what a push drops or the worker takes never weighs more; the queue is within its
capacity, or holds one entry; and records leave it in the order of their pushes,
those dropped for a later one being older than all that are left. -/
theorem queue_conserves (encode : List T → β) (capacity maxBytes : Nat) (hword : maxBytes < 2 ^ 63)
    (events : List (Event T)) (s : State T β) (h : run encode capacity maxBytes events = some s) :
    s.pushed.map (·.item) = events.filterMap Event.pushed ∧
    s.pushed.length = s.queue.items.length + s.point.inFlight + s.delivered.length +
      s.queue.queueFull + s.queue.sendFailed ∧
    s.queue.bytes = weights s.queue.items ∧ s.queue.bytes ≤ maxBytes ∧
    (∀ weight, weights (s.queue.dropped weight) ≤ s.queue.bytes) ∧
    (∀ n, weights (s.queue.items.take n) ≤ s.queue.bytes) ∧
    s.queue.items.length ≤ max capacity 1 ∧
    s.pushed.map (·.place) = List.range s.pushed.length ∧
    (s.taken ++ s.queue.items.map (·.1)).Sublist s.pushed ∧
    ∀ r ∈ s.evicted, r ∈ s.pushed ∧ ∀ entry ∈ s.queue.items, r.place < entry.1.place := by
  have hbooks : Books capacity maxBytes s := by
    refine Lib.Runs.invariant h ?_ fun t event t' _ ht hstep => ht.step hword hstep
    exact ⟨⟨rfl, rfl⟩, ⟨rfl, Nat.zero_le _, Nat.zero_le _⟩, rfl, List.Sublist.refl _, nofun, nofun,
      rfl, rfl, rfl⟩
  have hpushed : s.pushed.map (·.item) = events.filterMap Event.pushed := by
    refine Lib.Runs.invariant_of_history (P := fun events s =>
      s.pushed.map (·.item) = events.filterMap Event.pushed) h rfl ?_
    intro before t event t' ht hstep
    rw [pushed_step hstep, ht, List.filterMap_append]
    cases event <;> rfl
  obtain ⟨⟨hcapacity, hmax⟩, hsound, hnumbered, horder, hknown, holder, hfates, -, hsettled⟩ := hbooks
  refine ⟨hpushed, by omega, hsound.bytes, hmax ▸ hsound.budget,
    weights_dropped_le hsound (hmax ▸ hword), ?_, hcapacity ▸ hsound.length, hnumbered, horder,
    fun r hr => ⟨hknown r hr, holder r hr⟩⟩
  intro n
  rw [hsound.bytes]
  exact weights_take_le s.queue.items n

/-- Room for two: a third push drops the first record, the worker takes the others
and their delivery fails for longer than it may. -/
def overfilled : List (Event String) :=
  [.push "a" 1, .push "b" 1, .push "c" 1, .push "over" 9, .notify, .stop,
    .worker .advance, .worker .advance, .worker .advance, .worker (.posted (.error "refused") 5000)]

theorem queue_conserves_overfilled :
    ∃ s : State String (List String), run id 2 8 overfilled = some s ∧ s.pushed.length = 4 ∧
      s.queue.queueFull = 2 ∧ s.queue.sendFailed = 2 ∧ s.queue.items = [] ∧
      s.evicted = [⟨0, "a"⟩] ∧ (s.taken ++ s.queue.items.map (·.1)).Sublist s.pushed := by
  obtain ⟨s, hs⟩ : ∃ s : State String (List String), run id 2 8 overfilled = some s := ⟨_, rfl⟩
  obtain ⟨-, -, -, -, -, -, -, -, horder, -⟩ :=
    queue_conserves id 2 8 (by decide) overfilled s hs
  cases hs
  exact ⟨_, rfl, rfl, rfl, rfl, rfl, rfl, horder⟩

/-- Under a budget of more than half a machine word the byte sum wraps. -/
theorem byte_sum_wraps :
    ∃ s : State String (List String),
      run id 2 (2 ^ 64 - 1) [.push "a" (2 ^ 63), .push "b" (2 ^ 63)] = some s ∧
      s.queue.bytes = 0 ∧ weights s.queue.items = 2 ^ 64 := by
  exact ⟨_, rfl, by decide, by decide⟩

end

end Gapura.Telemetry.Export
