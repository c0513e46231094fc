import Gapura.Lib.Runs

/-! # Delivery to export sinks

Each sink has one bounded queue, filled by the request threads and drained in
batches by one worker. A push is two steps, the update under the lock and the
notification after it, and any number of pushes may be between the two. The
worker is where its loop is; what the clock, the collector and the shutdown do to
it are events. Sizes are machine words and their sums wrap; times are
milliseconds. -/
namespace Gapura.Telemetry.Export

/-- Entries in one batch at most. -/
def maxBatch : Nat := 500
/-- The delay before the first resend of a failed batch. -/
def firstRetry : Nat := 10
/-- The longest delay between two sends of one batch. -/
def maxRetryDelay : Nat := 60000
/-- How long a batch is retried before it is dropped. -/
def maxRetryTime : Nat := 60000
/-- How long once the process is shutting down. -/
def stoppingRetryTime : Nat := 5000

/-- One more than the largest size. -/
def sizeEnd : Nat := 2 ^ 64

def addSize (a b : Nat) : Nat := (a + b) % sizeEnd

def subSize (a b : Nat) : Nat := (a + sizeEnd - b) % sizeEnd

def mulSize (a b : Nat) : Nat := a * b % sizeEnd

/-! ## The queue -/

/-- One sink's queue, what its lock guards included. -/
structure Queue (T : Type) where
  capacity : Nat
  maxBytes : Nat
  /-- Each entry with the bytes it weighs. -/
  items : List (T × Nat) := []
  /-- The weights of `items`, added up. -/
  bytes : Nat := 0
  /-- Set once the queue has warned that it is 80% full, until it next empties. -/
  warned : Bool := false
  queueFull : Nat := 0
  sendFailed : Nat := 0
  deriving DecidableEq, Repr

section
variable {T : Type}

/-- Drop the oldest entries while the queue is full by count or by bytes: what was
dropped, what is left and its bytes. -/
def Queue.evict (q : Queue T) (weight : Nat) :
    List (T × Nat) → Nat → List (T × Nat) × List (T × Nat) × Nat
  | [], bytes => ([], [], bytes)
  | entry :: rest, bytes =>
    if decide (q.capacity ≤ (entry :: rest).length) ||
        decide (q.maxBytes < addSize bytes weight) then
      let (dropped, kept, bytes) := q.evict weight rest (subSize bytes entry.2)
      (entry :: dropped, kept, bytes)
    else ([], entry :: rest, bytes)

/-- The entries a push of this weight drops. -/
def Queue.dropped (q : Queue T) (weight : Nat) : List (T × Nat) :=
  if q.maxBytes < weight then [] else (q.evict weight q.items q.bytes).1

/-- The update of a push, and whether a notification follows it. An entry over the
whole budget is not queued. -/
def Queue.push (q : Queue T) (item : T) (weight : Nat) : Queue T × Bool :=
  if q.maxBytes < weight then ({ q with queueFull := q.queueFull + 1 }, false)
  else
    let (dropped, kept, left) := q.evict weight q.items q.bytes
    let items := kept ++ [(item, weight)]
    let bytes := addSize left weight
    let warn := !q.warned && (decide (mulSize q.capacity 4 ≤ mulSize items.length 5) ||
      decide (mulSize q.maxBytes 4 ≤ mulSize bytes 5))
    ({ q with items, bytes, warned := q.warned || warn, queueFull := q.queueFull + dropped.length },
      items.length == 1 || items.length == maxBatch)

/-- Up to `max` entries off the front. -/
def Queue.take (q : Queue T) (max : Nat) : List T × Queue T :=
  let freed := (q.items.take max).foldl (fun freed entry => addSize freed entry.2) 0
  let items := q.items.drop max
  ((q.items.take max).map (·.1),
    { q with items, bytes := subSize q.bytes freed, warned := q.warned && !items.isEmpty })

end

/-! ## The worker -/

/-- The shutdown's watch: what it last said, and whether anyone can say more. -/
structure Watch where
  stop : Bool := false
  senderGone : Bool := false
  deriving DecidableEq, Repr

/-- Whether shutdown has begun; then also every wait for it ends. -/
def Watch.isStopping (w : Watch) : Bool := w.stop || w.senderGone

/-- What the worker waits to be notified of, with the shutdown as it read it. -/
inductive Awaited where
  | first (stopping : Bool)
  | fullBatch
  deriving DecidableEq, Repr

/-- The worker's side of the notifier: not asked yet, in line, or called. -/
inductive Turn where
  | unpolled
  | registered
  | notified
  deriving DecidableEq, Repr

/-- A record with the number of its push, which tells equal records apart. -/
structure Record (T : Type) where
  place : Nat
  item : T
  deriving DecidableEq, Repr

/-- A batch being delivered. -/
structure Delivery (T β : Type) where
  n : Nat
  body : β
  delay : Nat
  /-- The records of the body, kept for the record. -/
  batch : List (Record T)
  deriving DecidableEq, Repr

/-- Where the worker's loop is. -/
inductive Point (T β : Type) where
  | top
  | measure (stopping : Bool)
  | fill
  | wait (what : Awaited) (turn : Turn)
  | take
  | send (d : Delivery T β)
  | backOff (d : Delivery T β) (stopping : Bool) (wait : Nat)
  deriving DecidableEq, Repr

/-- Where a notification takes the worker. -/
def Awaited.called {T β : Type} : Awaited → Point T β
  | .first _ => .top
  | .fullBatch => .fill

/-- Where the shutdown takes the worker. -/
def Awaited.stopped {T β : Type} : Awaited → Point T β
  | .first _ => .top
  | .fullBatch => .take

/-- Whether the wait also ends at shutdown. -/
def Awaited.watches : Awaited → Bool
  | .first stopping => !stopping
  | .fullBatch => true

/-- The records under delivery. -/
def Point.batch {T β : Type} : Point T β → List (Record T)
  | .send d | .backOff d _ _ => d.batch
  | _ => []

def Point.inFlight {T β : Type} : Point T β → Nat
  | .send d | .backOff d _ _ => d.n
  | _ => 0

def nextDelay (delay : Nat) : Nat := min (delay * 2) maxRetryDelay

/-- A sink: its queue, the notifier's permit, the pushes that are yet to notify, and
the worker. -/
structure State (T β : Type) where
  queue : Queue (Record T)
  permit : Bool := false
  pending : Nat := 0
  shutdown : Watch := {}
  point : Point T β := .top
  -- kept for the record: every push, those dropped for a later one, those taken
  pushed : List (Record T) := []
  evicted : List (Record T) := []
  taken : List (Record T) := []
  delivered : List (Record T) := []

/-- A step of the worker. -/
inductive Move where
  | advance
  | poll
  | deadline
  | stopped
  /-- The collector's answer, and how long the batch has been tried by then. -/
  | posted (answer : Except String Unit) (elapsed : Nat)
  | slept

inductive Event (T : Type) where
  | push (item : T) (weight : Nat)
  | notify
  | stop
  | senderGone
  | worker (move : Move)

section
variable {T β : Type}

def State.push (s : State T β) (item : T) (weight : Nat) : State T β :=
  let record : Record T := ⟨s.pushed.length, item⟩
  let (queue, notifies) := s.queue.push record weight
  { s with
    queue
    pending := s.pending + notifies.toNat
    pushed := s.pushed ++ [record]
    evicted := s.evicted ++ (s.queue.dropped weight).map (·.1) }

/-- One notification: it calls a worker in line, and is kept if there is none. -/
def State.notify (s : State T β) : Option (State T β) :=
  if s.pending = 0 then none
  else match s.point with
    | .wait what .registered =>
      some { s with pending := s.pending - 1, point := .wait what .notified }
    | _ => some { s with pending := s.pending - 1, permit := true }

/-- A wait left without the notification it was called with hands it back. -/
def State.handBack (s : State T β) (turn : Turn) : Bool := s.permit || turn == .notified

/-- How long a batch may be retried, as things stand. -/
def Watch.budget (w : Watch) : Nat := if w.isStopping then stoppingRetryTime else maxRetryTime

/-- A batch is dropped when its time is up; a wait that would overrun that time is
cut to end at it. -/
def State.failedPost (s : State T β) (d : Delivery T β) (elapsed : Nat) : State T β :=
  if s.shutdown.budget ≤ elapsed then
    { s with
      queue := { s.queue with sendFailed := s.queue.sendFailed + d.n }
      point := .top }
  else { s with
    point := .backOff d s.shutdown.isStopping (min d.delay (s.shutdown.budget - elapsed)) }

def State.retry (s : State T β) (d : Delivery T β) : State T β :=
  { s with point := .send { d with delay := nextDelay d.delay } }

variable (encode : List T → β)

def State.takeBatch (s : State T β) : State T β :=
  let (batch, queue) := s.queue.take maxBatch
  { s with
    queue
    point := .send
      { n := batch.length, body := encode (batch.map (·.item)), delay := firstRetry, batch }
    taken := s.taken ++ batch }

def State.worker (s : State T β) (move : Move) : Option (State T β) :=
  match s.point, move with
  | .top, .advance => some { s with point := .measure s.shutdown.isStopping }
  | .measure stopping, .advance => some { s with
      point := if s.queue.items.isEmpty then .wait (.first stopping) .unpolled
        else if stopping then .take else .fill }
  | .fill, .advance => some { s with
      point := if s.queue.items.length < maxBatch then .wait .fullBatch .unpolled else .take }
  | .wait what .unpolled, .poll =>
    some (if s.permit then { s with permit := false, point := what.called }
      else { s with point := .wait what .registered })
  | .wait what .notified, .poll => some { s with point := what.called }
  | .wait what turn, .stopped =>
    if s.shutdown.isStopping && what.watches then
      some { s with permit := s.handBack turn, point := what.stopped } else none
  | .wait .fullBatch turn, .deadline => some { s with permit := s.handBack turn, point := .take }
  | .take, .advance => some (s.takeBatch encode)
  | .send d, .posted (.ok ()) _ => some { s with point := .top, delivered := s.delivered ++ d.batch }
  | .send d, .posted (.error _) elapsed => some (s.failedPost d elapsed)
  | .backOff d _ _, .slept => some (s.retry d)
  | .backOff d stopping _, .stopped =>
    if s.shutdown.isStopping && !stopping then some (s.retry d) else none
  | _, _ => none

def step (s : State T β) : Event T → Option (State T β)
  | .push item weight => some (s.push item weight)
  | .notify => s.notify
  | .stop => some { s with shutdown := { s.shutdown with stop := true } }
  | .senderGone => some { s with shutdown := { s.shutdown with senderGone := true } }
  | .worker move => s.worker encode move

/-- A new sink. -/
def start (capacity maxBytes : Nat) : State T β := { queue := { capacity, maxBytes } }

/-- A new sink after some events, if they can happen. -/
def run (capacity maxBytes : Nat) (events : List (Event T)) : Option (State T β) :=
  Lib.Runs.run (step encode) (start capacity maxBytes) events

/-! ## What a step of the worker can do -/

/-- The states a step of the worker leads to. -/
inductive Works (s : State T β) : State T β → Prop where
  /-- On with its loop, or into the wait for a batch to fill. -/
  | walked (permit : Bool) (point : Point T β)
      (hwait : ∀ what turn, point = .wait what turn → what = .fullBatch ∧ turn = .unpolled)
      (hbatch : point.batch = s.point.batch) (hflight : point.inFlight = s.point.inFlight) :
      Works s { s with permit, point }
  /-- Into the wait for a first entry. -/
  | idled (stopping : Bool) (hpoint : s.point = .measure stopping) (hempty : s.queue.items = []) :
      Works s { s with point := .wait (.first stopping) .unpolled }
  | lined (what : Awaited) (hpoint : s.point = .wait what .unpolled) (hpermit : s.permit = false) :
      Works s { s with point := .wait what .registered }
  | took (hpoint : s.point = .take) : Works s (s.takeBatch encode)
  | delivered (d : Delivery T β) (hpoint : s.point = .send d) :
      Works s { s with point := .top, delivered := s.delivered ++ d.batch }
  | lost (d : Delivery T β) (hpoint : s.point = .send d) :
      Works s { s with
        queue := { s.queue with sendFailed := s.queue.sendFailed + d.n }, point := .top }

variable {encode} {s s' : State T β}

/-- From a point with the same batch, or none, to one that is no wait for an entry. -/
theorem works_from {start point : Point T β} (hpoint : s.point = start) (permit : Bool)
    (hwait : ∀ what turn, point = .wait what turn → what = .fullBatch ∧ turn = .unpolled)
    (hbatch : point.batch = start.batch) (hflight : point.inFlight = start.inFlight) :
    Works encode s { s with permit, point } := by
  subst hpoint
  exact .walked permit point hwait hbatch hflight

theorem works_failedPost {d : Delivery T β} (hpoint : s.point = .send d) (elapsed : Nat) :
    Works encode s (s.failedPost d elapsed) := by
  unfold State.failedPost
  split
  · exact .lost d hpoint
  · exact works_from hpoint s.permit (fun _ _ h => nomatch h) rfl rfl

/-- A wait left, for a point with no batch and no wait of its own. -/
theorem works_called {what : Awaited} {turn : Turn} (hpoint : s.point = .wait what turn)
    (permit : Bool) {point : Point T β} (h : point = what.called ∨ point = what.stopped) :
    Works encode s { s with permit, point } := by
  refine works_from hpoint permit (fun what' turn' hwait => ?_) ?_ ?_
  · cases what <;> rcases h with rfl | rfl <;> cases hwait
  all_goals cases what <;> rcases h with rfl | rfl <;> rfl

theorem works_of_worker {move : Move} (h : s.worker encode move = some s') : Works encode s s' := by
  unfold State.worker at h
  split at h
  all_goals rename_i hpoint
  case h_1 =>
    cases h
    exact works_from hpoint s.permit (fun _ _ h => nomatch h) rfl rfl
  case h_2 stopping =>
    cases h
    by_cases hempty : s.queue.items.isEmpty = true
    · rw [if_pos hempty]
      exact .idled stopping hpoint (List.isEmpty_iff.mp hempty)
    · rw [if_neg hempty]
      refine works_from hpoint s.permit (fun _ _ h => ?_) ?_ ?_
      · split at h <;> cases h
      all_goals split <;> rfl
  case h_3 =>
    cases h
    refine works_from hpoint s.permit (fun _ _ h => ?_) ?_ ?_
    · split at h <;> cases h
      exact ⟨rfl, rfl⟩
    all_goals split <;> rfl
  case h_4 what =>
    cases h
    by_cases hpermit : s.permit = true
    · rw [if_pos hpermit]
      exact works_called hpoint false (.inl rfl)
    · rw [if_neg hpermit]
      exact .lined what hpoint (Bool.eq_false_of_not_eq_true hpermit)
  case h_5 =>
    cases h
    exact works_called hpoint s.permit (.inl rfl)
  case h_6 =>
    split at h <;> cases h
    exact works_called hpoint _ (.inr rfl)
  case h_7 =>
    cases h
    exact works_called hpoint _ (.inr rfl)
  case h_8 =>
    cases h
    exact .took hpoint
  case h_9 d _ =>
    cases h
    exact .delivered d hpoint
  case h_10 elapsed =>
    cases h
    exact works_failedPost hpoint elapsed
  case h_11 =>
    cases h
    exact works_from hpoint s.permit (fun _ _ h => nomatch h) rfl rfl
  case h_12 =>
    split at h <;> cases h
    exact works_from hpoint s.permit (fun _ _ h => nomatch h) rfl rfl
  case h_13 => cases h

end

end Gapura.Telemetry.Export
