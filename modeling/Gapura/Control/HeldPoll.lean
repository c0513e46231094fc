import Gapura.Control.ConfigApi

/-! # A held poll does not sleep through a change

The counter is marked seen before the configuration is read, so what was counted
by then had committed before the read; anything counted for a later write moves
the counter, and a wait that finds it moved does not give up. -/
namespace Gapura.Control.ConfigApi
open Control.Snapshot

/-- The last write a step of the counter can stand for. -/
def Heard.upTo : Heard → Nat
  | .connected commits => commits
  | .notified write => write

/-- A notification is for one write; a connection made is for every write before
it. -/
def Heard.Covers (h : Heard) (write : Nat) : Prop :=
  match h with
  | .connected commits => write ≤ commits
  | .notified w => write = w

theorem Heard.Covers.le_upTo {h : Heard} {write : Nat} (hcovers : h.Covers write) :
    write ≤ h.upTo := by
  cases h with
  | connected commits => exact hcovers
  | notified w => exact Nat.le_of_eq hcovers

/-- Some step of the counter stood for the write. -/
def Counted (heard : List Heard) (write : Nat) : Prop := ∃ h ∈ heard, h.Covers write

/-- Everything counted committed by a version. -/
def Within (heard : List Heard) (version : Nat) : Prop := ∀ h ∈ heard, h.upTo ≤ version

variable {heard : List Heard}

theorem Within.le {version write : Nat} (h : Within heard version)
    (hcounted : Counted heard write) : write ≤ version := by
  obtain ⟨step, hstep, hcovers⟩ := hcounted
  exact hcovers.le_upTo.trans (h step hstep)

theorem Within.mono {version version' : Nat} (h : Within heard version)
    (hle : version ≤ version') : Within heard version' :=
  fun step hstep => (h step hstep).trans hle

section
variable {J : Type} {api : Api J} {rq : Request} {s s' : State J}

/-! ## The listener -/

/-- Nothing is heard of a write before it commits. -/
structure Lines (s : State J) : Prop where
  count : s.count = s.heard.length
  listening : ∀ l commits, s.line = some l → l.listening = some commits → commits ≤ s.writes.length
  wire : ∀ w ∈ s.wire, w ≤ s.writes.length
  channel : ∀ w ∈ s.channel, w ≤ s.writes.length
  heard : Within s.heard s.writes.length

theorem Lines.hear (h : Lines s) (step : Heard) (hstep : step.upTo ≤ s.writes.length) :
    Lines (s.hear step) := by
  refine ⟨?_, h.listening, h.wire, h.channel, ?_⟩
  · simp [State.hear, h.count]
  · intro step' hmem
    rcases List.mem_append.mp hmem with hold | hnew
    · exact h.heard step' hold
    · rw [List.mem_singleton.mp hnew]
      exact hstep

theorem Lines.commit (h : Lines s) (db : Db J) {wire : List Nat}
    (hwire : ∀ w ∈ wire, w ∈ s.wire ∨ w = s.writes.length + 1) :
    Lines { s with writes := s.writes ++ [db], wire } := by
  have hle : s.writes.length ≤ (s.writes ++ [db]).length := by simp
  refine ⟨h.count, fun l commits hl hk => (h.listening l commits hl hk).trans hle, fun w hw => ?_,
    fun w hw => (h.channel w hw).trans hle, h.heard.mono hle⟩
  rcases hwire w hw with hold | hnew
  · exact (h.wire w hold).trans hle
  · simp [hnew]

variable {line : Option Line} {rest : List Nat} {stage : Stage} {reachable : Bool} {v : Served}

variable {w now : Nat} {event : Event J} {db : Db J}

theorem Lines.drive (h : Lines s) (hwire : s.wire = w :: rest) :
    Lines { s with wire := rest, channel := s.channel ++ [w] } := by
  have hle := h.wire
  rw [hwire] at hle
  refine ⟨h.count, h.listening, fun w' hw' => hle w' (List.mem_cons_of_mem _ hw'), ?_, h.heard⟩
  intro w' hw'
  rcases List.mem_append.mp hw' with hold | hnew
  · exact h.channel w' hold
  · rw [List.mem_singleton.mp hnew]
    exact hle w List.mem_cons_self

theorem Lines.notified (h : Lines s) (hchannel : s.channel = w :: rest) :
    Lines { s.hear (.notified w) with channel := rest } := by
  have hle := h.channel
  rw [hchannel] at hle
  have hheard := h.hear (.notified w) (hle w List.mem_cons_self)
  exact ⟨hheard.count, hheard.listening, hheard.wire,
    fun w' hw' => hle w' (List.mem_cons_of_mem _ hw'), hheard.heard⟩

/-- Without a connection, or with a lost one, nothing is on the wire. -/
theorem Lines.cut (h : Lines s) {channel : List Nat} {gone : Bool}
    (hline : ∀ l commits, line = some l → l.listening = some commits → commits ≤ s.writes.length)
    (hchannel : ∀ w ∈ channel, w ∈ s.channel) : Lines { s with line, wire := [], channel, gone } :=
  ⟨h.count, hline, by simp, fun w hw => h.channel w (hchannel w hw), h.heard⟩

/-- The poll's own steps leave the listener alone. -/
theorem Lines.polled (h : Lines s) (seen : Nat) (stage : Stage) (reads : List Reading)
    (ended : Option (List Heard)) : Lines { s with seen, stage, reads, ended } :=
  ⟨h.count, h.listening, h.wire, h.channel, h.heard⟩

/-- What a reading is: the configuration of some version, with everything counted
by then in it. -/
structure Reading.True (api : Api J) (s : State J) (r : Reading) : Prop where
  contents : ∃ db, s.contents r.version = some db ∧ read api db r.now true = .ok r.served
  heard : Within r.heard r.version

/-- What is known of the poll at each stage. -/
def Told (rq : Request) (s : State J) : Stage → Prop
  | .arrived | .known => s.reads = [] ∧ s.ended = none
  | .marked => s.reads = [] ∧ s.ended = none ∧ s.seen ≤ s.heard.length
  | .holding v => s.ended = none ∧ s.seen ≤ s.heard.length ∧ rq.sent = some v.etag ∧
      ∃ r, s.reads = [r] ∧ r.served = v ∧ Within (s.heard.take s.seen) r.version
  | .woken => s.ended.isSome = true ∧ ∃ r, s.reads = [r]
  | .answered a =>
      (∀ e, a = .notModified e → ∃ r, s.reads.getLast? = some r ∧ e = r.served.etag ∧
        ∀ heard, s.ended = some heard → Within heard r.version) ∧
      ∀ heard r, s.ended = some heard → s.reads.head? = some r →
        Within heard r.version ∨ s.reads.length = 2 ∨ a = .unavailable

structure Polls (api : Api J) (rq : Request) (s : State J) : Prop where
  told : Told rq s s.stage
  reads : ∀ r ∈ s.reads, r.True api s
  ended : ∀ heard, s.ended = some heard → Within heard s.writes.length

/-- A step that reads nothing. -/
theorem Polls.moved (h : Polls api rq s) {seen : Nat} {ended : Option (List Heard)}
    (htold : Told rq { s with seen, stage, ended } stage)
    (hended : ∀ heard, ended = some heard → Within heard s.writes.length) :
    Polls api rq { s with seen, stage, ended } :=
  ⟨htold, fun r hr => ⟨(h.reads r hr).contents, (h.reads r hr).heard⟩, hended⟩

/-- A step that reads nothing and ends no wait. -/
theorem Polls.staged (h : Polls api rq s) (htold : Told rq s stage) :
    Polls api rq { s with stage } := by
  refine h.moved ?_ h.ended
  cases stage <;> exact htold

theorem contents_db (s : State J) : s.contents s.writes.length = some s.db := by
  unfold State.contents State.db
  rcases List.eq_nil_or_concat s.writes with hnone | ⟨before, last, hlast⟩
  · simp [hnone]
  · simp [hlast]

theorem read_reachable (h : read api db now reachable = .ok v) : read api db now true = .ok v := by
  cases reachable with
  | true => exact h
  | false => cases h

/-- A read adds a true reading. -/
theorem Polls.reading (h : Polls api rq s) (hlines : Lines s)
    (hread : read api s.db now reachable = .ok v)
    (htold : Told rq (s.reading now v) stage) : Polls api rq { s.reading now v with stage } := by
  refine ⟨?_, fun r hr => ?_, h.ended⟩
  · cases stage <;> exact htold
  · rcases List.mem_append.mp hr with hold | hnew
    · exact ⟨(h.reads r hold).contents, (h.reads r hold).heard⟩
    · rw [List.mem_singleton.mp hnew]
      exact ⟨⟨s.db, contents_db s, read_reachable hread⟩, hlines.heard⟩

/-- Only a tag that is the caller's own is answered as not modified. -/
theorem etag_of_notModified {e : String} (h : answer rq v = .notModified e) : e = v.etag := by
  unfold answer at h
  split at h
  · cases h
    rfl
  · simp only at h
    split at h <;> cases h

theorem Polls.firstRead (h : Polls api rq s) (hlines : Lines s) (hstage : s.stage = .marked)
    (now : Nat) (reachable : Bool) : Polls api rq (s.firstRead api rq now reachable) := by
  have htold := h.told
  rw [hstage] at htold
  obtain ⟨hreads, hended, hseen⟩ := htold
  have hfailed : ∀ a, (∀ e, a ≠ .notModified e) → Told rq s (.answered a) := by
    intro a ha
    refine ⟨fun e he => absurd he (ha e), fun heard r hsome => ?_⟩
    rw [hended] at hsome
    cases hsome
  unfold State.firstRead
  split
  · exact h.staged (hfailed _ nofun)
  · exact h.staged (hfailed _ nofun)
  · rename_i v hread
    have hone : (s.reading now v).reads = [⟨s.writes.length, now, v, s.heard⟩] := by
      simp [State.reading, hreads]
    split
    · rename_i hheld
      obtain ⟨-, hsent⟩ := Bool.and_eq_true_iff.mp hheld
      refine h.reading hlines hread ⟨hended, hseen, by simpa using hsent, _, hone, rfl, ?_⟩
      exact fun step hstep => hlines.heard step (List.mem_of_mem_take hstep)
    · refine h.reading hlines hread ⟨fun e he => ⟨_, by rw [hone]; rfl, ?_, ?_⟩, ?_⟩
      · exact etag_of_notModified he
      · intro heard hsome
        cases hended.symm.trans hsome
      · intro heard r hsome
        cases hended.symm.trans hsome

theorem Polls.reread (h : Polls api rq s) (hlines : Lines s) (hstage : s.stage = .woken)
    (now : Nat) (reachable : Bool) : Polls api rq (s.reread api rq now reachable) := by
  have htold := h.told
  rw [hstage] at htold
  obtain ⟨-, first, hreads⟩ := htold
  unfold State.reread
  split
  · exact h.staged ⟨nofun, fun _ _ _ _ => .inr (.inr rfl)⟩
  · rename_i v hread
    have htwo : (s.reading now v).reads = [first, ⟨s.writes.length, now, v, s.heard⟩] := by
      simp [State.reading, hreads]
    refine h.reading hlines hread ⟨fun e he => ⟨_, by rw [htwo]; rfl, etag_of_notModified he, ?_⟩, ?_⟩
    · exact h.ended
    · intro heard r _ _
      rw [htwo]
      exact .inr (.inl rfl)

theorem Polls.timeout (h : Polls api rq s) (hlines : Lines s)
    (hstage : s.stage = .holding v) (hseen : s.count = s.seen) :
    Polls api rq { s with stage := .answered (answer rq v), ended := some s.heard } := by
  have htold := h.told
  rw [hstage] at htold
  obtain ⟨-, -, hsent, r, hreads, hserved, hwithin⟩ := htold
  rw [← hseen, hlines.count, List.take_length] at hwithin
  refine h.moved ⟨fun e he => ⟨r, by simp [hreads], ?_, ?_⟩, ?_⟩ ?_
  · rw [hserved]
    exact etag_of_notModified he
  · rintro heard ⟨⟩
    exact hwithin
  · rintro heard r' ⟨⟩ hr'
    simp only [hreads, List.head?_cons, Option.some.injEq] at hr'
    subst hr'
    exact .inl hwithin
  · rintro heard ⟨⟩
    exact hlines.heard

theorem Polls.changed (h : Polls api rq s) (hlines : Lines s) (hstage : s.stage = .holding v) :
    Polls api rq { s with stage := .woken, ended := some s.heard } := by
  have htold := h.told
  rw [hstage] at htold
  obtain ⟨-, -, -, r, hreads, -, -⟩ := htold
  refine h.moved ⟨rfl, r, hreads⟩ ?_
  rintro heard ⟨⟩
  exact hlines.heard

end

end Gapura.Control.ConfigApi
