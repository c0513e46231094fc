import Gapura.Proxy.Attempts
import Gapura.Proxy.Selection

/-! # Retries are few and safe

A request is retried for two reasons, each with its own counter: an address that
could not be connected to, counted by the list of tried addresses, and a pooled
connection that broke, counted by one flag. Every attempt that another follows
used up one of the two, and an attempt that had a connection is followed only
where sending it twice does no harm. -/
namespace Gapura.Proxy.Attempts
open Gapura.Core Core.ClientIp Proxy.Plugin Select

/-! ## Attempts and events, as the results name them -/

def Attempt.failedToConnect (a : Attempt) : Bool := a.stage = .connectFailed

/-- Whether a connection was made or reused. -/
def Attempt.established (a : Attempt) : Bool :=
  match a.stage with
  | .connected _ | .sending _ | .broke _ _ | .succeeded => true
  | .noPeer | .picked | .connectFailed => false

def Attempt.brokeReused (a : Attempt) : Bool :=
  match a.stage with
  | .broke reused _ => reused
  | _ => false

/-- Whether the retry buffer was truncated when the attempt broke. -/
def Attempt.truncated (a : Attempt) : Bool :=
  match a.stage with
  | .broke _ truncated => truncated
  | _ => false

def Event.asks : Event → Bool
  | .peer _ => true
  | _ => false

section
variable {parseIp : String → Option IpAddr} {upstreamCa : String → Option String} {rq : Request}
variable {s : State}

/-! ## What each callback can do -/

variable (parseIp upstreamCa rq) in
theorem upstreamPeer_cases (m : Moment) (ctx : Ctx) :
    (∃ peer, upstreamPeer parseIp upstreamCa rq m ctx =
        ({ ctx with upstream := some peer.addr }, .ok peer) ∧ peer.addr ∉ ctx.tried) ∨
    ∃ upstream why, upstreamPeer parseIp upstreamCa rq m ctx =
      ({ ctx with upstream }, .error why) := by
  unfold upstreamPeer
  cases rq.cluster? with
  | none => exact .inr ⟨ctx.upstream, _, rfl⟩
  | some cluster =>
    obtain ⟨-, hpick⟩ | ⟨p, hleft, hpick, -⟩ :=
      pickEndpoint_cases parseIp cluster m.cursor ctx.tried m.ejected m.maxEjectedPercent
    · exact .inr ⟨ctx.upstream, .noEndpoint, by simp only [hpick]⟩
    · obtain ⟨i, addr⟩ := p
      obtain ⟨e, -, -, hout⟩ := mem_leftToTry.mp hleft
      have haddr : ∀ t left, (withTimeouts t left
          (dial upstreamCa rq.sent.ctx.cluster cluster addr)).addr = addr := by
        intro t left
        unfold withTimeouts dial
        split
        · rfl
        · simp only
          split
          · rfl
          · split <;> rfl
      simp only [hpick]
      split
      · exact .inr ⟨some addr, _, rfl⟩
      · exact .inl ⟨_, by rw [haddr], by rwa [haddr]⟩

variable (rq) in
theorem failToConnect_of_upstream {ctx : Ctx} {addr : SocketAddr} (h : ctx.upstream = some addr)
    (e : Raised) :
    ∃ e', failToConnect rq ctx e.retry = ({ ctx with tried := ctx.tried ++ [addr] }, e') ∧
      (e'.marked = true → ctx.tried.length + 1 < maxAttempts) := by
  refine ⟨_, by simp only [failToConnect, h]; rfl, fun hmarked => ?_⟩
  split at hmarked
  · rename_i hmore
    simpa using And.left (by simpa using hmore)
  · rw [e.unmarked] at hmarked
    cases hmarked

/-- A retry is decided on only by spending the flag. -/
theorem errorWhileProxy_cases (method : String) (truncated : Bool) (ctx : Ctx) (e : Raised)
    (reused : Bool) :
    (∃ e', errorWhileProxy method truncated ctx e.retry reused =
        ({ ctx with reuseRetried := true }, e') ∧ ctx.reuseRetried = false ∧
        reused = true ∧ idempotent method = true ∧ truncated = false) ∨
    ∃ e', errorWhileProxy method truncated ctx e.retry reused = (ctx, e') ∧
      e'.marked = false := by
  unfold errorWhileProxy
  simp only
  split
  · rename_i hretry
    simp only [Bool.and_eq_true, Bool.not_eq_true'] at hretry
    obtain ⟨⟨⟨hreused, hspent⟩, hmethod⟩, hbuffer⟩ := hretry
    exact .inl ⟨_, rfl, hspent, hreused, hmethod, hbuffer⟩
  · rename_i hretry
    refine .inr ⟨_, rfl, ?_⟩
    have hunmarked := e.unmarked
    revert hunmarked
    cases e.retry with
    | decided retry => exact id
    | reusedOnly =>
      intro _
      simpa only [RetryType.decideReuse, RetryType.marked, Bool.not_eq_true] using hretry

variable (parseIp rq) in
/-- A copy is sent only by spending the flag. -/
theorem mirrorHead_cases (m : MirrorMoment) (ctx : Ctx) :
    (∃ addr, mirrorHead parseIp rq m ctx = ({ ctx with mirrored := true }, some addr) ∧
      ctx.mirrored = false) ∨
    mirrorHead parseIp rq m ctx = (ctx, none) := by
  unfold mirrorHead
  split
  · exact .inr rfl
  · split
    · exact .inr rfl
    · rename_i hspent
      unfold fireMirror
      simp only
      split
      · exact .inr rfl
      · split
        · exact .inl ⟨_, rfl, by simpa using hspent⟩
        · exact .inr rfl

variable (rq) in
theorem requestBodyFilter_ctx (ctx : Ctx) (len : Nat) (upgraded : Bool) :
    ∃ bodyBytes refused,
      (requestBodyFilter rq ctx len upgraded).1 = { ctx with bodyBytes, refused } := by
  unfold requestBodyFilter
  split
  · exact ⟨ctx.bodyBytes, ctx.refused, rfl⟩
  · rename_i chain hchain
    have hcounted : ∃ bodyBytes, (requestBody chain ctx len upgraded).1 = { ctx with bodyBytes } := by
      unfold requestBody
      split
      · exact ⟨ctx.bodyBytes, rfl⟩
      · exact ⟨_, rfl⟩
    obtain ⟨bodyBytes, hbytes⟩ := hcounted
    split <;> rename_i hbody <;> rw [hbody] at hbytes <;> simp only at hbytes
    · exact ⟨bodyBytes, ctx.refused, hbytes⟩
    · exact ⟨bodyBytes, _, by rw [hbytes]⟩

/-! ## What a retry spends -/

/-- Where sending the request again does no harm. -/
def Repeatable (rq : Request) (a : Attempt) : Prop :=
  a.failedToConnect = true ∨
    a.brokeReused = true ∧ a.truncated = false ∧ idempotent rq.method = true

/-- The books of the two kinds of retry, and of the mirror. -/
structure Booked (rq : Request) (s : State) : Prop where
  picked : ∀ a, s.current = some a → a.stage = .picked → ∃ addr,
    a.addr = some addr ∧ s.ctx.upstream = some addr
  tried : ∀ a ∈ s.attempts, a.failedToConnect = true → ∃ addr ∈ s.ctx.tried, a.addr = some addr
  fresh : s.attempts.Pairwise fun later earlier =>
    earlier.failedToConnect = true → later.addr ≠ earlier.addr
  repeatable : ∀ a ∈ s.retried, Repeatable rq a
  unconnected : s.retried.countP (·.failedToConnect) ≤ s.ctx.tried.length
  attempts : s.retried.countP (·.failedToConnect) < maxAttempts
  reuse : s.retried.countP (·.brokeReused) ≤ s.ctx.reuseRetried.toNat
  copies : s.copies.length ≤ s.ctx.mirrored.toNat

variable {a : Attempt} {s' : State} {reused : Bool} {event : Event}

theorem attempts_of_current (h : s.current = some a) : s.attempts = a :: s.retried := by
  simp [State.attempts, h]

theorem booked_start (rq : Request) : Booked rq {} where
  picked := by rintro a ⟨⟩
  tried := by rintro a ⟨⟩
  fresh := .nil
  repeatable := by rintro a ⟨⟩
  unconnected := Nat.le_refl 0
  attempts := by decide
  reuse := Nat.zero_le _
  copies := Nat.zero_le _

section
variable (h : Booked rq s)

include h

/-- A later stage of the same attempt, short of a failure to connect. -/
theorem Booked.advance {a' : Attempt} (ha : s.current = some a)
    (hcurrent : s'.current = some a') (hretried : s'.retried = s.retried) (haddr : a'.addr = a.addr)
    (hstage : a'.stage ≠ .picked ∧ a'.failedToConnect = false) (htried : s'.ctx.tried = s.ctx.tried)
    (hreuse : s.ctx.reuseRetried.toNat ≤ s'.ctx.reuseRetried.toNat)
    (hcopies : s'.copies.length ≤ s'.ctx.mirrored.toNat) : Booked rq s' := by
  have hbefore := attempts_of_current ha
  have hafter : s'.attempts = a' :: s.retried := by
    rw [attempts_of_current hcurrent, hretried]
  refine ⟨?_, ?_, ?_, ?_, ?_, ?_, ?_, hcopies⟩
  · intro b hb hpicked
    rw [hcurrent] at hb
    cases hb
    exact absurd hpicked hstage.1
  · intro b hb hfailed
    rw [hafter] at hb
    rw [htried]
    rcases List.mem_cons.mp hb with rfl | hb
    · rw [hstage.2] at hfailed
      cases hfailed
    · exact h.tried b (hbefore ▸ List.mem_cons_of_mem a hb) hfailed
  · have hfresh := h.fresh
    rw [hbefore, List.pairwise_cons] at hfresh
    rw [hafter, List.pairwise_cons, haddr]
    exact hfresh
  · rw [hretried]
    exact h.repeatable
  · rw [hretried, htried]
    exact h.unconnected
  · rw [hretried]
    exact h.attempts
  · rw [hretried]
    exact h.reuse.trans hreuse

/-- An attempt put away for another to follow. -/
theorem Booked.again (ha : s.current = some a) (hrepeatable : Repeatable rq a)
    (hunconnected : (a :: s.retried).countP (·.failedToConnect) ≤ s.ctx.tried.length)
    (hattempts : (a :: s.retried).countP (·.failedToConnect) < maxAttempts)
    (hreuse : (a :: s.retried).countP (·.brokeReused) ≤ s.ctx.reuseRetried.toNat) :
    Booked rq { s with current := none, retried := a :: s.retried } := by
  have hsame : ({ s with current := none, retried := a :: s.retried } : State).attempts =
      s.attempts := by
    rw [attempts_of_current ha]
    rfl
  refine ⟨nofun, ?_, ?_, ?_, hunconnected, hattempts, hreuse, h.copies⟩
  · rw [hsame]
    exact h.tried
  · rw [hsame]
    exact h.fresh
  · exact List.forall_mem_cons.mpr ⟨hrepeatable, h.repeatable⟩

/-- A connection that broke, at whatever stage. -/
theorem Booked.broken (ha : s.current = some a) (a' : Attempt)
    (haddr : a'.addr = a.addr) (e : Raised) : Booked rq (s.broken rq e reused a') := by
  unfold State.broken
  obtain ⟨e', herr, hspent, hreused, hmethod, hbuffer⟩ | ⟨e', herr, hunmarked⟩ :=
    errorWhileProxy_cases rq.method s.truncated s.ctx e reused
  · have hended : Booked rq { s with
        ctx := { s.ctx with reuseRetried := true }
        current := some { a' with stage := .broke reused s.truncated } } :=
      h.advance ha rfl rfl haddr ⟨nofun, rfl⟩ rfl (by simp [hspent]) h.copies
    simp only [herr, State.ended]
    split
    · refine hended.again rfl (.inr ⟨hreused, hbuffer, hmethod⟩) ?_ ?_ ?_
      · rw [List.countP_cons_of_neg (by simp [Attempt.failedToConnect])]
        exact h.unconnected
      · rw [List.countP_cons_of_neg (by simp [Attempt.failedToConnect])]
        exact h.attempts
      · have hnone := h.reuse
        rw [hspent] at hnone
        rw [List.countP_cons_of_pos hreused]
        exact Nat.succ_le_succ hnone
    · exact hended
  · simp only [herr, State.ended, hunmarked, Bool.false_eq_true, if_false]
    exact h.advance ha rfl rfl haddr ⟨nofun, rfl⟩ rfl le_rfl h.copies

/-- An address that could not be connected to. -/
theorem Booked.unconnected_step (ha : s.current = some a)
    (hpicked : a.stage = .picked) (e : Raised) : Booked rq (s.unconnected rq e a) := by
  obtain ⟨addr, haddr, hupstream⟩ := h.picked a ha hpicked
  obtain ⟨e', herr, hmarked⟩ := failToConnect_of_upstream rq hupstream e
  have hbefore := attempts_of_current ha
  have hfresh := h.fresh
  rw [hbefore, List.pairwise_cons] at hfresh
  have hended : Booked rq { s with
      ctx := { s.ctx with tried := s.ctx.tried ++ [addr] }
      current := some { a with stage := .connectFailed } } := by
    refine ⟨?_, ?_, ?_, h.repeatable, ?_, h.attempts, h.reuse, h.copies⟩
    · rintro b ⟨⟩ ⟨⟩
    · intro b hb hfailed
      rcases List.mem_cons.mp hb with rfl | hb
      · exact ⟨addr, by simp, haddr⟩
      · obtain ⟨addr', htried, hb⟩ := h.tried b (hbefore ▸ List.mem_cons_of_mem a hb) hfailed
        exact ⟨addr', List.mem_append_left _ htried, hb⟩
    · exact List.pairwise_cons.mpr hfresh
    · exact h.unconnected.trans (by simp)
  unfold State.unconnected
  simp only [herr, State.ended]
  split
  · rename_i hretry
    have hcount := h.unconnected
    have hroom := hmarked hretry
    refine hended.again rfl (.inl rfl) ?_ ?_ ?_
    · rw [List.countP_cons_of_pos rfl]
      simpa using hcount
    · rw [List.countP_cons_of_pos rfl]
      show s.retried.countP (·.failedToConnect) + 1 < maxAttempts
      omega
    · rw [List.countP_cons_of_neg (by simp [Attempt.brokeReused])]
      exact h.reuse
  · exact hended

/-- A peer was asked for: a fresh address, or none. -/
theorem Booked.asked (hnone : s.current = none) (m : Moment) :
    Booked rq (s.asked parseIp upstreamCa rq m) := by
  have hbefore : s.attempts = s.retried := by simp [State.attempts, hnone]
  have htried := h.tried
  have hfresh := h.fresh
  rw [hbefore] at htried hfresh
  have hasked : ∀ (upstream : Option SocketAddr) (a : Attempt), a.failedToConnect = false →
      (a.stage = .picked → ∃ addr, a.addr = some addr ∧ upstream = some addr) →
      (∀ addr ∈ s.ctx.tried, a.addr ≠ some addr) →
      Booked rq { s with ctx := { s.ctx with upstream }, current := some a } := by
    intro upstream a hstage hpicked hout
    refine ⟨?_, ?_, ?_, h.repeatable, h.unconnected, h.attempts, h.reuse, h.copies⟩
    · rintro b ⟨⟩ hb
      exact hpicked hb
    · intro b hb hfailed
      rcases List.mem_cons.mp hb with rfl | hb
      · rw [hstage] at hfailed
        cases hfailed
      · exact htried b hb hfailed
    · refine List.pairwise_cons.mpr ⟨fun b hb hfailed => ?_, hfresh⟩
      obtain ⟨addr, haddr, hb⟩ := htried b hb hfailed
      rw [hb]
      exact hout addr haddr
  unfold State.asked
  obtain ⟨peer, hpeer, hout⟩ | ⟨upstream, why, hpeer⟩ :=
    upstreamPeer_cases parseIp upstreamCa rq m s.ctx
  · simp only [hpeer]
    refine hasked _ _ rfl (fun _ => ⟨peer.addr, rfl, rfl⟩) fun addr haddr heq => hout ?_
    cases heq
    exact haddr
  · simp only [hpeer]
    exact hasked _ _ rfl nofun fun _ _ => nofun

/-- The books say nothing of the body. -/
theorem Booked.of_ctx {t : State} (bodyBytes : Nat) (refused : Option ErrorKey)
    (hctx : t.ctx = { s.ctx with bodyBytes, refused }) (hcurrent : t.current = s.current)
    (hretried : t.retried = s.retried) (hcopies : t.copies = s.copies) : Booked rq t := by
  have hattempts : t.attempts = s.attempts := by simp only [State.attempts, hcurrent, hretried]
  refine ⟨?_, ?_, ?_, ?_, ?_, ?_, ?_, ?_⟩ <;>
    simp only [hctx, hcurrent, hretried, hcopies, hattempts]
  exacts [h.picked, h.tried, h.fresh, h.repeatable, h.unconnected, h.attempts, h.reuse, h.copies]

theorem Booked.headed (ha : s.current = some a)
    (m : MirrorMoment) : Booked rq (s.headed parseIp rq m reused a) := by
  have hrewound : Booked rq s.rewound := h.of_ctx _ s.ctx.refused rfl rfl rfl rfl
  unfold State.headed
  simp only
  split
  · exact hrewound.broken ha a rfl .own
  · obtain ⟨addr, hmirror, hspent⟩ | hmirror :=
      mirrorHead_cases parseIp rq m s.rewound.ctx
    · have hnone := hrewound.copies
      rw [hspent] at hnone
      simp only [hmirror]
      exact hrewound.advance ha rfl rfl rfl ⟨nofun, rfl⟩ rfl le_rfl (Nat.succ_le_succ hnone)
    · simp only [hmirror]
      exact hrewound.advance ha rfl rfl rfl ⟨nofun, rfl⟩ rfl le_rfl hrewound.copies

end

theorem taken_frame (rq : Request) (len : Nat) (truncates : Bool) (s : State) :
    (s.taken rq len truncates).ctx = s.ctx ∧ (s.taken rq len truncates).current = s.current ∧
      (s.taken rq len truncates).retried = s.retried ∧
      (s.taken rq len truncates).copies = s.copies := by
  unfold State.taken
  split
  · exact ⟨rfl, rfl, rfl, rfl⟩
  · exact ⟨rfl, rfl, rfl, rfl⟩

theorem Booked.passed (h : Booked rq s) (ha : s.current = some a)
    (hstage : a.stage = .sending reused) (len : Nat) (truncates upgraded : Bool) :
    Booked rq (s.passed rq len truncates upgraded reused a) := by
  obtain ⟨hctx, hcurrent, hretried, hcopies⟩ := taken_frame rq len truncates s
  obtain ⟨bodyBytes, refused, hfilter⟩ := requestBodyFilter_ctx rq
    (s.taken rq len truncates).ctx (s.next rq len).length upgraded
  have hcounted : Booked rq { s.taken rq len truncates with
      ctx := { (s.taken rq len truncates).ctx with bodyBytes, refused } } := by
    refine h.of_ctx bodyBytes refused ?_ hcurrent hretried hcopies
    rw [hctx]
  have hcurrent' := hcurrent.trans ha
  unfold State.passed
  simp only
  split <;> rename_i hbody <;> rw [hbody] at hfilter <;> simp only at hfilter <;> subst hfilter
  · refine hcounted.advance hcurrent' rfl rfl rfl ⟨?_, ?_⟩ rfl le_rfl hcounted.copies
    · simp [Attempt.pass, hstage]
    · simp [Attempt.pass, Attempt.failedToConnect, hstage]
  · exact hcounted.broken hcurrent' (a.pass (s.next rq len) true) rfl .own

theorem Booked.move (h : Booked rq s)
    (hmove : Moves parseIp upstreamCa rq s event s') : Booked rq s' := by
  cases hmove with
  | asked m hnone => exact h.asked hnone m
  | unconnected e ha hstage => exact h.unconnected_step ha hstage e
  | connected reused ha hstage => exact h.advance ha rfl rfl rfl ⟨nofun, rfl⟩ rfl le_rfl h.copies
  | headed m ha hstage => exact h.headed ha m
  | passed len truncates upgraded ha hstage => exact h.passed ha hstage len truncates upgraded
  | broken e ha hstage => exact h.broken ha _ rfl e
  | succeeded ha hstage => exact h.advance ha rfl rfl rfl ⟨nofun, rfl⟩ rfl le_rfl h.copies

/-! ## Every call of `upstream_peer` is an attempt -/

theorem attempts_ended (e : RetryType) : (s.ended a e).attempts.length = s.retried.length + 1 := by
  unfold State.ended
  split <;> simp [State.attempts]

theorem attempts_broken (e : Raised) (reused : Bool) (a : Attempt) :
    (s.broken rq e reused a).attempts.length = s.retried.length + 1 :=
  attempts_ended _

theorem attempts_move (hmove : Moves parseIp upstreamCa rq s event s') :
    s'.attempts.length = s.attempts.length + event.asks.toNat := by
  cases hmove with
  | asked m hnone =>
    unfold State.asked
    split <;> simp [State.attempts, hnone, Event.asks]
  | unconnected e ha hstage =>
    rw [attempts_of_current ha]
    exact attempts_ended _
  | connected reused ha hstage =>
    rw [attempts_of_current ha]
    rfl
  | headed m ha hstage =>
    rw [attempts_of_current ha]
    unfold State.headed
    simp only
    split
    · exact attempts_broken _ _ _
    · rfl
  | passed len truncates upgraded ha hstage =>
    obtain ⟨-, -, hretried, -⟩ := taken_frame rq len truncates s
    rw [attempts_of_current ha]
    unfold State.passed
    simp only
    split
    · simp [State.attempts, hretried, Event.asks]
    · rw [attempts_broken]
      simp [hretried, Event.asks]
  | broken e ha hstage =>
    rw [attempts_of_current ha]
    exact attempts_broken _ _ _
  | succeeded ha hstage =>
    rw [attempts_of_current ha]
    rfl

theorem countP_asks_of_run {events : List Event} (h : run parseIp upstreamCa rq events = some s) :
    events.countP (·.asks) = s.attempts.length := by
  refine Lib.Runs.invariant_of_history (P := fun before t =>
    before.countP (·.asks) = t.attempts.length) h rfl fun before t event t' ht hstep => ?_
  rw [attempts_move (moves_of_step hstep), ← ht, List.countP_append, List.countP_singleton]
  cases event.asks <;> rfl

theorem Booked.length_retried_le (h : Booked rq s) : s.retried.length ≤ maxAttempts := by
  have hkinds : ∀ a ∈ s.retried, ¬ a.failedToConnect = true → a.brokeReused = true := by
    intro a ha hnot
    obtain hfailed | ⟨hbroke, -⟩ := h.repeatable a ha
    · exact absurd hfailed hnot
    · exact hbroke
  have hsplit := List.length_eq_countP_add_countP (·.failedToConnect) (l := s.retried)
  have hrest : s.retried.countP (fun a => decide ¬ a.failedToConnect = true) ≤
      s.retried.countP (·.brokeReused) :=
    List.countP_mono_left fun a ha hnot => hkinds a ha (of_decide_eq_true hnot)
  have hconnect := h.attempts
  have hreuse := h.reuse
  have hflag := s.ctx.reuseRetried.toNat_le
  omega

end

/-- At most three peers are asked for, never an address that could not be
connected to; one retry at most follows a broken pooled connection; what had a
connection and is not idempotent, or no longer fits the retry buffer, is not
sent again; and the mirror gets one copy. The attempts are listed newest first,
so another followed each of the tail. -/
theorem retries_bounded_and_safe (parseIp : String → Option IpAddr)
    (upstreamCa : String → Option String) (rq : Request) (events : List Event) (s : State)
    (h : run parseIp upstreamCa rq events = some s) :
    events.countP (·.asks) = s.attempts.length ∧ s.attempts.length ≤ maxAttempts + 1 ∧
    s.attempts.Pairwise (fun later earlier =>
      earlier.failedToConnect = true → later.addr ≠ earlier.addr) ∧
    s.attempts.tail.countP (·.brokeReused) ≤ 1 ∧
    (∀ a ∈ s.attempts.tail, a.established = true →
      idempotent rq.method = true ∧ a.truncated = false) ∧
    s.copies.length ≤ 1 := by
  have hbooked : Booked rq s :=
    run_invariant h (booked_start rq) fun t event t' _ ht hmove => ht.move hmove
  -- an attempt that another follows is among those put away for a retry
  have htail : s.attempts.tail.Sublist s.retried := by
    unfold State.attempts
    cases s.current with
    | none => exact List.tail_sublist _
    | some a => exact List.Sublist.refl _
  have hlength : s.attempts.length ≤ s.retried.length + 1 := by
    unfold State.attempts
    cases s.current <;> simp
  have hretried := hbooked.length_retried_le
  refine ⟨countP_asks_of_run h, by omega, hbooked.fresh, ?_, ?_, ?_⟩
  · have hreuse := hbooked.reuse
    have hflag := s.ctx.reuseRetried.toNat_le
    have hcount := htail.countP_le (p := (·.brokeReused))
    omega
  · intro a ha hestablished
    obtain hfailed | ⟨-, htruncated, hmethod⟩ := hbooked.repeatable a (htail.subset ha)
    · simp [Attempt.failedToConnect] at hfailed
      simp [Attempt.established, hfailed] at hestablished
    · exact ⟨hmethod, htruncated⟩
  · have hcopies := hbooked.copies
    have hflag := s.ctx.mirrored.toNat_le
    omega

/-- Both kinds of retry in one request: an address that does not connect, then a
pooled connection that broke. -/
def bothRetries : List Event :=
  [atCursor 0, .connectFailed .own, atCursor 0, .connected true, plainHead,
    .failed .reusedOnly, atCursor 1, .connected false, plainHead, .succeeded]

theorem retries_bounded_and_safe_both :
    (run parsePair (fun _ => none) (pairRequest [] "GET" []) bothRetries).map
        (fun s => (s.attempts.map (·.stage), s.copies.length)) =
      some ([.succeeded, .broke true false, .connectFailed], 1) ∧
    bothRetries.countP (·.asks) ≤ maxAttempts + 1 := by
  have hrun : (run parsePair (fun _ => none) (pairRequest [] "GET" []) bothRetries).isSome = true := by
    decide +kernel
  obtain ⟨s, hs⟩ := Option.isSome_iff_exists.mp hrun
  obtain ⟨hcalls, hbound, -⟩ := retries_bounded_and_safe _ _ _ _ s hs
  exact ⟨by decide +kernel, hcalls ▸ hbound⟩

end Gapura.Proxy.Attempts
