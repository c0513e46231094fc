import Gapura.Proxy.Chain
import Gapura.Proxy.Retries

/-! # The cap on request bodies

The count of a body's bytes starts again with every attempt, and a retry passes
on again what was read so far. So the count is of what this attempt was given,
however the body was cut into chunks the first time and again: the first chunk
that crosses the limit is refused, and no other. -/
namespace Gapura.Proxy.Attempts
open Gapura.Core Core.ClientIp Proxy.Plugin Proxy.Chain

/-! ## Chunks against a limit -/

def total (chunks : List Chunk) : Nat := (chunks.map (·.bytes.length)).sum

@[simp] theorem total_nil : total [] = 0 := rfl

@[simp] theorem total_append (chunks more : List Chunk) :
    total (chunks ++ more) = total chunks + total more := by
  simp [total]

@[simp] theorem total_singleton (c : Chunk) : total [c] = c.bytes.length := by
  simp [total]

def bytesOf (chunks : List Chunk) : List UInt8 := chunks.flatMap (·.bytes)

theorem length_bytesOf (chunks : List Chunk) : (bytesOf chunks).length = total chunks := by
  simp [bytesOf, total, List.length_flatMap]

/-- A chunk is refused exactly when it crosses the limit, and none before it
had. -/
def Capped (max : Nat) (chunks : List Chunk) : Prop :=
  ∀ before c after, chunks = before ++ c :: after →
    (c.refused = true ↔ max < total (before ++ [c])) ∧ total before ≤ max

theorem capped_nil (max : Nat) : Capped max [] := by
  intro before c after h
  simp at h

variable {c : Chunk}

theorem Capped.append {max : Nat} {chunks : List Chunk} (h : Capped max chunks)
    (hwithin : total chunks ≤ max) (hc : c.refused = true ↔ max < total (chunks ++ [c])) :
    Capped max (chunks ++ [c]) := by
  intro before d after hsplit
  rcases List.eq_nil_or_concat after with rfl | ⟨after, e, rfl⟩
  · obtain ⟨rfl, hd⟩ := List.append_inj' hsplit rfl
    cases hd
    exact ⟨hc, hwithin⟩
  · rw [List.concat_eq_append, ← List.cons_append, ← List.append_assoc] at hsplit
    obtain ⟨hchunks, -⟩ := List.append_inj' hsplit rfl
    exact h before d after hchunks

/-- What was forwarded stays within the limit. -/
theorem Capped.forwarded_le {max : Nat} {chunks : List Chunk} (h : Capped max chunks) :
    total (chunks.filter fun c => !c.refused) ≤ max := by
  induction chunks using List.reverseRecOn with
  | nil => simp
  | append_singleton chunks c ih =>
    obtain ⟨hc, hbefore⟩ := h chunks c [] rfl
    have hrest : Capped max chunks := by
      intro before d after hsplit
      refine h before d (after ++ [c]) ?_
      rw [hsplit, List.append_assoc, List.cons_append]
    rw [List.filter_append]
    cases hverdict : c.refused with
    | true => simpa [hverdict] using ih hrest
    | false =>
      have hfit : ¬ max < total (chunks ++ [c]) := by rw [← hc, hverdict]; exact Bool.false_ne_true
      have hsub : total (chunks.filter fun c => !c.refused) ≤ total chunks :=
        (List.Sublist.map _ List.filter_sublist).sum_le_sum fun _ _ => Nat.zero_le _
      simp only [hverdict, total_append, total_singleton, List.filter_cons, Bool.not_false, if_true,
        List.filter_nil] at hfit ⊢
      omega

theorem Capped.not_refused {max : Nat} {chunks : List Chunk} (h : Capped max chunks)
    (hwithin : total chunks ≤ max) (hc : c ∈ chunks) : c.refused = false := by
  obtain ⟨before, after, rfl⟩ := List.append_of_mem hc
  obtain ⟨hverdict, -⟩ := h before c after rfl
  rw [← Bool.not_eq_true, hverdict]
  have hsplit : before ++ c :: after = (before ++ [c]) ++ after := by simp
  rw [hsplit, total_append] at hwithin
  omega

/-! ## The steps of a rule -/

/-- The limit in force: the smallest where a rule has several. -/
def Limit (rule : RouteRule) (max : Nat) : Prop := IsLeast {m | m ∈ rule.plugins.filterMap size?} max

section
variable {rq : Request} {max : Nat}

theorem refusal_eq_none_iff {steps : List Nat} (hmax : IsLeast {m | m ∈ steps} max) (bytes : Nat) :
    refusal (steps.map .sizeLimit) bytes = none ↔ bytes ≤ max := by
  simp only [refusal, List.findSome?_eq_none_iff, List.mem_map, forall_exists_index, and_imp,
    forall_apply_eq_imp_iff₂, ite_eq_right_iff, reduceCtorEq, imp_false, not_lt]
  constructor
  · intro hall
    exact hall max hmax.1
  · intro hle m hm
    exact hle.trans (hmax.2 hm)

theorem requestBodyFilter_of_limit {chain : Plugin.Chain} (hchain : compile rq.rule = .ok chain)
    (hmax : Limit rq.rule max) (ctx : Ctx) (len : Nat) :
    (requestBodyFilter rq ctx len false).1.bodyBytes = min (ctx.bodyBytes + len) maxCount ∧
    ((requestBodyFilter rq ctx len false).2 = none ↔ min (ctx.bodyBytes + len) maxCount ≤ max) := by
  have hsteps := requestBody_of_compile hchain
  have hne : chain.requestBody.isEmpty = false := by
    rw [hsteps, List.isEmpty_map]
    exact List.isEmpty_eq_false_iff.mpr (List.ne_nil_of_mem hmax.1)
  have hverdict := refusal_eq_none_iff hmax (min (ctx.bodyBytes + len) maxCount)
  rw [← hsteps] at hverdict
  simp only [requestBodyFilter, hchain, requestBody, hne, Bool.or_self, Bool.false_eq_true, if_false]
  cases hrefusal : refusal chain.requestBody (min (ctx.bodyBytes + len) maxCount) with
  | none => exact ⟨rfl, by simpa [hrefusal] using hverdict⟩
  | some key => exact ⟨rfl, by simpa [hrefusal] using hverdict⟩

/-! ## The count over a run -/

/-- Whether a chunk came after the connection was upgraded. -/
def Event.upgraded : Event → Bool
  | .chunk _ _ upgraded => upgraded
  | _ => false

/-- The chunks of one attempt: a first part of the body, against the limit. -/
structure Fits (rq : Request) (max : Nat) (chunks : List Chunk) : Prop where
  capped : Capped max chunks
  within : bytesOf chunks <+: rq.body

def State.chunks (s : State) : List (List Chunk) := s.attempts.map (·.chunks)

/-- What the count, the retry buffer and the chunks of every attempt say of the
body. -/
structure Counted (rq : Request) (max : Nat) (s : State) : Prop where
  read : s.read <+: rq.body
  buffered : s.truncated = true → ∃ a, s.current = some a ∧ a.stage ≠ .picked ∧
    ∀ reused, a.stage ≠ .connected reused
  fits : ∀ chunks ∈ s.chunks, Fits rq max chunks
  unsent : ∀ a, s.current = some a → (a.stage = .picked ∨ ∃ reused, a.stage = .connected reused) →
    a.chunks = []
  sending : ∀ a reused, s.current = some a → a.stage = .sending reused →
    total a.chunks ≤ max ∧ s.ctx.bodyBytes = total a.chunks ∧
      bytesOf a.chunks ++ s.replay = s.read

section
variable {parseIp : String → Option IpAddr} {upstreamCa : String → Option String} {s : State}

variable {a : Attempt} {reused : Bool} {chain : Plugin.Chain}

theorem chunks_of_current (h : s.current = some a) :
    s.chunks = a.chunks :: s.retried.map (·.chunks) := by
  simp [State.chunks, attempts_of_current h]

theorem counted_start (rq : Request) (max : Nat) : Counted rq max {} where
  read := List.nil_prefix
  buffered := nofun
  fits := by rintro chunks ⟨⟩
  unsent := nofun
  sending := nofun

/-- Only an attempt that was being sent leaves a truncated buffer. -/
theorem Counted.untruncated (h : Counted rq max s)
    (hcurrent : ∀ a, s.current = some a → a.stage = .picked ∨ ∃ reused, a.stage = .connected reused) :
    s.truncated = false := by
  by_contra htruncated
  obtain ⟨a, ha, hpicked, hconnected⟩ := h.buffered (by simpa using htruncated)
  obtain hstage | ⟨reused, hstage⟩ := hcurrent a ha
  · exact hpicked hstage
  · exact hconnected reused hstage

/-- The end of an attempt, whether another follows or not. -/
theorem counted_ended {e : RetryType} (hread : s.read <+: rq.body)
    (hstage : a.stage = .connectFailed ∨ ∃ reused truncated, a.stage = .broke reused truncated)
    (hbuffer : e.marked = true → s.truncated = false)
    (hfits : ∀ chunks ∈ a.chunks :: s.retried.map (·.chunks), Fits rq max chunks) :
    Counted rq max (s.ended a e) := by
  unfold State.ended
  split
  · rename_i hmarked
    refine ⟨hread, fun htruncated => ?_, hfits, nofun, nofun⟩
    rw [show s.truncated = true from htruncated] at hbuffer
    cases hbuffer hmarked
  · refine ⟨hread, fun _ => ⟨a, rfl, ?_, ?_⟩, hfits, ?_, ?_⟩
    · obtain hstage | ⟨reused, truncated, hstage⟩ := hstage <;> simp [hstage]
    · obtain hstage | ⟨reused, truncated, hstage⟩ := hstage <;> simp [hstage]
    · rintro b ⟨⟩ hb
      obtain hstage | ⟨reused, truncated, hstage⟩ := hstage <;> simp [hstage] at hb
    · rintro b reused ⟨⟩ hb
      obtain hstage | ⟨reused, truncated, hstage⟩ := hstage <;> simp [hstage] at hb

theorem counted_broken (hread : s.read <+: rq.body) (e : Raised)
    (hfits : ∀ chunks ∈ a.chunks :: s.retried.map (·.chunks), Fits rq max chunks) :
    Counted rq max (s.broken rq e reused a) := by
  unfold State.broken
  obtain ⟨e', herr, -, -, -, hbuffer⟩ | ⟨e', herr, hunmarked⟩ :=
    errorWhileProxy_cases rq.method s.truncated s.ctx e reused
  · simp only [herr]
    exact counted_ended hread (.inr ⟨_, _, rfl⟩) (fun _ => hbuffer) hfits
  · simp only [herr]
    refine counted_ended hread (.inr ⟨_, _, rfl⟩) (fun hmarked => ?_) hfits
    rw [hunmarked] at hmarked
    cases hmarked

theorem Counted.unconnected (h : Counted rq max s) (ha : s.current = some a)
    (hpicked : a.stage = .picked) (e : Raised) : Counted rq max (s.unconnected rq e a) := by
  have hbuffer : s.truncated = false := h.untruncated fun b hb => by
    rw [ha] at hb
    cases hb
    exact .inl hpicked
  have hfits := h.fits
  rw [chunks_of_current ha] at hfits
  exact counted_ended h.read (.inl rfl) (fun _ => hbuffer) hfits

theorem Counted.asked (h : Counted rq max s) (hnone : s.current = none) (m : Moment) :
    Counted rq max (s.asked parseIp upstreamCa rq m) := by
  have hbuffer : s.truncated = false := h.untruncated fun b hb => by
    rw [hnone] at hb
    cases hb
  have hbefore : s.chunks = s.retried.map (·.chunks) := by
    simp [State.chunks, State.attempts, hnone]
  have hfits := h.fits
  rw [hbefore] at hfits
  have hasked : ∀ (ctx : Ctx) (a : Attempt), a.chunks = [] →
      (∀ reused, a.stage ≠ .sending reused) →
      Counted rq max { s with ctx, current := some a } := by
    intro ctx a hchunks hstage
    refine ⟨h.read, fun htruncated => ?_, ?_, ?_, ?_⟩
    · rw [show s.truncated = true from htruncated] at hbuffer
      cases hbuffer
    · refine List.forall_mem_cons.mpr ⟨?_, hfits⟩
      show Fits rq max a.chunks
      rw [hchunks]
      exact ⟨capped_nil max, List.nil_prefix⟩
    · rintro b ⟨⟩ -
      exact hchunks
    · rintro b reused ⟨⟩ hb
      exact absurd hb (hstage reused)
  unfold State.asked
  split
  · exact hasked _ _ rfl fun _ h => by cases h
  · exact hasked _ _ rfl fun _ h => by cases h

theorem Counted.headed (h : Counted rq max s)
    (ha : s.current = some a) (hstage : a.stage = .connected reused) (m : MirrorMoment) :
    Counted rq max (s.headed parseIp rq m reused a) := by
  have hbuffer : s.truncated = false := h.untruncated fun b hb => by
    rw [ha] at hb
    cases hb
    exact .inr ⟨reused, hstage⟩
  have hchunks := h.unsent a ha (.inr ⟨reused, hstage⟩)
  have hfits := h.fits
  rw [chunks_of_current ha] at hfits
  unfold State.headed
  simp only
  split
  · exact counted_broken (s := s.rewound) h.read .own hfits
  · obtain ⟨addr, hmirror, -⟩ | hmirror :=
      mirrorHead_cases parseIp rq m s.rewound.ctx
    all_goals
      simp only [hmirror]
      refine ⟨h.read, fun _ => ⟨_, rfl, nofun, nofun⟩, hfits, ?_, ?_⟩
      · rintro b ⟨⟩ (hb | ⟨_, hb⟩) <;> cases hb
      · rintro b reused ⟨⟩ -
        simp [State.rewound, Ctx.newAttempt, hbuffer, hchunks, bytesOf]

/-- What is passed on next, and what it does to what was read. -/
theorem Counted.taken (h : Counted rq max s)
    (ha : s.current = some a) (hstage : a.stage = .sending reused) (len : Nat) (truncates : Bool) :
    (s.taken rq len truncates).read <+: rq.body ∧
    (bytesOf a.chunks ++ s.next rq len) ++ (s.taken rq len truncates).replay =
      (s.taken rq len truncates).read := by
  obtain ⟨-, -, hreplay⟩ := h.sending a reused ha hstage
  by_cases hdone : s.replay = []
  · rw [hdone, List.append_nil] at hreplay
    obtain ⟨rest, hrest⟩ := h.read
    have hnext : s.next rq len = rest.take len := by simp [State.next, hdone, ← hrest]
    simp only [State.taken, hdone, if_true]
    refine ⟨?_, by rw [hreplay, List.append_nil]⟩
    rw [hnext, ← hrest, List.prefix_append_right_inj]
    exact List.take_prefix len rest
  · simp only [State.taken, State.next, hdone, if_false]
    refine ⟨h.read, ?_⟩
    rw [List.append_assoc, List.take_append_drop, hreplay]

theorem bytesOf_pass (a : Attempt) (chunk : List UInt8) (verdict : Bool) :
    bytesOf (a.pass chunk verdict).chunks = bytesOf a.chunks ++ chunk := by
  simp [Attempt.pass, bytesOf]

/-- One chunk more fits if it is refused where it is over the limit, and only there. -/
theorem Counted.fits_pass (h : Counted rq max s)
    (ha : s.current = some a) (hstage : a.stage = .sending reused) {len : Nat} {truncates : Bool}
    {verdict : Bool} (hverdict : verdict = true ↔ max < total a.chunks + (s.next rq len).length) :
    ∀ chunks ∈ (a.pass (s.next rq len) verdict).chunks ::
      (s.taken rq len truncates).retried.map (·.chunks), Fits rq max chunks := by
  obtain ⟨-, -, hretried, -⟩ := taken_frame rq len truncates s
  obtain ⟨hread, hreplay⟩ := h.taken ha hstage len truncates
  have hold := h.fits
  rw [chunks_of_current ha] at hold
  obtain ⟨hcurrent, hothers⟩ := List.forall_mem_cons.mp hold
  rw [hretried]
  refine List.forall_mem_cons.mpr ⟨⟨hcurrent.capped.append (h.sending a reused ha hstage).1 ?_, ?_⟩,
    hothers⟩
  · simpa using hverdict
  · rw [bytesOf_pass]
    exact (List.prefix_append _ _).trans (hreplay ▸ hread)

theorem Counted.passed (hchain : compile rq.rule = .ok chain) (hmax : Limit rq.rule max)
    (hcount : max < maxCount) (h : Counted rq max s) (ha : s.current = some a)
    (hstage : a.stage = .sending reused) (len : Nat) (truncates : Bool) :
    Counted rq max (s.passed rq len truncates false reused a) := by
  obtain ⟨hctx, -⟩ := taken_frame rq len truncates s
  obtain ⟨hread, hreplay⟩ := h.taken ha hstage len truncates
  obtain ⟨-, hbytes, -⟩ := h.sending a reused ha hstage
  obtain ⟨hcounted, hverdict⟩ := requestBodyFilter_of_limit hchain hmax
    (s.taken rq len truncates).ctx (s.next rq len).length
  rw [hctx, hbytes, ← hctx] at hcounted hverdict
  unfold State.passed
  simp only
  cases hbody : requestBodyFilter rq (s.taken rq len truncates).ctx (s.next rq len).length false with
  | mk ctx verdict =>
    rw [hbody] at hcounted hverdict
    cases verdict with
    | none =>
      have hfit := hverdict.mp rfl
      refine ⟨hread, fun _ => ⟨_, rfl, ?_, ?_⟩, h.fits_pass ha hstage ?_, ?_, ?_⟩
      · simp [Attempt.pass, hstage]
      · simp [Attempt.pass, hstage]
      · simp only [Bool.false_eq_true, false_iff]
        omega
      · rintro b ⟨⟩ hb
        simp [Attempt.pass, hstage] at hb
      · rintro b reused ⟨⟩ -
        have hbodyBytes : ctx.bodyBytes = total a.chunks + (s.next rq len).length :=
          hcounted.trans (by omega)
        rw [bytesOf_pass]
        simp only [Attempt.pass, total_append, total_singleton]
        exact ⟨by omega, hbodyBytes, hreplay⟩
    | some key =>
      refine counted_broken (s := { s.taken rq len truncates with ctx }) hread .own
        (h.fits_pass ha hstage ?_)
      have hover : ¬ min (total a.chunks + (s.next rq len).length) maxCount ≤ max := by
        simpa using hverdict
      simp only [true_iff]
      omega

theorem Counted.move (hchain : compile rq.rule = .ok chain)
    (hmax : Limit rq.rule max) (hcount : max < maxCount) {event : Event} {s' : State}
    (hplain : event.upgraded = false) (h : Counted rq max s)
    (hmove : Moves parseIp upstreamCa rq s event s') : Counted rq max s' := by
  cases hmove with
  | asked m hnone => exact h.asked hnone m
  | unconnected e ha hstage => exact h.unconnected ha hstage e
  | @connected a reused ha hstage =>
    have hbuffer : s.truncated = false := h.untruncated fun b hb => by
      rw [ha] at hb
      cases hb
      exact .inl hstage
    have hfits := h.fits
    rw [chunks_of_current ha] at hfits
    refine ⟨h.read, fun htruncated => ?_, hfits, ?_, ?_⟩
    · rw [show s.truncated = true from htruncated] at hbuffer
      cases hbuffer
    · rintro b ⟨⟩ -
      exact h.unsent a ha (.inl hstage)
    · rintro b reused ⟨⟩ ⟨⟩
  | headed m ha hstage => exact h.headed ha hstage m
  | passed len truncates upgraded ha hstage =>
    cases hplain
    exact h.passed hchain hmax hcount ha hstage len truncates
  | broken e ha hstage =>
    have hfits := h.fits
    rw [chunks_of_current ha] at hfits
    exact counted_broken h.read e hfits
  | succeeded ha hstage =>
    have hfits := h.fits
    rw [chunks_of_current ha] at hfits
    refine ⟨h.read, fun _ => ⟨_, rfl, nofun, nofun⟩, hfits, ?_, ?_⟩
    · rintro b ⟨⟩ (hb | ⟨_, hb⟩) <;> cases hb
    · rintro b reused ⟨⟩ ⟨⟩

end

end

/-- Every attempt refuses exactly the first chunk that takes what it was given
over the limit. A body within the limit is not refused, however often it is sent
and however it is cut, and no attempt forwards more than the limit. -/
theorem body_cap_exact (parseIp : String → Option IpAddr) (upstreamCa : String → Option String)
    (rq : Request) (chain : Plugin.Chain) (max : Nat) (events : List Event) (s : State)
    (hchain : compile rq.rule = .ok chain) (hmax : Limit rq.rule max) (hcount : max < maxCount)
    (hplain : ∀ event ∈ events, event.upgraded = false)
    (h : run parseIp upstreamCa rq events = some s) :
    ∀ a ∈ s.attempts,
      bytesOf a.chunks <+: rq.body ∧
      (∀ before c after, a.chunks = before ++ c :: after →
        (c.refused = true ↔ max < total (before ++ [c])) ∧ total before ≤ max) ∧
      (rq.body.length ≤ max → ∀ c ∈ a.chunks, c.refused = false) ∧
      total (a.chunks.filter fun c => !c.refused) ≤ max := by
  have hcounted : Counted rq max s := run_invariant h (counted_start rq max)
    fun t event t' he ht hmove => ht.move hchain hmax hcount (hplain event he) hmove
  intro a ha
  obtain ⟨hcapped, hwithin⟩ := hcounted.fits a.chunks (List.mem_map_of_mem ha)
  refine ⟨hwithin, hcapped, fun hbody c hc => hcapped.not_refused ?_ hc, hcapped.forwarded_le⟩
  rw [← length_bytesOf]
  exact hwithin.length_le.trans hbody

/-- Four bytes against a limit of three, refused on the retry as on no other
chunk: cut as two and two at first, then replayed one by one. -/
def cutTwice : List Event :=
  [atCursor 0, .connected true, plainHead, .chunk 2 false false, .chunk 1 false false,
    .failed .reusedOnly, atCursor 0, .connected false, plainHead, .chunk 1 false false,
    .chunk 2 false false, .chunk 1 false false]

def capOf (max : Nat) : List Plugin := [.requestSizeLimit ⟨max⟩]

theorem limit_capOf (max : Nat) (method : String) (body : List UInt8) :
    Limit (pairRequest (capOf max) method body).rule max := by
  refine ⟨List.mem_singleton_self max, fun m hm => ?_⟩
  exact (List.mem_singleton.mp hm).ge

theorem body_cap_exact_replayed :
    (run parsePair (fun _ => none) (pairRequest (capOf 3) "PUT" [1, 2, 3, 4]) cutTwice).map
        (fun s => s.attempts.map (·.chunks)) =
      some [[⟨[1], false⟩, ⟨[2, 3], false⟩, ⟨[4], true⟩], [⟨[1, 2], false⟩, ⟨[3], false⟩]] ∧
    ∃ s, run parsePair (fun _ => none) (pairRequest (capOf 3) "PUT" [1, 2, 3, 4]) cutTwice = some s ∧
      ∀ a ∈ s.attempts, total (a.chunks.filter fun c => !c.refused) ≤ 3 := by
  have hrun : (run parsePair (fun _ => none) (pairRequest (capOf 3) "PUT" [1, 2, 3, 4])
      cutTwice).isSome = true := by
    decide +kernel
  obtain ⟨s, hs⟩ := Option.isSome_iff_exists.mp hrun
  have hchain : ∃ chain, compile (pairRequest (capOf 3) "PUT" [1, 2, 3, 4]).rule = .ok chain :=
    ⟨_, rfl⟩
  obtain ⟨chain, hchain⟩ := hchain
  refine ⟨by decide +kernel, s, hs, fun a ha => ?_⟩
  exact (body_cap_exact _ _ _ chain 3 cutTwice s hchain (limit_capOf _ _ _) (by decide)
    (by decide) hs a ha).2.2.2

/-- What the request-body steps answer to one attempt's chunks. -/
def answers (rq : Request) (ctx : Ctx) : List Nat → List (Option ErrorKey)
  | [] => []
  | len :: rest =>
    let (ctx, answer) := requestBodyFilter rq ctx len false
    answer :: answers rq ctx rest

/-- Under the largest limit there is, three chunks as large as they come are over
it and are let through: the count stops at its end. -/
theorem cap_lost_at_count_end :
    Limit (pairRequest (capOf maxCount) "PUT" []).rule maxCount ∧
    answers (pairRequest (capOf maxCount) "PUT" []) ({} : Ctx).newAttempt
      [2 ^ 63 - 1, 2 ^ 63 - 1, 2 ^ 63 - 1] = [none, none, none] ∧
    maxCount < [2 ^ 63 - 1, 2 ^ 63 - 1, 2 ^ 63 - 1].sum :=
  ⟨limit_capOf _ _ _, by decide +kernel, by decide⟩

end Gapura.Proxy.Attempts
