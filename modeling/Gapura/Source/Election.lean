import Gapura.Source.Leader

/-! # At most one leader

A replica has a claim from `s` on when the server has applied a commit of a step
that began at `s`, or when it took the leadership from such a step. While it has
one, the clock has not gone past the deadline by more than the timers lag, and
the Lease is its own, renewed at `s` or later. Nobody else's commit can be
applied to that Lease: it would have been decided over an expired one. -/
namespace Gapura.Source.Leader

variable {I : Type} {identity : I → String} {lag : Nat}

theorem deadline_eq : deadline = 10 * second := by decide

/-! ## Timers -/

/-- What one replica's timers guarantee. -/
structure OnTime (lag now : Nat) (r : Replica) : Prop where
  published : r.leader = r.renewedAt.isSome
  due : r.phase ≠ .returned → now ≤ r.due + lag
  renewed : ∀ s, r.renewedAt = some s → s ≤ now
  waiting : r.phase = .waiting → ∀ s, r.renewedAt = some s → r.due ≤ s + deadline + lag
  step : ∀ at_, r.phase.stepAt = some at_ →
    at_ ≤ now ∧ r.due ≤ at_ + deadline ∧ r.nextTick ≤ at_ + renewEvery
  leading : ∀ at_, r.phase.stepAt = some at_ → ∀ s, r.renewedAt = some s →
    s ≤ at_ ∧ r.due ≤ s + deadline + 2 * lag

namespace OnTime
variable {now : Nat} {r : Replica}

theorem start (lag firstTick now : Nat) : OnTime lag now (Replica.start firstTick now) where
  published := rfl
  due _ := by
    simp only [Replica.start]
    omega
  renewed _ h := nomatch h
  waiting _ _ h := nomatch h
  step _ h := nomatch h
  leading _ h := nomatch h

theorem pass (h : OnTime lag now r) {later : Nat} (hlater : now ≤ later)
    (hdue : r.phase ≠ .returned → later ≤ r.due + lag) : OnTime lag later r where
  published := h.published
  due := hdue
  renewed s hs := (h.renewed s hs).trans hlater
  waiting := h.waiting
  step at_ hat :=
    have ⟨hle, hrest⟩ := h.step at_ hat
    ⟨hle.trans hlater, hrest⟩
  leading := h.leading

variable {s at_ : Nat}

theorem stepBudget_of_leader {r : Replica} (hp : r.leader = r.renewedAt.isSome)
    (hs : r.renewedAt = some s) (now : Nat) :
    stepBudget r.renewedAt r.leader now = s + deadline - now := by
  simp [stepBudget, hp, hs]

section
variable (h : OnTime lag now r)

include h

theorem tick (hphase : r.phase = .waiting) (htick : r.nextTick ≤ now) :
    OnTime lag now (r.tick now) where
  published := h.published
  due _ := by
    simp only [Replica.tick]
    omega
  renewed := h.renewed
  waiting hw := nomatch hw
  step at_ hat := by
    obtain rfl : now = at_ := Option.some.inj hat
    refine ⟨le_refl _, ?_, Nat.add_le_add_right htick _⟩
    show now + stepBudget r.renewedAt r.leader now ≤ now + deadline
    cases hr : r.renewedAt with
    | none => simp [stepBudget]
    | some s =>
      have hs := h.renewed s hr
      have hbudget := stepBudget_of_leader h.published hr now
      rw [hr] at hbudget
      omega
  leading at_ hat s hs := by
    obtain rfl : now = at_ := Option.some.inj hat
    have hle := h.renewed s hs
    refine ⟨hle, ?_⟩
    show now + stepBudget r.renewedAt r.leader now ≤ _
    rw [stepBudget_of_leader h.published hs]
    have hdue := h.due (by simp [hphase])
    have hwait := h.waiting hphase s hs
    omega

/-- The step goes on. -/
theorem goOn (hat : r.phase.stepAt = some at_) {phase : Phase}
    (hphase : phase.stepAt = some at_) : OnTime lag now { r with phase := phase } where
  published := h.published
  due _ := h.due fun hr => by
    rw [hr] at hat
    cases hat
  renewed := h.renewed
  waiting hw := by
    simp only at hw
    rw [hw] at hphase
    cases hphase
  step at' hat' := h.step at' (hat.trans (hphase.symm.trans hat'))
  leading at' hat' := h.leading at' (hat.trans (hphase.symm.trans hat'))

theorem finish (hat : r.phase.stepAt = some at_)
    (leader : Bool) : OnTime lag now (r.finish now at_ leader) where
  published := by cases leader <;> rfl
  due _ := by
    simp only [Replica.finish]
    omega
  renewed s hs := by
    cases leader with
    | false => cases hs
    | true =>
      obtain rfl : at_ = s := Option.some.inj hs
      exact (h.step at_ hat).1
  waiting _ s hs := by
    cases leader with
    | false => cases hs
    | true =>
      obtain rfl : at_ = s := Option.some.inj hs
      have hdue := h.due fun hr => by
        rw [hr] at hat
        cases hat
      obtain ⟨-, hstep, htick⟩ := h.step at_ hat
      have hperiod : renewEvery ≤ deadline := by decide
      show max now r.nextTick ≤ _
      omega
  step _ h := nomatch h
  leading _ h := nomatch h

theorem shutdown : OnTime lag now { r with phase := .returned } where
  published := h.published
  due hr := absurd rfl hr
  renewed := h.renewed
  waiting hw := nomatch hw
  step _ h := nomatch h
  leading _ h := nomatch h

/-- A leader has not gone past its deadline. -/
theorem now_le (hrun : r.phase ≠ .returned)
    (hs : r.renewedAt = some s) : now ≤ s + deadline + 3 * lag := by
  have hdue := h.due hrun
  cases hat : r.phase.stepAt with
  | some at_ =>
    have hlead := (h.leading at_ hat s hs).2
    omega
  | none =>
    have hwaiting : r.phase = .waiting := by
      cases hp : r.phase <;> simp_all [Phase.stepAt]
    have hwait := h.waiting hwaiting s hs
    omega

end

end OnTime

/-! ## What is written -/

/-- A Lease of replica `i`, renewed no earlier than `s`. -/
structure Writes (identity : I → String) (i : I) (s : Nat) (spec : LeaseSpec) : Prop where
  holder : spec.holderIdentity = some (identity i)
  duration : spec.leaseDurationSeconds = some (leaseSecs : Int)
  renewed : ∃ now, s ≤ now ∧ spec.renewTime = some (microTime now)

theorem renewed_writes (spec : Option LeaseSpec) (decision : Decision) (i : I) {s now : Nat}
    (h : s ≤ now) : Writes identity i s (renewed spec decision (identity i) now) :=
  ⟨rfl, rfl, now, h, rfl⟩

theorem asSecond_microTime (now : Nat) : (microTime now).asSecond = (now / second : Nat) := by
  show Int.tdiv (now / 1000 : Nat) (1000000 : Nat) = (now / 1000000000 : Nat)
  rw [← Int.ofNat_tdiv, Nat.div_div_eq_div_mul]

/-- Whoever does not wait for another's Lease read the clock late. -/
theorem late_of_decide {i j : I} (hij : identity j ≠ identity i) {s now : Nat} {spec : LeaseSpec}
    (h : Writes identity i s spec)
    (hd : decide (some spec) (identity j) (now / second : Nat) ≠ .wait) :
    s + 14 * second < now := by
  obtain ⟨t, hst, ht⟩ := h.renewed
  have hother : spec.holderIdentity ≠ some (identity j) := by
    rw [h.holder]
    exact fun heq => hij (Option.some.inj heq).symm
  simp only [decide, if_neg hother, h.duration, ht, Option.map_some, Option.getD_some,
    asSecond_microTime] at hd
  have hle : (t / second : Nat) + (leaseSecs : Int) ≤ (now / second : Nat) := by
    by_contra hlt
    rw [if_neg hlt] at hd
    exact hd rfl
  have hmono : s / second ≤ t / second := Nat.div_le_div_right hst
  unfold second leaseSecs at *
  omega

/-! ## The invariant -/

/-- `i` is leader, or will be once it hears that its commit was applied. -/
def Claims (c : Cluster I) (i : I) (s : Nat) : Prop :=
  (c.replica i).phase ≠ .returned ∧ (c.replica i).renewedAt = some s ∨
    ∃ n ∈ c.applied, (c.replica i).phase = .committing s n

structure Safe (identity : I → String) (lag : Nat) (c : Cluster I) : Prop where
  onTime : ∀ i, OnTime lag c.now (c.replica i)
  reading : ∀ i at_ now, (c.replica i).phase = .reading at_ now → at_ ≤ now ∧ now ≤ c.now
  answered : ∀ i at_ now read, (c.replica i).phase = .answered at_ now read →
    (at_ ≤ now ∧ now ≤ c.now) ∧ read.version ≤ c.stored.version ∧
      (read.version = c.stored.version → read = c.stored)
  committing : ∀ i at_ n, (c.replica i).phase = .committing at_ n →
    ∃ r, c.sent[n]? = some r ∧ Writes identity i at_ r.spec
  versions : ∀ r ∈ c.sent, r.version ≤ c.stored.version
  numbers : ∀ n ∈ c.applied, n < c.sent.length
  /-- The Lease is held by whoever has a claim. -/
  held : ∀ i s, Claims c i s → ∃ spec, c.stored.lease = some (some spec) ∧ Writes identity i s spec
  /-- A commit that would be applied is one of whoever has a claim. -/
  pending : ∀ r ∈ c.sent, r.Applies c.stored → ∀ i s, Claims c i s → Writes identity i s r.spec

theorem start_safe (now : Nat) (stored : Stored) (firstTick : I → Nat) :
    Safe identity lag (start now stored firstTick) where
  onTime i := .start lag (firstTick i) now
  reading _ _ _ h := nomatch h
  answered _ _ _ _ h := nomatch h
  committing _ _ _ h := nomatch h
  versions _ h := nomatch h
  numbers _ h := nomatch h
  held i s h := by
    rcases h with ⟨-, h⟩ | ⟨n, hn, -⟩
    · cases h
    · cases hn
  pending _ h := nomatch h

section
variable {c : Cluster I}

section
variable (h : Safe identity lag c)

include h

theorem Safe.now_le {i : I} {s : Nat} (hc : Claims c i s) : c.now ≤ s + deadline + 3 * lag := by
  rcases hc with ⟨hrun, hs⟩ | ⟨n, -, hphase⟩
  · exact (h.onTime i).now_le hrun hs
  · have hdue := (h.onTime i).due (by simp [hphase])
    have hstep := ((h.onTime i).step s (by simp [hphase, Phase.stepAt])).2.1
    omega

theorem Safe.pass {now : Nat} (hnow : c.now ≤ now)
    (hdue : ∀ i, (c.replica i).phase ≠ .returned → now ≤ (c.replica i).due + lag) :
    Safe identity lag { c with now := now } where
  onTime i := (h.onTime i).pass hnow (hdue i)
  reading i at_ t hp := (h.reading i at_ t hp).imp_right (·.trans hnow)
  answered i at_ t read hp := (h.answered i at_ t read hp).imp_left (·.imp_right (·.trans hnow))
  committing := h.committing
  versions := h.versions
  numbers := h.numbers
  held := h.held
  pending := h.pending

/-- After a write no commit sent before it can be applied. -/
theorem Safe.not_applies (spec : LeaseSpec) {r : Request}
    (hr : r ∈ c.sent) : ¬ r.Applies (c.stored.write spec) := by
  have hle := h.versions r hr
  unfold Request.Applies Stored.write
  split
  · simp
  · intro happlies
    have heq := happlies.2
    simp only at heq
    omega

theorem Safe.apply {n : Nat} {r : Request} (hsent : c.sent[n]? = some r)
    (happlies : r.Applies c.stored) :
    Safe identity lag { c with stored := c.stored.write r.spec, applied := n :: c.applied } := by
  have hmem : r ∈ c.sent := List.mem_of_getElem? hsent
  refine ⟨h.onTime, h.reading, ?_, h.committing, ?_, ?_, ?_, ?_⟩
  · intro i at_ now read hp
    obtain ⟨hclock, hle, -⟩ := h.answered i at_ now read hp
    refine ⟨hclock, Nat.le_succ_of_le hle, fun heq => ?_⟩
    simp only [Stored.write] at heq
    omega
  · exact fun r' hr' => Nat.le_succ_of_le (h.versions r' hr')
  · intro m hm
    rcases List.mem_cons.mp hm with rfl | hm
    · exact (List.getElem?_eq_some_iff.mp hsent).1
    · exact h.numbers m hm
  · intro i s hclaims
    refine ⟨r.spec, rfl, ?_⟩
    rcases hclaims with hlead | ⟨m, hm, hphase⟩
    · exact h.pending r hmem happlies i s (.inl hlead)
    · rcases List.mem_cons.mp hm with rfl | hm
      · obtain ⟨r', hr', hwrites⟩ := h.committing i s m hphase
        cases hsent.symm.trans hr'
        exact hwrites
      · exact h.pending r hmem happlies i s (.inr ⟨m, hm, hphase⟩)
  · exact fun r' hr' happlies' => absurd happlies' (h.not_applies r.spec hr')

end

end

section
variable [DecidableEq I] {c : Cluster I} {i : I}

variable {c' : Cluster I}

/-- What holds of the replica that moved, and held of each of the others. -/
theorem forall_replica {r : Replica}
    (hmoved : c'.replica = Function.update c.replica i r) (p : I → Replica → Prop) (hself : p i r)
    (hother : ∀ j, p j (c.replica j)) (j : I) : p j (c'.replica j) := by
  rw [hmoved]
  exact (Function.forall_update_iff c.replica p).mpr ⟨hself, fun j _ => hother j⟩ j

/-- A replica moves on, with no claim it did not have. -/
theorem Safe.set (h : Safe identity lag c) {r : Replica} (hr : OnTime lag c.now r)
    (hreading : ∀ at_ now, r.phase = .reading at_ now → at_ ≤ now ∧ now ≤ c.now)
    (hanswered : ∀ at_ now read, r.phase = .answered at_ now read →
      (at_ ≤ now ∧ now ≤ c.now) ∧ read = c.stored)
    (hcommitting : ∀ at_ n, r.phase ≠ .committing at_ n)
    (hclaims : r.phase ≠ .returned → ∀ s, r.renewedAt = some s → Claims c i s) :
    Safe identity lag (c.set i r) := by
  have hold : ∀ j s, Claims (c.set i r) j s → Claims c j s := by
    have hmoved : (c.set i r).replica = Function.update c.replica i r := rfl
    refine forall_replica hmoved (fun j r => ∀ s,
      (r.phase ≠ .returned ∧ r.renewedAt = some s ∨ ∃ n ∈ c.applied, r.phase = .committing s n) →
        Claims c j s) ?_ fun _ _ hc => hc
    rintro s (⟨hrun, hs⟩ | ⟨n, -, hphase⟩)
    · exact hclaims hrun s hs
    · exact absurd hphase (hcommitting s n)
  constructor
  case onTime => exact forall_replica rfl (fun _ r => OnTime lag c.now r) hr h.onTime
  case reading =>
    exact forall_replica rfl (fun _ r => ∀ at_ now, r.phase = .reading at_ now →
      at_ ≤ now ∧ now ≤ c.now) hreading h.reading
  case answered =>
    refine forall_replica rfl (fun _ r => ∀ at_ now read, r.phase = .answered at_ now read →
      (at_ ≤ now ∧ now ≤ c.now) ∧ read.version ≤ c.stored.version ∧
        (read.version = c.stored.version → read = c.stored)) ?_ h.answered
    intro at_ now read hp
    obtain ⟨hclock, rfl⟩ := hanswered at_ now read hp
    exact ⟨hclock, le_refl _, fun _ => rfl⟩
  case committing =>
    exact forall_replica rfl (fun j r => ∀ at_ n, r.phase = .committing at_ n →
      ∃ r', c.sent[n]? = some r' ∧ Writes identity j at_ r'.spec)
      (fun at_ n hp => absurd hp (hcommitting at_ n)) h.committing
  case versions => exact h.versions
  case numbers => exact h.numbers
  case held => exact fun j s hc => h.held j s (hold j s hc)
  case pending => exact fun q hq ha j s hc => h.pending q hq ha j s (hold j s hc)

variable {read : Stored}

/-- The commit of a step is no danger to anybody's claim: over another's Lease
it would have been decided too late. -/
theorem Safe.writes_of_decide (h : Safe identity lag c) (hinj : identity.Injective)
    (hlag : 3 * lag ≤ 4 * second) {at_ now : Nat}
    (hphase : (c.replica i).phase = .answered at_ now read)
    (hd : decide read.spec (identity i) (now / second : Nat) ≠ .wait)
    (happlies : if read.lease.isNone then c.stored.lease = none
      else c.stored.lease ≠ none ∧ c.stored.version = read.version)
    {j : I} {s : Nat} (hc : Claims c j s) : j = i ∧ s ≤ now := by
  obtain ⟨⟨hat, hclock⟩, -, hread⟩ := h.answered i at_ now read hphase
  obtain ⟨spec, hlease, hwrites⟩ := h.held j s hc
  have hstored : read = c.stored := by
    split at happlies
    · rw [hlease] at happlies
      cases happlies
    · exact hread happlies.2.symm
  by_cases hj : j = i
  · subst hj
    refine ⟨rfl, ?_⟩
    rcases hc with ⟨-, hs⟩ | ⟨n, -, hn⟩
    · have hle := ((h.onTime j).leading at_ (by simp [hphase, Phase.stepAt]) s hs).1
      omega
    · rw [hphase] at hn
      cases hn
  · have hspec : read.spec = some spec := by
      rw [hstored, Stored.spec, hlease]
      rfl
    rw [hspec] at hd
    have hlate := late_of_decide (fun heq => hj (hinj heq.symm)) hwrites hd
    have hnow := h.now_le hc
    rw [deadline_eq] at hnow
    omega

theorem Safe.commit (h : Safe identity lag c) (hinj : identity.Injective)
    (hlag : 3 * lag ≤ 4 * second) {at_ now : Nat}
    (hphase : (c.replica i).phase = .answered at_ now read)
    (hd : decide read.spec (identity i) (now / second : Nat) ≠ .wait) :
    Safe identity lag (c.commit i (identity i) at_ now read
      (decide read.spec (identity i) (now / second : Nat))) := by
  obtain ⟨⟨hat, -⟩, hversion, -⟩ := h.answered i at_ now read hphase
  let r : Request :=
    { create := read.lease.isNone
      version := read.version
      spec := renewed read.spec (decide read.spec (identity i) (now / second : Nat)) (identity i)
        now }
  let c' := c.commit i (identity i) at_ now read
    (decide read.spec (identity i) (now / second : Nat))
  have hmoved : c'.replica = Function.update c.replica i
      { c.replica i with phase := .committing at_ c.sent.length } := rfl
  have hsent : c'.sent = c.sent ++ [r] := rfl
  -- its number is new, so no commit of that number was applied
  have hold : ∀ j s, Claims c' j s → Claims c j s := by
    refine forall_replica hmoved (fun j r => ∀ s,
      (r.phase ≠ .returned ∧ r.renewedAt = some s ∨ ∃ n ∈ c.applied, r.phase = .committing s n) →
        Claims c j s) ?_ fun _ _ hc => hc
    rintro s (⟨-, hs⟩ | ⟨n, hn, hp⟩)
    · exact .inl ⟨by simp [hphase], hs⟩
    · cases hp
      exact absurd (h.numbers _ hn) (lt_irrefl _)
  have hstep : (c.replica i).phase.stepAt = some at_ := by simp [hphase, Phase.stepAt]
  show Safe identity lag c'
  constructor
  case onTime =>
    exact forall_replica hmoved (fun _ r => OnTime lag c.now r) ((h.onTime i).goOn hstep rfl)
      h.onTime
  case reading =>
    exact forall_replica hmoved (fun _ r => ∀ at_ now, r.phase = .reading at_ now →
      at_ ≤ now ∧ now ≤ c.now) (fun _ _ hp => nomatch hp) h.reading
  case answered =>
    exact forall_replica hmoved (fun _ r => ∀ at_ now read, r.phase = .answered at_ now read →
      (at_ ≤ now ∧ now ≤ c.now) ∧ read.version ≤ c.stored.version ∧
        (read.version = c.stored.version → read = c.stored)) (fun _ _ _ hp => nomatch hp)
      h.answered
  case committing =>
    refine forall_replica hmoved (fun j r => ∀ at_ n, r.phase = .committing at_ n →
      ∃ r', c'.sent[n]? = some r' ∧ Writes identity j at_ r'.spec) ?_ ?_
    · intro at' n hp
      cases hp
      exact ⟨r, by simp [hsent], renewed_writes _ _ i hat⟩
    · intro j at' n hp
      obtain ⟨r', hr', hwrites⟩ := h.committing j at' n hp
      refine ⟨r', ?_, hwrites⟩
      rw [hsent, List.getElem?_append_left (List.getElem?_eq_some_iff.mp hr').1]
      exact hr'
  case versions =>
    intro r' hr'
    rw [hsent] at hr'
    rcases List.mem_append.mp hr' with hr' | hr'
    · exact h.versions r' hr'
    · obtain rfl := List.mem_singleton.mp hr'
      exact hversion
  case numbers =>
    intro n hn
    have hlt := h.numbers n hn
    rw [hsent, List.length_append]
    omega
  case held => exact fun j s hc => h.held j s (hold j s hc)
  case pending =>
    intro r' hr' happlies j s hc
    rw [hsent] at hr'
    rcases List.mem_append.mp hr' with hr' | hr'
    · exact h.pending r' hr' happlies j s (hold j s hc)
    · obtain rfl := List.mem_singleton.mp hr'
      obtain ⟨rfl, hs⟩ := h.writes_of_decide hinj hlag hphase hd happlies (hold j s hc)
      exact renewed_writes _ _ j hs

theorem Step.safe (hinj : identity.Injective) (hlag : 3 * lag ≤ 4 * second)
    (h : Safe identity lag c) (hstep : Step identity lag c c') : Safe identity lag c' := by
  cases hstep with
  | pass hnow hdue => exact h.pass hnow hdue
  | @tick i hphase htick =>
    refine h.set ((h.onTime i).tick hphase htick) (fun _ _ hp => nomatch hp)
      (fun _ _ _ hp => nomatch hp) (fun _ _ hp => nomatch hp) fun _ s hs => ?_
    exact .inl ⟨by simp [hphase], hs⟩
  | @read i at_ hphase =>
    have hat : (c.replica i).phase.stepAt = some at_ := by simp [hphase, Phase.stepAt]
    refine h.set ((h.onTime i).goOn hat rfl) ?_ (fun _ _ _ hp => nomatch hp)
      (fun _ _ hp => nomatch hp) fun _ s hs => .inl ⟨by simp [hphase], hs⟩
    intro at' now hp
    cases hp
    exact ⟨((h.onTime i).step at_ hat).1, le_refl _⟩
  | @answer i at_ now hphase =>
    have hat : (c.replica i).phase.stepAt = some at_ := by simp [hphase, Phase.stepAt]
    refine h.set ((h.onTime i).goOn hat rfl) (fun _ _ hp => nomatch hp) ?_
      (fun _ _ hp => nomatch hp) fun _ s hs => .inl ⟨by simp [hphase], hs⟩
    intro at' now' read hp
    cases hp
    exact ⟨h.reading i at_ now hphase, rfl⟩
  | commit hphase hd => exact h.commit hinj hlag hphase hd
  | apply hsent happlies => exact h.apply hsent happlies
  | @renewed i at_ n hphase happlied =>
    have hat : (c.replica i).phase.stepAt = some at_ := by simp [hphase, Phase.stepAt]
    refine h.set ((h.onTime i).finish hat true) (fun _ _ hp => nomatch hp)
      (fun _ _ _ hp => nomatch hp) (fun _ _ hp => nomatch hp) fun _ s hs => ?_
    obtain rfl : at_ = s := Option.some.inj hs
    exact .inr ⟨n, happlied, hphase⟩
  | @failed i at_ hphase =>
    exact h.set ((h.onTime i).finish hphase false) (fun _ _ hp => nomatch hp)
      (fun _ _ _ hp => nomatch hp) (fun _ _ hp => nomatch hp) fun _ s hs => nomatch hs
  | @shutdown i =>
    exact h.set (h.onTime i).shutdown (fun _ _ hp => nomatch hp) (fun _ _ _ hp => nomatch hp)
      (fun _ _ hp => nomatch hp) fun hrun => absurd rfl hrun

theorem reachable_safe (hinj : identity.Injective) (hlag : 3 * lag ≤ 4 * second)
    (h : Reachable identity lag c) : Safe identity lag c := by
  obtain ⟨now, stored, firstTick, hrun⟩ := h
  induction hrun with
  | refl => exact start_safe now stored firstTick
  | tail _ hstep ih => exact hstep.safe hinj hlag ih

/-- Two replicas that both run and both publish that they are leader are one.
`lag` is how late a timer may be served; none at all is the case 0. -/
theorem at_most_one_leader (identity : I → String) (hinj : identity.Injective) (lag : Nat)
    (hlag : 3 * lag ≤ 4 * second) (c : Cluster I) (h : Reachable identity lag c) (i j : I)
    (hi : (c.replica i).phase ≠ .returned ∧ (c.replica i).leader = true)
    (hj : (c.replica j).phase ≠ .returned ∧ (c.replica j).leader = true) : i = j := by
  have hsafe := reachable_safe hinj hlag h
  have hclaim : ∀ k, (c.replica k).phase ≠ .returned ∧ (c.replica k).leader = true →
      ∃ s, Claims c k s := by
    intro k hk
    have hsome := (hsafe.onTime k).published.symm.trans hk.2
    obtain ⟨s, hs⟩ := Option.isSome_iff_exists.mp hsome
    exact ⟨s, .inl ⟨hk.1, hs⟩⟩
  obtain ⟨s, hs⟩ := hclaim i hi
  obtain ⟨t, ht⟩ := hclaim j hj
  obtain ⟨spec, hspec, hwrites⟩ := hsafe.held i s hs
  obtain ⟨spec', hspec', hwrites'⟩ := hsafe.held j t ht
  cases hspec.symm.trans hspec'
  exact hinj (Option.mem_unique hwrites.holder hwrites'.holder)

end

def pairOf (first second : String) : Bool → String
  | true => first
  | false => second

/-- Both begin at once, find no Lease and ask for one to be created; the first to
arrive is. -/
theorem at_most_one_leader_of_two :
    ∃ c, Reachable (pairOf "gapura-0" "gapura-1") second c ∧ c.sent.length = 2 ∧
      (c.replica false).phase ≠ .returned ∧ (c.replica true).leader = true ∧
      ∀ j, (c.replica j).phase ≠ .returned ∧ (c.replica j).leader = true → true = j := by
  let c₀ : Cluster Bool := start 0 ⟨0, none⟩ fun _ => 0
  have hinj : (pairOf "gapura-0" "gapura-1").Injective := by decide
  have hrun : ∃ c, Relation.ReflTransGen (Step (pairOf "gapura-0" "gapura-1") second) c₀ c ∧
      c.sent.length = 2 ∧ (c.replica false).phase = .committing 0 1 ∧
      (c.replica true).phase = .waiting ∧ (c.replica true).leader = true :=
    ⟨_, (((((((((Relation.ReflTransGen.single (.tick (i := true) rfl (le_refl 0))).tail
      (.tick (i := false) rfl (le_refl 0))).tail
      (.read (i := true) rfl)).tail (.answer (i := true) rfl)).tail
      (.read (i := false) rfl)).tail (.answer (i := false) rfl)).tail
      (.commit (i := true) rfl (by decide))).tail (.commit (i := false) rfl (by decide))).tail
      (.apply (n := 0) rfl rfl)).tail (.renewed (i := true) rfl List.mem_cons_self),
      rfl, rfl, rfl, rfl⟩
  obtain ⟨c, hc, hsent, hother, hphase, hleader⟩ := hrun
  have hreach : Reachable (pairOf "gapura-0" "gapura-1") second c := ⟨0, ⟨0, none⟩, fun _ => 0, hc⟩
  refine ⟨c, hreach, hsent, by simp [hother], hleader, fun j hj => ?_⟩
  exact at_most_one_leader _ hinj second (by decide) c hreach true j
    ⟨by simp [hphase], hleader⟩ hj

end Gapura.Source.Leader
