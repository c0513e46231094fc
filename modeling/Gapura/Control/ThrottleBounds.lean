import Gapura.Control.ThrottleBooks

/-! # What the attempt limits hold an attacker to

Over every run of reservations and outcomes, with times that never go back. -/
namespace Gapura.Control.Throttle
open Lib.Tables
open Core.ClientIp (IpAddr)

section
variable {D : Type} [DecidableEq D]

variable (k : Key D) {keys : List (Key D)} {counters : Counters D} {key : Key D} (room : Counters D)

omit [DecidableEq D] in
theorem signIn_sound : (signIn.rule k).Sound :=
  match k with
  | .pair _ _ => ⟨Nat.succ_pos _, rfl⟩
  | .address _ 0 => ⟨Nat.succ_pos _, rfl⟩
  | .address _ (_ + 1) => ⟨Nat.succ_pos _, rfl⟩

omit [DecidableEq D] in
theorem signUp_sound : (signUp.rule k).Sound :=
  match k with
  | .pair _ _ => ⟨Nat.succ_pos _, rfl⟩
  | .address _ 0 => ⟨Nat.succ_pos _, rfl⟩
  | .address _ 1 => ⟨Nat.succ_pos _, rfl⟩
  | .address _ (_ + 2) => ⟨Nat.succ_pos _, rfl⟩

omit [DecidableEq D] in
theorem keysOf_nodup (policy : Policy) (digest : String → D) (name : Option String)
    (addr : IpAddr) : (keysOf policy digest name addr).Nodup := by
  unfold keysOf
  rw [List.nodup_append]
  refine ⟨?_, ?_, ?_⟩
  · cases name.filter fun _ => policy.pair.isSome <;> simp
  · refine List.Nodup.map (fun i j h => ?_) (List.nodup_range.filter _)
    cases h
    rfl
  · intro k hk k' hk' heq
    subst heq
    obtain ⟨n, -, rfl⟩ := Option.map_eq_some_iff.mp (Option.mem_toList.mp hk)
    obtain ⟨i, -, hi⟩ := List.mem_map.mp hk'
    cases hi

/-- The outstanding attempts with a reservation against `k`. -/
def State.reserved (s : State D) (k : Key D) : Nat :=
  s.outstanding.countP fun held => (k, true) ∈ held

def timesOf (events : List (Nat × Key D)) (k : Key D) : List Nat :=
  (events.filter fun e => e.2 = k).map Prod.fst

def State.ledger (s : State D) (k : Key D) : Ledger where
  reserved := s.reserved k
  counted := timesOf s.counted k
  cleared := timesOf s.cleared k

structure Good (policy : Policy) (digest : String → D) (now : Nat) (s : State D) : Prop where
  books : Books policy now s.counters s.ledger
  attempts : ∀ held ∈ s.outstanding, ∃ name addr,
    held = (keysOf policy digest name addr).map (·, true)

variable {policy : Policy} {capacity now : Nat} {digest : String → D} {s : State D}

theorem Good.later (h : Good policy digest now s) {now' : Nat} (hle : now ≤ now') :
    Good policy digest now' s :=
  ⟨fun k => (h.books k).later hle, h.attempts⟩

theorem timesOf_map_append (keys : List (Key D)) (hnodup : keys.Nodup) (now : Nat)
    (events : List (Nat × Key D)) (k : Key D) :
    timesOf (keys.map (now, ·) ++ events) k =
      if k ∈ keys then now :: timesOf events k else timesOf events k := by
  have hcount : timesOf (keys.map (now, ·)) k = if k ∈ keys then [now] else [] := by
    induction keys with
    | nil => rfl
    | cons key rest ih =>
      obtain ⟨hkey, hnodup⟩ := List.nodup_cons.mp hnodup
      have hrest := ih hnodup
      by_cases hk : key = k
      · subst hk
        simp only [hkey, if_false] at hrest
        simpa [timesOf] using hrest
      · simpa [timesOf, hk, Ne.symm hk] using hrest
  rw [timesOf, List.filter_append, List.map_append, ← timesOf, ← timesOf, hcount]
  split <;> rfl

/-- What an attempt under way holds, beside what the others hold. -/
theorem reserved_of_held {n : Nat}
    (hheld : s.outstanding[n]? = some (keys.map (·, true))) (k : Key D) :
    s.reserved k = (s.outstanding.eraseIdx n).countP (fun held => (k, true) ∈ held) +
      if k ∈ keys then 1 else 0 := by
  have hperm := List.getElem_cons_eraseIdx_perm (List.getElem?_eq_some_iff.mp hheld).1
  rw [(List.getElem?_eq_some_iff.mp hheld).2] at hperm
  rw [State.reserved, ← hperm.countP_eq, List.countP_cons]
  simp

theorem settle_good (h : Good policy digest now s) (hsound : ∀ k : Key D, (policy.rule k).Sound)
    (n : Nat) (outcome : Outcome) :
    Good policy digest now (settle policy capacity s n outcome now) := by
  unfold settle
  split
  · exact h
  · rename_i held hheld
    obtain ⟨name, addr, rfl⟩ := h.attempts held (List.mem_of_getElem? hheld)
    have hnodup := keysOf_nodup policy digest name addr
    have hreserved := reserved_of_held hheld
    obtain ⟨hbooks, hcounted⟩ := h.books.settleIn capacity hsound outcome hnodup
      fun k hk => by
        show 0 < s.reserved k
        rw [hreserved, if_pos hk]
        omega
    refine ⟨fun k => ?_, fun held hmem => h.attempts held (List.mem_of_mem_eraseIdx hmem)⟩
    have hcleared : (((keysOf policy digest name addr).map (·, true)).filter fun h =>
        h.1.isPair).map (fun h => (now, h.1)) =
        ((keysOf policy digest name addr).filter Key.isPair).map (now, ·) := by
      simp [List.filter_map, Function.comp_def]
    have hcount : (s.outstanding.eraseIdx n).countP (fun held => (k, true) ∈ held) =
        if k ∈ keysOf policy digest name addr then s.reserved k - 1 else s.reserved k := by
      have hsum := hreserved k
      split <;> rename_i hk
      · rw [if_pos hk] at hsum
        omega
      · rw [if_neg hk] at hsum
        omega
    have hpairs := timesOf_map_append _ (hnodup.filter Key.isPair) now s.cleared k
    have htimes := timesOf_map_append _ hnodup now s.counted k
    have hk := hbooks k
    simp only [State.ledger, State.reserved, hcounted, hcleared, hcount]
    by_cases hmem : k ∈ keysOf policy digest name addr
    · simp only [hmem, if_true, settled, State.ledger, State.reserved] at hk htimes ⊢
      cases outcome with
      | failed => simpa [htimes] using hk
      | refunded => simpa using hk
      | succeeded =>
        by_cases hpair : k.isPair = true
        · simpa [hpairs, hmem, hpair] using hk
        · simpa [hpairs, hpair] using hk
    · simp only [hmem, if_false, State.ledger, State.reserved] at hk htimes ⊢
      cases outcome with
      | failed => simpa [htimes] using hk
      | refunded => simpa using hk
      | succeeded => simpa [hpairs, hmem] using hk

/-- Reserving keeps the books, unless an attempt is let through uncounted. -/
theorem reserve_good (h : Good policy digest now s) (hsound : ∀ k : Key D, (policy.rule k).Sound)
    (name : Option String) (addr : IpAddr)
    (hroom : policy.failClosed = true ∨
      size (step policy capacity digest s now (.reserve name addr)).1.counters < capacity) :
    Good policy digest now (step policy capacity digest s now (.reserve name addr)).1 := by
  simp only [step, reserveAt] at hroom ⊢
  cases hmax : (List.filterMap (fun k => (s.counters.lookup k).bind fun c =>
      c.wait (policy.rule k) now) (keysOf policy digest name (bucket addr))).max? with
  | some wait => exact h
  | none =>
    have hopen : Open policy now s.counters (keysOf policy digest name (bucket addr)) := by
      intro k hk c hc
      have hnil := List.filterMap_eq_nil_iff.mp (List.max?_eq_none_iff.mp hmax) k hk
      simpa [hc] using hnil
    have hnodup := keysOf_nodup policy digest name (bucket addr)
    have hbefore : ([] ++ keysOf policy digest name (bucket addr)).Nodup := hnodup
    have hres := h.books.reserveAll capacity hsound hbefore (fun _ hk => nomatch hk) hopen
    simp only [hmax, List.map_nil] at hroom hres ⊢
    generalize reserveAll policy capacity now s.counters []
      (keysOf policy digest name (bucket addr)) = r at hroom hres
    cases hres with
    | all books =>
      refine ⟨fun k => ?_, fun held hmem => ?_⟩
      · have hk := books k
        by_cases hmem : k ∈ keysOf policy digest name (bucket addr)
        · simpa [State.ledger, State.reserved, hmem, booked] using hk
        · simpa [State.ledger, State.reserved, hmem] using hk
      · rcases List.mem_append.mp hmem with hmem | hmem
        · exact h.attempts held hmem
        · exact ⟨name, bucket addr, by simpa using hmem⟩
    | uncounted hfail hfull =>
      rcases hroom with hclosed | hlt
      · rw [hfail] at hclosed
        cases hclosed
      · exact absurd hlt (Nat.not_lt.mpr hfull)
    | refused hclosed books =>
      refine ⟨fun k => ?_, h.attempts⟩
      show Kept (policy.rule k) now _ (s.ledger k)
      simpa using books k

theorem step_good (h : Good policy digest now s) (hsound : ∀ k : Key D, (policy.rule k).Sound)
    (op : Op) (hroom : policy.failClosed = true ∨
      size (step policy capacity digest s now op).1.counters < capacity) :
    Good policy digest now (step policy capacity digest s now op).1 := by
  cases op with
  | reserve name addr => exact reserve_good h hsound name addr hroom
  | settle n outcome => exact settle_good h hsound n outcome
  | drop n => exact settle_good h hsound n policy.onDrop

theorem run_append (policy : Policy) (capacity : Nat) (digest : String → D)
    (ops : List (Nat × Op)) (op : Nat × Op) :
    run policy capacity digest (ops ++ [op]) =
      (step policy capacity digest (run policy capacity digest ops) op.1 op.2).1 := by
  simp [run]

theorem run_good (hsound : ∀ k : Key D, (policy.rule k).Sound) {ops : List (Nat × Op)}
    (hsorted : ops.Pairwise fun a b => a.1 ≤ b.1)
    (hroom : policy.failClosed = true ∨
      ∀ n, size (run policy capacity digest (ops.take n)).counters < capacity)
    {now : Nat} (hnow : ∀ op ∈ ops, op.1 ≤ now) :
    Good policy digest now (run policy capacity digest ops) := by
  induction ops using List.reverseRecOn generalizing now with
  | nil => exact ⟨fun k => .empty _ now, fun held hheld => nomatch hheld⟩
  | append_singleton ops op ih =>
    obtain ⟨hsorted, -, hle⟩ := List.pairwise_append.mp hsorted
    have hbefore : Good policy digest op.1 (run policy capacity digest ops) := by
      refine ih hsorted ?_ fun op' hop' => hle op' hop' op (List.mem_singleton_self op)
      refine hroom.imp_right fun hsize n => ?_
      by_cases hn : n ≤ ops.length
      · simpa [List.take_append_of_le_length hn] using hsize n
      · have hfull := hsize ops.length
        rw [List.take_left] at hfull
        rw [List.take_of_length_le (by omega)]
        exact hfull
    rw [run_append]
    refine (step_good hbefore hsound op.2 (hroom.imp_right fun hsize => ?_)).later
      (hnow op (by simp))
    have hfull := hsize (ops ++ [op]).length
    rwa [List.take_length, run_append] at hfull

/-! ## The cap -/

theorem size_makeRoom_le (policy : Policy) (capacity : Nat) (counters : Counters D) (key : Key D)
    (now : Nat) : size (makeRoom policy capacity counters key now) ≤ size counters := by
  unfold makeRoom
  split
  · exact size_retain_le _ _
  · exact le_refl _

/-- A counter that was asked for is there, and there are no more than the cap. -/
theorem size_counter_le (policy : Policy) (now : Nat) (key : Key D)
    (h : size counters ≤ capacity) (f : Counter → Counter) :
    size (match counter policy capacity counters key now with
      | (counters, some c) => counters.insert key (f c)
      | (counters, none) => counters) ≤ capacity := by
  have hroom := (size_makeRoom_le policy capacity counters key now).trans h
  rcases counter_cases policy capacity counters key now with ⟨-, -, heq⟩ | ⟨hmem, heq⟩
  · rw [heq]
    exact hroom
  · rw [heq]
    simp only [AList.insert_insert]
    rcases hmem with hmem | hlt
    · rw [size_insert_of_mem _ hmem]
      exact hroom
    · exact (size_insert_le _ _ _).trans hlt

variable {c : Counter} {addr : IpAddr} {name : Option String} {refused : Refused}

theorem size_insert_lookup (h : counters.lookup key = some c)
    (c' : Counter) : size (counters.insert key c') = size counters :=
  size_insert_of_mem c' (AList.lookup_isSome.mp (by simp [h]))

theorem size_settleKey_le (h : size counters ≤ capacity) (outcome : Outcome) (held : Key D × Bool) :
    size (settleKey policy capacity outcome now counters held) ≤ capacity := by
  have hgive : size (giveBack counters held) ≤ capacity := by
    unfold giveBack
    split
    · rename_i c _ hc
      rwa [size_insert_lookup hc]
    · exact h
  have houtcome : size (applyOutcome policy capacity outcome now (giveBack counters held) held.1) ≤
      capacity := by
    unfold applyOutcome
    split
    · exact size_counter_le policy now held.1 hgive fun c => c.fail (policy.rule held.1) now
    · split
      · rename_i hc
        rwa [size_insert_lookup hc]
      · exact hgive
    · exact hgive
    · exact hgive
  unfold settleKey tidy
  split
  · exact (size_erase_le _ _).trans houtcome
  · exact houtcome

theorem size_settleIn_le (h : size counters ≤ capacity) (held : List (Key D × Bool))
    (outcome : Outcome) : size (settleIn policy capacity counters held outcome now) ≤ capacity :=
  List.foldlRecOn held _ (motive := fun counters => size counters ≤ capacity) h
    fun _ hsize _ _ => size_settleKey_le hsize outcome _

theorem size_reserveAll_le (h : size counters ≤ capacity)
    (reserved : List (Key D × Bool)) (keys : List (Key D)) :
    size (reserveAll policy capacity now counters reserved keys).1 ≤ capacity := by
  induction keys generalizing counters reserved with
  | nil => exact h
  | cons key rest ih =>
    have hsize := size_counter_le policy now key h Counter.reserve
    unfold reserveAll
    split
    · rename_i heq
      rw [heq] at hsize
      exact ih hsize _
    · rename_i heq
      rw [heq] at hsize
      split
      · exact size_settleIn_le hsize _ _
      · exact ih hsize _

theorem step_reserve_counters (name : Option String) (addr : IpAddr) :
    (step policy capacity digest s now (.reserve name addr)).1.counters =
      (reserveAt policy capacity digest s.counters name addr now).1 := by
  simp only [step]
  rcases reserveAt policy capacity digest s.counters name addr now with ⟨counters, refused | held⟩
  · rfl
  · rfl

theorem size_step_le (h : size s.counters ≤ capacity) (op : Op) :
    size (step policy capacity digest s now op).1.counters ≤ capacity := by
  have hsettle : ∀ n outcome,
      size (settle policy capacity s n outcome now).counters ≤ capacity := by
    intro n outcome
    unfold settle
    split
    · exact h
    · exact size_settleIn_le h _ _
  cases op with
  | settle n outcome => exact hsettle n outcome
  | drop n => exact hsettle n policy.onDrop
  | reserve name addr =>
    rw [step_reserve_counters]
    unfold reserveAt
    dsimp only
    split
    · exact h
    · exact size_reserveAll_le h _ _

theorem size_run_le (policy : Policy) (capacity : Nat) (digest : String → D)
    (ops : List (Nat × Op)) : size (run policy capacity digest ops).counters ≤ capacity :=
  List.foldlRecOn ops _ (motive := fun s : State D => size s.counters ≤ capacity) (Nat.zero_le _)
    fun _ hsize op _ => size_step_le hsize op.2

/-! ## Refusals -/

/-- A counter is as it was, or it is gone and held nothing that still counted. -/
def Spared (rule : Rule) (now : Nat) (before after : Option Counter) : Prop :=
  after = before ∨ after = none ∧ ∃ c, before = some c ∧ c.pending = 0 ∧
    (c.failures = 0 ∨ c.lapsed rule now = true)

theorem Spared.trans {rule : Rule} {now : Nat} {a b c : Option Counter} (hab : Spared rule now a b)
    (hbc : Spared rule now b c) : Spared rule now a c := by
  rcases hbc with rfl | ⟨rfl, x, hb, hx⟩
  · exact hab
  · rcases hab with rfl | ⟨hnone, -⟩
    · exact .inr ⟨rfl, x, hb, hx⟩
    · rw [hnone] at hb
      cases hb

theorem makeRoom_spared (policy : Policy) (capacity : Nat) (counters : Counters D) (key : Key D)
    (now : Nat) (k : Key D) : Spared (policy.rule k) now (counters.lookup k)
      ((makeRoom policy capacity counters key now).lookup k) := by
  rcases lookup_makeRoom policy capacity counters key now k with hsame | ⟨hnone, c, hc, hexpired⟩
  · exact .inl hsame
  · obtain ⟨hpending, hlapsed⟩ : c.pending = 0 ∧ c.lapsed (policy.rule k) now = true := by
      simpa [Counter.expired] using hexpired
    exact .inr ⟨hnone, c, hc, hpending, .inr hlapsed⟩

omit [DecidableEq D] in
theorem keysOf_signUp (digest : String → D) (name : Option String) (addr : IpAddr) :
    keysOf signUp digest name addr = [.address addr 0, .address addr 1] := by
  cases name <;> rfl

/-- A sign-up holds both windows of its address or neither. -/
theorem reserved_both (h : Good signUp digest now s) (addr : IpAddr) :
    s.reserved (.address addr 0) = s.reserved (.address addr 1) := by
  refine List.countP_congr fun held hheld => ?_
  obtain ⟨name, addr', rfl⟩ := h.attempts held hheld
  simp [keysOf_signUp]

theorem settleKey_refunded (h : room.lookup key = some c) :
    settleKey policy capacity .refunded now room (key, true) =
      if c.release.empty then (room.insert key c.release).erase key
      else room.insert key c.release := by
  simp [settleKey, giveBack, applyOutcome, tidy, h]

/-- A key that was reserved and given back is spared, if nothing was in flight
for a counter whose window is over. -/
theorem rollback_spared {before : Option Counter} {room : Counters D}
    (hidle : ∀ c, before = some c → c.lapsed (policy.rule key) now = true → c.pending = 0)
    (hroom : room.lookup key =
      some ((before.getD (.fresh now)).restart (policy.rule key) now).reserve) :
    Spared (policy.rule key) now before
      ((settleKey policy capacity .refunded now room (key, true)).lookup key) := by
  have hafter : ∀ c : Counter, room.lookup key = some c.reserve →
      (settleKey policy capacity .refunded now room (key, true)).lookup key =
        if c.empty then none else some c := by
    intro c hc
    rw [settleKey_refunded room hc]
    show AList.lookup key (if c.empty then _ else _) = _
    split
    · exact AList.lookup_erase _ _
    · exact AList.lookup_insert _
  rw [hafter _ hroom]
  cases before with
  | none =>
    left
    rw [if_pos]
    unfold Counter.restart
    split <;> rfl
  | some c =>
    rw [Option.getD_some]
    by_cases hlapsed : c.lapsed (policy.rule key) now = true
    · have hpending := hidle c rfl hlapsed
      refine .inr ⟨?_, c, rfl, hpending, .inr hlapsed⟩
      simp [Counter.restart, hlapsed, hpending, Counter.fresh, Counter.empty]
    · simp only [Counter.restart, hlapsed]
      by_cases hempty : c.empty = true
      · obtain ⟨⟨hpending, hfailures⟩, -⟩ :
            (c.pending = 0 ∧ c.failures = 0) ∧ c.lockedUntil = none := by
          simpa [Counter.empty] using hempty
        exact .inr ⟨by simp [hempty], c, rfl, hpending, .inl hfailures⟩
      · exact .inl (by simp [hempty])

theorem settleKey_lookup_of_ne {k : Key D} (h : room.lookup key = some c) (hk : k ≠ key) :
    (settleKey policy capacity .refunded now room (key, true)).lookup k = room.lookup k := by
  rw [settleKey_refunded room h]
  split
  · rw [AList.lookup_erase_ne hk, AList.lookup_insert_ne hk]
  · rw [AList.lookup_insert_ne hk]

theorem Good.reserved_of_gone (h : Good policy digest now s) {k : Key D}
    (hspared : Spared (policy.rule k) now (s.counters.lookup k) none) : s.reserved k = 0 := by
  have hkept := h.books k
  rcases hspared with hnone | ⟨-, c, hc, hpending, -⟩
  · exact hkept.absent hnone.symm
  · exact (hkept.pending c hc).symm.trans hpending

/-- The first window was reserved and the second found the counters full. -/
theorem second_full_spared (h : Good signUp digest now s)
    (hc : c = (((makeRoom signUp capacity s.counters (.address addr 0) now).lookup
      (.address addr 0)).getD (.fresh now)).restart (signUp.rule (.address addr 0 : Key D)) now)
    {held room : Counters D} (hheld : held = (makeRoom signUp capacity s.counters (.address addr 0)
      now).insert (.address addr 0) c.reserve)
    (hroom : room = makeRoom signUp capacity held (.address addr 1) now)
    (hfull : .address addr 1 ∉ room) (k : Key D) :
    Spared (signUp.rule k) now (s.counters.lookup k)
      ((settleKey signUp capacity .refunded now room (.address addr 0, true)).lookup k) := by
  have hsecond : ∀ k, Spared (signUp.rule k) now (held.lookup k) (room.lookup k) := by
    intro k
    rw [hroom]
    exact makeRoom_spared ..
  have hfirst := makeRoom_spared signUp capacity s.counters (.address addr 0) now
  have hother : ∀ k, k ≠ .address addr 0 →
      Spared (signUp.rule k) now (s.counters.lookup k) (room.lookup k) := by
    intro k hk
    refine (hfirst k).trans ?_
    have hlookup := hsecond k
    rwa [hheld, AList.lookup_insert_ne hk] at hlookup
  have hlookup : room.lookup (.address addr 0) = some c.reserve := by
    have hin : held.lookup (.address addr 0) = some c.reserve := by
      rw [hheld]
      exact AList.lookup_insert _
    rcases hsecond (.address addr 0) with hsame | ⟨-, c', hc', hpending, -⟩
    · exact hsame.trans hin
    · rw [hin] at hc'
      cases hc'
      cases hpending
  by_cases hk : k = .address addr 0
  · subst hk
    refine (hfirst _).trans (rollback_spared ?_ (hc ▸ hlookup))
    intro c' hc' _
    -- the second window has no counter, so no attempt holds either
    have hgone := hother (.address addr 1) (by simp)
    rw [AList.lookup_eq_none.mpr hfull] at hgone
    have hzero := (reserved_both h addr).trans (h.reserved_of_gone hgone)
    rcases hfirst (.address addr 0) with hsame | ⟨hnone, -⟩
    · exact ((h.books _).pending c' (hsame.symm.trans hc')).trans hzero
    · rw [hnone] at hc'
      cases hc'
  · rw [settleKey_lookup_of_ne room hlookup hk]
    exact hother k hk

theorem refused_spared (h : Good signUp digest now s)
    (hres : reserveAt signUp capacity digest s.counters name addr now = (counters, .error refused))
    (k : Key D) : Spared (signUp.rule k) now (s.counters.lookup k) (counters.lookup k) := by
  unfold reserveAt at hres
  dsimp only at hres
  split at hres
  · cases hres
    exact .inl rfl
  · rw [keysOf_signUp] at hres
    rcases counter_cases signUp capacity s.counters (.address (bucket addr) 0) now with
      ⟨-, -, heq⟩ | ⟨-, heq⟩
    · simp only [reserveAll, heq] at hres
      cases hres
      exact makeRoom_spared ..
    · simp only [reserveAll, heq, AList.insert_insert] at hres
      generalize hheld : AList.insert (Key.address (bucket addr) 0) _
        (makeRoom signUp capacity s.counters (.address (bucket addr) 0) now) = held at hres
      rcases counter_cases signUp capacity held (.address (bucket addr) 1) now with
        ⟨hfull, -, heq'⟩ | ⟨-, heq'⟩
      · simp only [heq'] at hres
        cases hres
        exact second_full_spared h rfl hheld.symm rfl hfull k
      · simp only [heq'] at hres
        cases hres

/-- For want of room only a policy that fails closed refuses. -/
theorem reserveAll_error {reserved : List (Key D × Bool)}
    (h : (reserveAll policy capacity now counters reserved keys).2 = .error refused) :
    refused = .full ∧ policy.failClosed = true := by
  induction keys generalizing counters reserved with
  | nil => cases h
  | cons key rest ih =>
    unfold reserveAll at h
    split at h
    · exact ih h
    · split at h
      · rename_i hclosed
        cases h
        exact ⟨rfl, hclosed⟩
      · exact ih h

/-- An attempt told to wait touched no counter. -/
theorem refused_cases {counters' : Counters D}
    (hres : reserveAt policy capacity digest counters name addr now = (counters', .error refused)) :
    (refused ≠ .full ∧ counters' = counters) ∨ (refused = .full ∧ policy.failClosed = true) := by
  unfold reserveAt at hres
  dsimp only at hres
  split at hres
  · cases hres
    exact .inl ⟨nofun, rfl⟩
  · exact .inr (reserveAll_error (congrArg Prod.snd hres))

/-- The failures counted for `k` from `a` to `b`. -/
def State.failuresIn (s : State D) (k : Key D) (a b : Nat) : Nat :=
  s.counted.countP fun e => e.2 = k ∧ a ≤ e.1 ∧ e.1 ≤ b

theorem failuresIn_eq (s : State D) (k : Key D) (a b : Nat) :
    s.failuresIn k a b = (s.ledger k).counted.countP (fun t => a ≤ t ∧ t ≤ b) := by
  simp only [State.failuresIn, State.ledger, timesOf, List.countP_map, List.countP_filter]
  refine List.countP_congr fun e _ => ?_
  simp [and_comm, and_assoc]

end

/-- The attempt limits over any run of sign-ins or of sign-ups. An attempt told to
wait, as every refused sign-in is, leaves the counters as they were; one refused
because they are full drops no more than counters that held nothing that still
counted. -/
theorem attempts_bounded {D : Type} [DecidableEq D] (digest : String → D) (policy : Policy)
    (hpolicy : policy = signIn ∨ policy = signUp) (capacity : Nat) (ops : List (Nat × Op))
    (hsorted : ops.Pairwise fun a b => a.1 ≤ b.1) :
    size (run policy capacity digest ops).counters ≤ capacity ∧
    ((policy = signUp ∨ ∀ n, size (run policy capacity digest (ops.take n)).counters < capacity) →
      ∀ k, (∀ c, (run policy capacity digest ops).counters.lookup k = some c →
          c.pending = (run policy capacity digest ops).reserved k ∧
          c.failures + c.pending ≤ (policy.rule k).limit) ∧
        ∀ a b, b < a + (policy.rule k).window →
          (∀ t, (t, k) ∈ (run policy capacity digest ops).cleared → ¬ (a ≤ t ∧ t ≤ b)) →
          (run policy capacity digest ops).failuresIn k a b ≤ 2 * (policy.rule k).limit - 1) ∧
    ∀ now name addr refused, (∀ op ∈ ops, op.1 ≤ now) →
      (step policy capacity digest (run policy capacity digest ops) now
        (.reserve name addr)).2 = some refused →
      (refused ≠ .full → (step policy capacity digest (run policy capacity digest ops) now
        (.reserve name addr)).1.counters = (run policy capacity digest ops).counters) ∧
      (refused = .full → policy = signUp ∧
        ∀ k, Spared (policy.rule k) now ((run policy capacity digest ops).counters.lookup k)
          ((step policy capacity digest (run policy capacity digest ops) now
            (.reserve name addr)).1.counters.lookup k)) := by
  have hsound : ∀ k : Key D, (policy.rule k).Sound := by
    rcases hpolicy with rfl | rfl
    · exact signIn_sound
    · exact signUp_sound
  refine ⟨size_run_le policy capacity digest ops, fun hroom k => ?_, ?_⟩
  · obtain ⟨now, hnow⟩ : ∃ now, ∀ op ∈ ops, op.1 ≤ now :=
      ⟨(ops.map Prod.fst).sum, fun op hop => List.le_sum_of_mem (List.mem_map_of_mem hop)⟩
    have hgood : Good policy digest now (run policy capacity digest ops) := by
      refine run_good hsound hsorted (hroom.imp_left ?_) hnow
      intro heq
      rw [heq]
      rfl
    have hkept := hgood.books k
    refine ⟨fun c hc => ⟨hkept.pending c hc, hkept.limit c hc⟩, fun a b hb hclear => ?_⟩
    rw [failuresIn_eq]
    refine hkept.bound a b hb fun t ht => hclear t ?_
    simpa [State.ledger, timesOf] using ht
  · intro now name addr refused hnow hrefused
    rw [step_reserve_counters]
    simp only [step] at hrefused
    rcases hres : reserveAt policy capacity digest (run policy capacity digest ops).counters name
      addr now with ⟨counters, refused' | held⟩
    · rw [hres] at hrefused
      cases hrefused
      obtain ⟨hwait, hsame⟩ | ⟨hfull, hclosed⟩ := refused_cases hres
      · exact ⟨fun _ => hsame, fun hfull => absurd hfull hwait⟩
      · refine ⟨fun hwait => absurd hfull hwait, fun _ => ?_⟩
        rcases hpolicy with rfl | rfl
        · cases hclosed
        · exact ⟨rfl, refused_spared (run_good hsound hsorted (.inl rfl) hnow) hres⟩
    · rw [hres] at hrefused
      cases hrefused

/-- Five failures of one name within a minute, and then a sixth attempt. -/
def fiveFailures : List (Nat × Op) :=
  [(0, .reserve (some "maya") (.v4 1)), (1, .settle 0 .failed),
   (2, .reserve (some "maya") (.v4 1)), (3, .settle 0 .failed),
   (4, .reserve (some "maya") (.v4 1)), (5, .settle 0 .failed),
   (6, .reserve (some "maya") (.v4 1)), (7, .settle 0 .failed),
   (8, .reserve (some "maya") (.v4 1)), (9, .settle 0 .failed)]

theorem attempts_bounded_five :
    size (run signIn 100000 id fiveFailures).counters ≤ 100000 ∧
    (run signIn 100000 id fiveFailures).failuresIn (.pair "maya" (.v4 1)) 0 9 = 5 ∧
    (step signIn 100000 id (run signIn 100000 id fiveFailures) 10
      (.reserve (some "maya") (.v4 1))).1.counters = (run signIn 100000 id fiveFailures).counters :=
  have hall := attempts_bounded id signIn (.inl rfl) 100000 fiveFailures (by decide)
  ⟨hall.1, by decide +kernel, (hall.2.2 10 (some "maya") (.v4 1) (.wait (15 * minute - 1))
    (by decide) (by decide +kernel)).1 nofun⟩

/-- One address signs up and fails, and ten minutes later another one asks, with
room for two counters. -/
def crowded : List (Nat × Op) := [(0, .reserve none (.v4 1)), (0, .settle 0 .failed)]

/-- The second address is refused, and the first one's failure is gone. -/
theorem refused_drops_failure :
    (step signUp 2 id (run signUp 2 id crowded) (10 * minute) (.reserve none (.v4 2))).2 =
        some .full ∧
      ((run signUp 2 id crowded).counters.lookup (.address (.v4 1) 0)).map Counter.failures =
        some 1 ∧
      ((step signUp 2 id (run signUp 2 id crowded) (10 * minute)
        (.reserve none (.v4 2))).1.counters.lookup (.address (.v4 1) 0)).map Counter.failures =
        none := by
  decide +kernel

end Gapura.Control.Throttle
