import Gapura.Control.Throttle

/-! # The books behind the attempt limits

One key at a time first. What is known of a key besides its counter is a ledger:
how many outstanding attempts hold a reservation, and when failures were counted
and successes cleared them. A counter is restarted or dropped only once its
window is over and no lock holds, and reaching the limit locks for as long as a
window; so within less than a window at most one counter is followed by another,
and the first of the two has counted fewer failures than the limit. -/
namespace Gapura.Control.Throttle
open Lib.Tables
open Core.ClientIp (IpAddr)

/-- A lock lasts as long as a window. -/
structure Rule.Sound (rule : Rule) : Prop where
  limit : 0 < rule.limit
  lock : rule.lock = rule.window

/-- What a run knows of a key besides its counter. -/
structure Ledger where
  reserved : Nat
  counted : List Nat
  cleared : List Nat

/-- The most that was counted since `a`, from the counter alone. -/
def carried (rule : Rule) (a : Nat) : Option Counter → Nat
  | none => rule.limit - 1
  | some c => c.failures + if c.since < a then 0 else rule.limit - 1

/-- The books of one key. -/
structure Kept (rule : Rule) (now : Nat) (held : Option Counter) (l : Ledger) : Prop where
  absent : held = none → l.reserved = 0
  pending : ∀ c, held = some c → c.pending = l.reserved
  limit : ∀ c, held = some c → c.failures + c.pending ≤ rule.limit
  locked : ∀ c u, held = some c → c.lockedUntil = some u →
    rule.limit ≤ c.failures ∧ ∀ t ∈ l.counted, t + rule.window ≤ u
  full : ∀ c, held = some c → rule.limit ≤ c.failures → c.lockedUntil ≠ none
  counted : ∀ t ∈ l.counted, t ≤ now
  cleared : ∀ t ∈ l.cleared, t ≤ now
  recent : ∀ a, (∀ t ∈ l.cleared, t < a) → now < a + rule.window →
    l.counted.countP (a ≤ ·) ≤ carried rule a held
  bound : ∀ a b, b < a + rule.window → (∀ t ∈ l.cleared, ¬ (a ≤ t ∧ t ≤ b)) →
    l.counted.countP (fun t => a ≤ t ∧ t ≤ b) ≤ 2 * rule.limit - 1

namespace Kept
variable {rule : Rule} {now : Nat} {held : Option Counter} {c : Counter} {l : Ledger}

theorem empty (rule : Rule) (now : Nat) : Kept rule now none ⟨0, [], []⟩ where
  absent _ := rfl
  pending _ h := nomatch h
  limit _ h := nomatch h
  locked _ _ h := nomatch h
  full _ h := nomatch h
  counted _ h := nomatch h
  cleared _ h := nomatch h
  recent _ _ _ := Nat.zero_le _
  bound _ _ _ _ := Nat.zero_le _

theorem later (h : Kept rule now held l) {now' : Nat} (hle : now ≤ now') : Kept rule now' held l :=
  { h with
    counted := fun t ht => (h.counted t ht).trans hle
    cleared := fun t ht => (h.cleared t ht).trans hle
    recent := fun a ha hnow => h.recent a ha (hle.trans_lt hnow) }

variable {a : Nat}

theorem countP_eq_zero (h : Kept rule now held l) (ha : now < a) : l.counted.countP (a ≤ ·) = 0 := by
  rw [List.countP_eq_zero]
  intro t ht
  have hle := h.counted t ht
  simp only [decide_eq_true_eq]
  omega

theorem locked_eq_none {c : Counter} {now : Nat} (h : c.locked now = none) {u : Nat}
    (hu : c.lockedUntil = some u) : u ≤ now := by
  by_contra hlt
  have hlt : now < u := Nat.lt_of_not_le hlt
  simp [Counter.locked, hu, Option.filter, hlt] at h

theorem lapsed_iff {c : Counter} {rule : Rule} {now : Nat} :
    c.lapsed rule now = true ↔ c.locked now = none ∧ c.since + rule.window ≤ now := by
  simp [Counter.lapsed]

/-- A window that is over counted fewer failures than the limit within reach:
had it counted them all, it would still be locked. -/
theorem recent_of_lapsed (h : Kept rule now (some c) l) (hlimit : 0 < rule.limit)
    (hlapsed : c.lapsed rule now = true) (ha : ∀ t ∈ l.cleared, t < a)
    (hnow : now < a + rule.window) : l.counted.countP (a ≤ ·) ≤ rule.limit - 1 := by
  obtain ⟨hlock, hwindow⟩ := lapsed_iff.mp hlapsed
  have hrecent := h.recent a ha hnow
  have hsince : c.since < a := by omega
  simp only [carried, if_pos hsince] at hrecent
  by_cases hfull : rule.limit ≤ c.failures
  · obtain ⟨u, hu⟩ := Option.ne_none_iff_exists'.mp (h.full c rfl hfull)
    have hpast := locked_eq_none hlock hu
    have hzero : l.counted.countP (a ≤ ·) = 0 := by
      rw [List.countP_eq_zero]
      intro t ht
      have hle := (h.locked c u rfl hu).2 t ht
      simp only [decide_eq_true_eq]
      omega
    omega
  · omega

/-- Another counter takes the place of one that counts nothing any more. -/
theorem fresh_of (h : Kept rule now held l) (hlimit : 0 < rule.limit)
    (hrecent : ∀ a, (∀ t ∈ l.cleared, t < a) → now < a + rule.window →
      l.counted.countP (a ≤ ·) ≤ rule.limit - 1) (hle : l.reserved ≤ rule.limit) :
    Kept rule now (some { Counter.fresh now with pending := l.reserved }) l :=
  { h with
    absent := fun hn => nomatch hn
    pending := fun c hc => by
      cases hc
      rfl
    limit := fun c hc => by
      cases hc
      simpa [Counter.fresh] using hle
    locked := fun c u hc hu => by
      cases hc
      cases hu
    full := fun c hc hfull => by
      cases hc
      simp only [Counter.fresh] at hfull
      omega
    recent := fun a ha hnow => by
      show _ ≤ 0 + if now < a then 0 else rule.limit - 1
      by_cases hlt : now < a
      · simp [h.countP_eq_zero hlt]
      · simpa [hlt] using hrecent a ha hnow }

theorem drop_of (h : Kept rule now (some c) l) (hpending : c.pending = 0)
    (hrecent : ∀ a, (∀ t ∈ l.cleared, t < a) → now < a + rule.window →
      l.counted.countP (a ≤ ·) ≤ rule.limit - 1) : Kept rule now none l :=
  { h with
    absent := fun _ => (h.pending c rfl).symm.trans hpending
    pending := fun _ hc => nomatch hc
    limit := fun _ hc => nomatch hc
    locked := fun _ _ hc => nomatch hc
    full := fun _ hc => nomatch hc
    recent := hrecent }

theorem evict (h : Kept rule now (some c) l) (hlimit : 0 < rule.limit)
    (hexpired : c.expired rule now = true) : Kept rule now none l := by
  obtain ⟨hpending, hlapsed⟩ : c.pending = 0 ∧ c.lapsed rule now = true := by
    simpa [Counter.expired] using hexpired
  exact h.drop_of hpending fun a ha hnow => h.recent_of_lapsed hlimit hlapsed ha hnow

/-- A counter that is left empty is dropped. -/
theorem discard (h : Kept rule now (some c) l) (hempty : c.empty = true) :
    Kept rule now none l := by
  obtain ⟨⟨hpending, hfailures⟩, -⟩ : (c.pending = 0 ∧ c.failures = 0) ∧ c.lockedUntil = none := by
    simpa [Counter.empty] using hempty
  refine h.drop_of hpending fun a ha hnow => (h.recent a ha hnow).trans ?_
  simp only [carried, hfailures]
  split <;> omega

/-- The counter an attempt finds, or the one made for it. -/
theorem restart (h : Kept rule now held l) (hlimit : 0 < rule.limit) :
    Kept rule now (some ((held.getD (.fresh now)).restart rule now)) l := by
  cases held with
  | none =>
    have hzero := h.absent rfl
    have hfresh := h.fresh_of hlimit h.recent (by omega)
    rw [hzero] at hfresh
    have hsame : (Counter.fresh now).restart rule now = Counter.fresh now := by
      unfold Counter.restart
      split <;> rfl
    rw [Option.getD_none, hsame]
    exact hfresh
  | some c =>
    rw [Option.getD_some]
    unfold Counter.restart
    split
    · rename_i hlapsed
      have hpending := h.pending c rfl
      have hle := h.limit c rfl
      rw [hpending]
      exact h.fresh_of hlimit (fun a ha hnow => h.recent_of_lapsed hlimit hlapsed ha hnow)
        (by omega)
    · exact h

section
variable (h : Kept rule now (some c) l)

include h

/-- The same failures, with another number of reservations. -/
theorem rebook {n : Nat} (hle : c.failures + n ≤ rule.limit) :
    Kept rule now (some { c with pending := n }) { l with reserved := n } :=
  { h with
    absent := fun hn => nomatch hn
    pending := fun c' hc => by
      cases hc
      rfl
    limit := fun c' hc => by
      cases hc
      exact hle
    locked := fun c' u hc hu => by
      cases hc
      exact h.locked c u rfl hu
    full := fun c' hc hfull => by
      cases hc
      exact h.full c rfl hfull }

theorem reserve (hroom : c.failures + c.pending < rule.limit) :
    Kept rule now (some c.reserve) { l with reserved := l.reserved + 1 } := by
  have hbook := h.rebook (n := c.pending + 1) (by omega)
  rw [h.pending c rfl] at hbook
  unfold Counter.reserve
  rw [h.pending c rfl]
  exact hbook

theorem release : Kept rule now (some c.release) { l with reserved := l.reserved - 1 } := by
  have hle := h.limit c rfl
  have hbook := h.rebook (n := c.pending - 1) (by omega)
  rw [h.pending c rfl] at hbook
  unfold Counter.release
  rw [h.pending c rfl]
  exact hbook

theorem clear (hlimit : 0 < rule.limit) :
    Kept rule now (some c.clear) { l with cleared := now :: l.cleared } :=
  { h with
    absent := fun hn => nomatch hn
    pending := fun c' hc => by
      cases hc
      exact h.pending c rfl
    limit := fun c' hc => by
      cases hc
      have hle := h.limit c rfl
      simp only [Counter.clear]
      omega
    locked := fun c' u hc hu => by
      cases hc
      cases hu
    full := fun c' hc hfull => by
      cases hc
      simp only [Counter.clear] at hfull
      omega
    cleared := fun t ht => by
      rcases List.mem_cons.mp ht with rfl | ht
      · exact le_refl _
      · exact h.cleared t ht
    recent := fun a ha _ => by
      simp [h.countP_eq_zero (ha now List.mem_cons_self)]
    bound := fun a b hb ha => h.bound a b hb fun t ht => ha t (List.mem_cons_of_mem _ ht) }

theorem fail_eq (hroom : c.failures < rule.limit) :
    c.fail rule now = { c with
      failures := c.failures + 1
      lockedUntil := if rule.limit ≤ c.failures + 1 then some (now + rule.lock) else none } := by
  have hunlocked : c.lockedUntil = none := by
    cases hu : c.lockedUntil with
    | none => rfl
    | some u =>
      have hle := (h.locked c u rfl hu).1
      omega
  unfold Counter.fail
  by_cases hfull : rule.limit ≤ c.failures + 1
  · simp [hfull, Counter.locked, hunlocked]
  · simp [hfull, hunlocked]

theorem recent_cons (ha : ∀ t ∈ l.cleared, t < a) (hnow : now < a + rule.window) :
    (now :: l.counted).countP (a ≤ ·) ≤
      c.failures + 1 + if c.since < a then 0 else rule.limit - 1 := by
  have hold := h.recent a ha hnow
  rw [List.countP_cons]
  simp only [carried] at hold
  split <;> omega

theorem bound_cons (hsound : rule.Sound) (hroom : c.failures < rule.limit) {b : Nat}
    (hb : b < a + rule.window) (ha : ∀ t ∈ l.cleared, ¬ (a ≤ t ∧ t ≤ b)) :
    (now :: l.counted).countP (fun t => a ≤ t ∧ t ≤ b) ≤ 2 * rule.limit - 1 := by
  -- an interval that holds `now` holds all that was counted since `a`
  by_cases hin : a ≤ now ∧ now ≤ b
  · have hclear : ∀ t ∈ l.cleared, t < a := by
      intro t ht
      have hle := h.cleared t ht
      by_contra hge
      exact ha t ht ⟨by omega, by omega⟩
    have hmono : (now :: l.counted).countP (fun t => a ≤ t ∧ t ≤ b) ≤
        (now :: l.counted).countP (a ≤ ·) := by
      refine List.countP_mono_left fun t _ ht => ?_
      simp only [Bool.decide_and, Bool.and_eq_true, decide_eq_true_eq] at ht ⊢
      exact ht.1
    have hle := h.recent_cons hclear (by omega)
    have hsplit : (if c.since < a then 0 else rule.limit - 1) ≤ rule.limit - 1 := by
      split <;> omega
    have hlimit := hsound.limit
    omega
  · rw [List.countP_cons, if_neg (by simpa using hin)]
    exact h.bound a b hb ha

/-- A failure is counted. -/
theorem fail (hsound : rule.Sound) (hroom : c.failures + c.pending < rule.limit) :
    Kept rule now (some (c.fail rule now)) { l with counted := now :: l.counted } := by
  rw [h.fail_eq (by omega)]
  have hcounted : ∀ t ∈ now :: l.counted, t ≤ now := by
    intro t ht
    rcases List.mem_cons.mp ht with rfl | ht
    · exact le_refl _
    · exact h.counted t ht
  exact
    { absent := fun hn => nomatch hn
      pending := fun c' hc => by
        cases hc
        exact h.pending c rfl
      limit := fun c' hc => by
        cases hc
        simp only
        omega
      locked := fun c' u hc hu => by
        cases hc
        simp only at hu
        split at hu
        · rename_i hfull
          cases hu
          refine ⟨hfull, fun t ht => ?_⟩
          have hle := hcounted t ht
          rw [hsound.lock]
          omega
        · cases hu
      full := fun c' hc hfull => by
        cases hc
        simp only at hfull
        simp [hfull]
      counted := hcounted
      cleared := h.cleared
      recent := fun a ha hnow => h.recent_cons ha hnow
      bound := fun a b hb ha => h.bound_cons hsound (by omega) hb ha }

end

end Kept

/-! ## All keys -/

section
variable {D : Type} [DecidableEq D] {policy : Policy} {capacity now : Nat}
  {counters : Counters D} {ledger : Key D → Ledger} {key : Key D}

def Books (policy : Policy) (now : Nat) (counters : Counters D) (ledger : Key D → Ledger) : Prop :=
  ∀ k, Kept (policy.rule k) now (counters.lookup k) (ledger k)

theorem Books.insert (h : Books policy now counters ledger) {c : Counter} {l : Ledger}
    (hkept : Kept (policy.rule key) now (some c) l) :
    Books policy now (counters.insert key c) (Function.update ledger key l) := by
  intro k
  by_cases hk : k = key
  · subst hk
    rw [AList.lookup_insert, Function.update_self]
    exact hkept
  · rw [AList.lookup_insert_ne hk, Function.update_of_ne hk]
    exact h k

theorem Books.tidy (h : Books policy now counters ledger) (key : Key D) :
    Books policy now (tidy counters key) ledger := by
  unfold Throttle.tidy
  split
  · rename_i hempty
    intro k
    by_cases hk : k = key
    · subst hk
      have hkept := h k
      rw [AList.lookup_erase]
      cases hc : counters.lookup k with
      | none => simp [hc] at hempty
      | some c =>
        rw [hc] at hkept
        exact hkept.discard (by simpa [hc] using hempty)
    · rw [AList.lookup_erase_ne hk]
      exact h k
  · exact h

/-- Making room drops expired counters and changes no other. -/
theorem lookup_makeRoom (policy : Policy) (capacity : Nat) (counters : Counters D) (key : Key D)
    (now : Nat) (k : Key D) :
    (makeRoom policy capacity counters key now).lookup k = counters.lookup k ∨
      (makeRoom policy capacity counters key now).lookup k = none ∧
        ∃ c, counters.lookup k = some c ∧ c.expired (policy.rule k) now = true := by
  unfold makeRoom
  split
  · rw [lookup_retain]
    cases hc : counters.lookup k with
    | none => exact .inl rfl
    | some c =>
      by_cases hexpired : c.expired (policy.rule k) now = true
      · exact .inr ⟨by simp [Option.filter, hexpired], c, rfl, hexpired⟩
      · exact .inl (by simp [Option.filter, hexpired])
  · exact .inl rfl

theorem makeRoom_of_mem (h : key ∈ counters) :
    makeRoom policy capacity counters key now = counters :=
  if_neg fun hn => hn.1 h

theorem Books.makeRoom (capacity : Nat) (h : Books policy now counters ledger)
    (hsound : ∀ k : Key D, (policy.rule k).Sound) (key : Key D) :
    Books policy now (makeRoom policy capacity counters key now) ledger := by
  intro k
  rcases lookup_makeRoom policy capacity counters key now k with hsame | ⟨hnone, c, hc, hexpired⟩
  · rw [hsame]
    exact h k
  · have hkept := h k
    rw [hc] at hkept
    rw [hnone]
    exact hkept.evict (hsound k).limit hexpired

/-- The two ways to ask for a counter. -/
theorem counter_cases (policy : Policy) (capacity : Nat) (counters : Counters D) (key : Key D)
    (now : Nat) :
    let room := makeRoom policy capacity counters key now
    let c := ((room.lookup key).getD (.fresh now)).restart (policy.rule key) now
    key ∉ room ∧ capacity ≤ size room ∧ counter policy capacity counters key now = (room, none) ∨
      (key ∈ room ∨ size room < capacity) ∧
        counter policy capacity counters key now = (room.insert key c, some c) := by
  intro room c
  by_cases h : key ∉ room ∧ capacity ≤ size room
  · exact .inl ⟨h.1, h.2, if_pos h⟩
  · refine .inr ⟨?_, if_neg h⟩
    by_cases hmem : key ∈ room
    · exact .inl hmem
    · exact .inr (Nat.lt_of_not_le fun hle => h ⟨hmem, hle⟩)

theorem counter_of_lookup {c : Counter} (h : counters.lookup key = some c) :
    counter policy capacity counters key now =
      (counters.insert key (c.restart (policy.rule key) now),
        some (c.restart (policy.rule key) now)) := by
  have hmem : key ∈ counters := AList.lookup_isSome.mp (by simp [h])
  have hroom := counter_cases policy capacity counters key now
  simp only [makeRoom_of_mem hmem, h, Option.getD_some] at hroom
  rcases hroom with ⟨hnot, -⟩ | ⟨-, heq⟩
  · exact absurd hmem hnot
  · exact heq

/-! ### Settling -/

/-- The ledger of a key once a reservation is settled. -/
def settled (outcome : Outcome) (now : Nat) (key : Key D) (l : Ledger) : Ledger where
  reserved := l.reserved - 1
  counted := if outcome = .failed then now :: l.counted else l.counted
  cleared := if outcome = .succeeded ∧ key.isPair = true then now :: l.cleared else l.cleared

theorem restart_room {c : Counter} {rule : Rule} {now : Nat}
    (h : c.failures + c.pending < rule.limit) :
    (c.restart rule now).failures + (c.restart rule now).pending < rule.limit := by
  unfold Counter.restart
  split
  · simp only [Counter.fresh]
    omega
  · exact h

theorem Books.settleKey (capacity : Nat) (h : Books policy now counters ledger)
    (hsound : ∀ k : Key D, (policy.rule k).Sound) (outcome : Outcome)
    (hreserved : 0 < (ledger key).reserved) :
    Books policy now (settleKey policy capacity outcome now counters (key, true))
      (Function.update ledger key (settled outcome now key (ledger key))) ∧
    counts policy capacity outcome now counters (key, true) = (outcome == .failed) := by
  have hkept := h key
  cases hc : counters.lookup key with
  | none =>
    rw [hc] at hkept
    have hzero := hkept.absent rfl
    omega
  | some c =>
    rw [hc] at hkept
    have hroom : c.release.failures + c.release.pending < (policy.rule key).limit := by
      have hle := hkept.limit c rfl
      have hpending := hkept.pending c rfl
      simp only [Counter.release]
      omega
    have hgive : giveBack counters (key, true) = counters.insert key c.release := by
      simp [giveBack, hc]
    have hrelease := hkept.release
    have hlookup : (counters.insert key c.release).lookup key = some c.release :=
      AList.lookup_insert _
    refine ⟨Books.tidy ?_ key, ?_⟩
    · rw [hgive]
      cases outcome with
      | failed =>
        have hfail := (hrelease.restart (hsound key).limit).fail (hsound key)
          (by simpa using restart_room hroom)
        simpa [applyOutcome, counter_of_lookup hlookup, settled] using h.insert hfail
      | refunded =>
        simpa [applyOutcome, settled] using h.insert hrelease
      | succeeded =>
        cases key with
        | pair name addr =>
          have hclear := hrelease.clear (hsound _).limit
          simpa [applyOutcome, hlookup, settled, Key.isPair] using h.insert hclear
        | address addr window => simpa [applyOutcome, settled, Key.isPair] using h.insert hrelease
    · rw [counts, hgive, counter_of_lookup hlookup]
      simp

variable {keys : List (Key D)}

theorem Books.settleIn (capacity : Nat) (h : Books policy now counters ledger)
    (hsound : ∀ k : Key D, (policy.rule k).Sound) (outcome : Outcome)
    (hnodup : keys.Nodup) (hreserved : ∀ k ∈ keys, 0 < (ledger k).reserved) :
    Books policy now (settleIn policy capacity counters (keys.map (·, true)) outcome now)
      (fun k => if k ∈ keys then settled outcome now k (ledger k) else ledger k) ∧
    countedIn policy capacity outcome now counters (keys.map (·, true)) =
      if outcome = .failed then keys else [] := by
  induction keys generalizing counters ledger with
  | nil => exact ⟨by simpa [Throttle.settleIn] using h, by simp [countedIn]⟩
  | cons key rest ih =>
    obtain ⟨hkey, hnodup⟩ := List.nodup_cons.mp hnodup
    obtain ⟨hbooks, hcounts⟩ :=
      h.settleKey capacity hsound outcome (hreserved key List.mem_cons_self)
    have hne : ∀ k ∈ rest, k ≠ key := fun k hk heq => hkey (heq ▸ hk)
    obtain ⟨hall, hcounted⟩ := ih hbooks hnodup fun k hk => by
      rw [Function.update_of_ne (hne k hk)]
      exact hreserved k (List.mem_cons_of_mem key hk)
    refine ⟨fun k => ?_, ?_⟩
    · have hk := hall k
      by_cases heq : k = key
      · subst heq
        simpa [Throttle.settleIn, hkey] using hk
      · simpa [Throttle.settleIn, heq, Function.update_of_ne heq] using hk
    · simp only [List.map_cons, countedIn, hcounts, hcounted]
      cases outcome <;> simp

/-! ### Reserving -/

def booked (l : Ledger) : Ledger := { l with reserved := l.reserved + 1 }

theorem restart_room_of_wait {c : Counter} {rule : Rule} {now : Nat} (h : c.wait rule now = none) :
    (c.restart rule now).failures + (c.restart rule now).pending < rule.limit := by
  cases hlocked : c.locked now with
  | some w => simp [Counter.wait, hlocked] at h
  | none =>
    by_cases hlapsed : c.lapsed rule now = true
    · simpa [Counter.wait, Counter.restart, Counter.fresh, hlocked, hlapsed] using h
    · simpa [Counter.wait, Counter.restart, hlocked, hlapsed] using h

/-- A counter that asks nobody to wait, or a new one, has room for one more. -/
theorem room_of_wait {rule : Rule} (hsound : rule.Sound) {now : Nat} {held : Option Counter}
    (h : ∀ c, held = some c → c.wait rule now = none) :
    ((held.getD (.fresh now)).restart rule now).failures +
      ((held.getD (.fresh now)).restart rule now).pending < rule.limit := by
  cases held with
  | none =>
    have hlimit := hsound.limit
    exact restart_room (by simpa [Counter.fresh] using hlimit)
  | some c => exact restart_room_of_wait (h c rfl)

/-- None of the keys has to wait. -/
def Open (policy : Policy) (now : Nat) (counters : Counters D) (keys : List (Key D)) : Prop :=
  ∀ k ∈ keys, ∀ c, counters.lookup k = some c → c.wait (policy.rule k) now = none

theorem Open.makeRoom (h : Open policy now counters keys) (key : Key D) :
    Open policy now (makeRoom policy capacity counters key now) keys := by
  intro k hk c hc
  rcases lookup_makeRoom policy capacity counters key now k with hsame | ⟨hnone, -⟩
  · exact h k hk c (hsame ▸ hc)
  · rw [hnone] at hc
    cases hc

/-- The counters are full of entries worth keeping. -/
structure Full (policy : Policy) (capacity now : Nat) (counters : Counters D) : Prop where
  size : capacity ≤ size counters
  kept : ∀ k c, counters.lookup k = some c → c.expired (policy.rule k) now = false

theorem full_of_counter_none (h : (counter policy capacity counters key now).2 = none) :
    Full policy capacity now (counter policy capacity counters key now).1 := by
  rcases counter_cases policy capacity counters key now with ⟨hnot, hsize, heq⟩ | ⟨-, heq⟩
  · rw [heq]
    refine ⟨hsize, fun k c hc => ?_⟩
    have hmade : key ∉ counters ∧ capacity ≤ size counters := by
      by_contra hroom
      have hsame : makeRoom policy capacity counters key now = counters := if_neg hroom
      rw [hsame] at hnot hsize
      exact hroom ⟨hnot, hsize⟩
    simp only [Throttle.makeRoom, if_pos hmade, lookup_retain, Option.filter_eq_some_iff] at hc
    simpa using hc.2
  · rw [heq] at h
    cases h

/-- Once full, a policy that fails open leaves them full. -/
theorem Full.reserveAll (h : Full policy capacity now counters) (hopen : policy.failClosed = false)
    (reserved : List (Key D × Bool)) (keys : List (Key D)) :
    ∃ counters' held,
      reserveAll policy capacity now counters reserved keys = (counters', .ok held) ∧
      Full policy capacity now counters' := by
  induction keys generalizing counters reserved with
  | nil => exact ⟨counters, reserved, rfl, h⟩
  | cons key rest ih =>
    have hroom : makeRoom policy capacity counters key now = counters := by
      unfold Throttle.makeRoom
      split
      · exact retain_of_forall fun k c hc => by simp [h.kept k c hc]
      · rfl
    rcases counter_cases policy capacity counters key now with ⟨-, -, heq⟩ | ⟨hmem, heq⟩
    · rw [hroom] at heq
      simp only [Throttle.reserveAll, heq, hopen]
      exact ih h _
    · rw [hroom] at heq hmem
      simp only [Throttle.reserveAll, heq]
      refine ih ⟨?_, fun k c hc => ?_⟩ _
      · have hin : key ∈ counters := hmem.resolve_right (Nat.not_lt.mpr h.size)
        rw [AList.insert_insert, size_insert_of_mem _ hin]
        exact h.size
      · rw [AList.insert_insert] at hc
        by_cases hk : k = key
        · subst hk
          rw [AList.lookup_insert] at hc
          cases hc
          simp [Counter.expired, Counter.reserve]
        · rw [AList.lookup_insert_ne hk] at hc
          exact h.kept k c hc

/-- What reserving the keys of an attempt comes to: all of them are held, or the
counters were full and nothing is. -/
inductive Reserves (policy : Policy) (capacity now : Nat) (ledger : Key D → Ledger)
    (before keys : List (Key D)) : Counters D × Except Refused (List (Key D × Bool)) → Prop
  | all {counters : Counters D}
      (books : Books policy now counters fun k =>
        if k ∈ keys then booked (ledger k) else ledger k) :
      Reserves policy capacity now ledger before keys
        (counters, .ok ((before ++ keys).map (·, true)))
  | uncounted {counters : Counters D} {held : List (Key D × Bool)}
      (hopen : policy.failClosed = false) (full : capacity ≤ size counters) :
      Reserves policy capacity now ledger before keys (counters, .ok held)
  | refused {counters : Counters D} (hclosed : policy.failClosed = true)
      (books : Books policy now counters fun k =>
        if k ∈ before then settled .refunded now k (ledger k) else ledger k) :
      Reserves policy capacity now ledger before keys (counters, .error .full)

theorem Reserves.cons {before rest : List (Key D)} (hbefore : key ∉ before) (hrest : key ∉ rest)
    {r : Counters D × Except Refused (List (Key D × Bool))}
    (h : Reserves policy capacity now (Function.update ledger key (booked (ledger key)))
      (before ++ [key]) rest r) :
    Reserves policy capacity now ledger before (key :: rest) r := by
  cases h with
  | all books =>
    rw [List.append_assoc]
    refine .all fun k => ?_
    have hk := books k
    by_cases heq : k = key
    · subst heq
      simpa [hrest] using hk
    · simpa [heq, Function.update_of_ne heq] using hk
  | uncounted hopen full => exact .uncounted hopen full
  | refused hclosed books =>
    refine .refused hclosed fun k => ?_
    have hk := books k
    by_cases heq : k = key
    · subst heq
      simpa [hbefore, settled, booked] using hk
    · simpa [heq, Function.update_of_ne heq] using hk

theorem Books.reserveAll (capacity : Nat) (h : Books policy now counters ledger)
    (hsound : ∀ k : Key D, (policy.rule k).Sound) {before : List (Key D)}
    (hnodup : (before ++ keys).Nodup) (hbefore : ∀ k ∈ before, 0 < (ledger k).reserved)
    (hwait : Open policy now counters keys) :
    Reserves policy capacity now ledger before keys
      (reserveAll policy capacity now counters (before.map (·, true)) keys) := by
  induction keys generalizing counters ledger before with
  | nil =>
    have hall : Reserves policy capacity now ledger before []
        (counters, .ok ((before ++ []).map (·, true))) := .all (by simpa using h)
    simpa [Throttle.reserveAll] using hall
  | cons key rest ih =>
    have hroom := h.makeRoom capacity hsound key
    rcases counter_cases policy capacity counters key now with ⟨-, -, heq⟩ | ⟨-, heq⟩
    · have hfull := full_of_counter_none (D := D) (by rw [heq] :
        (counter policy capacity counters key now).2 = none)
      rw [heq] at hfull
      simp only [Throttle.reserveAll, heq]
      split
      · rename_i hclosed
        exact .refused hclosed (hroom.settleIn capacity hsound .refunded
          (List.nodup_append.mp hnodup).1 hbefore).1
      · rename_i hopen
        have hopen : policy.failClosed = false := by simpa using hopen
        obtain ⟨counters', held, hres, hfull'⟩ :=
          hfull.reserveAll hopen (before.map (·, true) ++ [(key, false)]) rest
        rw [hres]
        exact .uncounted hopen hfull'.size
    · have hroomy : ∀ c, (Throttle.makeRoom policy capacity counters key now).lookup key = some c →
          c.wait (policy.rule key) now = none :=
        (hwait.makeRoom key) key List.mem_cons_self
      have hlt := room_of_wait (hsound key) hroomy
      have hbooks := hroom.insert (((hroom key).restart (hsound key).limit).reserve hlt)
      have hsplit := List.nodup_append.mp hnodup
      have hkeyBefore : key ∉ before := fun hmem =>
        hsplit.2.2 key hmem key List.mem_cons_self rfl
      have hkeyRest : key ∉ rest := (List.nodup_cons.mp hsplit.2.1).1
      simp only [Throttle.reserveAll, heq, AList.insert_insert]
      have hmap : before.map (·, true) ++ [(key, true)] = (before ++ [key]).map (·, true) := by simp
      rw [hmap]
      refine Reserves.cons hkeyBefore hkeyRest (ih hbooks ?_ ?_ ?_)
      · simpa using hnodup
      · intro k hk
        by_cases heq : k = key
        · subst heq
          simp
        · rw [Function.update_of_ne heq]
          exact hbefore k (by simpa [heq] using hk)
      · intro k hk c hc
        have hne : k ≠ key := fun heq => hkeyRest (heq ▸ hk)
        rw [AList.lookup_insert_ne hne] at hc
        exact (hwait.makeRoom key) k (List.mem_cons_of_mem key hk) c hc

end

end Gapura.Control.Throttle
