import Gapura.Proxy.RateCounter

/-! # When a refused request may come back

A refusal names the whole seconds left of the window, rounded down. A client that
waits as long as it was told is in the next window only if the milliseconds left
were a whole number of seconds, or less than one. -/
namespace Gapura.Proxy.RateCounter
open Gapura.Core Core.ClientIp Proxy.RateLimit

theorem forgets_charge (t : Table) (window : String) (client : Client) (ip : Option IpAddr)
    (nowMs : Nat) : Forgets nowMs t (charge t window client ip nowMs).2 := by
  cases client with
  | ip addr => exact .refl nowMs t
  | consumer id => exact .refl nowMs t
  | header short =>
    simp only [charge]
    split
    · exact .refl nowMs t
    · generalize hdue : (decide (headerWindowCap ≤ t.held window) &&
        (decide (nowMs < t.sweptMs) ||
          decide (min (t.sweptMs + cappedSweepMs) (2 ^ 64 - 1) ≤ nowMs))) = due
      have hforgets := forgets_swept nowMs t due
      generalize (if due = true then t.sweep nowMs else t) = t' at hforgets
      split
      · exact hforgets
      · exact ⟨hforgets.kept, hforgets.held⟩

theorem forgets_charged (t : Table) (c : Call) : Forgets c.nowMs t (charged t c).2 :=
  (forgets_ready t c.nowMs).trans (forgets_charge _ _ _ _ _)

/-- A refusal leaves the spent window of its key in the table. -/
structure Refused (t : Table) (c : Call) (key : String × Client) (secs : Nat) (w : Window) :
    Prop where
  charged : (record t c).key = some key
  told : secs = max ((c.endsMs - c.nowMs) / 1000) 1
  held : (check t c).2.windows.lookup key = some w
  ends : w.endsMs = c.endsMs
  spent : c.rl.limit ≤ w.count

variable {c : Call} {secs : Nat} {t : Table} {key : String × Client} {w : Window}

theorem refused_of_limited {limit : Nat}
    (h : (check t c).1 = .limited limit secs) : ∃ key w, Refused t c key secs w := by
  cases hclient : (charged t c).1 with
  | none =>
    rw [check_none hclient] at h
    cases h
  | some client =>
    have hcheck := check_some hclient
    rw [hcheck, count_eq] at h
    simp only [answer] at h
    split at h
    · cases h
    · rename_i hspent
      refine ⟨(c.window, client), windowAt (charged t c).2 (c.window, client) c.endsMs, ?_, ?_, ?_,
        windowAt_endsMs _ _ _, by omega⟩
      · simp [record, hclient]
      · exact ((Outcome.limited.injEq _ _ _ _).mp h).2.symm
      · rw [hcheck, count_eq, put_windows, AList.lookup_insert]
        simp only [counted, if_neg hspent]

/-- The table holds no window of the key but `w`. -/
def OnlyAt (t : Table) (key : String × Client) (w : Window) : Prop :=
  ∀ w', t.windows.lookup key = some w' → w' = w

theorem OnlyAt.forgets {t' : Table} {nowMs : Nat}
    (h : OnlyAt t key w) (hforgets : Forgets nowMs t t') : OnlyAt t' key w :=
  fun w' hw' => h w' (hforgets.held key w' hw')

/-- A check of another key leaves this one's window alone. -/
theorem OnlyAt.check (h : OnlyAt t key w) (hkey : (record t c).key ≠ some key) : OnlyAt
    (check t c).2 key w := by
  have hcharged := h.forgets (forgets_charged t c)
  cases hclient : (charged t c).1 with
  | none =>
    rw [check_none hclient]
    exact hcharged
  | some client =>
    have hne : key ≠ (c.window, client) := by
      intro heq
      exact hkey (by simp [record, hclient, heq])
    rw [check_some hclient, count_eq]
    intro w' hw'
    rw [put_windows, AList.lookup_insert_ne hne] at hw'
    exact hcharged w' hw'

theorem OnlyAt.run (h : OnlyAt t key w) {calls : List Call}
    (hkeys : ∀ r ∈ recordsFrom t calls, r.key ≠ some key) : OnlyAt (after t calls) key w := by
  induction calls generalizing t with
  | nil => exact h
  | cons c rest ih =>
    have hfirst := hkeys (record t c) List.mem_cons_self
    exact ih (h.check hfirst) fun r hr => hkeys r (List.mem_cons_of_mem _ hr)

/-- Once the window has ended, a call charged to its key is let through. -/
theorem allowed_after_end (h : OnlyAt t key w) (hkey : (record t c).key = some key)
    (hlimit : 1 ≤ c.rl.limit) (hended : w.endsMs ≤ c.nowMs) : (check t c).1 = .allowed := by
  cases hclient : (charged t c).1 with
  | none => rw [check_none hclient]
  | some client =>
    obtain rfl : (c.window, client) = key := by simpa [record, hclient] using hkey
    have hfresh : windowAt (charged t c).2 (c.window, client) c.endsMs = ⟨c.endsMs, 0⟩ := by
      have hlater : c.nowMs < c.endsMs := lt_endsAt c.rl c.nowMs
      unfold windowAt
      cases hlookup : (charged t c).2.windows.lookup (c.window, client) with
      | none => simp
      | some w' =>
        obtain rfl := h.forgets (forgets_charged t c) w' hlookup
        exact if_neg (by simp only [Option.getD_some]; omega)
    rw [check_some hclient, count_eq, hfresh]
    exact if_pos hlimit

/-- Before its end, a call charged to the key of a spent window is refused. -/
theorem limited_before_end (hkey : (record t c).key = some key)
    (hheld : t.windows.lookup key = some w) (hends : w.endsMs = c.endsMs)
    (hspent : c.rl.limit ≤ w.count) : (check t c).1 ≠ .allowed := by
  cases hclient : (charged t c).1 with
  | none => simp [record, hclient] at hkey
  | some client =>
    obtain rfl : (c.window, client) = key := by simpa [record, hclient] using hkey
    have hopen : c.nowMs < w.endsMs := hends ▸ lt_endsAt c.rl c.nowMs
    have hkept := (forgets_charged t c).kept _ w hheld hopen
    have hwindow : windowAt (charged t c).2 (c.window, client) c.endsMs = w := by
      simp [windowAt, hkept, hends]
    rw [check_some hclient, count_eq, hwindow, answer, if_neg (by omega)]
    simp

/-- The same call at another time. -/
def Call.at (c : Call) (nowMs : Nat) : Call := { c with nowMs }

/-- The refused call, made again after any calls charged to other keys, at any time
from `secs` seconds on, has the outcome. -/
def FromThen (t : Table) (c : Call) (key : String × Client) (secs : Nat)
    (p : Record → Prop) : Prop :=
  ∀ (between : List Call) (nowMs : Nat),
    (∀ r ∈ recordsFrom (check t c).2 between, r.key ≠ some key) →
    c.nowMs + 1000 * secs ≤ nowMs → p (record (after (check t c).2 between) (c.at nowMs))

/-- A call that its own key is held for is charged to it. -/
theorem charged_to_own (hheld : t.windows.lookup c.own = some w) (hopen : c.nowMs < w.endsMs) :
    (record t c).key = some c.own := by
  have hready : (Table.ready t c.nowMs).windows.lookup c.own = some w :=
    (forgets_ready t c.nowMs).kept _ w hheld hopen
  unfold record charged Call.own at *
  generalize groupedClient c.client = client at hready ⊢
  cases client with
  | ip addr => rfl
  | consumer id => rfl
  | header short => simp [charge, hready]

/-- The milliseconds left of the window are told in full: a whole number of
seconds, or less than one. -/
def ToldInFull (c : Call) : Prop :=
  c.endsMs - c.nowMs < 1000 ∨ 1000 ∣ c.endsMs - c.nowMs

theorem toldInFull_iff (hsecs : secs = max ((c.endsMs - c.nowMs) / 1000) 1) :
    ToldInFull c ↔ c.endsMs ≤ c.nowMs + 1000 * secs := by
  have hopen : c.nowMs < c.endsMs := lt_endsAt c.rl c.nowMs
  unfold ToldInFull
  omega

theorem FromThen.of_toldInFull (h : Refused t c key secs w) (hlimit : 1 ≤ c.rl.limit)
    (hfull : ToldInFull c) :
    FromThen t c key secs fun r => r.key = some key → r.outcome = .allowed := by
  intro between nowMs hkeys hlater hkey
  have honly : OnlyAt (check t c).2 key w := fun w' hw' => Option.mem_unique hw' h.held
  have hended : w.endsMs ≤ nowMs := by
    have hend := (toldInFull_iff h.told).mp hfull
    rw [h.ends]
    omega
  exact allowed_after_end (honly.run hkeys) hkey hlimit hended

/-- The call made again when it was told to. -/
def Call.again (c : Call) (secs : Nat) : Call := c.at (c.nowMs + 1000 * secs)

theorem Refused.toldInFull (h : Refused t c key secs w) (hagain : c.nowMs + 1000 * secs < c.endsMs →
      (record (check t c).2 (c.again secs)).key = some key)
    (hthen : FromThen t c key secs fun r => r.key = some key → r.outcome = .allowed) :
    ToldInFull c := by
  rw [toldInFull_iff h.told]
  by_contra hearly
  have hopen : c.nowMs + 1000 * secs < c.endsMs := by omega
  -- the client comes back when it was told to, and the same window still counts
  have hsame : (c.again secs).endsMs = c.endsMs := (endsAt_eq (Nat.le_add_right _ _) hopen).symm
  exact limited_before_end (hagain hopen) h.held (h.ends.trans hsame.symm) h.spent
    (hthen [] _ (by simp [recordsFrom]) (Nat.le_refl _) (hagain hopen))

/-- A refused call is told at least a second. Charged to its key again from then on,
it is let through, if and only if what was left of the window was told in full; a
call of an address or a consumer is always charged to one key, and for a header value
counted by its address it is so whenever it would be counted by it again. -/
theorem retry_after_iff (t : Table) (c : Call) (hlimit : 1 ≤ c.rl.limit) {limit secs : Nat}
    (hrefused : (check t c).1 = .limited limit secs) :
    1 ≤ secs ∧ ∃ key, (record t c).key = some key ∧
      (ToldInFull c → FromThen t c key secs fun r => r.key = some key → r.outcome = .allowed) ∧
      (key = c.own →
        ((FromThen t c key secs fun r => r.key = some key → r.outcome = .allowed) ↔
          ToldInFull c)) ∧
      ((record (check t c).2 (c.again secs)).key = some key →
        ((FromThen t c key secs fun r => r.key = some key → r.outcome = .allowed) ↔
          ToldInFull c)) ∧
      (isHeader c.own.2 = false → key = c.own ∧
        ((FromThen t c key secs fun r => r.outcome = .allowed) ↔ ToldInFull c)) := by
  obtain ⟨key, w, h⟩ := refused_of_limited hrefused
  have hown : key = c.own →
      ((FromThen t c key secs fun r => r.key = some key → r.outcome = .allowed) ↔
        ToldInFull c) := by
    intro hkey
    subst hkey
    exact ⟨h.toldInFull fun hopen => charged_to_own (c := c.again secs) h.held (h.ends ▸ hopen),
      FromThen.of_toldInFull h hlimit⟩
  refine ⟨by have := h.told; omega, key, h.charged, FromThen.of_toldInFull h hlimit, hown,
    fun hagain => ⟨h.toldInFull fun _ => hagain, FromThen.of_toldInFull h hlimit⟩, ?_⟩
  intro hheader
  have hkey : key = c.own :=
    Option.some.inj (h.charged.symm.trans (record_key_of_own t hheader))
  refine ⟨hkey, Iff.trans ?_ (hown hkey)⟩
  -- every later call of it is charged to that key
  have hcharged : ∀ t' nowMs, (record t' (c.at nowMs)).key = some key := by
    intro t' nowMs
    rw [hkey]
    exact record_key_of_own t' (c := c.at nowMs) hheader
  constructor
  · intro hthen between nowMs hkeys hlater _
    exact hthen between nowMs hkeys hlater
  · intro hthen between nowMs hkeys hlater
    exact hthen between nowMs hkeys hlater (hcharged _ nowMs)

/-- A consumer with one request in each ten seconds. -/
def tenSeconds (nowMs : Nat) : Call :=
  ⟨"shop/api", .consumer "shop/mobile", none, ⟨1, 10000, .consumer⟩, nowMs⟩

/-- The table that the first request leaves. -/
def oneCounted : Table := (check {} (tenSeconds 0)).2

/-- With nine seconds left, waiting nine seconds is enough. -/
theorem retry_after_iff_whole :
    (check oneCounted (tenSeconds 1000)).1 = .limited 1 9 ∧
    FromThen oneCounted (tenSeconds 1000) (tenSeconds 1000).own 9 fun r => r.outcome = .allowed := by
  have hrefused : (check oneCounted (tenSeconds 1000)).1 = .limited 1 9 := by decide +kernel
  obtain ⟨-, key, -, -, -, -, hothers⟩ :=
    retry_after_iff oneCounted (tenSeconds 1000) (by decide) hrefused
  obtain ⟨rfl, hiff⟩ := hothers rfl
  exact ⟨hrefused, hiff.mpr (.inr (by decide))⟩

/-- With nine and a half seconds left it is told nine, and refused again after them. -/
theorem retry_after_too_early :
    (check oneCounted (tenSeconds 500)).1 = .limited 1 9 ∧
    500 + 1000 * 9 ≤ 9500 ∧
    (check (check oneCounted (tenSeconds 500)).2 (tenSeconds 9500)).1 = .limited 1 1 := by
  refine ⟨by decide +kernel, by decide, by decide +kernel⟩

end Gapura.Proxy.RateCounter
