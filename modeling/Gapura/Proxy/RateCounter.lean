import Gapura.Lib.BitPrefix
import Gapura.Proxy.RateLimit

/-! # The limiter is a window counter

A run of checks, with the key each was charged to. The table forgets windows
that have ended and nothing else, so what it holds of a key is the count of the
requests let through in the window at hand (`Tallied`), and one check decides as
a counter that remembers the whole run would. -/
namespace Gapura.Proxy.RateCounter
open Gapura.Core Core.ClientIp Proxy.RateLimit Lib.BitPrefix

/-! ## Runs -/

structure Call where
  window : String
  client : Client
  ip : Option IpAddr
  rl : RateLimit
  nowMs : Nat
  deriving DecidableEq

/-- The end of the window a time falls in. -/
def endsAt (rl : RateLimit) (nowMs : Nat) : Nat := (nowMs / max rl.windowMs 1 + 1) * max rl.windowMs 1

def Call.endsMs (c : Call) : Nat := endsAt c.rl c.nowMs

/-- An address stands for its group. -/
def groupedClient : Client → Client
  | .ip addr => .ip (grouped addr)
  | named => named

/-- The table a check reads: swept once it has doubled. -/
def Table.ready (t : Table) (nowMs : Nat) : Table :=
  if t.sweepAt < t.windows.entries.length then t.sweep nowMs else t

/-- The client a check is charged to, and the table it is counted in. -/
def charged (t : Table) (c : Call) : Option Client × Table :=
  charge (Table.ready t c.nowMs) c.window (groupedClient c.client) c.ip c.nowMs

structure Record where
  call : Call
  /-- What the check was charged to, `none` for a check that counts nothing. -/
  key : Option (String × Client)
  outcome : Outcome
  deriving DecidableEq

def check (t : Table) (c : Call) : Outcome × Table :=
  checkAt t c.window c.client c.ip c.rl c.nowMs

def record (t : Table) (c : Call) : Record where
  call := c
  key := (charged t c).1.map fun client => (c.window, client)
  outcome := (check t c).1

/-- The checks of a run from a table, in order. -/
def recordsFrom (t : Table) : List Call → List Record
  | [] => []
  | c :: rest => record t c :: recordsFrom (check t c).2 rest

/-- The checks of a limiter that starts empty. -/
def records (calls : List Call) : List Record := recordsFrom {} calls

/-- The table after a run. -/
def after (t : Table) (calls : List Call) : Table := calls.foldl (fun t c => (check t c).2) t

theorem check_eq (t : Table) (c : Call) :
    check t c = match charged t c with
      | (none, t) => (.allowed, t)
      | (some client, t) => count t (c.window, client) c.rl c.endsMs c.nowMs := rfl

/-! ## The table's own books -/

def isHeader : Client → Bool
  | .header _ => true
  | _ => false

def headerKeyOf (window : String) (key : String × Client) : Bool :=
  key.1 == window && isHeader key.2

/-- How many windows of a name count a header's value. -/
def headerKeys (windows : Windows) (window : String) : Nat :=
  windows.keys.countP (headerKeyOf window)

variable (windows : Windows) {client : Client} {calls : List Call} {key : String × Client}
  {rs : List Record}

theorem lookup_live (nowMs : Nat) (key : String × Client) :
    (live windows nowMs).lookup key = (windows.lookup key).filter fun w => nowMs < w.endsMs := by
  ext w
  rw [← Option.mem_def, AList.mem_lookup_iff, Option.filter_eq_some_iff, ← Option.mem_def,
    AList.mem_lookup_iff]
  simp [live]

theorem held_add (counts : RateLimit.Counts) (window other : String) :
    ((addHeaderWindow counts window).lookup other).getD 0 =
      (counts.lookup other).getD 0 + if window = other then 1 else 0 := by
  unfold addHeaderWindow
  by_cases h : window = other
  · subst h
    simp
  · rw [AList.lookup_insert_ne (Ne.symm h), if_neg h, Nat.add_zero]

theorem held_countHeaders (window : String) :
    ((countHeaders windows).lookup window).getD 0 = headerKeys windows window := by
  unfold countHeaders headerKeys
  -- what is counted so far stays, so the walk is taken from any counts
  suffices h : ∀ (keys : List (String × Client)) (counts : RateLimit.Counts),
      ((keys.foldl (fun counts key => match key.2 with
        | .header _ => addHeaderWindow counts key.1
        | _ => counts) counts).lookup window).getD 0 =
        (counts.lookup window).getD 0 + keys.countP (headerKeyOf window) by
    exact (h windows.keys ∅).trans (by simp)
  intro keys
  induction keys with
  | nil => intro counts; simp
  | cons key rest ih =>
    intro counts
    obtain ⟨name, client⟩ := key
    rw [List.foldl_cons, ih, List.countP_cons]
    cases client with
    | ip addr => simp [headerKeyOf, isHeader]
    | consumer id => simp [headerKeyOf, isHeader]
    | header short =>
      simp only [held_add, headerKeyOf, isHeader, Bool.and_true, beq_iff_eq]
      omega

theorem headerKeys_insert (key : String × Client) (w : Window) (window : String) :
    headerKeys (windows.insert key w) window = headerKeys windows window +
      if headerKeyOf window key = true ∧ windows.lookup key = none then 1 else 0 := by
  have hnone : windows.lookup key = none ↔ key ∉ windows.keys := by
    rw [AList.lookup_eq_none, AList.mem_keys]
  unfold headerKeys
  rw [AList.keys_insert]
  by_cases hmem : key ∈ windows.keys
  · rw [← (@List.perm_cons_erase _ instBEqOfDecidableEq _ _ _ hmem).countP_eq,
      if_neg (by simp [hnone, hmem]), Nat.add_zero]
  · rw [@List.erase_of_not_mem _ instBEqOfDecidableEq _ _ _ hmem, List.countP_cons]
    simp [hnone, hmem]

theorem headerKeys_live (nowMs : Nat) (window : String) :
    headerKeys (live windows nowMs) window ≤ headerKeys windows window := by
  unfold headerKeys
  apply List.Sublist.countP_le
  exact (List.filter_sublist (l := windows.entries)).map Sigma.fst

/-- The header windows are counted, and no name has more than its share. -/
structure Books (t : Table) : Prop where
  held : ∀ window, t.held window = headerKeys t.windows window
  capped : ∀ window, t.held window ≤ headerWindowCap

theorem Books.sweep {t : Table} (h : Books t) (nowMs : Nat) : Books (t.sweep nowMs) := by
  have hheld : ∀ window, (t.sweep nowMs).held window = headerKeys (live t.windows nowMs) window :=
    held_countHeaders _
  refine ⟨hheld, ?_⟩
  intro window
  have hle := headerKeys_live t.windows nowMs window
  have hcap := h.capped window
  rw [h.held] at hcap
  rw [hheld]
  omega

/-! ## What a check forgets -/

/-- Nothing but windows that have ended. -/
structure Forgets (nowMs : Nat) (t t' : Table) : Prop where
  kept : ∀ key w, t.windows.lookup key = some w → nowMs < w.endsMs → t'.windows.lookup key = some w
  held : ∀ key w, t'.windows.lookup key = some w → t.windows.lookup key = some w

theorem Forgets.refl (nowMs : Nat) (t : Table) : Forgets nowMs t t :=
  ⟨fun _ _ h _ => h, fun _ _ h => h⟩

theorem Forgets.trans {nowMs : Nat} {t t' t'' : Table} (h : Forgets nowMs t t')
    (h' : Forgets nowMs t' t'') : Forgets nowMs t t'' where
  kept := fun key w hw hopen => h'.kept key w (h.kept key w hw hopen) hopen
  held := fun key w hw => h.held key w (h'.held key w hw)

theorem forgets_sweep (nowMs : Nat) (t : Table) : Forgets nowMs t (t.sweep nowMs) := by
  have hlookup : ∀ key, (t.sweep nowMs).windows.lookup key =
      (t.windows.lookup key).filter fun w => nowMs < w.endsMs := lookup_live t.windows nowMs
  constructor
  · intro key w hw hopen
    rw [hlookup, hw]
    simp [hopen]
  · intro key w hw
    rw [hlookup] at hw
    exact (Option.filter_eq_some_iff.mp hw).1

theorem forgets_swept (nowMs : Nat) (t : Table) (due : Bool) :
    Forgets nowMs t (if due = true then t.sweep nowMs else t) := by
  split
  · exact forgets_sweep nowMs t
  · exact .refl nowMs t

theorem Books.ready {t : Table} (h : Books t) (nowMs : Nat) : Books (Table.ready t nowMs) := by
  unfold Table.ready
  split
  · exact h.sweep nowMs
  · exact h

theorem forgets_ready (t : Table) (nowMs : Nat) : Forgets nowMs t (Table.ready t nowMs) := by
  unfold Table.ready
  split
  · exact forgets_sweep nowMs t
  · exact .refl nowMs t

/-- The ways a check is charged. -/
inductive Charging (t : Table) (window : String) (client : Client) (ip : Option IpAddr)
    (nowMs : Nat) : Option Client → Table → Prop
  /-- A window that is held, or one that needs no place among the header windows. -/
  | known (h : isHeader client = false ∨ (t.windows.lookup (window, client)).isSome = true) :
      Charging t window client ip nowMs (some client) t
  /-- The name's header windows are full. -/
  | redirected {t' : Table} (hheader : isHeader client = true) (hforgets : Forgets nowMs t t')
      (hbooks : Books t') (hfull : headerWindowCap ≤ t'.held window) :
      Charging t window client ip nowMs (ip.map fun addr => .ip (grouped addr)) t'
  | opened {t' : Table} (hheader : isHeader client = true) (hforgets : Forgets nowMs t t')
      (hbooks : Books t') (hnew : t'.windows.lookup (window, client) = none)
      (hroom : t'.held window < headerWindowCap) :
      Charging t window client ip nowMs (some client)
        { t' with headerWindows := addHeaderWindow t'.headerWindows window }

theorem charging {t : Table} (h : Books t) (window : String) (client : Client)
    (ip : Option IpAddr) (nowMs : Nat) :
    Charging t window client ip nowMs (charge t window client ip nowMs).1
      (charge t window client ip nowMs).2 := by
  cases client with
  | ip addr => exact .known (.inl rfl)
  | consumer id => exact .known (.inl rfl)
  | header short =>
    simp only [charge]
    split
    next hheld => exact .known (.inr hheld)
    next hheld =>
      have hnone : t.windows.lookup (window, .header short) = none := by simpa using hheld
      generalize hdue : (decide (headerWindowCap ≤ t.held window) &&
        (decide (nowMs < t.sweptMs) ||
          decide (min (t.sweptMs + cappedSweepMs) (2 ^ 64 - 1) ≤ nowMs))) = due
      have hforgets := forgets_swept nowMs t due
      generalize ht' : (if due = true then t.sweep nowMs else t) = t' at hforgets
      have hbooks : Books t' := by
        subst ht'
        split
        · exact h.sweep nowMs
        · exact h
      have hnew : t'.windows.lookup (window, .header short) = none := by
        cases hw : t'.windows.lookup (window, .header short) with
        | none => rfl
        | some w =>
          rw [hforgets.held _ w hw] at hnone
          cases hnone
      split
      next hfull => exact .redirected rfl hforgets hbooks hfull
      next hfull => exact .opened rfl hforgets hbooks hnew (by omega)

/-- The header window that charging a client is about to open. -/
def opens (t : Table) (name : String) (window : String) : Option Client → Nat
  | some client => if headerKeyOf window (name, client) = true ∧
      t.windows.lookup (name, client) = none then 1 else 0
  | none => 0

theorem opens_of_not_header {t : Table} {name window : String}
    (h : isHeader client = false) : opens t name window (some client) = 0 := by
  simp [opens, headerKeyOf, h]

/-- What holds of the table a check counts in: a header window is counted
before it is opened. -/
structure Charged (t : Table) (c : Call) (client : Option Client) (t' : Table) : Prop where
  forgets : Forgets c.nowMs t t'
  held : ∀ window, t'.held window = headerKeys t'.windows window + opens t' c.window window client
  capped : ∀ window, t'.held window ≤ headerWindowCap

theorem charged_spec {t : Table} (h : Books t) (c : Call) :
    Charged t c (charged t c).1 (charged t c).2 := by
  have hready := h.ready c.nowMs
  have hforgets := forgets_ready t c.nowMs
  have hcharging := charging hready c.window (groupedClient c.client) c.ip c.nowMs
  change Charging _ _ _ _ _ (charged t c).1 (charged t c).2 at hcharging
  generalize (charged t c).1 = client, (charged t c).2 = t' at hcharging ⊢
  cases hcharging with
  | known hknown =>
    refine ⟨hforgets, ?_, hready.capped⟩
    intro window
    rw [hready.held]
    rcases hknown with hnot | hheld
    · rw [opens_of_not_header hnot]
      rfl
    · have hsome : (Table.ready t c.nowMs).windows.lookup (c.window, groupedClient c.client) ≠ none :=
        Option.isSome_iff_ne_none.mp hheld
      simp [opens, hsome]
  | redirected hheader hmore hbooks hfull =>
    refine ⟨hforgets.trans hmore, ?_, hbooks.capped⟩
    intro window
    rw [hbooks.held]
    cases c.ip with
    | none => rfl
    | some addr =>
      rw [Option.map_some, opens_of_not_header (by rfl)]
      rfl
  | @opened t' hheader hmore hbooks hnew hroom =>
    have hheld : ∀ window, Table.held
        { t' with headerWindows := addHeaderWindow t'.headerWindows c.window } window =
          t'.held window + if c.window = window then 1 else 0 :=
      held_add t'.headerWindows c.window
    refine ⟨hforgets.trans ⟨hmore.kept, hmore.held⟩, ?_, ?_⟩
    · intro window
      rw [hheld, hbooks.held]
      simp [opens, headerKeyOf, hheader, hnew]
    · intro window
      rw [hheld]
      have hcap := hbooks.capped window
      split
      next heq =>
        subst heq
        omega
      next => omega

/-! ## One check -/

/-- The window a check counts in, before it. -/
def windowAt (t : Table) (key : String × Client) (endsMs : Nat) : Window :=
  let held := (t.windows.lookup key).getD ⟨endsMs, 0⟩
  if held.endsMs = endsMs then held else ⟨endsMs, 0⟩

theorem windowAt_endsMs (t : Table) (key : String × Client) (endsMs : Nat) :
    (windowAt t key endsMs).endsMs = endsMs := by
  simp only [windowAt]
  split
  next h => exact h
  next => rfl

/-- The window a check leaves. -/
def counted (t : Table) (key : String × Client) (rl : RateLimit) (endsMs : Nat) : Window :=
  let w := windowAt t key endsMs
  if w.count < rl.limit then { w with count := w.count + 1 } else w

/-- What a counter answers that has let `count` requests through. -/
def answer (count : Nat) (rl : RateLimit) (endsMs nowMs : Nat) : Outcome :=
  if count < rl.limit then .allowed
  else .limited rl.limit (max ((endsMs - nowMs) / 1000) 1)

def put (t : Table) (key : String × Client) (w : Window) : Table :=
  { t with windows := t.windows.insert key w }

theorem count_eq (t : Table) (key : String × Client) (rl : RateLimit) (endsMs nowMs : Nat) :
    count t key rl endsMs nowMs = (answer (windowAt t key endsMs).count rl endsMs nowMs,
      put t key (counted t key rl endsMs)) := by
  have hdef : count t key rl endsMs nowMs =
      if rl.limit ≤ (windowAt t key endsMs).count then
        (.limited rl.limit (max ((endsMs - nowMs) / 1000) 1), put t key (windowAt t key endsMs))
      else (.allowed, put t key
        ⟨(windowAt t key endsMs).endsMs, (windowAt t key endsMs).count + 1⟩) := rfl
  rw [hdef]
  by_cases h : (windowAt t key endsMs).count < rl.limit
  · rw [if_neg (by omega), answer, if_pos h]
    simp only [counted, if_pos h]
  · rw [if_pos (by omega), answer, if_neg h]
    simp only [counted, if_neg h]

@[simp] theorem put_windows (t : Table) (key : String × Client) (w : Window) :
    (put t key w).windows = t.windows.insert key w := rfl

theorem counted_endsMs (t : Table) (key : String × Client) (rl : RateLimit) (endsMs : Nat) :
    (counted t key rl endsMs).endsMs = endsMs := by
  simp only [counted]
  split
  · exact windowAt_endsMs t key endsMs
  · exact windowAt_endsMs t key endsMs

theorem check_none {t : Table} {c : Call} (h : (charged t c).1 = none) :
    check t c = (.allowed, (charged t c).2) := by
  rw [check_eq]
  generalize charged t c = p at h ⊢
  obtain ⟨client, t'⟩ := p
  cases h
  rfl

theorem check_some {t : Table} {c : Call} (h : (charged t c).1 = some client) :
    check t c = count (charged t c).2 (c.window, client) c.rl c.endsMs c.nowMs := by
  rw [check_eq]
  generalize charged t c = p at h ⊢
  obtain ⟨client, t'⟩ := p
  cases h
  rfl

theorem Books.check {t : Table} (h : Books t) (c : Call) : Books (check t c).2 := by
  have hcharged := charged_spec h c
  cases hclient : (charged t c).1 with
  | none =>
    rw [check_none hclient]
    rw [hclient] at hcharged
    exact ⟨hcharged.held, hcharged.capped⟩
  | some client =>
    rw [check_some hclient, count_eq]
    rw [hclient] at hcharged
    refine ⟨?_, hcharged.capped⟩
    intro window
    rw [put_windows, headerKeys_insert]
    exact hcharged.held window

/-! ## A run -/

/-- The requests of a key let through so far in the window that ends at `endsMs`. -/
def passed (past : List Record) (key : String × Client) (endsMs : Nat) : Nat :=
  past.countP fun r => r.key = some key ∧ r.call.endsMs = endsMs ∧ r.outcome = .allowed

/-- The table holds, of every window that has not ended, what was let through in it. -/
structure Tallied (limits : String → RateLimit) (past : List Record) (nowMs : Nat) (t : Table) :
    Prop where
  exact : ∀ key w, t.windows.lookup key = some w →
    w.count = passed past key w.endsMs ∧ ∃ m ≤ nowMs, w.endsMs = endsAt (limits key.1) m
  held : ∀ r ∈ past, ∀ key, r.key = some key → nowMs < r.call.endsMs →
    ∃ w, t.windows.lookup key = some w ∧ w.endsMs = r.call.endsMs

section Run
variable {limits : String → RateLimit} {past : List Record} {nowMs : Nat} {t : Table}

theorem Tallied.later (h : Tallied limits past nowMs t) {later : Nat} (hle : nowMs ≤ later) :
    Tallied limits past later t := by
  constructor
  · intro key w hw
    obtain ⟨hcount, m, hm, hends⟩ := h.exact key w hw
    exact ⟨hcount, m, by omega, hends⟩
  · intro r hr key hkey hopen
    exact h.held r hr key hkey (by omega)

theorem Tallied.forgets (h : Tallied limits past nowMs t) {t' : Table}
    (hforgets : Forgets nowMs t t') : Tallied limits past nowMs t' := by
  constructor
  · intro key w hw
    exact h.exact key w (hforgets.held key w hw)
  · intro r hr key hkey hopen
    obtain ⟨w, hw, hends⟩ := h.held r hr key hkey hopen
    exact ⟨w, hforgets.kept key w hw (by omega), hends⟩

theorem lt_endsAt (rl : RateLimit) (nowMs : Nat) : nowMs < endsAt rl nowMs := by
  unfold endsAt
  exact Nat.lt_mul_of_div_lt (Nat.lt_succ_self _) (by omega)

/-- A window that has not ended is the one at hand. -/
theorem endsAt_eq {rl : RateLimit} {m nowMs : Nat} (hm : m ≤ nowMs) (h : nowMs < endsAt rl m) :
    endsAt rl m = endsAt rl nowMs := by
  unfold endsAt at *
  have hlow : m / max rl.windowMs 1 ≤ nowMs / max rl.windowMs 1 := Nat.div_le_div_right hm
  have hhigh : nowMs / max rl.windowMs 1 < m / max rl.windowMs 1 + 1 :=
    Nat.div_lt_of_lt_mul (by rwa [Nat.mul_comm])
  have hsame : m / max rl.windowMs 1 = nowMs / max rl.windowMs 1 := by omega
  rw [hsame]

/-- What the table holds of a key is what a counter of the whole run would hold. -/
theorem Tallied.windowAt (h : Tallied limits past nowMs t) (key : String × Client) :
    (windowAt t key (endsAt (limits key.1) nowMs)).count =
      passed past key (endsAt (limits key.1) nowMs) := by
  -- a request that was let through in the window at hand is in the table
  have hheld : ∀ r ∈ past, r.key = some key → r.call.endsMs = endsAt (limits key.1) nowMs →
      ∃ w, t.windows.lookup key = some w ∧ w.endsMs = endsAt (limits key.1) nowMs := by
    intro r hr hkey hends
    have hopen := lt_endsAt (limits key.1) nowMs
    obtain ⟨w, hw, hwends⟩ := h.held r hr key hkey (by omega)
    exact ⟨w, hw, by rw [hwends, hends]⟩
  by_cases hw : ∃ w, t.windows.lookup key = some w ∧ w.endsMs = endsAt (limits key.1) nowMs
  · obtain ⟨w, hlookup, hends⟩ := hw
    have hcount := (h.exact key w hlookup).1
    rw [hends] at hcount
    simp only [RateCounter.windowAt, hlookup, Option.getD_some, hends, if_true]
    exact hcount
  · have hnone : passed past key (endsAt (limits key.1) nowMs) = 0 := by
      apply List.countP_eq_zero.mpr
      intro r hr hpass
      simp only [decide_eq_true_eq] at hpass
      exact hw (hheld r hr hpass.1 hpass.2.1)
    rw [hnone]
    simp only [RateCounter.windowAt]
    split
    next hends =>
      cases hlookup : t.windows.lookup key with
      | none => rfl
      | some w =>
        rw [hlookup] at hends
        exact absurd ⟨w, hlookup, hends⟩ hw
    next => rfl

theorem passed_append (past : List Record) (r : Record) (key : String × Client) (endsMs : Nat) :
    passed (past ++ [r]) key endsMs = passed past key endsMs +
      if r.key = some key ∧ r.call.endsMs = endsMs ∧ r.outcome = .allowed then 1 else 0 := by
  simp [passed, List.countP_append, List.countP_singleton]

variable {c : Call}

/-- A check that is charged answers as the counter does. -/
theorem Tallied.outcome (h : Tallied limits past nowMs t) (hbooks : Books t) (hle : nowMs ≤ c.nowMs)
    (hrl : c.rl = limits c.window) {client : Client} (hclient : (charged t c).1 = some client) :
    (check t c).1 = answer (passed past (c.window, client) c.endsMs) c.rl c.endsMs c.nowMs := by
  have hready := (h.later hle).forgets (charged_spec hbooks c).forgets
  have hcount := hready.windowAt (c.window, client)
  rw [← hrl] at hcount
  rw [check_some hclient, count_eq]
  show answer (RateCounter.windowAt _ _ (endsAt c.rl c.nowMs)).count _ _ _ = _
  rw [hcount]
  rfl

theorem counted_count (t : Table) (key : String × Client) (rl : RateLimit) (endsMs nowMs : Nat) :
    (counted t key rl endsMs).count = (RateCounter.windowAt t key endsMs).count +
      if answer (RateCounter.windowAt t key endsMs).count rl endsMs nowMs = .allowed
        then 1 else 0 := by
  simp only [counted, answer]
  split <;> simp

/-- A check that charges nobody adds nothing to any tally. -/
theorem Tallied.uncharged (h : Tallied limits past nowMs t) {r : Record} (hkey : r.key = none) :
    Tallied limits (past ++ [r]) nowMs t := by
  constructor
  · intro key w hw
    rw [passed_append, if_neg (by simp [hkey]), Nat.add_zero]
    exact h.exact key w hw
  · intro r' hr key hrkey hopen
    rcases List.mem_append.mp hr with hr | hr
    · exact h.held r' hr key hrkey hopen
    · cases List.mem_singleton.mp hr
      rw [hkey] at hrkey
      cases hrkey

/-- One check keeps the tally. -/
theorem Tallied.check (h : Tallied limits past nowMs t) (hbooks : Books t)
    (hle : nowMs ≤ c.nowMs) (hrl : c.rl = limits c.window) :
    Tallied limits (past ++ [record t c]) c.nowMs (check t c).2 := by
  have hready := (h.later hle).forgets (charged_spec hbooks c).forgets
  cases hclient : (charged t c).1 with
  | none =>
    rw [check_none hclient]
    exact hready.uncharged (by simp [record, hclient])
  | some client =>
    have hkey : (record t c).key = some (c.window, client) := by simp [record, hclient]
    have houtcome := h.outcome hbooks hle hrl hclient
    have hends : c.endsMs = endsAt (limits c.window) c.nowMs := by rw [← hrl]; rfl
    have hcount := hready.windowAt (c.window, client)
    rw [← hends] at hcount
    rw [check_some hclient, count_eq]
    constructor
    · intro key w hw
      by_cases heq : key = (c.window, client)
      · subst heq
        rw [put_windows, AList.lookup_insert] at hw
        cases hw
        refine ⟨?_, c.nowMs, Nat.le_refl _, (counted_endsMs _ _ _ _).trans hends⟩
        rw [counted_endsMs, counted_count _ _ _ _ c.nowMs, hcount, passed_append]
        simp only [hkey, true_and]
        rw [show (record t c).outcome = (RateCounter.check t c).1 from rfl, houtcome,
          show (record t c).call = c from rfl]
        simp
      · rw [put_windows, AList.lookup_insert_ne heq] at hw
        rw [passed_append, if_neg (by simp [hkey, Ne.symm heq]), Nat.add_zero]
        exact hready.exact key w hw
    · intro r hr key hrkey hopen
      by_cases heq : key = (c.window, client)
      · subst heq
        refine ⟨_, AList.lookup_insert _, ?_⟩
        rw [counted_endsMs]
        rcases List.mem_append.mp hr with hr | hr
        · obtain ⟨w, hw, hwends⟩ := hready.held r hr _ hrkey hopen
          obtain ⟨-, m, hm, hwm⟩ := hready.exact _ w hw
          rw [hends, ← hwends, hwm]
          exact (endsAt_eq hm (by rw [← hwm, hwends]; exact hopen)).symm
        · cases List.mem_singleton.mp hr
          rfl
      · rw [put_windows, AList.lookup_insert_ne heq]
        rcases List.mem_append.mp hr with hr | hr
        · exact hready.held r hr key hrkey hopen
        · cases List.mem_singleton.mp hr
          rw [hkey] at hrkey
          exact absurd (Option.some.inj hrkey).symm heq

/-- A window that has not ended is there after the check, with no less counted. -/
theorem Tallied.keeps (h : Tallied limits past nowMs t) (hbooks : Books t)
    (hle : nowMs ≤ c.nowMs) (hrl : c.rl = limits c.window) {key : String × Client} {w : Window}
    (hw : t.windows.lookup key = some w) (hopen : c.nowMs < w.endsMs) :
    ∃ w', (RateCounter.check t c).2.windows.lookup key = some w' ∧ w'.endsMs = w.endsMs ∧
      w.count ≤ w'.count := by
  have hkept := (charged_spec hbooks c).forgets.kept key w hw hopen
  cases hclient : (charged t c).1 with
  | none =>
    rw [check_none hclient]
    exact ⟨w, hkept, rfl, Nat.le_refl _⟩
  | some client =>
    rw [check_some hclient, count_eq]
    by_cases heq : key = (c.window, client)
    · subst heq
      obtain ⟨-, m, hm, hends⟩ := h.exact _ w hw
      have hsame : w.endsMs = c.endsMs := by
        rw [hends, ← hrl] at hopen ⊢
        exact endsAt_eq (by omega) hopen
      have hat : RateCounter.windowAt (charged t c).2 (c.window, client) c.endsMs = w := by
        simp only [RateCounter.windowAt, hkept, Option.getD_some, hsame, if_true]
      refine ⟨_, AList.lookup_insert _, by rw [counted_endsMs, hsame], ?_⟩
      rw [counted_count _ _ _ _ c.nowMs, hat]
      omega
    · refine ⟨w, ?_, rfl, Nat.le_refl _⟩
      rw [put_windows, AList.lookup_insert_ne heq]
      exact hkept

/-- Calls of a run from `nowMs` on, each under its name's limit. -/
structure Ordered (limits : String → RateLimit) (nowMs : Nat) (calls : List Call) : Prop where
  times : calls.Pairwise fun a b => a.nowMs ≤ b.nowMs
  start : ∀ c ∈ calls, nowMs ≤ c.nowMs
  limits : ∀ c ∈ calls, c.rl = limits c.window

theorem Ordered.tail {calls : List Call} (h : Ordered limits nowMs (c :: calls)) :
    Ordered limits c.nowMs calls where
  times := (List.pairwise_cons.mp h.times).2
  start := (List.pairwise_cons.mp h.times).1
  limits := fun d hd => h.limits d (List.mem_cons_of_mem c hd)

theorem Tallied.run {calls : List Call} (h : Tallied limits past nowMs t) (hbooks : Books t)
    (hcalls : Ordered limits nowMs calls) :
    Books (after t calls) ∧ ∀ later, nowMs ≤ later → (∀ c ∈ calls, c.nowMs ≤ later) →
      Tallied limits (past ++ recordsFrom t calls) later (after t calls) := by
  induction calls generalizing past nowMs t with
  | nil =>
    refine ⟨hbooks, ?_⟩
    intro later hle _
    rw [recordsFrom, List.append_nil]
    exact h.later hle
  | cons c rest ih =>
    have hstep := h.check hbooks (hcalls.start c List.mem_cons_self)
      (hcalls.limits c List.mem_cons_self)
    obtain ⟨hbooks', hrest⟩ := ih hstep (hbooks.check c) hcalls.tail
    refine ⟨hbooks', ?_⟩
    intro later _ hall
    have := hrest later (hall c List.mem_cons_self) fun d hd => hall d (List.mem_cons_of_mem c hd)
    rw [List.append_assoc] at this
    exact this

end Run

theorem tallied_empty (limits : String → RateLimit) : Tallied limits [] 0 {} where
  exact := by intro key w hw; cases hw
  held := by intro r hr; cases hr

theorem books_empty : Books {} := ⟨fun _ => rfl, fun _ => Nat.zero_le _⟩

/-! ## What a key's requests are answered -/

/-- Every charged request is answered as the counter of its key does. -/
def Exactly : List Record → List Record → Prop
  | _, [] => True
  | past, r :: rest => (∀ key, r.key = some key →
      r.outcome = answer (passed past key r.call.endsMs) r.call.rl r.call.endsMs r.call.nowMs) ∧
    Exactly (past ++ [r]) rest

theorem Tallied.exactly {limits : String → RateLimit} {past : List Record} {nowMs : Nat}
    {t : Table} (h : Tallied limits past nowMs t) (hbooks : Books t)
    (hcalls : Ordered limits nowMs calls) : Exactly past (recordsFrom t calls) := by
  induction calls generalizing past nowMs t with
  | nil => trivial
  | cons c rest ih =>
    have hle := hcalls.start c List.mem_cons_self
    have hrl := hcalls.limits c List.mem_cons_self
    refine ⟨?_, ih (h.check hbooks hle hrl) (hbooks.check c) hcalls.tail⟩
    intro key hkey
    obtain ⟨client, hclient, rfl⟩ := Option.map_eq_some_iff.mp hkey
    exact h.outcome hbooks hle hrl hclient

/-- The requests charged to a key. -/
def chargedTo (key : String × Client) (rs : List Record) : List Record :=
  rs.filter fun r => r.key = some key

variable {r : Record}

theorem mem_chargedTo : r ∈ chargedTo key rs ↔ r ∈ rs ∧ r.key = some key := by
  simp [chargedTo]

/-- The requests of one key, on their own, are still answered so. -/
theorem Exactly.chargedTo {past : List Record} (h : Exactly past rs) (key : String × Client) :
    Exactly (chargedTo key past) (chargedTo key rs) := by
  unfold RateCounter.chargedTo
  induction rs generalizing past with
  | nil => trivial
  | cons r rest ih =>
    obtain ⟨hr, hrest⟩ := h
    have := ih hrest
    by_cases hkey : r.key = some key
    · rw [List.filter_append, List.filter_cons_of_pos (by simpa using hkey), List.filter_nil] at this
      rw [List.filter_cons_of_pos (by simpa using hkey)]
      refine ⟨?_, this⟩
      intro key' hkey'
      obtain rfl : key = key' := Option.mem_unique hkey hkey'
      rw [hr key hkey]
      simp only [passed, List.countP_filter]
      congr 1
      apply List.countP_congr
      intro r' _
      simp only [Bool.and_eq_true, decide_eq_true_eq]
      tauto
    · rw [List.filter_append, List.filter_cons_of_neg (by simpa using hkey), List.filter_nil,
        List.append_nil] at this
      rw [List.filter_cons_of_neg (by simpa using hkey)]
      exact this

/-- One key's requests at the same times get the same answers. -/
theorem Exactly.outcomes_eq (key : String × Client) {past past' rs' : List Record}
    (h : Exactly past rs) (h' : Exactly past' rs') (hkey : ∀ r ∈ rs, r.key = some key)
    (hkey' : ∀ r ∈ rs', r.key = some key) (hcalls : rs.map Record.call = rs'.map Record.call)
    (hpast : ∀ endsMs, passed past key endsMs = passed past' key endsMs) :
    rs.map Record.outcome = rs'.map Record.outcome := by
  induction rs generalizing past past' rs' with
  | nil =>
    rw [List.map_nil, eq_comm, List.map_eq_nil_iff] at hcalls
    rw [hcalls]
  | cons r rest ih =>
    obtain ⟨r', rest', rfl, hcall, hrest⟩ := List.map_eq_cons_iff.mp hcalls.symm
    have hr := hkey r List.mem_cons_self
    have hr' := hkey' r' List.mem_cons_self
    have houtcome : r.outcome = r'.outcome := by
      rw [h.1 key hr, h'.1 key hr', hcall, hpast]
    rw [List.map_cons, List.map_cons, houtcome]
    congr 1
    refine ih h.2 h'.2 (fun s hs => hkey s (List.mem_cons_of_mem r hs))
      (fun s hs => hkey' s (List.mem_cons_of_mem r' hs)) hrest.symm ?_
    intro endsMs
    rw [passed_append, passed_append, hpast, hr, hr', hcall, houtcome]

/-- Two runs that agree on the requests of a key agree on their answers. -/
theorem outcomes_of_calls_eq {limits : String → RateLimit} {others : List Call}
    (hcalls : Ordered limits 0 calls) (hothers : Ordered limits 0 others)
    (h : (chargedTo key (records calls)).map Record.call =
      (chargedTo key (records others)).map Record.call) :
    (chargedTo key (records calls)).map Record.outcome =
      (chargedTo key (records others)).map Record.outcome := by
  have hexact := ((tallied_empty limits).exactly books_empty hcalls).chargedTo key
  have hexact' := ((tallied_empty limits).exactly books_empty hothers).chargedTo key
  exact hexact.outcomes_eq key hexact' (fun r hr => (mem_chargedTo.mp hr).2)
    (fun r hr => (mem_chargedTo.mp hr).2) h fun _ => rfl

/-- The key a request names for itself. -/
def Call.own (c : Call) : String × Client := (c.window, groupedClient c.client)

theorem record_key_of_own (t : Table) {c : Call} (h : isHeader c.own.2 = false) :
    (record t c).key = some c.own := by
  unfold record charged Call.own at *
  generalize groupedClient c.client = client at h ⊢
  cases client with
  | ip addr => rfl
  | consumer id => rfl
  | header short => cases h

theorem map_call_recordsFrom (t : Table) (calls : List Call) :
    (recordsFrom t calls).map Record.call = calls := by
  induction calls generalizing t with
  | nil => rfl
  | cons c rest ih => rw [recordsFrom, List.map_cons, ih]; rfl

theorem exists_of_mem_recordsFrom {t : Table}
    (h : r ∈ recordsFrom t calls) : ∃ t', r = record t' r.call := by
  induction calls generalizing t with
  | nil => cases h
  | cons c rest ih =>
    rcases List.mem_cons.mp h with rfl | h
    · exact ⟨t, rfl⟩
    · exact ih h

/-- An address or a consumer that no other client is redirected to is answered
as if it were alone. -/
theorem outcomes_alone {limits : String → RateLimit}
    (hcalls : Ordered limits 0 calls) (hkey : isHeader key.2 = false)
    (hown : ∀ r ∈ records calls, r.key = some key → r.call.own = key) :
    (records (calls.filter fun c => c.own = key)).map Record.outcome =
      (chargedTo key (records calls)).map Record.outcome := by
  have halone : Ordered limits 0 (calls.filter fun c => c.own = key) :=
    ⟨hcalls.times.sublist List.filter_sublist, fun _ _ => Nat.zero_le _,
      fun c hc => hcalls.limits c (List.mem_of_mem_filter hc)⟩
  have hrecord : ∀ t c, c.own = key → (record t c).key = some key := by
    intro t c hc
    rw [← hc] at hkey ⊢
    exact record_key_of_own t hkey
  have hexact := (tallied_empty limits).exactly books_empty hcalls
  have hexact' := (tallied_empty limits).exactly books_empty halone
  refine hexact'.outcomes_eq key (hexact.chargedTo key) ?_ ?_ ?_ ?_
  · intro r hr
    obtain ⟨t, ht⟩ := exists_of_mem_recordsFrom hr
    have hmem : r.call ∈ calls.filter fun c => c.own = key := by
      rw [← map_call_recordsFrom {} (calls.filter fun c => c.own = key)]
      exact List.mem_map_of_mem hr
    rw [ht]
    exact hrecord t _ (by simpa using (List.mem_filter.mp hmem).2)
  · intro r hr
    exact (mem_chargedTo.mp hr).2
  · unfold chargedTo
    rw [map_call_recordsFrom]
    nth_rewrite 1 [← map_call_recordsFrom {} calls]
    rw [List.filter_map]
    congr 1
    apply List.filter_congr
    intro r hr
    obtain ⟨t, ht⟩ := exists_of_mem_recordsFrom hr
    simp only [Function.comp_apply, decide_eq_decide]
    constructor
    · intro hc
      rw [ht]
      exact hrecord t _ hc
    · exact hown r hr
  · intro endsMs
    rfl

/-- Where a request is charged: its address' group, its consumer, its header's
value, or its address' group once the name's header windows are full. -/
def MayCharge (t : Table) (c : Call) (key : Option (String × Client)) : Prop :=
  match c.client with
  | .ip addr => key = some (c.window, .ip (grouped addr))
  | .consumer id => key = some (c.window, .consumer id)
  | .header short => key = some (c.window, .header short) ∨
      (headerWindowCap ≤ (charged t c).2.held c.window ∧
        key = c.ip.map fun addr => (c.window, .ip (grouped addr)))

theorem mayCharge_record {t : Table} (h : Books t) (c : Call) : MayCharge t c (record t c).key := by
  have hcharging := charging (h.ready c.nowMs) c.window (groupedClient c.client) c.ip c.nowMs
  change Charging _ _ _ _ _ (charged t c).1 (charged t c).2 at hcharging
  unfold MayCharge record
  cases hclient : c.client with
  | ip addr =>
    unfold charged
    rw [hclient]
    rfl
  | consumer id =>
    unfold charged
    rw [hclient]
    rfl
  | header short =>
    rw [hclient] at hcharging
    generalize (charged t c).1 = client, (charged t c).2 = t' at hcharging ⊢
    cases hcharging with
    | known _ => exact .inl rfl
    | redirected _ _ _ hfull =>
      refine .inr ⟨hfull, ?_⟩
      rw [Option.map_map]
      rfl
    | opened _ _ _ _ _ => exact .inl rfl

/-- Two addresses are counted as one: they are one IPv4 address in whatever spelling, or
IPv6 addresses with the same first 64 bits. -/
def OneGroup (a b : IpAddr) : Prop :=
  match a.toCanonical, b.toCanonical with
  | .v4 n, .v4 m => n = m
  | .v6 n, .v6 m => SharesFirst 64 n m
  | _, _ => False

theorem grouped_eq_iff (a b : IpAddr) : grouped a = grouped b ↔ OneGroup a b := by
  have hwords : ∀ n m : BitVec 128, (n >>> 64) <<< 64 = (m >>> 64) <<< 64 ↔ SharesFirst 64 n m := by
    intro n m
    rw [← shiftRight_eq_iff (by omega)]
    refine ⟨fun h => BitVec.eq_of_getLsbD_eq fun i hi => ?_, fun h => by rw [h]⟩
    have hbit := congrArg (fun z : BitVec 128 => z.getLsbD (64 + i)) h
    rw [BitVec.getLsbD_ushiftRight, BitVec.getLsbD_ushiftRight]
    by_cases hin : 64 + i < 128
    · simpa [hin] using hbit
    · rw [BitVec.getLsbD_of_ge _ _ (by omega), BitVec.getLsbD_of_ge _ _ (by omega)]
  unfold grouped OneGroup
  cases a.toCanonical <;> cases b.toCanonical <;> simp [hwords]

/-- The limiter against the counter that remembers everything. At every check of
a run, a charged request passes exactly when fewer than the limit have passed in
its key's window; the books are right; no window that has not ended is lost. An
address or a consumer is answered as if it were alone, and an address is known by
its IPv4 address or its first 64 bits. -/
theorem limiter_counts_exactly (limits : String → RateLimit) (calls : List Call)
    (hlimits : ∀ c ∈ calls, c.rl = limits c.window)
    (htimes : calls.Pairwise fun a b => a.nowMs ≤ b.nowMs) :
    (∀ before c rest, calls = before ++ c :: rest →
      MayCharge (after {} before) c (record (after {} before) c).key ∧
      (∀ key, (record (after {} before) c).key = some key →
        ((check (after {} before) c).1 = .allowed ↔
          passed (records before) key c.endsMs < c.rl.limit)) ∧
      (∀ key w, (after {} before).windows.lookup key = some w → c.nowMs < w.endsMs →
        ∃ w', (after {} (before ++ [c])).windows.lookup key = some w' ∧ w'.endsMs = w.endsMs ∧
          w.count ≤ w'.count)) ∧
    (∀ before, before <+: calls → ∀ window,
      (after {} before).held window = headerKeys (after {} before).windows window ∧
      (after {} before).held window ≤ headerWindowCap) ∧
    (∀ others key, (∀ c ∈ others, c.rl = limits c.window) →
      (others.Pairwise fun a b => a.nowMs ≤ b.nowMs) →
      (chargedTo key (records calls)).map Record.call =
        (chargedTo key (records others)).map Record.call →
      (chargedTo key (records calls)).map Record.outcome =
        (chargedTo key (records others)).map Record.outcome) ∧
    (∀ key, isHeader key.2 = false →
      (∀ r ∈ records calls, r.key = some key → r.call.own = key) →
      (records (calls.filter fun c => c.own = key)).map Record.outcome =
        (chargedTo key (records calls)).map Record.outcome) ∧
    (∀ a b, grouped a = grouped b ↔ OneGroup a b) := by
  have hordered : Ordered limits 0 calls := ⟨htimes, fun _ _ => Nat.zero_le _, hlimits⟩
  have hpre : ∀ before, before <+: calls → Ordered limits 0 before := by
    intro before hbefore
    exact ⟨htimes.sublist hbefore.sublist, fun _ _ => Nat.zero_le _,
      fun c hc => hlimits c (hbefore.subset hc)⟩
  refine ⟨?_, ?_, ?_, fun key hkey hown => outcomes_alone hordered hkey hown, grouped_eq_iff⟩
  · intro before c rest hsplit
    obtain ⟨hbooks, htally⟩ := (tallied_empty limits).run books_empty
      (hpre before ⟨c :: rest, hsplit.symm⟩)
    have hle : ∀ b ∈ before, b.nowMs ≤ c.nowMs := by
      rw [hsplit] at htimes
      intro b hb
      exact (List.pairwise_append.mp htimes).2.2 b hb c List.mem_cons_self
    have hnow := htally c.nowMs (Nat.zero_le _) hle
    have hrl := hlimits c (by rw [hsplit]; exact List.mem_append_right _ List.mem_cons_self)
    refine ⟨mayCharge_record hbooks c, ?_, ?_⟩
    · intro key hkey
      obtain ⟨client, hclient, rfl⟩ := Option.map_eq_some_iff.mp hkey
      rw [hnow.outcome hbooks (Nat.le_refl _) hrl hclient]
      unfold answer
      split
      next hlt => exact ⟨fun _ => hlt, fun _ => rfl⟩
      next hlt => exact ⟨fun h => (nomatch h), fun h => absurd h hlt⟩
    · intro key w hw hopen
      rw [show after {} (before ++ [c]) = (check (after {} before) c).2 by simp [after]]
      exact hnow.keeps hbooks (Nat.le_refl _) hrl hw hopen
  · intro before hbefore window
    obtain ⟨hbooks, -⟩ := (tallied_empty limits).run books_empty (hpre before hbefore)
    exact ⟨hbooks.held window, hbooks.capped window⟩
  · intro others key hlimits' htimes' hsame
    exact outcomes_of_calls_eq hordered ⟨htimes', fun _ _ => Nat.zero_le _, hlimits'⟩ hsame

/-- One request a second for a consumer, with an address in between. -/
def pacedCalls : List Call :=
  let rl : RateLimit := ⟨1, 1000, .consumer⟩
  [⟨"shop/api", .consumer "shop/mobile", none, rl, 0⟩,
    ⟨"shop/api", .ip (.v4 167772161), none, rl, 400⟩,
    ⟨"shop/api", .consumer "shop/mobile", none, rl, 900⟩,
    ⟨"shop/api", .consumer "shop/mobile", none, rl, 1000⟩]

theorem limiter_counts_exactly_paced :
    (records pacedCalls).map Record.outcome =
      [.allowed, .allowed, .limited 1 1, .allowed] ∧
    (chargedTo ("shop/api", .consumer "shop/mobile") (records pacedCalls)).map Record.outcome =
      (records (pacedCalls.filter fun c => c.own = ("shop/api", .consumer "shop/mobile"))).map
        Record.outcome := by
  refine ⟨by decide +kernel, ?_⟩
  obtain ⟨-, -, -, halone, -⟩ := limiter_counts_exactly (fun _ => ⟨1, 1000, .consumer⟩) pacedCalls
    (by decide +kernel) (by decide +kernel)
  exact (halone _ rfl (by decide +kernel)).symm

end Gapura.Proxy.RateCounter
