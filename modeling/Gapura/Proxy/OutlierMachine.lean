import Gapura.Proxy.Outlier

/-! # Outlier detection as a machine over outcomes

What an endpoint's record stands for, said in terms of the outcomes themselves:
it is clear, with the outcomes since it last was new or recovered, or it has
been ejected so many times since then, with the end of the last ejection and the
outcomes counted after it. `Tracks` ties the counters to that, one outcome at a
time. The registry hands the same record to every configuration that names an
address, and a new one after a configuration that does not. -/
namespace Gapura.Proxy.Outlier
open Gapura.Core Core.ClientIp Lib.Tables Select

/-! ## The machine -/

/-- Where an endpoint stands. The outcomes are newest first. -/
inductive Standing where
  | clear (log : List Outcome)
  | ejected (times endsAt : Nat) (log : List Outcome)
  deriving DecidableEq, Repr

def inARow (o : Outcome) (log : List Outcome) : Nat := (log.takeWhile (· == o)).length

/-- How long the `n`-th ejection since the last recovery lasts. -/
def ejectionMs (p : OutlierDetection) (n : Nat) : Nat :=
  min (p.baseEjectionMs * min n u32Max) p.maxEjectionMs

/-- When it ends, on a clock of 64 bits. -/
def ejectionEnd (p : OutlierDetection) (n nowMs : Nat) : Nat :=
  min (nowMs + ejectionMs p n) u64Max

def Standing.out (s : Standing) (nowMs : Nat) : Prop :=
  match s with
  | .clear _ => False
  | .ejected _ endsAt _ => nowMs < endsAt

def Standing.next (p : OutlierDetection) : Standing → Outcome × Nat → Standing × Option Nat
  | .clear log, (o, nowMs) =>
    if inARow .failure (o :: log) = p.consecutiveFailures then
      (.ejected 1 (ejectionEnd p 1 nowMs) [], some (ejectionMs p 1))
    else (.clear (o :: log), none)
  | .ejected n endsAt log, (o, nowMs) =>
    if nowMs < endsAt then (.ejected n endsAt log, none)
    else match o with
      | .failure =>
        (.ejected (n + 1) (ejectionEnd p (n + 1) nowMs) [], some (ejectionMs p (n + 1)))
      | .success =>
        if inARow .success (.success :: log) = p.successesToRecover then (.clear [], none)
        else (.ejected n endsAt (.success :: log), none)

def standing (p : OutlierDetection) (events : List (Outcome × Nat)) : Standing :=
  events.foldl (fun s e => (s.next p e).1) (.clear [])

/-- An endpoint's record after some outcomes, starting new. -/
def recorded (p : OutlierDetection) (events : List (Outcome × Nat)) : Health :=
  events.foldl (fun h e => (h.record e.1 e.2 p).1) {}

variable (o : Outcome)

@[simp] theorem inARow_nil : inARow o [] = 0 := rfl

@[simp] theorem inARow_same (log : List Outcome) : inARow o (o :: log) = inARow o log + 1 := by
  simp [inARow]

theorem inARow_other {o o' : Outcome} (h : o' ≠ o) (log : List Outcome) :
    inARow o (o' :: log) = 0 := by
  simp [inARow, h]

/-! ## The record follows it -/

section
variable {p : OutlierDetection}

/-- The counters of a record at a time, by where its endpoint stands. -/
def Tracks (p : OutlierDetection) (nowMs : Nat) (h : Health) : Standing → Prop
  | .clear log =>
    h.counts = { failures := inARow .failure log } ∧
      inARow .failure log < p.consecutiveFailures ∧ h.ejectedUntil ≤ min nowMs u64Max
  | .ejected n endsAt log =>
    1 ≤ n ∧ h.counts = { successes := inARow .success log, ejections := min n u32Max } ∧
      inARow .success log < p.successesToRecover ∧ h.ejectedUntil = endsAt ∧ endsAt ≤ u64Max

variable {s : Standing}

theorem Tracks.later {t t' : Nat} {h : Health} (hs : Tracks p t h s)
    (ht : t ≤ t') : Tracks p t' h s := by
  cases s with
  | clear log =>
    obtain ⟨hcounts, hrow, huntil⟩ := hs
    exact ⟨hcounts, hrow, by omega⟩
  | ejected n endsAt log => exact hs

theorem Tracks.isEjected {t : Nat} {h : Health} (hs : Tracks p t h s) :
    h.isEjected t = true ↔ s.out t := by
  cases s with
  | clear log =>
    obtain ⟨-, -, huntil⟩ := hs
    simp only [Health.isEjected, decide_eq_true_eq, Standing.out, iff_false]
    omega
  | ejected n endsAt log =>
    obtain ⟨-, -, -, huntil, -⟩ := hs
    simp [Health.isEjected, Standing.out, huntil]

/-- The source saturates twice on the way to the length of an ejection; the
policy's cap makes the second one idle. -/
theorem ejectionMs_eq (p : OutlierDetection) (n : Nat) :
    min (saturating u64Max (p.baseEjectionMs * min n u32Max)) p.maxEjectionMs =
      ejectionMs p n := by
  have hmax := p.max_fits
  simp only [saturating, ejectionMs]
  omega

/-- What a failure that ejects does, for the `n`-th time. -/
def Health.out (p : OutlierDetection) (n nowMs : Nat) : Health where
  counts := { ejections := min n u32Max }
  ejectedUntil := ejectionEnd p n nowMs

theorem tracks_out (hr : 1 ≤ p.successesToRecover) (n t : Nat) :
    Tracks p t (Health.out p (n + 1) t) (.ejected (n + 1) (ejectionEnd p (n + 1) t) []) :=
  ⟨by omega, rfl, hr, rfl, Nat.min_le_right _ _⟩

theorem record_ejected {h : Health} {t : Nat} (hout : h.isEjected t = true) (o : Outcome) :
    h.record o t p = (h, none) := by
  simp [Health.record, hout]

section
variable {h : Health} {t : Nat} (hc : p.consecutiveFailures ≠ 0) (hin : h.isEjected t = false)
include hc hin

theorem record_success_clear (hejections : h.counts.ejections = 0) :
    h.record .success t p = ({ h with counts := { h.counts with failures := 0 } }, none) := by
  simp [Health.record, hc, hin, hejections]

theorem record_success_probation (hejections : 0 < h.counts.ejections)
    (hsuccesses : h.counts.successes < p.successesToRecover) :
    h.record .success t p =
      (if h.counts.successes + 1 = p.successesToRecover then { h with counts := {} }
      else { h with
        counts := { h.counts with failures := 0, successes := h.counts.successes + 1 } },
      none) := by
  have hfit := p.successes_fit
  have hwrap : (h.counts.successes + 1) % 2 ^ 32 = h.counts.successes + 1 :=
    Nat.mod_eq_of_lt (by unfold u32Max at hfit; omega)
  have hreached : h.counts.successes + 1 ≥ p.successesToRecover ↔
      h.counts.successes + 1 = p.successesToRecover := by omega
  simp only [Health.record, hc, hin, if_false, Bool.false_eq_true, gt_iff_lt, hejections, if_true,
    hwrap, hreached]
  split <;> rfl

theorem record_failure_count (hejections : h.counts.ejections = 0)
    (hfailures : h.counts.failures + 1 < p.consecutiveFailures) :
    h.record .failure t p =
      ({ h with counts := { h.counts with
        successes := 0, failures := h.counts.failures + 1 } }, none) := by
  have hfit := p.failures_fit
  have hsum : saturating u32Max (h.counts.failures + 1) = h.counts.failures + 1 := by
    unfold saturating
    omega
  simp only [Health.record, hc, hin, if_false, Bool.false_eq_true, hsum, hejections, gt_iff_lt,
    Nat.lt_irrefl, hfailures, if_true]

theorem record_failure_eject {n : Nat} (hejections : h.counts.ejections = min n u32Max)
    (hreached : ¬ saturating u32Max (h.counts.failures + 1) <
      if h.counts.ejections > 0 then 1 else p.consecutiveFailures) :
    h.record .failure t p = (Health.out p (n + 1) t, some (ejectionMs p (n + 1))) := by
  have hnext : saturating u32Max (h.counts.ejections + 1) = min (n + 1) u32Max := by
    simp only [saturating, hejections]
    omega
  simp only [Health.record, hc, hin, if_false, Bool.false_eq_true, hreached, hnext,
    ejectionMs_eq]
  rfl

end

section
variable {h : Health} {t : Nat} (hc : 1 ≤ p.consecutiveFailures) (hr : 1 ≤ p.successesToRecover)
include hc

variable {log : List Outcome}

theorem Tracks.record_clear_success (hs : Tracks p t h (.clear log)) :
    Tracks p t (h.record .success t p).1 ((Standing.clear log).next p (.success, t)).1 ∧
      (h.record .success t p).2 = ((Standing.clear log).next p (.success, t)).2 := by
  have hin : h.isEjected t = false := by simpa [Standing.out] using hs.isEjected
  obtain ⟨hcounts, -, huntil⟩ := hs
  have hzero : inARow .failure (.success :: log) = 0 := inARow_other (by decide) log
  rw [record_success_clear (by omega) hin (by rw [hcounts]), Standing.next,
    if_neg (by omega)]
  exact ⟨⟨by rw [hcounts, hzero], by omega, huntil⟩, rfl⟩

include hr

theorem Tracks.record_clear_failure (hs : Tracks p t h (.clear log)) :
    Tracks p t (h.record .failure t p).1 ((Standing.clear log).next p (.failure, t)).1 ∧
      (h.record .failure t p).2 = ((Standing.clear log).next p (.failure, t)).2 := by
  have hc' : p.consecutiveFailures ≠ 0 := by omega
  have hfit := p.failures_fit
  have hin : h.isEjected t = false := by simpa [Standing.out] using hs.isEjected
  obtain ⟨hcounts, hrow, huntil⟩ := hs
  have hfailures : h.counts.failures = inARow .failure log := by rw [hcounts]
  have hzero : h.counts.ejections = min 0 u32Max := by rw [hcounts]; rfl
  simp only [Standing.next, inARow_same]
  split
  next hreached =>
    have hsum : saturating u32Max (h.counts.failures + 1) = p.consecutiveFailures := by
      rw [hfailures, saturating]
      omega
    rw [record_failure_eject hc' hin hzero (by rw [hsum, hzero]; simp)]
    exact ⟨tracks_out hr 0 t, rfl⟩
  next hnot =>
    rw [record_failure_count hc' hin (by rw [hcounts]) (by omega)]
    refine ⟨⟨by simp [hcounts], ?_, huntil⟩, rfl⟩
    rw [inARow_same]
    omega

/-- On probation, which the end of an ejection begins. -/
theorem Tracks.record_probation {n endsAt : Nat}
    (hs : Tracks p t h (.ejected n endsAt log)) (hover : ¬ t < endsAt) (o : Outcome) :
    Tracks p t (h.record o t p).1 ((Standing.ejected n endsAt log).next p (o, t)).1 ∧
      (h.record o t p).2 = ((Standing.ejected n endsAt log).next p (o, t)).2 := by
  have hc' : p.consecutiveFailures ≠ 0 := by omega
  have hin : h.isEjected t = false := by simpa [Standing.out, hover] using hs.isEjected
  obtain ⟨hn, hcounts, hrow, huntil, hclock⟩ := hs
  have hejections : h.counts.ejections = min n u32Max := by rw [hcounts]
  have hpos : 0 < h.counts.ejections := by
    unfold u32Max at hejections
    omega
  simp only [Standing.next, if_neg hover]
  cases o with
  | failure =>
    have hreached : ¬ saturating u32Max (h.counts.failures + 1) <
        if h.counts.ejections > 0 then 1 else p.consecutiveFailures := by
      rw [if_pos hpos, hcounts]
      simp [saturating, u32Max]
    rw [record_failure_eject hc' hin hejections hreached]
    exact ⟨tracks_out hr n t, rfl⟩
  | success =>
    rw [record_success_probation hc' hin hpos (by rw [hcounts]; exact hrow)]
    simp only [hcounts, inARow_same]
    split
    · exact ⟨⟨rfl, hc, by rw [huntil]; omega⟩, rfl⟩
    · refine ⟨⟨hn, by simp, ?_, huntil, hclock⟩, rfl⟩
      rw [inARow_same]
      omega

/-- One outcome moves the record as it moves the machine, with the same answer. -/
theorem Tracks.record {s : Standing} (hs : Tracks p t h s) (o : Outcome) :
    Tracks p t (h.record o t p).1 (s.next p (o, t)).1 ∧
      (h.record o t p).2 = (s.next p (o, t)).2 := by
  cases s with
  | clear log =>
    cases o with
    | success => exact hs.record_clear_success hc
    | failure => exact hs.record_clear_failure hc hr
  | ejected n endsAt log =>
    by_cases hwait : t < endsAt
    · have hkept : h.record o t p = (h, none) := record_ejected (hs.isEjected.mpr hwait) o
      simp only [hkept, Standing.next, if_pos hwait]
      exact ⟨hs, trivial⟩
    · exact hs.record_probation hc hr hwait o

end

/-- The end of an ejection never moves back: only a record that is not ejected
is given a new one, and it lies in the future. -/
theorem ejectedUntil_le_record {h : Health} {t : Nat} (hclock : h.ejectedUntil ≤ u64Max)
    (o : Outcome) : h.ejectedUntil ≤ (h.record o t p).1.ejectedUntil := by
  unfold Health.record
  split
  · exact Nat.le_refl _
  split
  · exact Nat.le_refl _
  rename_i hin
  have hpast : h.ejectedUntil ≤ t := by
    simpa [Health.isEjected] using hin
  cases o with
  | success =>
    simp only
    split
    · split <;> exact Nat.le_refl _
    · exact Nat.le_refl _
  | failure =>
    simp only
    generalize (if h.counts.ejections > 0 then 1 else p.consecutiveFailures) = threshold
    split
    · exact Nat.le_refl _
    · simp only [saturating]
      omega

theorem Tracks.ejectedUntil_le {t : Nat} {h : Health} (hs : Tracks p t h s) :
    h.ejectedUntil ≤ u64Max := by
  cases s with
  | clear log =>
    obtain ⟨-, -, huntil⟩ := hs
    omega
  | ejected n endsAt log =>
    obtain ⟨-, -, -, huntil, hclock⟩ := hs
    omega

/-- After outcomes at times that do not go back, the record stands where the
machine does. -/
theorem tracks_recorded (hc : 1 ≤ p.consecutiveFailures) (hr : 1 ≤ p.successesToRecover)
    {events : List (Outcome × Nat)} {t : Nat} (hsorted : (events.map Prod.snd).Pairwise (· ≤ ·))
    (hle : ∀ e ∈ events, e.2 ≤ t) : Tracks p t (recorded p events) (standing p events) := by
  induction events using List.reverseRecOn generalizing t with
  | nil => exact ⟨rfl, hc, Nat.zero_le _⟩
  | append_singleton events e ih =>
    rw [List.map_append, List.pairwise_append] at hsorted
    obtain ⟨hpast, -, hlast⟩ := hsorted
    have hbefore := ih hpast fun e' he' =>
      hlast e'.2 (List.mem_map_of_mem he') e.2 (by simp)
    have hstep := (hbefore.record hc hr e.1).1.later (hle e (by simp))
    simpa only [recorded, standing, List.foldl_append, List.foldl_cons, List.foldl_nil] using hstep

end

/-! ## Records across configurations -/

section
variable {parseIp : String → Option IpAddr} {names : SocketAddr → Prop}

/-- One registry comes from another by giving new records to addresses of
`names` that had none. -/
structure Grows (names : SocketAddr → Prop) (r r' : Registry) : Prop where
  kept : ∀ addr id, r.known.lookup addr = some id → r'.known.lookup addr = some id
  records : r.records <+: r'.records
  made : ∀ addr id, r'.known.lookup addr = some id → r.known.lookup addr = some id ∨
    (names addr ∧ r.records.length ≤ id ∧ r'.records[id]? = some {})

theorem Grows.refl (names : SocketAddr → Prop) (r : Registry) : Grows names r r :=
  ⟨fun _ _ => id, List.prefix_rfl, fun _ _ => .inl⟩

theorem Grows.trans {r r' r'' : Registry} (h : Grows names r r') (h' : Grows names r' r'') :
    Grows names r r'' where
  kept addr id hid := h'.kept addr id (h.kept addr id hid)
  records := h.records.trans h'.records
  made addr id hid := by
    obtain hold | ⟨hname, hlen, hnew⟩ := h'.made addr id hid
    · obtain hold | ⟨hname, hlen, hnew⟩ := h.made addr id hold
      · exact .inl hold
      · refine .inr ⟨hname, hlen, ?_⟩
        obtain ⟨hlt, -⟩ := List.getElem?_eq_some_iff.mp hnew
        obtain ⟨more, hmore⟩ := h'.records
        rw [← hmore, List.getElem?_append_left hlt, hnew]
    · exact .inr ⟨hname, h.records.length_le.trans hlen, hnew⟩

variable (r : Registry) {addr : SocketAddr} {config : Config}

theorem entry_grows (hname : names addr) : Grows names r (r.entry addr).2 := by
  unfold Registry.entry
  cases hknown : r.known.lookup addr with
  | some id => exact Grows.refl names r
  | none =>
    refine ⟨fun a id hid => ?_, List.prefix_append _ _, fun a id hid => ?_⟩
    · have hne : a ≠ addr := by
        rintro rfl
        rw [hknown] at hid
        cases hid
      simpa [AList.lookup_insert_ne hne] using hid
    · by_cases ha : a = addr
      · subst ha
        obtain rfl : r.records.length = id := by simpa using hid
        exact .inr ⟨hname, Nat.le_refl _, by simp⟩
      · exact .inl (by simpa [AList.lookup_insert_ne ha] using hid)

theorem lookup_entry (addr : SocketAddr) :
    (r.entry addr).2.known.lookup addr = some (r.entry addr).1 := by
  unfold Registry.entry
  cases hknown : r.known.lookup addr with
  | some id => exact hknown
  | none => simp

/-- The records the endpoints of a cluster have in a registry. -/
def recordsOf (parseIp : String → Option IpAddr) (r : Registry) (endpoints : List Endpoint) :
    List (Option Nat) :=
  endpoints.map fun e => (endpointAddr parseIp e).bind r.known.lookup

/-- What a loop over endpoints hands out are their records, from then on. -/
theorem entries_spec (endpoints : List Endpoint) (r : Registry)
    (hnames : ∀ e ∈ endpoints, ∀ addr, endpointAddr parseIp e = some addr → names addr) :
    Grows names r (r.entries parseIp endpoints).2 ∧
    (∀ e ∈ endpoints, ∀ addr, endpointAddr parseIp e = some addr →
      ((r.entries parseIp endpoints).2.known.lookup addr).isSome = true) ∧
    ∀ r', Grows names (r.entries parseIp endpoints).2 r' →
      (r.entries parseIp endpoints).1 = recordsOf parseIp r' endpoints := by
  induction endpoints generalizing r with
  | nil => exact ⟨Grows.refl names r, by simp, fun r' _ => rfl⟩
  | cons e rest ih =>
    have hrest := fun e' he' => hnames e' (List.mem_cons_of_mem e he')
    cases haddr : endpointAddr parseIp e with
    | none =>
      obtain ⟨hgrows, hsome, hids⟩ := ih r hrest
      simp only [Registry.entries, haddr]
      refine ⟨hgrows, ?_, fun r' hr' => ?_⟩
      · rintro e' he' addr ha
        obtain rfl | he' := List.mem_cons.mp he'
        · rw [haddr] at ha
          cases ha
        · exact hsome e' he' addr ha
      · simp [recordsOf, haddr, hids r' hr']
    | some addr =>
      have hfirst := entry_grows r (hnames e (by simp) addr haddr)
      obtain ⟨hgrows, hsome, hids⟩ := ih (r.entry addr).2 hrest
      have hlookup := hgrows.kept addr _ (lookup_entry r addr)
      simp only [Registry.entries, haddr]
      refine ⟨hfirst.trans hgrows, ?_, fun r' hr' => ?_⟩
      · rintro e' he' addr' ha
        obtain rfl | he' := List.mem_cons.mp he'
        · rw [haddr] at ha
          cases ha
          rw [hlookup]
          rfl
        · exact hsome e' he' addr' ha
      · simp [recordsOf, haddr, hids r' hr', hr'.kept addr _ hlookup]

/-- The addresses of some clusters. -/
def NamedIn (parseIp : String → Option IpAddr) (clusters : List (String × Cluster))
    (addr : SocketAddr) : Prop :=
  ∃ c ∈ clusters, ∃ e ∈ c.2.endpoints, endpointAddr parseIp e = some addr

theorem syncClusters_spec (parseIp : String → Option IpAddr) (names : SocketAddr → Prop)
    (clusters : List (String × Cluster)) (r : Registry) (out : ClusterHealth)
    (hnames : ∀ addr, NamedIn parseIp clusters addr → names addr) :
    Grows names r (r.syncClusters parseIp out clusters).2 ∧
    (∀ addr, NamedIn parseIp clusters addr →
      ((r.syncClusters parseIp out clusters).2.known.lookup addr).isSome = true) ∧
    (∀ key, key ∉ clusters.map Prod.fst →
      (r.syncClusters parseIp out clusters).1.lookup key = out.lookup key) ∧
    ((clusters.map Prod.fst).Nodup → ∀ c ∈ clusters,
      (r.syncClusters parseIp out clusters).1.lookup c.1 =
        some (recordsOf parseIp (r.syncClusters parseIp out clusters).2 c.2.endpoints)) := by
  induction clusters generalizing r out with
  | nil => exact ⟨Grows.refl names r, by simp [NamedIn], fun _ _ => rfl, by simp⟩
  | cons c rest ih =>
    obtain ⟨key, cluster⟩ := c
    have hhere : ∀ e ∈ cluster.endpoints, ∀ addr, endpointAddr parseIp e = some addr →
        names addr := fun e he addr ha => hnames addr ⟨_, List.mem_cons_self, e, he, ha⟩
    have hthere : ∀ addr, NamedIn parseIp rest addr → names addr := by
      rintro addr ⟨c, hc, hin⟩
      exact hnames addr ⟨c, List.mem_cons_of_mem _ hc, hin⟩
    obtain ⟨hfirst, hfirstSome, hids⟩ := entries_spec cluster.endpoints r hhere
    obtain ⟨hgrows, hsome, hout, hall⟩ := ih (r.entries parseIp cluster.endpoints).2
      (out.insert key (r.entries parseIp cluster.endpoints).1) hthere
    simp only [Registry.syncClusters]
    refine ⟨hfirst.trans hgrows, ?_, ?_, ?_⟩
    · rintro addr ⟨c, hc, e, he, ha⟩
      obtain rfl | hc := List.mem_cons.mp hc
      · obtain ⟨id, hid⟩ := Option.isSome_iff_exists.mp (hfirstSome e he addr ha)
        rw [hgrows.kept addr id hid]
        rfl
      · exact hsome addr ⟨c, hc, e, he, ha⟩
    · intro k hk
      simp only [List.map_cons, List.mem_cons, not_or] at hk
      rw [hout k hk.2, AList.lookup_insert_ne hk.1]
    · intro hnodup c hc
      rw [List.map_cons, List.nodup_cons] at hnodup
      obtain rfl | hc := List.mem_cons.mp hc
      · rw [hout key hnodup.1, AList.lookup_insert]
        exact congrArg some (hids _ hgrows)
      · exact hall hnodup.2 c hc

theorem mem_namedBy :
    addr ∈ namedBy parseIp config ↔ NamedIn parseIp config.clusters.toList addr := by
  simp only [namedBy, List.mem_flatMap, List.mem_filterMap, NamedIn]

/-- One configuration's sync: the records of the addresses it names stay, those
it names anew are new, and every other address loses its own. -/
structure Synced (parseIp : String → Option IpAddr) (config : Config) (r r' : Registry) :
    Prop where
  kept : ∀ addr ∈ namedBy parseIp config, ∀ id, r.known.lookup addr = some id →
    r'.known.lookup addr = some id
  dropped : ∀ addr ∉ namedBy parseIp config, r'.known.lookup addr = none
  records : r.records <+: r'.records
  fresh : ∀ addr ∈ namedBy parseIp config, r.known.lookup addr = none →
    ∃ id, r'.known.lookup addr = some id ∧ r.records.length ≤ id ∧ r'.records[id]? = some {}

theorem sync_synced (parseIp : String → Option IpAddr) (r : Registry) (config : Config) :
    Synced parseIp config r (r.sync parseIp config).2 := by
  obtain ⟨hgrows, hsome, -, -⟩ := syncClusters_spec parseIp (· ∈ namedBy parseIp config)
    config.clusters.toList
    { r with known := retain r.known fun addr _ => (namedBy parseIp config).contains addr } ∅
    (fun addr h => mem_namedBy.mpr h)
  have hretain : ∀ addr, (retain r.known fun addr _ =>
      (namedBy parseIp config).contains addr).lookup addr =
        if addr ∈ namedBy parseIp config then r.known.lookup addr else none := by
    intro addr
    rw [lookup_retain]
    by_cases hin : addr ∈ namedBy parseIp config
    · cases hknown : r.known.lookup addr <;> simp [hin]
    · simp [hin]
  refine ⟨fun addr hin id hid => ?_, fun addr hout => ?_, hgrows.records, fun addr hin hnone => ?_⟩
  · exact hgrows.kept addr id (by rw [hretain, if_pos hin, hid])
  · rw [Option.eq_none_iff_forall_ne_some]
    intro id hid
    obtain hold | ⟨hname, -⟩ := hgrows.made addr id hid
    · rw [hretain, if_neg hout] at hold
      cases hold
    · exact hout hname
  · obtain ⟨id, hid⟩ := Option.isSome_iff_exists.mp (hsome addr (mem_namedBy.mp hin))
    refine ⟨id, hid, ?_⟩
    obtain hold | ⟨-, hnew⟩ := hgrows.made addr id hid
    · rw [hretain, if_pos hin, hnone] at hold
      cases hold
    · exact hnew

/-- What a generation holds for its clusters are the registry's own records. -/
theorem lookup_sync {key : String} {cluster : Cluster} (h : config.clusters[key]? = some cluster) :
    (r.sync parseIp config).1.lookup key =
      some (recordsOf parseIp (r.sync parseIp config).2 cluster.endpoints) := by
  obtain ⟨-, -, -, hall⟩ := syncClusters_spec parseIp (fun _ => True) config.clusters.toList
    { r with known := retain r.known fun addr _ => (namedBy parseIp config).contains addr } ∅
    (fun _ _ => trivial)
  refine hall ?_ (key, cluster) (Std.TreeMap.mem_toList_iff_getElem?_eq_some.mpr h)
  rw [Std.TreeMap.map_fst_toList_eq_keys]
  exact Std.TreeMap.nodup_keys

/-! ## Runs -/

/-- What happens to the registry: a new configuration, or an outcome against a
record some generation holds. -/
inductive Op where
  | sync (config : Config)
  | record (id : Nat) (p : OutlierDetection) (outcome : Outcome) (nowMs : Nat)

def Registry.step (parseIp : String → Option IpAddr) (r : Registry) : Op → Registry
  | .sync config => (r.sync parseIp config).2
  | .record id p outcome nowMs =>
    { r with records := r.records.modify id fun h => (h.record outcome nowMs p).1 }

def Registry.run (parseIp : String → Option IpAddr) (r : Registry) (ops : List Op) : Registry :=
  ops.foldl (Registry.step parseIp) r

/-- A record after its own outcomes among some operations. -/
def ownOutcomes (id : Nat) (h : Health) (ops : List Op) : Health :=
  ops.foldl (fun h op => match op with
    | .sync _ => h
    | .record id' p outcome nowMs => if id' = id then (h.record outcome nowMs p).1 else h) h

variable {ops : List Op}

/-- While every configuration names an address it keeps its record, which only
outcomes recorded against it change. -/
theorem run_kept {r : Registry} {id : Nat} {h : Health}
    (hknown : r.known.lookup addr = some id) (hrecord : r.records[id]? = some h)
    (hnamed : ∀ config, Op.sync config ∈ ops → addr ∈ namedBy parseIp config) :
    (r.run parseIp ops).known.lookup addr = some id ∧
      (r.run parseIp ops).records[id]? = some (ownOutcomes id h ops) := by
  induction ops generalizing r h with
  | nil => exact ⟨hknown, hrecord⟩
  | cons op ops ih =>
    have hrest := fun config hin => hnamed config (List.mem_cons_of_mem op hin)
    cases op with
    | sync config =>
      have hsync := sync_synced parseIp r config
      obtain ⟨more, hmore⟩ := hsync.records
      obtain ⟨hlt, -⟩ := List.getElem?_eq_some_iff.mp hrecord
      refine ih (hsync.kept addr (hnamed config List.mem_cons_self) id hknown) ?_ hrest
      show (r.sync parseIp config).2.records[id]? = some h
      rw [← hmore, List.getElem?_append_left hlt, hrecord]
    | record id' p outcome nowMs =>
      refine ih (r := r.step parseIp (.record id' p outcome nowMs)) hknown ?_ hrest
      simp only [Registry.step, List.getElem?_modify, hrecord]
      split <;> rfl

theorem run_dropped {r : Registry} (hknown : r.known.lookup addr = none)
    (hnamed : ∀ config, Op.sync config ∈ ops → addr ∉ namedBy parseIp config) :
    (r.run parseIp ops).known.lookup addr = none := by
  induction ops generalizing r with
  | nil => exact hknown
  | cons op ops ih =>
    have hrest := fun config hin => hnamed config (List.mem_cons_of_mem op hin)
    cases op with
    | sync config =>
      exact ih ((sync_synced parseIp r config).dropped addr (hnamed config List.mem_cons_self)) hrest
    | record id' p outcome nowMs => exact ih hknown hrest

/-- A generation asks about the endpoint at an index through the record its
address had, whatever became of the registry since. -/
theorem ejectedAt_recordsOf {r later : Registry} {endpoints : List Endpoint} {i id : Nat}
    {e : Endpoint} {h : Health} (he : endpoints[i]? = some e)
    (haddr : endpointAddr parseIp e = some addr) (hknown : r.known.lookup addr = some id)
    (hrecord : later.records[id]? = some h) (nowMs : Nat) :
    ejectedAt later (recordsOf parseIp r endpoints) nowMs i = h.isEjected nowMs := by
  have hid : (recordsOf parseIp r endpoints)[i]? = some (some id) := by
    simp [recordsOf, he, haddr, hknown]
  simp only [ejectedAt, hid, hrecord]

end

/-- Over any outcomes at times that do not go back, a record answers as the
machine does; and over any configurations and outcomes, an address every
configuration names keeps its record, while one that a configuration left out
gets a new one when it returns. What a generation holds are those records. -/
theorem outlier_follows_machine (parseIp : String → Option IpAddr) (p : OutlierDetection)
    (hc : 1 ≤ p.consecutiveFailures) (hr : 1 ≤ p.successesToRecover) :
    (∀ past o t, ((past ++ [(o, t)]).map Prod.snd).Pairwise (· ≤ ·) →
      ((recorded p past).isEjected t = true ↔ (standing p past).out t) ∧
      ((recorded p past).isEjected t = true →
        (recorded p past).record o t p = (recorded p past, none)) ∧
      ((recorded p past).record o t p).2 = ((standing p past).next p (o, t)).2 ∧
      (recorded p past).ejectedUntil ≤ ((recorded p past).record o t p).1.ejectedUntil) ∧
    (∀ (r : Registry) addr id h ops, r.known.lookup addr = some id →
      r.records[id]? = some h →
      (∀ config, Op.sync config ∈ ops → addr ∈ namedBy parseIp config) →
      (r.run parseIp ops).known.lookup addr = some id ∧
        (r.run parseIp ops).records[id]? = some (ownOutcomes id h ops)) ∧
    (∀ (r : Registry) addr without ops config, addr ∉ namedBy parseIp without →
      (∀ config, Op.sync config ∈ ops → addr ∉ namedBy parseIp config) →
      addr ∈ namedBy parseIp config →
      ∃ id, (r.run parseIp (.sync without :: ops ++ [.sync config])).known.lookup addr =
          some id ∧
        (r.run parseIp (.sync without :: ops)).records.length ≤ id ∧
        (r.run parseIp (.sync without :: ops ++ [.sync config])).records[id]? = some {}) ∧
    ∀ (r : Registry) config key cluster, config.clusters[key]? = some cluster →
      ∃ ids, (r.sync parseIp config).1.lookup key = some ids ∧
        ∀ i e addr id, cluster.endpoints[i]? = some e → endpointAddr parseIp e = some addr →
          (r.sync parseIp config).2.known.lookup addr = some id →
          ∀ (later : Registry) h nowMs, later.records[id]? = some h →
            ejectedAt later ids nowMs i = h.isEjected nowMs := by
  refine ⟨?outcomes, ?kept, ?fresh, ?held⟩
  case outcomes =>
    intro past o t hsorted
    rw [List.map_append, List.pairwise_append] at hsorted
    obtain ⟨hpast, -, hlast⟩ := hsorted
    have htracks := tracks_recorded hc hr hpast fun e he =>
      hlast e.2 (List.mem_map_of_mem he) t (by simp)
    exact ⟨htracks.isEjected, fun hout => record_ejected hout o, (htracks.record hc hr o).2,
      ejectedUntil_le_record htracks.ejectedUntil_le o⟩
  case held =>
    intro r config key cluster hcluster
    refine ⟨_, lookup_sync r hcluster, ?_⟩
    intro i e addr id he haddr hknown later h nowMs hrecord
    exact ejectedAt_recordsOf he haddr hknown hrecord nowMs
  case kept =>
    intro r addr id h ops hknown hrecord hnamed
    exact run_kept hknown hrecord hnamed
  case fresh =>
    intro r addr without ops config hout hnamed hin
    have hgone : (r.run parseIp (.sync without :: ops)).known.lookup addr = none :=
      run_dropped (r := r.step parseIp (.sync without))
        ((sync_synced parseIp r without).dropped addr hout) hnamed
    have hback := (sync_synced parseIp (r.run parseIp (.sync without :: ops)) config).fresh addr
      hin hgone
    simpa only [Registry.run, List.foldl_append, List.foldl_cons, List.foldl_nil,
      Registry.step] using hback

def noEndpoint : Config where
  listeners := []
  ports := ∅
  clusters := ∅
  credentials := ∅
  credentialWorkspaces := ∅
  consumerRateLimits := ∅
  consumers := ∅

def oneCluster : Cluster where
  endpoints := [⟨"10.0.0.1", 80⟩]
  tls := none
  resolve := none

def oneEndpoint : Config := { noEndpoint with clusters := .ofList [("a", oneCluster)] }

def parseOne (text : String) : Option IpAddr :=
  if text = "10.0.0.1" then some (.v4 0x0a000001) else none

theorem outlier_follows_machine_default :
    ((recorded {} (List.replicate 4 (.failure, 7))).record .failure 7 {}).2 = some 30000 ∧
    ∃ id, (({} : Registry).run parseOne [.sync oneEndpoint, .sync noEndpoint,
        .sync oneEndpoint]).known.lookup (.v4 0x0a000001, 80) = some id ∧ 1 ≤ id := by
  have hfollows := outlier_follows_machine parseOne {} (by decide) (by decide)
  refine ⟨?_, ?_⟩
  · have hanswer := (hfollows.1 (List.replicate 4 (.failure, 7)) .failure 7 (by decide)).2.2.1
    exact hanswer.trans (by decide +kernel)
  · obtain ⟨id, hid, hle, -⟩ := hfollows.2.2.1
      (({} : Registry).run parseOne [.sync oneEndpoint]) (.v4 0x0a000001, 80) noEndpoint []
      oneEndpoint (by decide +kernel) (by simp) (by decide +kernel)
    exact ⟨id, hid, Nat.le_trans (by decide +kernel) hle⟩

/-- Every failure ejects, for a millisecond longer each time. -/
def stern : OutlierDetection where
  consecutiveFailures := 1
  baseEjectionMs := 1
  maxEjectionMs := 2 ^ 32

/-- Failures that each come once the ejection before is over. -/
def hammered (k : Nat) : List (Outcome × Nat) :=
  (List.range k).map fun i => (.failure, 2 ^ 32 * i)

theorem record_hammered {h : Health} {n : Nat} (hejections : h.counts.ejections = min n u32Max)
    (hover : h.ejectedUntil ≤ 2 ^ 32 * n) : h.record .failure (2 ^ 32 * n) stern =
      (Health.out stern (n + 1) (2 ^ 32 * n), some (ejectionMs stern (n + 1))) := by
  refine record_failure_eject (by decide) (by simpa [Health.isEjected] using hover) hejections ?_
  show ¬ saturating u32Max (h.counts.failures + 1) < if h.counts.ejections > 0 then 1 else 1
  rw [ite_self]
  unfold saturating u32Max
  omega

theorem recorded_hammered (k : Nat) : (recorded stern (hammered k)).counts.ejections = min k u32Max ∧
    (recorded stern (hammered k)).ejectedUntil ≤ 2 ^ 32 * k := by
  induction k with
  | zero => simp [recorded, hammered]
  | succ k ih =>
    have hlast : recorded stern (hammered (k + 1)) =
        ((recorded stern (hammered k)).record .failure (2 ^ 32 * k) stern).1 := by
      simp [recorded, hammered, List.range_succ]
    rw [hlast, record_hammered ih.1 ih.2]
    refine ⟨rfl, ?_⟩
    simp only [Health.out, ejectionEnd, ejectionMs, stern]
    omega

/-- At the end of the clock an ejection is over as it begins: the fifth failure
ejects for thirty seconds, and the endpoint is not ejected. And past 2^32 - 1
ejections the count stands still: the next one is no longer than the one before. -/
theorem ejection_cut_at_clock_end :
    ((recorded {} (List.replicate 4 (.failure, u64Max))).record .failure u64Max {}).2 =
      some 30000 ∧
    (recorded {} (List.replicate 5 (.failure, u64Max))).isEjected u64Max = false ∧
    ((recorded stern (hammered u32Max)).record .failure (2 ^ 32 * u32Max) stern).2 =
      some u32Max := by
  have hlength : ejectionMs stern (u32Max + 1) = u32Max := by
    simp only [ejectionMs, stern, u32Max]
    omega
  obtain ⟨hejections, hover⟩ := recorded_hammered u32Max
  refine ⟨by decide +kernel, by decide +kernel, ?_⟩
  rw [record_hammered hejections hover, hlength]

end Gapura.Proxy.Outlier
