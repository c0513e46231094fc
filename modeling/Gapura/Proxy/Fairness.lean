import Gapura.Lib.Residues
import Gapura.Proxy.Selection

/-! # How an ejected endpoint's share is spread

A cursor that falls on an ejected endpoint is sent to the healthy one at the
same cursor modulo their number. Over `n * h` cursors, `n` endpoints of which
`h` are healthy, each healthy endpoint gets its own `h` turns, and of the
ejected ones' turns those whose index agrees with its rank modulo the greatest
common divisor of `n` and `h`. The turns are spread evenly exactly when every
class of indices modulo that divisor holds as many ejected ones; with a divisor
of one that is always so. -/
namespace Gapura.Proxy.Select
open Gapura.Core Core.ClientIp Lib.Residues

def healthyIndices (n : Nat) (ejected : Nat → Bool) : List Nat :=
  (List.range n).filter (!ejected ·)

/-- How often the endpoint at an index is picked in a run of cursors, nothing
tried yet. -/
def picks (parseIp : String → Option IpAddr) (cluster : Cluster) (ejected : Nat → Bool)
    (maxEjectedPercent start turns i : Nat) : Nat :=
  (List.range' start turns).countP fun cursor =>
    (pickEndpoint parseIp cluster cursor [] ejected maxEjectedPercent).toOption.map Prod.fst ==
      some i

/-- The common divisor of the number of endpoints and of healthy ones. -/
def shares (n : Nat) (ejected : Nat → Bool) : Nat :=
  Nat.gcd n (healthyIndices n ejected).length

/-- How many ejected indices leave the remainder `r` modulo `shares`. -/
def ejectedIn (n : Nat) (ejected : Nat → Bool) (r : Nat) : Nat :=
  (List.range n).countP fun e => ejected e && e % shares n ejected == r

/-- Every class of indices modulo `shares` holds as many ejected ones. -/
def EvenlyEjected (n : Nat) (ejected : Nat → Bool) : Prop :=
  ∀ r < shares n ejected, ∀ r' < shares n ejected, ejectedIn n ejected r = ejectedIn n ejected r'

/-! ## One pick -/

/-- A cluster whose endpoints all parse, with some healthy and no panic. -/
structure Serving (parseIp : String → Option IpAddr) (cluster : Cluster) (ejected : Nat → Bool)
    (maxEjectedPercent : Nat) : Prop where
  parses : ∀ e ∈ cluster.endpoints, (endpointAddr parseIp e).isSome = true
  within : ((List.range cluster.endpoints.length).filter ejected).length * 100 ≤
    cluster.endpoints.length * maxEjectedPercent
  healthy : ∃ i < cluster.endpoints.length, ejected i = false

section
variable {parseIp : String → Option IpAddr} {cluster : Cluster} {ejected : Nat → Bool}
variable {maxEjectedPercent : Nat}

variable {i : Nat}

theorem Serving.untried (hs : Serving parseIp cluster ejected maxEjectedPercent)
    (hi : i < cluster.endpoints.length) : (untriedAt parseIp cluster [] i).isSome = true := by
  have he := hs.parses cluster.endpoints[i] (List.getElem_mem hi)
  obtain ⟨addr, haddr⟩ := Option.isSome_iff_exists.mp he
  have huntried : untriedAt parseIp cluster [] i = some addr :=
    untriedAt_eq_some.mpr ⟨_, List.getElem?_eq_getElem hi, haddr, List.not_mem_nil⟩
  simp [huntried]

theorem mem_healthyIndices {n : Nat} : i ∈ healthyIndices n ejected ↔ i < n ∧ ejected i = false := by
  simp [healthyIndices]

variable (n : Nat)

theorem healthyIndices_nodup (ejected : Nat → Bool) :
    (healthyIndices n ejected).Nodup := List.nodup_range.filter _

section
variable (hs : Serving parseIp cluster ejected maxEjectedPercent)

include hs

/-- The indices an attempt falls back on are the healthy ones, in order. -/
theorem Serving.fallback :
    (eligible parseIp cluster [] ejected maxEjectedPercent).map Prod.fst =
      healthyIndices cluster.endpoints.length ejected := by
  have hpanic : healthyPanic cluster.endpoints.length ejected maxEjectedPercent = false :=
    decide_eq_false (Nat.not_lt.mpr hs.within)
  have hleft : ∀ l : List Nat, (∀ i ∈ l, i < cluster.endpoints.length) →
      ((l.filterMap fun i => (untriedAt parseIp cluster [] i).map fun a => (i, a)).filter
        fun p => !ejected p.1).map Prod.fst = l.filter (!ejected ·) := by
    intro l hl
    induction l with
    | nil => rfl
    | cons i l ih =>
      obtain ⟨addr, haddr⟩ := Option.isSome_iff_exists.mp (hs.untried (hl i (by simp)))
      have hrest := ih fun j hj => hl j (by simp [hj])
      cases hi : ejected i <;> simp [haddr, hi, hrest]
  have hall := hleft (List.range cluster.endpoints.length) fun i => List.mem_range.mp
  have hne : healthyIndices cluster.endpoints.length ejected ≠ [] := by
    obtain ⟨i, hi, hfit⟩ := hs.healthy
    exact List.ne_nil_of_mem (mem_healthyIndices.mpr ⟨hi, hfit⟩)
  unfold eligible leftToTry
  simp only [hpanic, Bool.false_or]
  rw [if_neg, hall]
  · rfl
  · intro hnil
    rw [List.isEmpty_iff] at hnil
    rw [hnil] at hall
    exact hne hall.symm

/-- The endpoint at the cursor when it is healthy, else the healthy one at the
cursor modulo their number. -/
theorem Serving.pick (cursor : Nat) :
    ∃ p, pickEndpoint parseIp cluster cursor [] ejected maxEjectedPercent = .ok p ∧
      ((ejected (cursor % cluster.endpoints.length) = false ∧
        p.1 = cursor % cluster.endpoints.length) ∨
      (ejected (cursor % cluster.endpoints.length) = true ∧
        (healthyIndices cluster.endpoints.length ejected)[cursor %
          (healthyIndices cluster.endpoints.length ejected).length]? = some p.1)) := by
  obtain ⟨i, hi, hfit⟩ := hs.healthy
  have hlt : cursor % cluster.endpoints.length < cluster.endpoints.length :=
    Nat.mod_lt _ (by omega)
  obtain ⟨addr, haddr⟩ := Option.isSome_iff_exists.mp (hs.untried hlt)
  unfold pickEndpoint
  simp only [haddr]
  rw [if_neg (by omega)]
  cases hcursor : ejected (cursor % cluster.endpoints.length) with
  | false => exact ⟨_, rfl, .inl ⟨rfl, rfl⟩⟩
  | true =>
    have hpool := hs.fallback
    have hpos : 0 < (eligible parseIp cluster [] ejected maxEjectedPercent).length := by
      rw [← List.length_map Prod.fst, hpool]
      exact List.length_pos_of_mem (mem_healthyIndices.mpr ⟨hi, hfit⟩)
    have hin := Nat.mod_lt cursor hpos
    refine ⟨(eligible parseIp cluster [] ejected maxEjectedPercent)[cursor %
      (eligible parseIp cluster [] ejected maxEjectedPercent).length], ?_, .inr ⟨rfl, ?_⟩⟩
    · simp [List.getElem?_eq_getElem hin]
    · rw [← hpool, List.length_map, List.getElem?_map, List.getElem?_eq_getElem hin]
      rfl

/-! ## A whole run of cursors -/

/-- The cursors that pick a healthy endpoint: its own, and those of ejected ones
that agree with its rank among the healthy. -/
theorem Serving.picked_iff
    (hi : i ∈ healthyIndices cluster.endpoints.length ejected) (cursor : Nat) :
    (pickEndpoint parseIp cluster cursor [] ejected maxEjectedPercent).toOption.map Prod.fst =
        some i ↔
      cursor ≡ i [MOD cluster.endpoints.length] ∨
      (ejected (cursor % cluster.endpoints.length) = true ∧
        cursor ≡ (healthyIndices cluster.endpoints.length ejected).idxOf i
          [MOD (healthyIndices cluster.endpoints.length ejected).length]) := by
  obtain ⟨hlt, hfit⟩ := mem_healthyIndices.mp hi
  have hrank := List.idxOf_lt_length_of_mem hi
  rw [Nat.ModEq, Nat.mod_eq_of_lt hlt, Nat.ModEq, Nat.mod_eq_of_lt hrank]
  obtain ⟨p, hp, hown | hshare⟩ := hs.pick cursor
  · simp [hp, hown.1, hown.2, Except.toOption]
  · have hother : cursor % cluster.endpoints.length ≠ i := by
      intro hcursor
      rw [hcursor, hfit] at hshare
      exact absurd hshare.1 (by simp)
    obtain ⟨hin, hget⟩ := List.getElem?_eq_some_iff.mp hshare.2
    simp only [hp, Except.toOption, Option.map_some, Option.some.injEq, hother, hshare.1,
      true_and, false_or]
    constructor
    · rintro rfl
      rw [← hget, (healthyIndices_nodup _ _).idxOf_getElem]
    · intro heq
      rw [← hget]
      simp [heq]

end

theorem count_or {p q : Nat → Prop} [DecidablePred p] [DecidablePred q] (hpq : ∀ c, p c → ¬ q c)
    (n : Nat) : Nat.count (fun c => p c ∨ q c) n = Nat.count p n + Nat.count q n := by
  simp only [Nat.count_eq_card_filter_range, Finset.filter_or]
  exact Finset.card_union_of_disjoint (Finset.disjoint_filter.mpr fun c _ => hpq c)

theorem ejectedIn_eq (ejected : Nat → Bool) (r : Nat) : ejectedIn n ejected r =
      Nat.count (fun e => ejected e = true ∧ e % shares n ejected = r) n := by
  refine List.countP_congr fun e _ => ?_
  simp

section
variable (hs : Serving parseIp cluster ejected maxEjectedPercent)

include hs

/-- Its own turns, and its part of every ejected endpoint's. -/
theorem Serving.picks_eq (start : Nat) (hi : i ∈ healthyIndices cluster.endpoints.length ejected) :
    picks parseIp cluster ejected maxEjectedPercent start
        (cluster.endpoints.length * (healthyIndices cluster.endpoints.length ejected).length) i =
      (healthyIndices cluster.endpoints.length ejected).length +
        shares cluster.endpoints.length ejected * ejectedIn cluster.endpoints.length ejected
          ((healthyIndices cluster.endpoints.length ejected).idxOf i %
            shares cluster.endpoints.length ejected) := by
  obtain ⟨hlt, hfit⟩ := mem_healthyIndices.mp hi
  have hn : 0 < cluster.endpoints.length := by omega
  have hh : 0 < (healthyIndices cluster.endpoints.length ejected).length :=
    List.length_pos_of_mem hi
  simp only [picks, beq_eq_decide, hs.picked_iff hi]
  rw [countP_range'_of_periodic, count_or, count_modEq hn,
    count_marked_modEq hn hh (fun e => ejected e = true)]
  · rw [ejectedIn_eq]
    rfl
  · rintro c hown ⟨hejected, -⟩
    rw [Nat.ModEq, Nat.mod_eq_of_lt hlt] at hown
    rw [hown, hfit] at hejected
    cases hejected
  · intro c
    simp only [Nat.ModEq, Nat.add_mul_mod_self_left, Nat.add_mul_mod_self_right]

theorem Serving.shares_pos : 0 < shares cluster.endpoints.length ejected := by
  obtain ⟨i, hi, -⟩ := hs.healthy
  exact Nat.gcd_pos_of_pos_left _ (by omega)

theorem Serving.shares_le :
    shares cluster.endpoints.length ejected ≤
      (healthyIndices cluster.endpoints.length ejected).length := by
  obtain ⟨i, hi, hfit⟩ := hs.healthy
  exact Nat.gcd_le_right _ (List.length_pos_of_mem (mem_healthyIndices.mpr ⟨hi, hfit⟩))

end

/-- Multiples of `d` at most one out of order are in order, unless `d` is one. -/
theorem le_of_shares {d h a b : Nat} (hd : 2 ≤ d) (hab : h + d * a ≤ h + d * b + 1) : a ≤ b := by
  by_contra hlt
  have hmul : d * (b + 1) ≤ d * a := Nat.mul_le_mul_left d (by omega)
  rw [Nat.mul_add] at hmul
  omega

theorem Serving.evenly_of_fair (hs : Serving parseIp cluster ejected maxEjectedPercent)
    (start : Nat)
    (hfair : ∀ i ∈ healthyIndices cluster.endpoints.length ejected,
      ∀ j ∈ healthyIndices cluster.endpoints.length ejected,
      picks parseIp cluster ejected maxEjectedPercent start
        (cluster.endpoints.length * (healthyIndices cluster.endpoints.length ejected).length) i ≤
      picks parseIp cluster ejected maxEjectedPercent start
        (cluster.endpoints.length * (healthyIndices cluster.endpoints.length ejected).length) j +
        1) :
    EvenlyEjected cluster.endpoints.length ejected := by
  have hle : ∀ r < shares cluster.endpoints.length ejected,
      ∀ r' < shares cluster.endpoints.length ejected,
      ejectedIn cluster.endpoints.length ejected r ≤
        ejectedIn cluster.endpoints.length ejected r' := by
    intro r hr r' hr'
    obtain hone | htwo : shares cluster.endpoints.length ejected = 1 ∨
        2 ≤ shares cluster.endpoints.length ejected := by omega
    · obtain rfl : r = r' := by omega
      exact Nat.le_refl _
    -- the healthy endpoints of these two ranks get the two classes' turns
    have hin := Nat.lt_of_lt_of_le hr hs.shares_le
    have hin' := Nat.lt_of_lt_of_le hr' hs.shares_le
    have hpair := hfair _ (List.getElem_mem hin) _ (List.getElem_mem hin')
    rw [hs.picks_eq start (List.getElem_mem hin), hs.picks_eq start (List.getElem_mem hin'),
      (healthyIndices_nodup _ _).idxOf_getElem, (healthyIndices_nodup _ _).idxOf_getElem,
      Nat.mod_eq_of_lt hr, Nat.mod_eq_of_lt hr'] at hpair
    exact le_of_shares htwo hpair
  intro r hr r' hr'
  exact Nat.le_antisymm (hle r hr r' hr') (hle r' hr' r hr)

end

/-- An ejected endpoint is not picked, and the healthy ones are picked equally
often, up to one, exactly when the ejected ones are spread evenly over the
classes of indices modulo `shares`. -/
theorem ejected_share_spreads_iff (parseIp : String → Option IpAddr) (cluster : Cluster)
    (ejected : Nat → Bool) (maxEjectedPercent start : Nat)
    (hparses : ∀ e ∈ cluster.endpoints, (endpointAddr parseIp e).isSome = true)
    (hwithin : ((List.range cluster.endpoints.length).filter ejected).length * 100 ≤
      cluster.endpoints.length * maxEjectedPercent)
    (hhealthy : ∃ i < cluster.endpoints.length, ejected i = false) :
    (∀ cursor, ∃ i addr,
      pickEndpoint parseIp cluster cursor [] ejected maxEjectedPercent = .ok (i, addr) ∧
        ejected i = false) ∧
    ((∀ i ∈ healthyIndices cluster.endpoints.length ejected,
      ∀ j ∈ healthyIndices cluster.endpoints.length ejected,
      picks parseIp cluster ejected maxEjectedPercent start
        (cluster.endpoints.length * (healthyIndices cluster.endpoints.length ejected).length) i ≤
      picks parseIp cluster ejected maxEjectedPercent start
        (cluster.endpoints.length * (healthyIndices cluster.endpoints.length ejected).length) j +
        1) ↔
      EvenlyEjected cluster.endpoints.length ejected) := by
  have hs : Serving parseIp cluster ejected maxEjectedPercent := ⟨hparses, hwithin, hhealthy⟩
  refine ⟨fun cursor => ?_, hs.evenly_of_fair start, fun heven i hi j hj => ?_⟩
  · obtain ⟨⟨i, addr⟩, hp, ⟨hfit, rfl⟩ | ⟨-, hget⟩⟩ := hs.pick cursor
    · exact ⟨_, addr, hp, hfit⟩
    · exact ⟨i, addr, hp, (mem_healthyIndices.mp (List.mem_of_getElem? hget)).2⟩
  · rw [hs.picks_eq start hi, hs.picks_eq start hj,
      heven _ (Nat.mod_lt _ hs.shares_pos) _ (Nat.mod_lt _ hs.shares_pos)]
    exact Nat.le_succ _

/-- With `n` and `h` coprime, as with one endpoint ejected, the share is always
spread evenly. -/
theorem evenlyEjected_of_coprime {n : Nat} {ejected : Nat → Bool}
    (h : Nat.Coprime n (healthyIndices n ejected).length) : EvenlyEjected n ejected := by
  have hone : shares n ejected = 1 := h
  intro r hr r' hr'
  obtain rfl : r = r' := by omega
  rfl

def fourEndpoints : Cluster where
  endpoints := [⟨"10.0.0.1", 80⟩, ⟨"10.0.0.1", 81⟩, ⟨"10.0.0.1", 82⟩, ⟨"10.0.0.1", 83⟩]
  tls := none
  resolve := none

theorem ejected_share_spreads_one :
    picks parseTen fourEndpoints (· == 1) 50 7 12 0 ≤
        picks parseTen fourEndpoints (· == 1) 50 7 12 3 + 1 ∧
      picks parseTen fourEndpoints (· == 1) 50 7 12 3 ≤
        picks parseTen fourEndpoints (· == 1) 50 7 12 0 + 1 := by
  have hfair := (ejected_share_spreads_iff parseTen fourEndpoints (· == 1) 50 7 (by decide)
    (by decide) ⟨0, by decide, by decide⟩).2.mpr (evenlyEjected_of_coprime (by decide))
  exact ⟨hfair 0 (by decide) 3 (by decide), hfair 3 (by decide) 0 (by decide)⟩

/-- Two of four ejected, on the even indices: the turns of both go to the same
healthy endpoint. -/
theorem ejected_share_lands_on_one :
    (∀ e ∈ fourEndpoints.endpoints, (endpointAddr parseTen e).isSome = true) ∧
    (fourEndpoints.endpoints.map (endpointAddr parseTen)).Nodup ∧
    ((List.range 4).filter (· % 2 == 0)).length * 100 ≤ 4 * 50 ∧
    healthyIndices 4 (· % 2 == 0) = [1, 3] ∧
    picks parseTen fourEndpoints (· % 2 == 0) 50 0 8 1 = 6 ∧
    picks parseTen fourEndpoints (· % 2 == 0) 50 0 8 3 = 2 := by
  decide +kernel

end Gapura.Proxy.Select
