import Gapura.Proxy.Select

/-! # Selection picks what it may and gives up only with nothing left

For backends: the rolls a backend answers are the interval of its weight in the
running total. For endpoints: what an attempt is sent to is still untried, and
ejected only when the cluster leaves no better choice. -/
namespace Gapura.Proxy.Select
open Gapura.Core Core.ClientIp

/-! ## Weighted backends -/

/-- What a request gets once a backend is chosen. -/
def answerOf (b : WeightedBackend) : Except Local String :=
  match b.cluster with
  | some key => .ok key
  | none => .error .noBackend

/-- Where the walk stops; `none` is the error after the loop. -/
def backendIndex : List WeightedBackend → Nat → Option Nat
  | [], _ => none
  | b :: rest, r =>
    if r < b.weight then some 0 else (backendIndex rest (r - b.weight)).map (· + 1)

def totalWeight (backends : List WeightedBackend) : Nat :=
  (backends.map WeightedBackend.weight).sum

variable (backends : List WeightedBackend) {i : Nat} {b : WeightedBackend}

theorem backendAt_eq (r : Nat) : backendAt backends r =
      ((backendIndex backends r).bind (backends[·]?)).elim (.error .noBackend)
        answerOf := by
  induction backends generalizing r with
  | nil => rfl
  | cons b rest ih =>
    unfold backendAt backendIndex
    split
    · rfl
    · rw [ih]
      cases backendIndex rest (r - b.weight) <;> rfl

/-- The `i`-th backend answers the rolls between the weights before it and its
own. -/
theorem backendIndex_eq_some {backends : List WeightedBackend} {r : Nat} :
    backendIndex backends r = some i ↔ ∃ b, backends[i]? = some b ∧
      totalWeight (backends.take i) ≤ r ∧ r < totalWeight (backends.take i) + b.weight := by
  induction backends generalizing r i with
  | nil => simp [backendIndex]
  | cons b rest ih =>
    unfold backendIndex
    split
    · rename_i hlt
      cases i with
      | zero => simp [totalWeight, hlt]
      | succ i =>
        simp only [Option.some.injEq, Nat.right_eq_add, Nat.add_eq_zero_iff, totalWeight,
          List.take_succ_cons, List.map_cons, List.sum_cons]
        refine iff_of_false (by simp) ?_
        rintro ⟨b', -, hle, -⟩
        omega
    · rename_i hge
      cases i with
      | zero => simp [totalWeight, hge]
      | succ i =>
        simp only [Option.map_eq_some_iff, Nat.add_right_cancel_iff, exists_eq_right, ih,
          List.getElem?_cons_succ, totalWeight, List.take_succ_cons, List.map_cons, List.sum_cons]
        refine exists_congr fun b' => and_congr_right fun _ => ?_
        omega

theorem backendIndex_isSome {backends : List WeightedBackend} {r : Nat}
    (h : r < totalWeight backends) : (backendIndex backends r).isSome = true := by
  induction backends generalizing r with
  | nil => simp [totalWeight] at h
  | cons b rest ih =>
    unfold backendIndex
    split
    · rfl
    · rename_i hge
      have hrest : r - b.weight < totalWeight rest := by
        simp only [totalWeight, List.map_cons, List.sum_cons] at h ⊢
        omega
      simpa using ih hrest

theorem totalWeight_take_le (h : backends[i]? = some b) :
    totalWeight (backends.take i) + b.weight ≤ totalWeight backends := by
  obtain ⟨hi, rfl⟩ := List.getElem?_eq_some_iff.mp h
  have hsplit : backends = backends.take i ++ backends[i] :: backends.drop (i + 1) := by simp
  unfold totalWeight
  conv_rhs => rw [hsplit]
  simp only [List.map_append, List.map_cons, List.sum_append, List.sum_cons]
  omega

theorem countP_interval (lo w : Nat) (total : Nat) :
    (List.range total).countP (fun r => decide (lo ≤ r ∧ r < lo + w)) =
      min total (lo + w) - min total lo := by
  induction total with
  | zero => simp
  | succ total ih =>
    rw [List.range_succ, List.countP_append, ih, List.countP_singleton]
    by_cases hin : lo ≤ total ∧ total < lo + w
    · simp only [hin, and_self, decide_true, if_true]
      omega
    · simp only [hin, decide_false, Bool.false_eq_true, if_false]
      omega

theorem countP_backendIndex {backends : List WeightedBackend} (h : backends[i]? = some b) :
    (List.range (totalWeight backends)).countP
      (fun r => decide (backendIndex backends r = some i)) = b.weight := by
  have hinterval : ∀ r, backendIndex backends r = some i ↔
      totalWeight (backends.take i) ≤ r ∧ r < totalWeight (backends.take i) + b.weight := by
    intro r
    rw [backendIndex_eq_some, h]
    simp
  have hle := totalWeight_take_le backends h
  simp only [hinterval, countP_interval]
  omega

theorem pickBackend_eq (roll : Nat → Nat) : pickBackend backends roll =
      if totalWeight backends = 0 then .error .noBackend
      else backendAt backends
        (min (roll (totalWeight backends)) (totalWeight backends - 1)) := rfl

/-- Every roll in range is some backend's, so the walk never falls off the end,
and each backend has exactly as many rolls as its weight. -/
theorem pickBackend_by_weight (backends : List WeightedBackend) :
    (0 < totalWeight backends →
      (∀ roll : Nat → Nat, roll (totalWeight backends) < totalWeight backends → ∃ i b,
        backendIndex backends (roll (totalWeight backends)) = some i ∧ backends[i]? = some b ∧
          pickBackend backends roll = answerOf b) ∧
      ∀ i b, backends[i]? = some b → (List.range (totalWeight backends)).countP
        (fun r => decide (backendIndex backends r = some i)) = b.weight) ∧
    (totalWeight backends = 0 → ∀ roll, pickBackend backends roll = .error .noBackend) := by
  refine ⟨fun hpos => ⟨fun roll hroll => ?_, fun i b => countP_backendIndex⟩, fun hzero roll => ?_⟩
  · obtain ⟨i, hi⟩ := Option.isSome_iff_exists.mp (backendIndex_isSome hroll)
    obtain ⟨b, hb, -⟩ := backendIndex_eq_some.mp hi
    refine ⟨i, b, hi, hb, ?_⟩
    have hmin : min (roll (totalWeight backends)) (totalWeight backends - 1) =
        roll (totalWeight backends) := by omega
    rw [pickBackend_eq, if_neg (by omega), hmin, backendAt_eq, hi]
    simp [hb]
  · rw [pickBackend_eq, if_pos hzero]

/-- Three to one, with a backend of no weight and one without a cluster. -/
theorem pickBackend_by_weight_split :
    (List.range 5).countP (fun r => decide (backendIndex
      [⟨some "a", 3⟩, ⟨some "b", 0⟩, ⟨none, 2⟩] r = some 0)) = 3 ∧
    pickBackend [⟨some "b", 0⟩] (fun _ => 0) = .error .noBackend :=
  ⟨((pickBackend_by_weight [⟨some "a", 3⟩, ⟨some "b", 0⟩, ⟨none, 2⟩]).1 (by decide)).2 0 _ rfl,
    (pickBackend_by_weight [⟨some "b", 0⟩]).2 rfl _⟩

/-! ## Endpoints -/

section
variable {parseIp : String → Option IpAddr} {cluster : Cluster} {tried : List SocketAddr}
variable {ejected : Nat → Bool} {maxEjectedPercent : Nat}

/-- The endpoint at an index, with an address this request has not tried. -/
def Untried (parseIp : String → Option IpAddr) (cluster : Cluster) (tried : List SocketAddr)
    (i : Nat) (addr : SocketAddr) : Prop :=
  ∃ e, cluster.endpoints[i]? = some e ∧ endpointAddr parseIp e = some addr ∧ addr ∉ tried

variable {addr : SocketAddr} {p : Nat × SocketAddr}

theorem untriedAt_eq_some {i : Nat} :
    untriedAt parseIp cluster tried i = some addr ↔ Untried parseIp cluster tried i addr := by
  simp only [untriedAt, Untried, Option.filter_eq_some_iff, Option.bind_eq_some_iff,
    List.contains_eq_mem, Bool.not_eq_true', decide_eq_false_iff_not, ← and_assoc]
  exact exists_and_right.symm

theorem mem_leftToTry {i : Nat} :
    (i, addr) ∈ leftToTry parseIp cluster tried ↔ Untried parseIp cluster tried i addr := by
  simp only [leftToTry, List.mem_filterMap, List.mem_range, Option.map_eq_some_iff,
    Prod.mk.injEq, untriedAt_eq_some]
  constructor
  · rintro ⟨j, -, a, h, rfl, rfl⟩
    exact h
  · intro h
    obtain ⟨e, he, -⟩ := id h
    obtain ⟨hi, -⟩ := List.getElem?_eq_some_iff.mp he
    exact ⟨i, hi, addr, h, rfl, rfl⟩

/-- Ejection is passed over only in a panic or with every choice ejected. -/
theorem ejected_of_mem_eligible (h : p ∈ eligible parseIp cluster tried ejected maxEjectedPercent)
    (hejected : ejected p.1 = true) :
    healthyPanic cluster.endpoints.length ejected maxEjectedPercent = true ∨
      ∀ q ∈ leftToTry parseIp cluster tried, ejected q.1 = true := by
  unfold eligible at h
  simp only at h
  split at h
  · rename_i hnone
    refine .inr fun q hq => ?_
    have hall := List.filter_eq_nil_iff.mp (List.isEmpty_iff.mp hnone) q hq
    simp only [Bool.or_eq_true, not_or, Bool.not_eq_true, Bool.not_eq_false'] at hall
    exact hall.2
  · have hkept := (List.mem_filter.mp h).2
    simp only [hejected, Bool.not_true, Bool.or_false] at hkept
    exact .inl hkept

theorem mem_leftToTry_of_eligible
    (h : p ∈ eligible parseIp cluster tried ejected maxEjectedPercent) :
    p ∈ leftToTry parseIp cluster tried := by
  unfold eligible at h
  simp only at h
  split at h
  · exact h
  · exact (List.mem_filter.mp h).1

theorem eligible_ne_nil (ejected : Nat → Bool) (maxEjectedPercent : Nat)
    (h : leftToTry parseIp cluster tried ≠ []) :
    eligible parseIp cluster tried ejected maxEjectedPercent ≠ [] := by
  unfold eligible
  simp only
  split
  · exact h
  · rename_i hsome
    simpa using hsome

/-- What `pick_endpoint` answers: nothing is left, or something left that is
ejected only when `eligible` had to take it. -/
theorem pickEndpoint_cases (parseIp : String → Option IpAddr) (cluster : Cluster) (cursor : Nat)
    (tried : List SocketAddr) (ejected : Nat → Bool) (maxEjectedPercent : Nat) :
    (leftToTry parseIp cluster tried = [] ∧
      pickEndpoint parseIp cluster cursor tried ejected maxEjectedPercent =
        .error .noEndpoints) ∨
    ∃ p ∈ leftToTry parseIp cluster tried,
      pickEndpoint parseIp cluster cursor tried ejected maxEjectedPercent = .ok p ∧
        (ejected p.1 = true →
          p ∈ eligible parseIp cluster tried ejected maxEjectedPercent) := by
  unfold pickEndpoint
  simp only
  split
  · rename_i hn
    exact .inl ⟨by simp [leftToTry, hn], rfl⟩
  cases hfast : (untriedAt parseIp cluster tried (cursor % cluster.endpoints.length)).filter
      fun _ => !ejected (cursor % cluster.endpoints.length) with
  | some addr =>
    obtain ⟨huntried, hfit⟩ := Option.filter_eq_some_iff.mp hfast
    refine .inr ⟨_, mem_leftToTry.mpr (untriedAt_eq_some.mp huntried), rfl, fun h => ?_⟩
    simp [h] at hfit
  | none =>
    cases hpool : (eligible parseIp cluster tried ejected maxEjectedPercent)[cursor %
        (eligible parseIp cluster tried ejected maxEjectedPercent).length]? with
    | some p =>
      have hmem := List.mem_of_getElem? hpool
      exact .inr ⟨p, mem_leftToTry_of_eligible hmem, rfl, fun _ => hmem⟩
    | none =>
      refine .inl ⟨?_, rfl⟩
      by_contra hleft
      have hne := eligible_ne_nil ejected maxEjectedPercent hleft
      have hlt := Nat.mod_lt cursor (List.length_pos_iff.mpr hne)
      have hge := List.getElem?_eq_none_iff.mp hpool
      omega

end

/-- An attempt is sent to an endpoint of the cluster that this request has not
tried, to an ejected one only in a panic or with every other one ejected too,
and nowhere only when nothing that parses is left untried. -/
theorem pickEndpoint_safe (parseIp : String → Option IpAddr) (cluster : Cluster) (cursor : Nat)
    (tried : List SocketAddr) (ejected : Nat → Bool) (maxEjectedPercent : Nat) :
    (∀ i addr,
      pickEndpoint parseIp cluster cursor tried ejected maxEjectedPercent = .ok (i, addr) →
      (∃ e, cluster.endpoints[i]? = some e ∧ endpointAddr parseIp e = some addr) ∧
      addr ∉ tried ∧
      (ejected i = true →
        ((List.range cluster.endpoints.length).filter ejected).length * 100 >
          cluster.endpoints.length * maxEjectedPercent ∨
        ∀ j e a, cluster.endpoints[j]? = some e → endpointAddr parseIp e = some a → a ∉ tried →
          ejected j = true)) ∧
    (∀ why, pickEndpoint parseIp cluster cursor tried ejected maxEjectedPercent = .error why →
      why = .noEndpoints) ∧
    (pickEndpoint parseIp cluster cursor tried ejected maxEjectedPercent = .error .noEndpoints ↔
      ∀ e ∈ cluster.endpoints, ∀ a, endpointAddr parseIp e = some a → a ∈ tried) := by
  have hleft_iff : leftToTry parseIp cluster tried = [] ↔
      ∀ e ∈ cluster.endpoints, ∀ a, endpointAddr parseIp e = some a → a ∈ tried := by
    rw [List.eq_nil_iff_forall_not_mem]
    constructor
    · intro hnone e he a ha
      obtain ⟨i, hi⟩ := List.getElem?_of_mem he
      by_contra hout
      exact hnone (i, a) (mem_leftToTry.mpr ⟨e, hi, ha, hout⟩)
    · rintro hall ⟨i, a⟩ hmem
      obtain ⟨e, he, ha, hout⟩ := mem_leftToTry.mp hmem
      exact hout (hall e (List.mem_of_getElem? he) a ha)
  obtain ⟨hnone, hpick⟩ | ⟨p, hleft, hpick, hpool⟩ :=
    pickEndpoint_cases parseIp cluster cursor tried ejected maxEjectedPercent
  · rw [hpick]
    refine ⟨fun i addr h => ?_, fun why h => ?_, iff_of_true rfl (hleft_iff.mp hnone)⟩
    · cases h
    · cases h
      rfl
  · rw [hpick]
    refine ⟨fun i addr h => ?_, fun why h => ?_, iff_of_false (by simp) fun hall => ?_⟩
    · cases h
      obtain ⟨e, he, haddr, hout⟩ := mem_leftToTry.mp hleft
      refine ⟨⟨e, he, haddr⟩, hout, fun hejected => ?_⟩
      obtain hpanic | hall := ejected_of_mem_eligible (hpool hejected) hejected
      · exact .inl (of_decide_eq_true hpanic)
      · exact .inr fun j e a he ha hout => hall (j, a) (mem_leftToTry.mpr ⟨e, he, ha, hout⟩)
    · cases h
    · rw [hleft_iff.mpr hall] at hleft
      cases hleft

/-- Two endpoints, of which the second does not parse. -/
def halfParsed : Cluster where
  endpoints := [⟨"10.0.0.1", 80⟩, ⟨"ten", 80⟩]
  tls := none
  resolve := none

def parseTen (text : String) : Option IpAddr :=
  if text = "10.0.0.1" then some (.v4 0x0a000001) else none

theorem pickEndpoint_safe_half :
    (∃ e, halfParsed.endpoints[0]? = some e ∧
      endpointAddr parseTen e = some (.v4 0x0a000001, 80)) ∧
    pickEndpoint parseTen halfParsed 1 [(.v4 0x0a000001, 80)] (fun _ => false) 50 =
      .error .noEndpoints :=
  ⟨((pickEndpoint_safe parseTen halfParsed 1 [] (fun _ => true) 50).1 0 (.v4 0x0a000001, 80)
      (by decide)).1,
    (pickEndpoint_safe parseTen halfParsed 1 [(.v4 0x0a000001, 80)] (fun _ => false) 50).2.2.mpr
      (by decide)⟩

end Gapura.Proxy.Select
