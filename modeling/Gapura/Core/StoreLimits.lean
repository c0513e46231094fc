import Gapura.Core.StoreAttached

/-! # The request-limit ladder

A limit row is attached to a route, a service or a workspace, and counts for
everyone or for one consumer. The compiler writes the rows into two places, the
rule and a table by consumer and route id, and a request is limited by the
first of six rungs that has a row: the consumer's own on the route, on its
service, on neither, then everyone's in the same order. -/
namespace Gapura.Core.StoreLimits
open Lib.Ordered Store StoreRouting StoreWorkspace StoreAttached
open Std (TreeMap)

/-! ## The specification -/

/-- The row of a consumer, or of everyone, at a place. -/
def rowOf (all : List StoreRateLimit) (at_ : Place) (consumer : Option String) :
    Option StoreRateLimit :=
  rowAt limitPlace (fun l => l.consumer = consumer) all at_

/-- The most specific row on a route, of a consumer or of everyone. -/
def limitOf (all : List StoreRateLimit) (r : StoreRoute) (consumer : Option String) :
    Option StoreRateLimit :=
  mostSpecific limitPlace (fun l => l.consumer = consumer) all r

/-- The limit on a caller of a route, and whether it is the caller's own. -/
def ladder (all : List StoreRateLimit) (r : StoreRoute) (consumer : Option String) :
    Option (RateLimit × Bool) :=
  match consumer.bind fun u => limitOf all r (some u) with
  | some own => some (own.limit, true)
  | none => (limitOf all r none).map fun l => (l.limit, false)

/-- At most one row per workspace, target and consumer or everyone. -/
def OneRow (all : List StoreRateLimit) : Prop :=
  all.Pairwise fun l l' => ¬ (limitPlace l = limitPlace l' ∧ l.consumer = l'.consumer)

/-- Route rows of one workspace and name are on one service. -/
def OneService (routes : List StoreRoute) : Prop :=
  ∀ r ∈ routes, ∀ r' ∈ routes, r.workspace = r'.workspace → r.name = r'.name →
    r.service = r'.service

/-- No workspace, route or consumer a limit or a route row names holds a `/`. -/
structure PlainLimits (snap : StoreSnapshot) : Prop where
  routes : ∀ r ∈ snap.routes, Plain r.workspace ∧ Plain r.name
  limits : ∀ l ∈ snap.rateLimits, Plain l.workspace ∧ ∀ u ∈ l.consumer, Plain u

/-! ## Limits on everyone -/

variable {all : List StoreRateLimit} {r : StoreRoute}

/-- A limit on everyone with how specific it is on the route. -/
def onEveryone (r : StoreRoute) (l : StoreRateLimit) : Option (Nat × RateLimit) :=
  if l.consumer = none then (rank l.workspace l.route l.service r).map (·, l.limit) else none

theorem ranks_onEveryone :
    Ranks limitPlace (fun l => l.consumer = none) StoreRateLimit.limit r (onEveryone r) :=
  ranks_of_rank fun l : StoreRateLimit => l.consumer = none

theorem limitOnEveryone_eq :
    limitOnEveryone all r = (limitOf all r none).map StoreRateLimit.limit := by
  rw [limitOnEveryone, limitOf, ← argmax_ranked ranks_onEveryone, List.argmax,
    List.foldl_filterMap]
  congr 2
  funext best l
  rw [betterLimit, onEveryone]
  cases hc : l.consumer with
  | some u => rfl
  | none => cases hr : rank l.workspace l.route l.service r with
    | none => rfl
    | some k => exact keep_eq best (k, l.limit)

/-! ## A consumer's own limits -/

def heldOn (table : TreeMap String ConsumerRateLimits) (consumer id : String) : Option RateLimit :=
  table[consumer]?.bind fun limits => limits.routes[id]?

def heldAny (table : TreeMap String ConsumerRateLimits) (consumer : String) : Option RateLimit :=
  table[consumer]?.bind ConsumerRateLimits.any

section
variable (table : TreeMap String ConsumerRateLimits) (owner consumer id : String)

theorem heldOn_getD : heldOn table consumer id = (table.getD consumer {}).routes[id]? := by
  rw [heldOn, TreeMap.getD_eq_getD_getElem?]
  cases table[consumer]? <;> simp

theorem heldAny_getD : heldAny table consumer = (table.getD consumer {}).any := by
  rw [heldAny, TreeMap.getD_eq_getD_getElem?]
  cases table[consumer]? <;> rfl

theorem getD_insert_owner (limits : ConsumerRateLimits) :
    (table.insert owner limits).getD consumer {} =
      if owner = consumer then limits else table.getD consumer {} := by
  simp [TreeMap.getD_insert]

theorem heldOn_insert_route (id' : String) (limit : RateLimit) :
    heldOn (table.insert owner { table.getD owner {} with
      routes := (table.getD owner {}).routes.insert id' limit }) consumer id =
      if owner = consumer ∧ id' = id then some limit else heldOn table consumer id := by
  rw [heldOn_getD, heldOn_getD, getD_insert_owner]
  by_cases ho : owner = consumer
  · simp [ho, TreeMap.getElem?_insert]
  · simp [ho]

theorem heldOn_insert_any (any : Option RateLimit) :
    heldOn (table.insert owner { table.getD owner {} with any }) consumer id =
      heldOn table consumer id := by
  rw [heldOn_getD, heldOn_getD, getD_insert_owner]
  split <;> simp [*]

theorem heldAny_insert_route (routes : TreeMap String RateLimit) :
    heldAny (table.insert owner { table.getD owner {} with routes }) consumer =
      heldAny table consumer := by
  rw [heldAny_getD, heldAny_getD, getD_insert_owner]
  split <;> simp [*]

theorem heldAny_insert_any (limit : RateLimit) :
    heldAny (table.insert owner { table.getD owner {} with
      any := (table.getD owner {}).any.or (some limit) }) consumer =
      if owner = consumer then (heldAny table consumer).or (some limit)
      else heldAny table consumer := by
  rw [heldAny_getD, heldAny_getD, getD_insert_owner]
  split <;> simp [*]

end

/-- Whose row it is, by the id the table is keyed by. -/
def ownedBy (consumer : String) (l : StoreRateLimit) : Bool :=
  l.consumer.any fun u => Credentials.consumerId l.workspace u == consumer

/-- What a row offers a route id, over the routes of that id. -/
def offers (routes : List StoreRoute) (id : String) (l : StoreRateLimit) : List (Nat × RateLimit) :=
  (routes.filter fun r => routeId r == id).filterMap fun r =>
    (rank l.workspace l.route l.service r).map (·, l.limit)

/-- What a row offers a consumer on a route id. A row on the whole workspace
stands apart. -/
def ownOffers (routes : List StoreRoute) (consumer id : String) (l : StoreRateLimit) :
    List (Nat × RateLimit) :=
  if ownedBy consumer l && target l.route l.service != .workspace then offers routes id l else []

/-- The table holds the best of the offers so far, and remembers how specific
it was. -/
structure Tracks (acc : Limits) (consumer id : String) (best : Option (Nat × RateLimit)) :
    Prop where
  held : acc.held[(consumer, id)]? = best.map Prod.fst
  out : heldOn acc.out consumer id = best.map Prod.snd

variable {acc : Limits} {consumer id : String} {best : Option (Nat × RateLimit)}
variable {routes : List StoreRoute}

/-- One route: the offer is taken when it is for this consumer and route id. -/
theorem Tracks.holdLimit (h : Tracks acc consumer id best) (l : StoreRateLimit) (owner : String)
    (route : StoreRoute) : Tracks (holdLimit l owner acc route) consumer id
      (if owner = consumer then
        (offers [route] id l).foldl (List.argAux fun b c => c.1 < b.1) best else best) := by
  unfold Store.holdLimit
  cases hr : rank l.workspace l.route l.service route with
  | none =>
    have hnone : offers [route] id l = [] := by
      rw [offers, List.filterMap_eq_nil_iff]
      intro r' hr'
      have : r' = route := by simpa using List.mem_of_mem_filter hr'
      rw [this, hr]
      rfl
    simpa [hnone] using h
  | some k =>
    by_cases hkey : owner = consumer ∧ routeId route = id
    · obtain ⟨rfl, rfl⟩ := hkey
      have hoffer : offers [route] (routeId route) l = [(k, l.limit)] := by simp [offers, hr]
      have hall : ((acc.held[(owner, routeId route)]?).all fun b => b < k) =
          best.all fun c => c.1 < k := by
        rw [h.held]
        cases best <;> rfl
      simp only [hoffer, List.foldl_cons, List.foldl_nil, if_true, hall]
      rw [← keep_eq best (k, l.limit)]
      split
      · refine ⟨?_, ?_⟩
        · simp
        · rw [heldOn_insert_route]
          simp
      · exact h
    · have hsame : (if owner = consumer then (offers [route] id l).foldl
          (List.argAux fun b c => c.1 < b.1) best else best) = best := by
        split
        · rename_i ho
          have hid : routeId route ≠ id := fun hi => hkey ⟨ho, hi⟩
          simp [offers, hid]
        · rfl
      rw [hsame]
      simp only
      split
      · refine ⟨?_, ?_⟩
        · have hne : (owner, routeId route) ≠ (consumer, id) := by simpa using hkey
          rw [TreeMap.getElem?_insert, if_neg (by simpa using hne)]
          exact h.held
        · rw [heldOn_insert_route, if_neg hkey]
          exact h.out
      · exact h

theorem offers_cons (route : StoreRoute) (l : StoreRateLimit) :
    offers (route :: routes) id l = offers [route] id l ++ offers routes id l := by
  have hcons : route :: routes = [route] ++ routes := rfl
  rw [offers, hcons, List.filter_append, List.filterMap_append]
  rfl

theorem Tracks.foldl_holdLimit (h : Tracks acc consumer id best) (l : StoreRateLimit)
    (owner : String) (routes : List StoreRoute) :
    Tracks (routes.foldl (Store.holdLimit l owner) acc) consumer id
      (if owner = consumer then
        (offers routes id l).foldl (List.argAux fun b c => c.1 < b.1) best else best) := by
  induction routes generalizing acc best with
  | nil => simpa [offers] using h
  | cons route rest ih =>
    have hstep := ih (h.holdLimit l owner route)
    rw [List.foldl_cons, offers_cons, List.foldl_append]
    split at hstep
    · rename_i ho
      simpa only [if_pos ho] using hstep
    · rename_i ho
      simpa only [if_neg ho] using hstep

theorem Tracks.consumerLimit (h : Tracks acc consumer id best) (l : StoreRateLimit) :
    Tracks (consumerLimit routes acc l) consumer id
      ((ownOffers routes consumer id l).foldl (List.argAux fun b c => c.1 < b.1) best) := by
  unfold Store.consumerLimit
  cases hc : l.consumer with
  | none => simpa [ownOffers, ownedBy, hc] using h
  | some username =>
    simp only
    split
    · rename_i hnone
      have hw := target_eq_workspace.mpr hnone
      have hnil : ownOffers routes consumer id l = [] := by simp [ownOffers, hw]
      rw [hnil]
      exact ⟨h.held, (heldOn_insert_any _ _ _ _ _).trans h.out⟩
    · rename_i hsome
      have hw : target l.route l.service ≠ .workspace := fun hw => hsome (target_eq_workspace.mp hw)
      have hstep := h.foldl_holdLimit l (Credentials.consumerId l.workspace username) routes
      by_cases ho : Credentials.consumerId l.workspace username = consumer
      · have hown : ownOffers routes consumer id l = offers routes id l := by
          simp [ownOffers, ownedBy, hc, ho, hw]
        rw [if_pos ho] at hstep
        rwa [hown]
      · have hown : ownOffers routes consumer id l = [] := by
          simp [ownOffers, ownedBy, hc, ho]
        rw [if_neg ho] at hstep
        rwa [hown]

theorem Tracks.foldl_consumerLimit (h : Tracks acc consumer id best) (all : List StoreRateLimit) :
    Tracks (all.foldl (Store.consumerLimit routes) acc) consumer id
      ((all.flatMap (ownOffers routes consumer id)).foldl
        (List.argAux fun b c => c.1 < b.1) best) := by
  induction all generalizing acc best with
  | nil => exact h
  | cons l rest ih =>
    rw [List.foldl_cons, List.flatMap_cons, List.foldl_append]
    exact ih (h.consumerLimit l)

/-- The table's limit on a route id is the best of the consumer's offers. -/
theorem heldOn_consumerRateLimits (all : List StoreRateLimit) (routes : List StoreRoute)
    (consumer id : String) : heldOn (consumerRateLimits all routes) consumer id =
      ((all.flatMap (ownOffers routes consumer id)).argmax Prod.fst).map Prod.snd := by
  have hstart : Tracks ⟨∅, ∅⟩ consumer id none := ⟨by simp, by simp [heldOn]⟩
  have hrun : Tracks (all.foldl (Store.consumerLimit routes) ⟨∅, ∅⟩) consumer id _ :=
    hstart.foldl_consumerLimit all
  exact hrun.out

theorem heldAny_foldl_holdLimit (l : StoreRateLimit) (owner : String) (routes : List StoreRoute)
    (acc : Limits) : heldAny (routes.foldl (holdLimit l owner) acc).out consumer =
      heldAny acc.out consumer := by
  induction routes generalizing acc with
  | nil => rfl
  | cons route rest ih =>
    rw [List.foldl_cons, ih]
    unfold holdLimit
    split
    · rfl
    · simp only
      split
      · exact heldAny_insert_route _ _ _ _
      · rfl

theorem heldAny_consumerLimit (acc : Limits) (l : StoreRateLimit) :
    heldAny (consumerLimit routes acc l).out consumer = (heldAny acc.out consumer).or
      (if ownedBy consumer l && target l.route l.service == .workspace then some l.limit
        else none) := by
  unfold consumerLimit
  cases hc : l.consumer with
  | none => simp [ownedBy, hc]
  | some username =>
    simp only
    split
    · rename_i hnone
      have hw := target_eq_workspace.mpr hnone
      rw [heldAny_insert_any]
      by_cases ho : Credentials.consumerId l.workspace username = consumer
      · simp [ownedBy, hc, ho, hw]
      · simp [ownedBy, hc, ho]
    · rename_i hsome
      have hw : target l.route l.service ≠ .workspace := fun hw => hsome (target_eq_workspace.mp hw)
      rw [heldAny_foldl_holdLimit]
      simp [hw]

theorem heldAny_consumerRateLimits (all : List StoreRateLimit) (routes : List StoreRoute)
    (consumer : String) : heldAny (consumerRateLimits all routes) consumer =
      (all.find? fun l => ownedBy consumer l && target l.route l.service == .workspace).map
        StoreRateLimit.limit := by
  have hrun : ∀ acc : Limits, heldAny (all.foldl (consumerLimit routes) acc).out consumer =
      (heldAny acc.out consumer).or ((all.find? fun l => ownedBy consumer l &&
        target l.route l.service == .workspace).map StoreRateLimit.limit) := by
    intro acc
    induction all generalizing acc with
    | nil => simp
    | cons l rest ih =>
      rw [List.foldl_cons, ih, heldAny_consumerLimit, Option.or_assoc, List.find?_cons]
      cases ownedBy consumer l && target l.route l.service == .workspace
      · simp
      · simp
  have hstart : heldAny (⟨∅, ∅⟩ : Limits).out consumer = none := by simp [heldAny]
  rw [consumerRateLimits, hrun, hstart, Option.none_or]

/-! ## The ladder -/

variable {l : StoreRateLimit}

theorem ownedBy_iff {w u : String} (hw : Plain w) (hu : Plain u)
    (hl : Plain l.workspace ∧ ∀ u ∈ l.consumer, Plain u) :
    ownedBy (Credentials.consumerId w u) l = true ↔ l.workspace = w ∧ l.consumer = some u := by
  rw [ownedBy, Option.any_eq_true]
  constructor
  · rintro ⟨u', hu', heq⟩
    obtain ⟨hw', rfl⟩ := consumerId_inj_plain hl.1 hw (hl.2 u' hu') hu (eq_of_beq heq)
    exact ⟨hw', hu'⟩
  · rintro ⟨rfl, hc⟩
    exact ⟨u, hc, beq_self_eq_true _⟩

theorem routeId_inj {r r' : StoreRoute} (hr : Plain r.workspace ∧ Plain r.name)
    (hr' : Plain r'.workspace ∧ Plain r'.name) (h : routeId r = routeId r') :
    r.workspace = r'.workspace ∧ r.name = r'.name :=
  consumerId_inj_plain hr.1 hr'.1 hr.2 hr'.2 h

/-- Rows of one workspace, name and service are ranked alike, so a row offers
the route's id what it offers the route. -/
theorem find?_offers (hr : r ∈ routes) (hsame : ∀ r' ∈ routes, routeId r' = routeId r →
      rank l.workspace l.route l.service r' = rank l.workspace l.route l.service r) (k : Nat) :
    (offers routes (routeId r) l).find? (fun p => p.1 = k) =
      if rank l.workspace l.route l.service r = some k then some (k, l.limit) else none := by
  have hmem : ∀ p ∈ offers routes (routeId r) l,
      rank l.workspace l.route l.service r = some p.1 ∧ p.2 = l.limit := by
    intro p hp
    obtain ⟨r', hr', hsome⟩ := List.mem_filterMap.mp hp
    obtain ⟨hin, hid⟩ := List.mem_filter.mp hr'
    obtain ⟨k', hk', rfl⟩ := Option.map_eq_some_iff.mp hsome
    exact ⟨by rw [← hsame r' hin (eq_of_beq hid), hk'], rfl⟩
  split
  · rename_i hk
    have hin : (k, l.limit) ∈ offers routes (routeId r) l := by
      rw [offers, List.mem_filterMap]
      exact ⟨r, List.mem_filter.mpr ⟨hr, beq_self_eq_true _⟩, by rw [hk]; rfl⟩
    obtain ⟨p, hp⟩ := Option.isSome_iff_exists.mp
      (List.find?_isSome (p := fun p => decide (p.1 = k)).mpr ⟨_, hin, by simp⟩)
    have hk' : p.1 = k := by simpa using List.find?_some hp
    rw [hp, ← hk', ← (hmem p (List.mem_of_find?_eq_some hp)).2]
  · rename_i hk
    rw [List.find?_eq_none]
    intro p hp hpk
    exact hk (by rw [(hmem p hp).1, of_decide_eq_true hpk])

theorem findSome?_eq {α β : Type} {f : α → Option β} {p : α → Prop} [DecidablePred p] {g : α → β}
    {l : List α} (h : ∀ a ∈ l, f a = if p a then some (g a) else none) :
    l.findSome? f = (l.find? fun a => p a).map g := by
  induction l with
  | nil => rfl
  | cons a rest ih =>
    have hrest := ih fun b hb => h b (List.mem_cons_of_mem a hb)
    rw [List.findSome?_cons, List.find?_cons, h a List.mem_cons_self]
    by_cases ha : p a
    · simp [ha]
    · simpa [ha] using hrest

section
variable {snap : StoreSnapshot} {u : String}

theorem rank_congr {r r' : StoreRoute} (hw : r'.workspace = r.workspace) (hn : r'.name = r.name)
    (hs : r'.service = r.service) (w : String) (onRoute onService : Option String) :
    rank w onRoute onService r' = rank w onRoute onService r := by
  simp only [rank, hw, hn, hs]

section
variable (hplain : PlainLimits snap)

include hplain

theorem rank_of_routeId (hone : OneService snap.routes)
    (hr : Served snap r) (l : StoreRateLimit) : ∀ r' ∈ servedRoutes snap, routeId r' = routeId r →
      rank l.workspace l.route l.service r' = rank l.workspace l.route l.service r := by
  intro r' hr' hid
  have hr' := mem_servedRoutes.mp hr'
  obtain ⟨hw, hn⟩ := routeId_inj (hplain.routes r' hr'.1) (hplain.routes r hr.1) hid
  exact rank_congr hw hn (hone r' hr'.1 r hr.1 hw hn) _ _ _

theorem find?_ownOffers (hone : OneService snap.routes) (hr : Served snap r) (hu : Plain u)
    {k : Nat} {t : Target} (h : rung r k = some ⟨r.workspace, t⟩) (ht : t ≠ .workspace) :
    ((snap.rateLimits.flatMap (ownOffers (servedRoutes snap)
        (Credentials.consumerId r.workspace u) (routeId r))).find? fun p => p.1 = k) =
      (rowOf snap.rateLimits ⟨r.workspace, t⟩ (some u)).map fun l => (k, l.limit) := by
  rw [List.find?_flatMap, rowOf, rowAt]
  simp only [← Bool.decide_and]
  apply findSome?_eq
  intro l hl
  have hown := ownedBy_iff (hplain.routes r hr.1).1 hu (hplain.limits l hl)
  have hfind := find?_offers (mem_servedRoutes.mpr hr) (rank_of_routeId hplain hone hr l) k
  rw [ownOffers]
  split
  · rename_i hcond
    rw [Bool.and_eq_true, hown] at hcond
    have hiff : rank l.workspace l.route l.service r = some k ↔
        l.consumer = some u ∧ limitPlace l = ⟨r.workspace, t⟩ := by
      rw [rank_eq_some, h, Option.some.injEq, eq_comm, limitPlace]
      simp [hcond.1]
    rw [hfind]
    exact if_congr hiff rfl rfl
  · rename_i hcond
    rw [Bool.and_eq_true, hown, not_and, bne_iff_ne] at hcond
    rw [if_neg]
    · rfl
    · rintro ⟨hc, hplace⟩
      obtain ⟨hw, htarget⟩ := Place.mk.inj hplace
      exact hcond ⟨hw, hc⟩ (htarget ▸ ht)

theorem heldOn_eq (hone : OneService snap.routes) (hr : Served snap r) (hu : Plain u) :
    heldOn (consumerRateLimits snap.rateLimits (servedRoutes snap))
        (Credentials.consumerId r.workspace u) (routeId r) =
      ((rowOf snap.rateLimits ⟨r.workspace, .route r.name⟩ (some u)).or
        (rowOf snap.rateLimits ⟨r.workspace, .service r.service⟩ (some u))).map
        StoreRateLimit.limit := by
  have hrank : ∀ p ∈ snap.rateLimits.flatMap (ownOffers (servedRoutes snap)
      (Credentials.consumerId r.workspace u) (routeId r)), p.1 ≤ 2 ∧ p.1 ≠ 0 := by
    intro p hp
    obtain ⟨l, -, hl⟩ := List.mem_flatMap.mp hp
    rw [ownOffers] at hl
    split at hl
    · rename_i hcond
      rw [Bool.and_eq_true, bne_iff_ne] at hcond
      obtain ⟨r', -, hsome⟩ := List.mem_filterMap.mp hl
      obtain ⟨k, hk, rfl⟩ := Option.map_eq_some_iff.mp hsome
      have hrung := rank_eq_some.mp hk
      refine ⟨rung_le hrung, ?_⟩
      rintro rfl
      exact hcond.2 (Place.mk.inj (Option.some.inj hrung)).2.symm
    · cases hl
  have hzero : (snap.rateLimits.flatMap (ownOffers (servedRoutes snap)
      (Credentials.consumerId r.workspace u) (routeId r))).find? (fun p => p.1 = 0) = none := by
    rw [List.find?_eq_none]
    intro p hp
    simpa using (hrank p hp).2
  rw [heldOn_consumerRateLimits, argmax_eq_downFrom fun p hp => (hrank p hp).1, downFrom, downFrom,
    downFrom, hzero, find?_ownOffers hplain hone hr hu (k := 2) rfl (by simp),
    find?_ownOffers hplain hone hr hu (k := 1) rfl (by simp), Option.or_none]
  simp only [Option.map_or, Option.map_map, Function.comp_def]

theorem heldAny_eq (hr : Served snap r) (hu : Plain u) :
    heldAny (consumerRateLimits snap.rateLimits (servedRoutes snap))
        (Credentials.consumerId r.workspace u) =
      (rowOf snap.rateLimits ⟨r.workspace, .workspace⟩ (some u)).map StoreRateLimit.limit := by
  rw [heldAny_consumerRateLimits, rowOf, rowAt]
  congr 1
  apply List.find?_congr
  intro l hl
  rw [Bool.eq_iff_iff, Bool.and_eq_true, Bool.and_eq_true, decide_eq_true_iff, decide_eq_true_iff,
    beq_iff_eq, ownedBy_iff (hplain.routes r hr.1).1 hu (hplain.limits l hl), limitPlace,
    Place.mk.injEq]
  tauto

end

variable {rule : RouteRule}

theorem rule_mem_compile (sha256 : String → List UInt8) {settings : StoreSettings}
    (hr : Served snap r) (hrule : compiledRule sha256 snap r = some rule) :
    ∀ l ∈ (compile sha256 snap settings).listeners, rule ∈ l.rules := by
  intro l hl
  obtain ⟨port, -, rfl⟩ := List.mem_map.mp hl
  change rule ∈ (buildOf sha256 snap).rules
  rw [buildOf_rules, List.mem_filterMap]
  exact ⟨r, mem_servedRoutes.mpr hr, hrule⟩

theorem rateLimitFor_eq (config : Config) {consumer : Option String} {own : Option RateLimit}
    (hown : (consumer.bind fun c => config.consumerRateLimits[c]?.bind fun limits =>
      (limits.routes[rule.route]?).or limits.any) = own) :
    config.rateLimitFor rule consumer =
      (own.map fun limit => (limit, true)).or (rule.rateLimit.map fun limit => (limit, false)) := by
  rw [Config.rateLimitFor, hown]
  cases own with
  | none => rfl
  | some limit => rfl

/-- What a caller of a route is limited by is the first rung with a row. Of
two rows on one rung the first counts, and a rung has at most one row in a
store that keeps one row per target. -/
theorem rateLimitFor_eq_ladder (sha256 : String → List UInt8) (settings : StoreSettings)
    (hplain : PlainLimits snap) (hone : OneService snap.routes) (hr : Served snap r)
    (consumer : Option String) (hconsumer : ∀ u ∈ consumer, Plain u) :
    ∃ rule, compiledRule sha256 snap r = some rule ∧
      (∀ l ∈ (compile sha256 snap settings).listeners, rule ∈ l.rules) ∧
      (compile sha256 snap settings).rateLimitFor rule
        (consumer.map (Credentials.consumerId r.workspace)) =
        ladder snap.rateLimits r consumer := by
  obtain ⟨rule, hrule⟩ := compiledRule_isSome sha256 hr
  refine ⟨rule, hrule, rule_mem_compile sha256 hr hrule, ?_⟩
  obtain ⟨service, -, rfl⟩ := Option.map_eq_some_iff.mp hrule
  have heveryone : (ruleOf sha256 snap (consumerTable snap) r service).rateLimit =
      (limitOf snap.rateLimits r none).map StoreRateLimit.limit := limitOnEveryone_eq
  have hown : (consumer.map (Credentials.consumerId r.workspace)).bind (fun c =>
      (consumerRateLimits snap.rateLimits (servedRoutes snap))[c]?.bind fun limits =>
        (limits.routes[routeId r]?).or limits.any) =
      (consumer.bind fun u => limitOf snap.rateLimits r (some u)).map
        StoreRateLimit.limit := by
    cases consumer with
    | none => rfl
    | some u =>
      have hu := hconsumer u rfl
      have hsplit : ∀ (table : TreeMap String ConsumerRateLimits) (c id : String),
          (table[c]?.bind fun limits => (limits.routes[id]?).or limits.any) =
            (heldOn table c id).or (heldAny table c) := by
        intro table c id
        cases ht : table[c]? <;> simp [heldOn, heldAny, ht]
      rw [Option.map_some, Option.bind_some, Option.bind_some, hsplit,
        heldOn_eq hplain hone hr hu, heldAny_eq hplain hr hu, ← Option.map_or, Option.or_assoc]
      rfl
  rw [rateLimitFor_eq (compile sha256 snap settings) hown, heveryone, ladder]
  cases consumer.bind fun u => limitOf snap.rateLimits r (some u) with
  | none => simp [Function.comp_def]
  | some own => rfl

end

def perMinute (limit : Nat) : RateLimit := { limit, windowMs := 60000, limitBy := .consumer }

def service (name : String) : StoreService where
  workspace := "eu"
  name := name
  protocol := .http
  host := "10.0.0.1"
  port := 80
  connectTimeoutMs := none
  readTimeoutMs := none
  tlsVerify := true
  tlsCaPem := none
  tlsSni := none

def orders (service : String) : StoreRoute where
  workspace := "eu"
  name := "orders"
  service := service
  hosts := []
  paths := []
  methods := []
  headers := []
  stripPath := false
  priority := 0

def limitOn (onService consumer : Option String) (limit : Nat) : StoreRateLimit where
  workspace := "eu"
  route := none
  service := onService
  consumer := consumer
  limit := perMinute limit

/-- Ana's own limit on the service is before everyone's on the workspace. -/
def ordersOnPay : StoreSnapshot where
  services := [service "pay"]
  routes := [orders "pay"]
  rateLimits := [limitOn none none 9, limitOn (some "pay") (some "ana") 3]

theorem served_orders {snap : StoreSnapshot} {name : String} (hr : orders name ∈ snap.routes)
    (hs : service name ∈ snap.services) : Served snap (orders name) :=
  ⟨hr, ⟨service name, hs, rfl, rfl⟩, rfl⟩

theorem rateLimitFor_eq_ladder_ana : ∃ rule,
    compiledRule noDigest ordersOnPay (orders "pay") = some rule ∧
      (∀ l ∈ (compile noDigest ordersOnPay {}).listeners, rule ∈ l.rules) ∧
      (compile noDigest ordersOnPay {}).rateLimitFor rule
        ((some "ana").map (Credentials.consumerId "eu")) = some (perMinute 3, true) := by
  have hplain : PlainLimits ordersOnPay :=
    ⟨by simp [ordersOnPay, orders, Plain], by simp [ordersOnPay, limitOn, Plain]⟩
  exact rateLimitFor_eq_ladder noDigest {} hplain (by simp [OneService, ordersOnPay])
    (served_orders (by simp [ordersOnPay]) (by simp [ordersOnPay])) (some "ana") (by simp [Plain])

/-- Two routes of one name, on two services. -/
def ordersTwice : StoreSnapshot where
  services := [service "pay", service "ship"]
  routes := [orders "pay", orders "ship"]
  rateLimits := [limitOn (some "pay") (some "ana") 3]

/-- The consumer's table is keyed by the route's workspace and name, so a limit
on the service of one of the two routes is charged on the other. -/
theorem ladder_of_same_named_route : OneRow ordersTwice.rateLimits ∧ PlainLimits ordersTwice ∧
    Served ordersTwice (orders "ship") ∧ ∃ rule,
      compiledRule noDigest ordersTwice (orders "ship") = some rule ∧
      ladder ordersTwice.rateLimits (orders "ship") (some "ana") = none ∧
      (compile noDigest ordersTwice {}).rateLimitFor rule
        ((some "ana").map (Credentials.consumerId "eu")) = some (perMinute 3, true) := by
  have hplain : PlainLimits ordersTwice :=
    ⟨by simp [ordersTwice, orders, Plain], by simp [ordersTwice, limitOn, Plain]⟩
  exact ⟨by simp [OneRow, ordersTwice], hplain, served_orders (by simp [ordersTwice])
    (by simp [ordersTwice]), _, rfl, by decide, by decide +kernel⟩

end Gapura.Core.StoreLimits
