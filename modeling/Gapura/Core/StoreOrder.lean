import Gapura.Core.StoreLimits
import Gapura.Core.StorePolicies
import Gapura.Lib.Permuted

/-! # The order of the store's rows

A query returns rows in no particular order. The compiler's maps keep the last row
of a key, its clusters the first, its searches the first of the most specific, and
its table is sorted; where the rows have keys of their own none of these depends on
their order. What does is the order of the policies of a rule. -/
namespace Gapura.Core.StoreOrder
open Lib.Ordered Lib.Permuted Store StoreRouting StoreWorkspace StoreAttached StorePolicies
  StoreLimits
open Std (TreeMap)

/-! ## Rows in another order, and what they compile to -/

structure Permuted (snap snap' : StoreSnapshot) : Prop where
  services : snap.services.Perm snap'.services
  routes : snap.routes.Perm snap'.routes
  plugins : snap.plugins.Perm snap'.plugins
  credentials : snap.credentials.Perm snap'.credentials
  rateLimits : snap.rateLimits.Perm snap'.rateLimits
  consumers : snap.consumers.Perm snap'.consumers

/-- Each row has a key of its own. -/
structure Keyed (snap : StoreSnapshot) : Prop where
  services : (snap.services.map fun s => (s.workspace, s.name)).Nodup
  routes : (snap.routes.map fun r => (r.workspace, r.name)).Nodup
  consumers : (snap.consumers.map fun c => (c.workspace, c.username)).Nodup
  credentials : (snap.credentials.map (·.keyHash)).Nodup
  plugins : (snap.plugins.map fun p => (p.plugin.kind, policyPlace p)).Nodup
  rateLimits : (snap.rateLimits.map fun l => (limitPlace l, l.consumer)).Nodup

/-- The consumers that rows name. -/
def consumersNamed (snap : StoreSnapshot) : List (String × String) :=
  (snap.consumers.map fun c => (c.workspace, c.username)) ++
    snap.rateLimits.filterMap fun l => l.consumer.map (l.workspace, ·)

/-- No two consumers that rows name share an id. -/
def Identified (snap : StoreSnapshot) : Prop :=
  ∀ c ∈ consumersNamed snap, ∀ c' ∈ consumersNamed snap,
    Credentials.consumerId c.1 c.2 = Credentials.consumerId c'.1 c'.2 → c = c'

/-- Rules that differ at most in the order of their plugins. -/
def SameRule (a b : RouteRule) : Prop :=
  a.plugins.Perm b.plugins ∧ { a with plugins := b.plugins } = b

def SameListener (a b : ListenerConfig) : Prop :=
  List.Forall₂ SameRule a.rules b.rules ∧ { a with rules := b.rules } = b

def SameLimits (a b : ConsumerRateLimits) : Prop :=
  a.any = b.any ∧ ∀ id : String, a.routes[id]? = b.routes[id]?

/-- Configurations that differ at most in the order of the plugins inside a rule. -/
structure SameConfig (a b : Config) : Prop where
  listeners : List.Forall₂ SameListener a.listeners b.listeners
  ports : a.ports = b.ports
  clusters : a.clusters = b.clusters
  credentials : ∀ hash : String, a.credentials[hash]? = b.credentials[hash]?
  credentialWorkspaces : ∀ hash : String,
    a.credentialWorkspaces[hash]? = b.credentialWorkspaces[hash]?
  consumerRateLimits : ∀ id : String,
    Option.Rel SameLimits a.consumerRateLimits[id]? b.consumerRateLimits[id]?
  consumers : ∀ id : String, a.consumers[id]? = b.consumers[id]?

variable {snap snap' : StoreSnapshot}

/-! ## Routes and their services -/

section
variable (hp : Permuted snap snap')

include hp

theorem getElem?_servicesOf_eq (hk : Keyed snap)
    (key : String × String) : (servicesOf snap)[key]? = (servicesOf snap')[key]? := by
  refine getElem?_collect_of_perm (hp.services.map _) ?_ key
  rw [List.map_map]
  exact hk.services

theorem servedRoutes_eq (hk : Keyed snap) : servedRoutes snap = servedRoutes snap' := by
  have hserved : isServed (servicesOf snap) = isServed (servicesOf snap') := by
    funext route
    rw [isServed, isServed, TreeMap.contains_eq_isSome_getElem?,
      TreeMap.contains_eq_isSome_getElem?, getElem?_servicesOf_eq hp hk]
  rw [servedRoutes, servedRoutes, hserved]
  refine sortBy_eq_of_perm (hp.routes.filter _) fun a ha b hb hab => ?_
  exact List.inj_on_of_nodup_map hk.routes (List.mem_of_mem_filter ha) (List.mem_of_mem_filter hb)
    (routeCmp_eq hab)

/-! ## Consumers -/

theorem consumerTable_eq (hk : Keyed snap) (hid : Identified snap)
    (id : String) : (consumerTable snap)[id]? = (consumerTable snap')[id]? := by
  refine getElem?_collect_of_perm (hp.consumers.map _) ?_ id
  rw [List.map_map]
  have hids : (snap.consumers.map fun c => (c.workspace, c.username)).map
      (fun c => Credentials.consumerId c.1 c.2) = snap.consumers.map
        (Prod.fst ∘ fun c => (Credentials.consumerId c.workspace c.username,
          c.groups.insertionSort (· ≤ ·))) := List.map_map
  rw [← hids]
  refine hk.consumers.map_on fun a ha b hb hab => ?_
  exact hid a (List.mem_append_left _ ha) b (List.mem_append_left _ hb) hab

theorem hasConsumer_eq (hk : Keyed snap) (hid : Identified snap) :
    hasConsumer (consumerTable snap) = hasConsumer (consumerTable snap') := by
  funext workspace name
  rw [hasConsumer, hasConsumer, TreeMap.contains_eq_isSome_getElem?,
    TreeMap.contains_eq_isSome_getElem?, consumerTable_eq hp hk hid]

end

/-! ## Policies and limits on everyone -/

theorem mostSpecific_eq {α : Type} {place : α → Place} {picks : α → Bool} {all all' : List α}
    (hp : all.Perm all')
    (hu : ∀ a ∈ all, ∀ b ∈ all, picks a = true → picks b = true → place a = place b → a = b)
    (r : StoreRoute) : mostSpecific place picks all r = mostSpecific place picks all' r := by
  have hrow : ∀ at_, rowAt place picks all at_ = rowAt place picks all' at_ := by
    intro at_
    refine find?_eq_of_perm hp fun a ha b hb hpa hpb => ?_
    obtain ⟨hpicks, hplace⟩ := Bool.and_eq_true_iff.mp hpa
    obtain ⟨hpicks', hplace'⟩ := Bool.and_eq_true_iff.mp hpb
    exact hu a ha b hb hpicks hpicks'
      ((of_decide_eq_true hplace).trans (of_decide_eq_true hplace').symm)
  rw [mostSpecific, mostSpecific, hrow, hrow, hrow]

theorem pluginsFor_perm (hp : Permuted snap snap') (hk : Keyed snap) (hid : Identified snap)
    (r : StoreRoute) : (pluginsFor snap.plugins r (consumerTable snap)).Perm
      (pluginsFor snap'.plugins r (consumerTable snap')) := by
  refine perm_of_filter_eq Plugin.kind fun kind => ?_
  have hsame : mostSpecific policyPlace (fun p => p.plugin.kind = kind) snap.plugins r =
      mostSpecific policyPlace (fun p => p.plugin.kind = kind) snap'.plugins r := by
    refine mostSpecific_eq hp.plugins (fun a ha b hb hka hkb hplace => ?_) r
    refine List.inj_on_of_nodup_map hk.plugins ha hb ?_
    rw [of_decide_eq_true hka, of_decide_eq_true hkb, hplace]
  rw [filter_pluginsFor, filter_pluginsFor, hsame]
  congr 2
  funext p
  exact stamp_congr fun _ _ name _ => by rw [hasConsumer_eq hp hk hid]

/-- A route runs at most one policy of a kind. -/
theorem nodup_kind_pluginsFor (all : List StorePlugin) (r : StoreRoute)
    (consumers : ConsumerTable) : ((pluginsFor all r consumers).map Plugin.kind).Nodup := by
  refine nodup_of_filter_le Plugin.kind fun kind => ?_
  rw [filter_pluginsFor]
  exact Option.length_toList_le

theorem limitOnEveryone_of_perm (hp : Permuted snap snap') (hk : Keyed snap) (r : StoreRoute) :
    limitOnEveryone snap.rateLimits r = limitOnEveryone snap'.rateLimits r := by
  rw [limitOnEveryone_eq, limitOnEveryone_eq, limitOf, limitOf]
  refine congrArg _ (mostSpecific_eq hp.rateLimits (fun a ha b hb hca hcb hplace => ?_) r)
  refine List.inj_on_of_nodup_map hk.rateLimits ha hb ?_
  rw [of_decide_eq_true hca, of_decide_eq_true hcb, hplace]

/-! ## Rules and clusters -/

section
variable (sha256 : String → List UInt8)

theorem ruleOf_same (hp : Permuted snap snap') (hk : Keyed snap) (hid : Identified snap)
    (r : StoreRoute) (service : StoreService) :
    SameRule (ruleOf sha256 snap (consumerTable snap) r service)
      (ruleOf sha256 snap' (consumerTable snap') r service) := by
  refine ⟨pluginsFor_perm hp hk hid r, ?_⟩
  rw [ruleOf, ruleOf, limitOnEveryone_of_perm hp hk]

theorem rules_same (hp : Permuted snap snap') (hk : Keyed snap) (hid : Identified snap) :
    List.Forall₂ SameRule (buildOf sha256 snap).rules (buildOf sha256 snap').rules := by
  rw [buildOf_rules, buildOf_rules, ← servedRoutes_eq hp hk]
  refine List.rel_filterMap (R := Eq) ?_ (List.forall₂_refl _)
  intro r r' hr
  subst hr
  rw [compiledRule, compiledRule, ← getElem?_servicesOf_eq hp hk]
  cases (servicesOf snap)[(r.workspace, r.service)]? with
  | none => exact .none
  | some service => exact .some (ruleOf_same sha256 hp hk hid r service)

theorem clusters_eq (hp : Permuted snap snap') (hk : Keyed snap) :
    (buildOf sha256 snap).clusters = (buildOf sha256 snap').clusters := by
  have hfold : ∀ (routes : List StoreRoute) (b b' : Build), b.clusters = b'.clusters →
      (routes.foldl (compileRoute sha256 snap (servicesOf snap) (consumerTable snap)) b).clusters =
        (routes.foldl
          (compileRoute sha256 snap' (servicesOf snap') (consumerTable snap')) b').clusters := by
    intro routes
    induction routes with
    | nil => exact fun b b' h => h
    | cons r rest ih =>
      intro b b' h
      refine ih _ _ ?_
      rw [compileRoute, compileRoute, ← getElem?_servicesOf_eq hp hk]
      cases (servicesOf snap)[(r.workspace, r.service)]? with
      | none => exact h
      | some service =>
        simp only
        rw [h]
  rw [buildOf, buildOf, ← servedRoutes_eq hp hk]
  exact hfold _ _ _ rfl

end

/-! ## A consumer's own limits -/

theorem name_of_routeId {r r' : StoreRoute} (hw : r.workspace = r'.workspace)
    (h : routeId r = routeId r') : r.name = r'.name := by
  rw [routeId, routeId, hw] at h
  split at h
  · exact h
  · have hlist := congrArg String.toList h
    simp only [String.toList_append] at hlist
    exact String.toList_inj.mp (List.append_cancel_left hlist)

theorem workspace_of_rank {w : String} {onRoute onService : Option String} {r : StoreRoute}
    {k : Nat} (h : rank w onRoute onService r = some k) : w = r.workspace := by
  by_contra hne
  rw [rank_of_ne onRoute onService hne] at h
  cases h

variable {consumer : String} {offer : Nat × RateLimit} {limits : ConsumerRateLimits}
  {table : TreeMap String ConsumerRateLimits} {acc : Limits}

variable {l : StoreRateLimit} {id : String}

/-- Rows that one consumer owns name it alike. -/
theorem eq_of_ownedBy (hid : Identified snap) {l' : StoreRateLimit} (hl : l ∈ snap.rateLimits)
    (hl' : l' ∈ snap.rateLimits) (h : ownedBy consumer l = true)
    (h' : ownedBy consumer l' = true) : l.workspace = l'.workspace ∧ l.consumer = l'.consumer := by
  rw [ownedBy, Option.any_eq_true] at h h'
  obtain ⟨u, hu, hown⟩ := h
  obtain ⟨u', hu', hown'⟩ := h'
  have hnamed : ∀ {l : StoreRateLimit} {u : String}, l ∈ snap.rateLimits → l.consumer = some u →
      (l.workspace, u) ∈ consumersNamed snap := by
    intro l u hl hu
    refine List.mem_append_right _ (List.mem_filterMap.mpr ⟨l, hl, ?_⟩)
    rw [hu]
    rfl
  have hpair := hid _ (hnamed hl hu) _ (hnamed hl' hu')
    ((eq_of_beq hown).trans (eq_of_beq hown').symm)
  obtain ⟨hw, hname⟩ := Prod.mk.inj hpair
  exact ⟨hw, by rw [hu, hu', hname]⟩

theorem mem_ownOffers {routes : List StoreRoute} (h : offer ∈ ownOffers routes consumer id l) :
    ownedBy consumer l = true ∧ offer.2 = l.limit ∧ ∃ r ∈ routes, routeId r = id ∧
      rank l.workspace l.route l.service r = some offer.1 := by
  unfold ownOffers at h
  split at h
  · rename_i howned
    obtain ⟨r, hr, hrank⟩ := List.mem_filterMap.mp h
    obtain ⟨hr, hroute⟩ := List.mem_filter.mp hr
    obtain ⟨k, hk, rfl⟩ := Option.map_eq_some_iff.mp hrank
    exact ⟨(Bool.and_eq_true_iff.mp howned).1, rfl, r, hr, eq_of_beq hroute, hk⟩
  · cases h

/-- No two rows offer a consumer a limit that is equally specific on a route. -/
theorem offer_eq (hk : Keyed snap) (hid : Identified snap) {offer' : Nat × RateLimit}
    (h : offer ∈ snap.rateLimits.flatMap (ownOffers (servedRoutes snap) consumer id))
    (h' : offer' ∈ snap.rateLimits.flatMap (ownOffers (servedRoutes snap) consumer id))
    (hrank : offer.1 = offer'.1) : offer = offer' := by
  obtain ⟨l, hl, hoffer⟩ := List.mem_flatMap.mp h
  obtain ⟨l', hl', hoffer'⟩ := List.mem_flatMap.mp h'
  obtain ⟨howned, hlimit, r, hr, hrid, hr2⟩ := mem_ownOffers hoffer
  obtain ⟨howned', hlimit', r', hr', hrid', hr2'⟩ := mem_ownOffers hoffer'
  obtain ⟨hw, hconsumer⟩ := eq_of_ownedBy hid hl hl' howned howned'
  have hworkspace : r.workspace = r'.workspace :=
    (workspace_of_rank hr2).symm.trans (hw.trans (workspace_of_rank hr2'))
  have hroute : r = r' := List.inj_on_of_nodup_map hk.routes (mem_servedRoutes.mp hr).1
    (mem_servedRoutes.mp hr').1
    (Prod.ext hworkspace (name_of_routeId hworkspace (hrid.trans hrid'.symm)))
  subst hroute
  -- one route and one rank: the two rows are attached to one place
  have hplace : limitPlace l = limitPlace l' := by
    rw [rank_eq_some] at hr2 hr2'
    rw [hrank, hr2'] at hr2
    exact (Option.some.inj hr2).symm
  have hrow : l = l' := List.inj_on_of_nodup_map hk.rateLimits hl hl' (Prod.ext hplace hconsumer)
  subst hrow
  exact Prod.ext hrank (hlimit.trans hlimit'.symm)

theorem heldOn_eq_of_perm (hp : Permuted snap snap') (hk : Keyed snap) (hid : Identified snap)
    (consumer id : String) :
    heldOn (consumerRateLimits snap.rateLimits (servedRoutes snap)) consumer id =
      heldOn (consumerRateLimits snap'.rateLimits (servedRoutes snap')) consumer id := by
  rw [heldOn_consumerRateLimits, heldOn_consumerRateLimits, ← servedRoutes_eq hp hk]
  rw [argmax_eq_of_perm (hp.rateLimits.flatMap_right _)]
  exact fun a ha b hb => offer_eq hk hid ha hb

theorem heldAny_eq_of_perm (hp : Permuted snap snap') (hk : Keyed snap) (hid : Identified snap)
    (consumer : String) :
    heldAny (consumerRateLimits snap.rateLimits (servedRoutes snap)) consumer =
      heldAny (consumerRateLimits snap'.rateLimits (servedRoutes snap')) consumer := by
  rw [heldAny_consumerRateLimits, heldAny_consumerRateLimits, find?_eq_of_perm hp.rateLimits]
  intro l hl l' hl' h h'
  obtain ⟨howned, htarget⟩ := Bool.and_eq_true_iff.mp h
  obtain ⟨howned', htarget'⟩ := Bool.and_eq_true_iff.mp h'
  obtain ⟨hw, hconsumer⟩ := eq_of_ownedBy hid hl hl' howned howned'
  refine List.inj_on_of_nodup_map hk.rateLimits hl hl' (Prod.ext ?_ hconsumer)
  rw [limitPlace, limitPlace, hw, eq_of_beq htarget, eq_of_beq htarget']

/-- Every entry of the table holds a limit. -/
def Holds (table : TreeMap String ConsumerRateLimits) : Prop :=
  ∀ (consumer : String) (limits : ConsumerRateLimits), table[consumer]? = some limits →
    limits.any.isSome = true ∨ ∃ id : String, limits.routes[id]?.isSome = true

theorem Holds.insert (h : Holds table) (consumer : String)
    (hlimits : limits.any.isSome = true ∨ ∃ id : String, limits.routes[id]?.isSome = true) :
    Holds (table.insert consumer limits) := by
  intro consumer' limits' hget
  rw [TreeMap.getElem?_insert] at hget
  split at hget
  · cases hget
    exact hlimits
  · exact h consumer' limits' hget

theorem holds_holdLimit (h : Holds acc.out) (l : StoreRateLimit) (consumer : String)
    (route : StoreRoute) : Holds (holdLimit l consumer acc route).out := by
  unfold holdLimit
  split
  · exact h
  · simp only
    split
    · exact h.insert consumer (.inr ⟨routeId route, by simp⟩)
    · exact h

theorem holds_consumerLimit (h : Holds acc.out) (routes : List StoreRoute)
    (l : StoreRateLimit) : Holds (consumerLimit routes acc l).out := by
  unfold consumerLimit
  split
  · exact h
  · simp only
    split
    · exact h.insert _ (.inl (by simp))
    · exact List.foldlRecOn (motive := fun acc : Limits => Holds acc.out) routes _ h
        fun acc hacc route _ => holds_holdLimit hacc l _ route

theorem holds_consumerRateLimits (all : List StoreRateLimit) (routes : List StoreRoute) :
    Holds (consumerRateLimits all routes) := by
  refine List.foldlRecOn (motive := fun acc : Limits => Holds acc.out) all _ ?_
    fun acc hacc l _ => holds_consumerLimit hacc routes l
  intro consumer limits hget
  simp at hget

theorem Holds.held (h : Holds table) (hget : table[consumer]? = some limits) :
    (heldAny table consumer).isSome = true ∨ ∃ id, (heldOn table consumer id).isSome = true := by
  rcases h consumer limits hget with hany | ⟨id, hroute⟩
  · left
    rw [heldAny, hget]
    exact hany
  · right
    refine ⟨id, ?_⟩
    rw [heldOn, hget]
    exact hroute

/-- Two tables that hold the same limits have the same entries. -/
theorem rel_of_held_eq {table' : TreeMap String ConsumerRateLimits} (h : Holds table)
    (h' : Holds table') (hany : ∀ consumer, heldAny table consumer = heldAny table' consumer)
    (hon : ∀ consumer id, heldOn table consumer id = heldOn table' consumer id)
    (consumer : String) : Option.Rel SameLimits table[consumer]? table'[consumer]? := by
  have hempty : ∀ {table : TreeMap String ConsumerRateLimits}, table[consumer]? = none →
      heldAny table consumer = none ∧ ∀ id, heldOn table consumer id = none := by
    intro table hnone
    simp [heldAny, heldOn, hnone]
  cases hget : table[consumer]? with
  | none =>
    cases hget' : table'[consumer]? with
    | none => exact .none
    | some limits =>
      obtain ⟨hnone, hnone'⟩ := hempty hget
      rcases h'.held hget' with hsome | ⟨id, hsome⟩
      · rw [← hany, hnone] at hsome
        cases hsome
      · rw [← hon, hnone'] at hsome
        cases hsome
  | some limits =>
    cases hget' : table'[consumer]? with
    | none =>
      obtain ⟨hnone, hnone'⟩ := hempty hget'
      rcases h.held hget with hsome | ⟨id, hsome⟩
      · rw [hany, hnone] at hsome
        cases hsome
      · rw [hon, hnone'] at hsome
        cases hsome
    | some limits' =>
      refine .some ⟨?_, fun id => ?_⟩
      · simpa [heldAny, hget, hget'] using hany consumer
      · simpa [heldOn, hget, hget'] using hon consumer id

/-! ## The whole configuration -/

/-- Rows with keys of their own compile to one configuration, whatever their order,
up to the order of the plugins inside a rule. -/
theorem compile_of_perm (hp : Permuted snap snap') (hk : Keyed snap) (hid : Identified snap)
    (sha256 : String → List UInt8) (settings : StoreSettings) :
    SameConfig (compile sha256 snap settings) (compile sha256 snap' settings) where
  listeners := by
    refine List.rel_map (R := Eq) ?_ (List.forall₂_refl settings.httpPorts)
    intro port port' hport
    subst hport
    exact ⟨rules_same sha256 hp hk hid, rfl⟩
  ports := by
    -- a table entry depends on the listener's place and port only
    simp only [compile, buildOf_table, servedRoutes_eq hp hk, List.zipIdx_map, List.map_map]
    rfl
  clusters := clusters_eq sha256 hp hk
  credentials := by
    refine getElem?_collect_of_perm (hp.credentials.map _) ?_
    rw [List.map_map]
    exact hk.credentials
  credentialWorkspaces := by
    refine getElem?_collect_of_perm ((hp.credentials.filter _).map _) ?_
    rw [List.map_map]
    exact hk.credentials.sublist (List.filter_sublist.map _)
  consumerRateLimits := rel_of_held_eq (holds_consumerRateLimits _ _) (holds_consumerRateLimits _ _)
    (heldAny_eq_of_perm hp hk hid) (heldOn_eq_of_perm hp hk hid)
  consumers := consumerTable_eq hp hk hid

end Gapura.Core.StoreOrder
