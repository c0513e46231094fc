import Gapura.Proxy.Plugin

/-! # What a rule's chain consists of

Whether a plugin can run does not depend on the plugins before it, and what it
adds to each list does not either, except that an auth policy moves the
credential policies into one step. So the access steps of a compiled rule are
the classes of the ranks in turn, each in the order its policies arrive in. -/
namespace Gapura.Proxy.Chain
open Gapura.Core Lib.Headers Lib.Ordered Proxy.Plugin

/-! ## The policies of one kind -/

def cors? : Plugin → Option CorsPolicy
  | .cors policy => some policy
  | _ => none

def ip? : Plugin → Option IpRestrictionPolicy
  | .ipRestriction policy => some policy
  | _ => none

def jwt? : Plugin → Option JwtPolicy
  | .jwt policy => some policy
  | _ => none

def keyAuth? : Plugin → Option KeyAuthPolicy
  | .keyAuth policy => some policy
  | _ => none

def auth? : Plugin → Option AuthPolicy
  | .auth policy => some policy
  | _ => none

def acl? : Plugin → Option AclPolicy
  | .acl policy => some policy
  | _ => none

def size? : Plugin → Option Nat
  | .requestSizeLimit policy => some policy.maxBytes
  | _ => none

def transform? : Plugin → Option RequestTransformerPolicy
  | .requestTransformer policy => some policy
  | _ => none

theorem authOf_eq (plugins : List Plugin) : authOf plugins = plugins.findSome? auth? := by
  unfold authOf
  congr 1

/-! ## What one plugin adds -/

/-- Nothing in the plugin itself keeps it from running. -/
def writes : Plugin → Bool
  | .requestTransformer policy => writable policy.headers
  | .responseTransformer policy => writable policy.headers
  | .cors policy => [policy.methods, policy.headers, policy.exposeHeaders].all fun list =>
      (ofStr (joined list)).isSome
  | _ => true

def placed (reachable : List Phase) (p : Plugin) : Bool :=
  (misplaced p.phases p.body reachable).isNone && writes p

def accessStep (auth : Option AuthPolicy) : Plugin → Option Access
  | .cors policy => some (.cors policy)
  | .ipRestriction policy => some (.ipRestriction policy)
  | .jwt policy => if auth.isSome then none else some (.jwt policy)
  | .keyAuth policy => if auth.isSome then none else some (.keyAuth policy)
  | .acl policy => some (.acl policy)
  | .requestSizeLimit policy => some (.sizeLimit policy.maxBytes)
  | _ => none

def upstreamStep : Plugin → Option UpstreamRequest
  | .keyAuth policy => some (.removeHeader policy.header)
  | .requestTransformer policy => some (.transform policy)
  | _ => none

def bodyStep : Plugin → Option RequestBody
  | .requestSizeLimit policy => some (.sizeLimit policy.maxBytes)
  | _ => none

def responseStep : Plugin → Option Response
  | .cors policy => some (.cors policy)
  | .responseTransformer policy => some (.transform policy.headers)
  | _ => none

def added (auth : Option AuthPolicy) (acc : Compiling) (p : Plugin) : Compiling where
  chain := {
    access := acc.chain.access ++ (accessStep auth p).toList
    upstreamRequest := acc.chain.upstreamRequest ++ (upstreamStep p).toList
    requestBody := acc.chain.requestBody ++ (bodyStep p).toList
    response := acc.chain.response ++ (responseStep p).toList }
  jwt := if auth.isSome then (jwt? p).or acc.jwt else acc.jwt
  keyAuth := if auth.isSome then (keyAuth? p).or acc.keyAuth else acc.keyAuth

theorem compilePlugin_placed {reachable : List Phase} {p : Plugin} (h : placed reachable p = true)
    (auth : Option AuthPolicy) (acc : Compiling) :
    compilePlugin reachable auth acc p = .ok (added auth acc p) := by
  obtain ⟨hphase, hwrites⟩ := Bool.and_eq_true_iff.mp h
  have hnone := Option.isNone_iff_eq_none.mp hphase
  cases p <;> cases hauth : auth.isSome <;>
    simp_all [compilePlugin, added, writes, accessStep, upstreamStep, bodyStep, responseStep, jwt?,
      keyAuth?]

theorem compilePlugin_misplaced {reachable : List Phase} {p : Plugin}
    (h : placed reachable p = false) (auth : Option AuthPolicy) (acc : Compiling) :
    ∃ e, compilePlugin reachable auth acc p = .error e := by
  rw [placed, Bool.and_eq_false_iff] at h
  rcases h with hphase | hwrites
  · obtain ⟨why, hwhy⟩ := Option.isSome_iff_exists.mp (Option.isNone_eq_false_iff.mp hphase)
    exact ⟨⟨p.kind, why⟩, by simp [compilePlugin, hwhy]⟩
  · cases hm : misplaced p.phases p.body reachable with
    | some why => exact ⟨⟨p.kind, why⟩, by simp [compilePlugin, hm]⟩
    | none =>
      refine ⟨unwritable p, ?_⟩
      cases p <;> simp_all [compilePlugin, writes]

/-! ## All plugins -/

section
variable {auth : Option AuthPolicy} {reach : List Phase}

theorem foldlM_placed {plugins : List Plugin} (h : plugins.all (placed reach) = true)
    (acc : Compiling) : plugins.foldlM (compilePlugin reach auth) acc =
      .ok (plugins.foldl (added auth) acc) := by
  induction plugins generalizing acc with
  | nil => rfl
  | cons p rest ih =>
    rw [List.all_cons, Bool.and_eq_true] at h
    rw [List.foldlM_cons, compilePlugin_placed h.1]
    exact ih h.2 _

theorem foldlM_misplaced {plugins : List Plugin} (h : plugins.all (placed reach) = false)
    (acc : Compiling) : ∃ e, plugins.foldlM (compilePlugin reach auth) acc = .error e := by
  induction plugins generalizing acc with
  | nil => cases h
  | cons p rest ih =>
    rw [List.foldlM_cons]
    cases hp : placed reach p with
    | false =>
      obtain ⟨e, he⟩ := compilePlugin_misplaced hp auth acc
      exact ⟨e, by rw [he]; rfl⟩
    | true =>
      rw [List.all_cons, hp, Bool.true_and] at h
      rw [compilePlugin_placed hp]
      exact ih h _

/-- A list that each plugin adds its step to, if it has one. -/
theorem foldl_collects {β : Type} {f : Compiling → List β} {g : Plugin → Option β}
    (h : ∀ acc p, f (added auth acc p) = f acc ++ (g p).toList) (plugins : List Plugin)
    (acc : Compiling) : f (plugins.foldl (added auth) acc) = f acc ++ plugins.filterMap g := by
  induction plugins generalizing acc with
  | nil => simp
  | cons p rest ih =>
    rw [List.foldl_cons, ih, h]
    cases hs : g p <;> simp [hs]

/-- The lists of every phase, in the plugins' order. -/
theorem foldl_added (plugins : List Plugin) (acc : Compiling) :
    let chain := (plugins.foldl (added auth) acc).chain
    chain.access = acc.chain.access ++ plugins.filterMap (accessStep auth) ∧
    chain.upstreamRequest = acc.chain.upstreamRequest ++ plugins.filterMap upstreamStep ∧
    chain.requestBody = acc.chain.requestBody ++ plugins.filterMap bodyStep ∧
    chain.response = acc.chain.response ++ plugins.filterMap responseStep := by
  refine ⟨foldl_collects (f := (·.chain.access)) ?_ plugins acc,
    foldl_collects (f := (·.chain.upstreamRequest)) ?_ plugins acc,
    foldl_collects (f := (·.chain.requestBody)) ?_ plugins acc,
    foldl_collects (f := (·.chain.response)) ?_ plugins acc⟩
  all_goals exact fun _ _ => rfl

theorem getLast?_filterMap_cons {α β : Type} (f : α → Option β) (a : α) (rest : List α)
    (o : Option β) : (((a :: rest).filterMap f).getLast?).or o =
      ((rest.filterMap f).getLast?).or ((f a).or o) := by
  cases ha : f a with
  | none => simp [ha]
  | some b =>
    rw [List.filterMap_cons_some ha]
    cases rest.filterMap f with
    | nil => rfl
    | cons c cs => simp [List.getLast?_cons]

/-- The last jwt and the last key_auth policy, when an auth policy collects them. -/
theorem foldl_added_credentials (auth : Option AuthPolicy) (plugins : List Plugin)
    (acc : Compiling) :
    (plugins.foldl (added auth) acc).jwt =
      (if auth.isSome then ((plugins.filterMap jwt?).getLast?).or acc.jwt else acc.jwt) ∧
    (plugins.foldl (added auth) acc).keyAuth =
      if auth.isSome then ((plugins.filterMap keyAuth?).getLast?).or acc.keyAuth
      else acc.keyAuth := by
  induction plugins generalizing acc with
  | nil => simp
  | cons p rest ih =>
    rw [List.foldl_cons, (ih _).1, (ih _).2, getLast?_filterMap_cons, getLast?_filterMap_cons]
    cases h : auth.isSome with
    | false => simp [added, h]
    | true => simp [added, h]

end

variable {chain : Plugin.Chain} {rule : RouteRule} {plugins : List Plugin} (p : Plugin)
  {l : List Access}

theorem compile_ok_iff : compile rule = .ok chain ↔
    rule.plugins.all (placed (reachable rule)) = true ∧
    finish (authOf rule.plugins) (rule.plugins.foldl (added (authOf rule.plugins)) {}) = chain := by
  unfold compile
  cases hall : rule.plugins.all (placed (reachable rule)) with
  | true =>
    simp only [foldlM_placed hall]
    constructor
    · intro h
      cases h
      exact ⟨trivial, rfl⟩
    · intro ⟨_, h⟩
      rw [← h]
      rfl
  | false =>
    have herror : ∃ e, rule.plugins.foldlM
        (compilePlugin (reachable rule) (authOf rule.plugins)) {} = .error e :=
      foldlM_misplaced hall {}
    obtain ⟨e, he⟩ := herror
    simp only [he]
    constructor
    · intro h
      cases h
    · intro ⟨h, _⟩
      cases h

/-! ## The lists of a compiled rule -/

/-- One rank's steps are the policies of one kind. -/
theorem filter_filterMap_class {σ β : Type} (step : Plugin → Option σ) (rank : σ → Nat) (k : Nat)
    (f : Plugin → Option β) (g : β → σ) (plugins : List Plugin)
    (h : ∀ p, (step p).filter (fun a => decide (rank a = k)) = (f p).map g) :
    (plugins.filterMap step).filter (fun a => decide (rank a = k)) =
      (plugins.filterMap f).map g := by
  rw [List.filter_filterMap, List.map_filterMap]
  congr 1
  funext p
  exact h p

theorem requestBody_of_compile (h : compile rule = .ok chain) :
    chain.requestBody = (rule.plugins.filterMap size?).map .sizeLimit := by
  obtain ⟨_, rfl⟩ := compile_ok_iff.mp h
  simp only [finish, (foldl_added rule.plugins {}).2.2.1, List.nil_append, List.map_filterMap]
  refine congrArg (rule.plugins.filterMap ·) (funext fun p => ?_)
  cases p <;> rfl

/-- The key's removal always runs before the edits. -/
theorem upstreamRequest_of_compile (h : compile rule = .ok chain) : chain.upstreamRequest =
      ((rule.plugins.filterMap keyAuth?).map fun p => .removeHeader p.header) ++
      (rule.plugins.filterMap transform?).map .transform := by
  obtain ⟨_, rfl⟩ := compile_ok_iff.mp h
  simp only [finish, (foldl_added rule.plugins {}).2.1, List.nil_append]
  have hrank : ∀ step : UpstreamRequest, step.rank < 3 := by
    intro step
    cases step <;> simp [UpstreamRequest.rank]
  rw [sortBy_byKey 3 fun step _ => hrank step]
  have hnone := filter_filterMap_class upstreamStep UpstreamRequest.rank 0
    (fun _ => (none : Option Unit)) (fun _ => .removeHeader "") rule.plugins
    fun p => by cases p <;> rfl
  have hremove := filter_filterMap_class upstreamStep UpstreamRequest.rank 1 keyAuth?
    (fun p => .removeHeader p.header) rule.plugins fun p => by cases p <;> rfl
  have htransform := filter_filterMap_class upstreamStep UpstreamRequest.rank 2 transform?
    .transform rule.plugins fun p => by cases p <;> rfl
  simp only [List.range, List.range.loop, List.flatMap_cons, List.flatMap_nil, List.append_nil,
    hremove, htransform, hnone]
  simp

/-! ## At most one plugin of each kind -/

def AtMostOne (plugins : List Plugin) : Prop := (plugins.map Plugin.kind).Nodup

instance (plugins : List Plugin) : Decidable (AtMostOne plugins) :=
  inferInstanceAs (Decidable (plugins.map Plugin.kind).Nodup)

theorem filterMap_eq_toList {β : Type} {f : Plugin → Option β} {k : Kind}
    (hf : ∀ p b, f p = some b → p.kind = k) (h : AtMostOne plugins) :
    plugins.filterMap f = (plugins.findSome? f).toList := by
  induction plugins with
  | nil => rfl
  | cons p rest ih =>
    obtain ⟨hp, hrest⟩ := List.nodup_cons.mp h
    cases hfp : f p with
    | none =>
      rw [List.filterMap_cons_none hfp, List.findSome?_cons, hfp]
      exact ih hrest
    | some b =>
      have hnil : rest.filterMap f = [] := by
        rw [List.filterMap_eq_nil_iff]
        intro q hq
        by_contra hne
        obtain ⟨c, hc⟩ := Option.ne_none_iff_exists'.mp hne
        exact hp (List.mem_map.mpr ⟨q, hq, (hf q c hc).trans (hf p b hfp).symm⟩)
      rw [List.filterMap_cons_some hfp, hnil, List.findSome?_cons, hfp]
      rfl

theorem findSome?_perm {β : Type} {f : Plugin → Option β} {k : Kind}
    (hf : ∀ p b, f p = some b → p.kind = k) {plugins' : List Plugin} (hp : plugins'.Perm plugins)
    (h : AtMostOne plugins) : plugins'.findSome? f = plugins.findSome? f := by
  have h' : AtMostOne plugins' := (hp.map Plugin.kind).nodup_iff.mpr h
  have hperm := hp.filterMap f
  rw [filterMap_eq_toList hf h, filterMap_eq_toList hf h'] at hperm
  have hlen := hperm.length_eq
  cases h1 : plugins'.findSome? f with
  | none =>
    cases h2 : plugins.findSome? f with
    | none => rfl
    | some b => simp [h1, h2] at hlen
  | some a =>
    cases h2 : plugins.findSome? f with
    | none => simp [h1, h2] at hlen
    | some b =>
      rw [h1, h2] at hperm
      exact congrArg some (List.singleton_perm_singleton.mp hperm)

theorem kind_cors (b : CorsPolicy) (h : cors? p = some b) : p.kind = .cors := by
  cases p <;> first | rfl | cases h

theorem kind_ip (b : IpRestrictionPolicy) (h : ip? p = some b) : p.kind = .ipRestriction := by
  cases p <;> first | rfl | cases h

theorem kind_jwt (b : JwtPolicy) (h : jwt? p = some b) : p.kind = .jwt := by
  cases p <;> first | rfl | cases h

theorem kind_keyAuth (b : KeyAuthPolicy) (h : keyAuth? p = some b) : p.kind = .keyAuth := by
  cases p <;> first | rfl | cases h

theorem kind_auth (b : AuthPolicy) (h : auth? p = some b) : p.kind = .auth := by
  cases p <;> first | rfl | cases h

theorem kind_acl (b : AclPolicy) (h : acl? p = some b) : p.kind = .acl := by
  cases p <;> first | rfl | cases h

theorem kind_size (b : Nat) (h : size? p = some b) : p.kind = .requestSizeLimit := by
  cases p <;> first | rfl | cases h

/-- The policies a rule's access steps come from. -/
structure Policies where
  cors : Option CorsPolicy
  ip : Option IpRestrictionPolicy
  jwt : Option JwtPolicy
  keyAuth : Option KeyAuthPolicy
  auth : Option AuthPolicy
  acl : Option AclPolicy
  size : Option Nat
  deriving DecidableEq, Repr

def policiesOf (plugins : List Plugin) : Policies where
  cors := plugins.findSome? cors?
  ip := plugins.findSome? ip?
  jwt := plugins.findSome? jwt?
  keyAuth := plugins.findSome? keyAuth?
  auth := plugins.findSome? auth?
  acl := plugins.findSome? acl?
  size := plugins.findSome? size?

theorem policiesOf_perm {plugins' : List Plugin} (hp : plugins'.Perm plugins)
    (h : AtMostOne plugins) : policiesOf plugins' = policiesOf plugins := by
  simp only [policiesOf, findSome?_perm kind_cors hp h, findSome?_perm kind_ip hp h,
    findSome?_perm kind_jwt hp h, findSome?_perm kind_keyAuth hp h, findSome?_perm kind_auth hp h,
    findSome?_perm kind_acl hp h, findSome?_perm kind_size hp h]

/-- The one step an auth policy leaves of the credential policies. -/
def Policies.anyOfSteps (p : Policies) (auth : AuthPolicy) : List Access :=
  if p.jwt.isSome || p.keyAuth.isSome then
    [.anyOf { jwt := p.jwt, keyAuth := p.keyAuth, anonymous := anonymousOf (some auth) }]
  else []

/-- One step each, or one for both under an auth policy. -/
def Policies.credentialSteps (p : Policies) : List Access :=
  match p.auth with
  | none => p.jwt.toList.map .jwt ++ p.keyAuth.toList.map .keyAuth
  | some auth => p.anyOfSteps auth

/-- The steps before the limit, in the order they run. -/
def Policies.steps (p : Policies) : List Access :=
  p.cors.toList.map .cors ++ (p.ip.toList.map .ipRestriction ++ (p.credentialSteps ++
    (p.acl.toList.map .acl ++ p.size.toList.map .sizeLimit)))

theorem anyOfSteps_rank {p : Policies} {auth : AuthPolicy} {a : Access}
    (h : a ∈ p.anyOfSteps auth) : a.rank = 2 := by
  unfold Policies.anyOfSteps at h
  split at h
  · rw [List.mem_singleton.mp h]
    rfl
  · cases h

theorem getLast?_toList {α : Type} (o : Option α) : o.toList.getLast? = o := by
  cases o <;> rfl

/-- The credential step an auth policy's collecting leads to. -/
theorem finish_credentials (auth : AuthPolicy) (h : AtMostOne plugins) :
    (plugins.foldl (added (some auth)) {}).jwt = plugins.findSome? jwt? ∧
      (plugins.foldl (added (some auth)) {}).keyAuth = plugins.findSome? keyAuth? := by
  obtain ⟨hjwt, hkey⟩ := foldl_added_credentials (some auth) plugins {}
  rw [filterMap_eq_toList kind_jwt h, getLast?_toList] at hjwt
  rw [filterMap_eq_toList kind_keyAuth h, getLast?_toList] at hkey
  constructor
  · rw [hjwt]
    exact Option.or_none
  · rw [hkey]
    exact Option.or_none

theorem finish_no_credentials (plugins : List Plugin) :
    (plugins.foldl (added none) {}).jwt = none ∧ (plugins.foldl (added none) {}).keyAuth = none :=
  foldl_added_credentials none plugins {}

theorem accessStep_rank {auth : Option AuthPolicy} {p : Plugin} {a : Access}
    (h : accessStep auth p = some a) : a.rank < 6 := by
  cases p <;> simp only [accessStep, Option.ite_none_left_eq_some, reduceCtorEq,
    Option.some.injEq] at h
  all_goals first
    | (subst h; simp [Access.rank])
    | (obtain ⟨_, h⟩ := h; subst h; simp [Access.rank])

/-- The steps of one rank, as they stood. -/
def ofRank (k : Nat) (l : List Access) : List Access := l.filter fun a => decide (a.rank = k)

theorem ofRank_append (k : Nat) (l l' : List Access) :
    ofRank k (l ++ l') = ofRank k l ++ ofRank k l' := List.filter_append l l'

theorem ofRank_of_eq {k : Nat} (h : ∀ a ∈ l, a.rank = k) : ofRank k l = l :=
  List.filter_eq_self.mpr fun a ha => decide_eq_true (h a ha)

theorem ofRank_of_ne {j k : Nat} (h : ∀ a ∈ l, a.rank = j) (hk : j ≠ k) : ofRank k l = [] :=
  List.filter_eq_nil_iff.mpr fun a ha => by simp [h a ha, hk]

theorem sortBy_rank (h : ∀ a ∈ l, a.rank < 6) :
    sortBy (byKey Access.rank) l = ofRank 0 l ++ (ofRank 1 l ++ (ofRank 2 l ++ (ofRank 3 l ++
      (ofRank 4 l ++ ofRank 5 l)))) := by
  rw [sortBy_byKey 6 h]
  simp only [List.range, List.range.loop, List.flatMap_cons, List.flatMap_nil, List.append_nil,
    ofRank]

/-- The policies each rank's steps come from, `auth` holding the credential
policies back for a step of its own. -/
theorem ofRank_accessStep (auth : Option AuthPolicy) (h : AtMostOne plugins) :
    let l := plugins.filterMap (accessStep auth)
    let p := policiesOf plugins
    ofRank 0 l = p.cors.toList.map .cors ∧ ofRank 1 l = p.ip.toList.map .ipRestriction ∧
    ofRank 2 l = (if auth.isSome then [] else p.jwt.toList.map .jwt) ∧
    ofRank 3 l = (if auth.isSome then [] else p.keyAuth.toList.map .keyAuth) ∧
    ofRank 4 l = p.acl.toList.map .acl ∧ ofRank 5 l = p.size.toList.map .sizeLimit := by
  have hclass := fun {β : Type} (k : Nat) (f : Plugin → Option β) (g : β → Access) =>
    filter_filterMap_class (accessStep auth) Access.rank k f g plugins
  simp only [ofRank, policiesOf, ← filterMap_eq_toList kind_cors h,
    ← filterMap_eq_toList kind_ip h, ← filterMap_eq_toList kind_jwt h,
    ← filterMap_eq_toList kind_keyAuth h, ← filterMap_eq_toList kind_acl h,
    ← filterMap_eq_toList kind_size h]
  refine ⟨hclass 0 cors? .cors ?_, hclass 1 ip? .ipRestriction ?_, ?_, ?_,
    hclass 4 acl? .acl ?_, hclass 5 size? .sizeLimit ?_⟩
  · intro p
    cases p <;> cases auth <;> rfl
  · intro p
    cases p <;> cases auth <;> rfl
  · cases auth with
    | none => exact hclass 2 jwt? .jwt fun p => by cases p <;> rfl
    | some a =>
      have := hclass 2 (fun _ => (none : Option Unit)) (fun _ => .rateLimit)
        fun p => by cases p <;> rfl
      simpa using this
  · cases auth with
    | none => exact hclass 3 keyAuth? .keyAuth fun p => by cases p <;> rfl
    | some a =>
      have := hclass 3 (fun _ => (none : Option Unit)) (fun _ => .rateLimit)
        fun p => by cases p <;> rfl
      simpa using this
  · intro p
    cases p <;> cases auth <;> rfl
  · intro p
    cases p <;> cases auth <;> rfl

/-- A compiled rule runs its policies' steps in one order, and then the limit. -/
theorem access_of_compile (h : compile rule = .ok chain) (h1 : AtMostOne rule.plugins) :
    chain.access = (policiesOf rule.plugins).steps ++ [.rateLimit] := by
  obtain ⟨_, rfl⟩ := compile_ok_iff.mp h
  have hauth : authOf rule.plugins = (policiesOf rule.plugins).auth := authOf_eq rule.plugins
  simp only [finish, (foldl_added rule.plugins {}).1, List.nil_append]
  congr 1
  have hranks : ∀ auth, ∀ a ∈ rule.plugins.filterMap (accessStep auth), a.rank < 6 := by
    intro auth a ha
    obtain ⟨p, _, hp⟩ := List.mem_filterMap.mp ha
    exact accessStep_rank hp
  obtain ⟨h0, h1', h2, h3, h4, h5⟩ := ofRank_accessStep (authOf rule.plugins) h1
  cases ha : authOf rule.plugins with
  | none =>
    rw [ha] at hauth h0 h1' h2 h3 h4 h5
    obtain ⟨hj, hk⟩ := finish_no_credentials rule.plugins
    rw [hj, hk]
    simp only [Option.isSome_none, Bool.or_self, Bool.false_eq_true, if_false, List.append_nil]
      at h2 h3 ⊢
    rw [sortBy_rank (hranks none), h0, h1', h2, h3, h4, h5]
    simp [Policies.steps, Policies.credentialSteps, ← hauth]
  | some auth =>
    rw [ha] at hauth h0 h1' h2 h3 h4 h5
    obtain ⟨hj, hk⟩ := finish_credentials auth h1
    rw [hj, hk]
    show sortBy (byKey Access.rank) (_ ++ (policiesOf rule.plugins).anyOfSteps auth) = _
    have hcred : ∀ a ∈ (policiesOf rule.plugins).anyOfSteps auth, a.rank = 2 :=
      fun a ha => anyOfSteps_rank ha
    rw [sortBy_rank, ofRank_append, ofRank_append, ofRank_append, ofRank_append, ofRank_append,
      ofRank_append, h0, h1', h2, h3, h4, h5, ofRank_of_ne hcred (by omega),
      ofRank_of_ne hcred (by omega), ofRank_of_eq hcred, ofRank_of_ne hcred (by omega),
      ofRank_of_ne hcred (by omega), ofRank_of_ne hcred (by omega)]
    · simp [Policies.steps, Policies.credentialSteps, ← hauth]
    · intro a ha
      rcases List.mem_append.mp ha with ha | ha
      · exact hranks _ a ha
      · have := hcred a ha
        omega

end Gapura.Proxy.Chain
