import Gapura.Core.StoreOrder
import Gapura.Proxy.Admission

/-! # Rules in any order of their rows

The rows of the store come in any order, and the order of a rule's plugins is all
that shows. A route has at most one policy of a kind, and every step of a phase has
a rank of its own, so the chain does not show it either. -/
namespace Gapura.Proxy.Chain
open Gapura.Core Lib.Ordered Core.Store Core.StoreRouting Core.StoreOrder Proxy.Plugin
open Admission (reorder runAll_reorder compile_reorder)

/-! ## The chain of a rule -/

def responseEdits? : Core.Plugin → Option HeaderEdits
  | .responseTransformer policy => some policy.headers
  | _ => none

variable (p : Core.Plugin) {rule : RouteRule} {plugins : List Core.Plugin}

theorem kind_responseEdits (b : HeaderEdits) (h : responseEdits? p = some b) :
    p.kind = .responseTransformer := by
  cases p <;> first | rfl | cases h

theorem kind_transform (b : RequestTransformerPolicy)
    (h : transform? p = some b) : p.kind = .requestTransformer := by
  cases p <;> first | rfl | cases h

/-- The cors policy's headers are written before the edits. -/
theorem response_of_compile {chain : Plugin.Chain}
    (h : Plugin.compile rule = .ok chain) : chain.response =
      (rule.plugins.filterMap cors?).map .cors ++
      (rule.plugins.filterMap responseEdits?).map .transform := by
  obtain ⟨_, rfl⟩ := compile_ok_iff.mp h
  simp only [finish, (foldl_added rule.plugins {}).2.2.2, List.nil_append]
  have hrank : ∀ step : Response, step.rank < 2 := by
    intro step
    cases step <;> simp [Response.rank]
  rw [sortBy_byKey 2 fun step _ => hrank step]
  have hcors := filter_filterMap_class responseStep Response.rank 0 cors? .cors rule.plugins
    fun p => by cases p <;> rfl
  have hedits := filter_filterMap_class responseStep Response.rank 1 responseEdits? .transform
    rule.plugins fun p => by cases p <;> rfl
  simp only [List.range, List.range.loop, List.flatMap_cons, List.flatMap_nil, List.append_nil,
    hcors, hedits]

theorem filterMap_of_perm {β : Type} {f : Core.Plugin → Option β} {k : Kind}
    (hf : ∀ p b, f p = some b → p.kind = k) {plugins' : List Core.Plugin}
    (hp : plugins'.Perm plugins) (h : AtMostOne plugins) :
    plugins'.filterMap f = plugins.filterMap f := by
  have h' : AtMostOne plugins' := (hp.map Plugin.kind).nodup_iff.mpr h
  rw [filterMap_eq_toList hf h, filterMap_eq_toList hf h', findSome?_perm hf hp h]

theorem chain_of_perm (hp : plugins.Perm rule.plugins) (hone : AtMostOne rule.plugins)
    {chain chain' : Plugin.Chain} (h : Plugin.compile rule = .ok chain)
    (h' : Plugin.compile { rule with plugins } = .ok chain') : chain = chain' := by
  have hone' : AtMostOne plugins := (hp.map Plugin.kind).nodup_iff.mpr hone
  have haccess : chain.access = chain'.access := by
    rw [access_of_compile h hone, access_of_compile h' hone']
    exact congrArg (fun p => p.steps ++ [.rateLimit]) (policiesOf_perm hp hone).symm
  have hupstream : chain.upstreamRequest = chain'.upstreamRequest := by
    rw [upstreamRequest_of_compile h, upstreamRequest_of_compile h',
      filterMap_of_perm kind_keyAuth hp hone, filterMap_of_perm kind_transform hp hone]
  have hbody : chain.requestBody = chain'.requestBody := by
    rw [requestBody_of_compile h, requestBody_of_compile h', filterMap_of_perm kind_size hp hone]
  have hresponse : chain.response = chain'.response := by
    rw [response_of_compile h, response_of_compile h', filterMap_of_perm kind_cors hp hone,
      filterMap_of_perm kind_responseEdits hp hone]
  cases chain
  cases chain'
  simp_all

/-! ## The rules of a compiled store -/

theorem atMostOne_of_compile {sha256 : String → List UInt8} {snap : StoreSnapshot}
    {settings : StoreSettings} {listener : ListenerConfig}
    (hl : listener ∈ (Store.compile sha256 snap settings).listeners) (hr : rule ∈ listener.rules) :
    AtMostOne rule.plugins := by
  obtain ⟨port, -, rfl⟩ := List.mem_map.mp hl
  have hr : rule ∈ (buildOf sha256 snap).rules := hr
  rw [buildOf_rules] at hr
  obtain ⟨route, -, hroute⟩ := List.mem_filterMap.mp hr
  obtain ⟨service, -, rfl⟩ := Option.map_eq_some_iff.mp hroute
  exact nodup_kind_pluginsFor snap.plugins route (consumerTable snap)

/-- Rows that have keys of their own, and whose consumers have ids of their own,
compile to one configuration whatever their order, up to the order of the plugins
inside a rule. Of a rule's plugins every order gives the same chain, which admits
alike, or none gives one. -/
theorem row_order_does_not_matter (sha256 : String → List UInt8) (settings : StoreSettings)
    {snap snap' : StoreSnapshot} (hp : Permuted snap snap') (hk : Keyed snap)
    (hid : Identified snap) :
    SameConfig (Store.compile sha256 snap settings) (Store.compile sha256 snap' settings) ∧
    ∀ listener ∈ (Store.compile sha256 snap settings).listeners, ∀ rule ∈ listener.rules,
      ∀ plugins : List Core.Plugin, plugins.Perm rule.plugins →
        (∃ chain, Plugin.compile rule = .ok chain ∧
          Plugin.compile { rule with plugins } = .ok chain ∧
          ∀ env s, env.rule = rule →
            Access.access (reorder env plugins) chain s = Access.access env chain s) ∨
        ((∃ e, Plugin.compile rule = .error e) ∧
          ∃ e, Plugin.compile { rule with plugins } = .error e) := by
  refine ⟨compile_of_perm hp hk hid sha256 settings, ?_⟩
  intro listener hl rule hr plugins hperm
  have hone := atMostOne_of_compile hl hr
  cases hc : Plugin.compile rule with
  | ok chain =>
    obtain ⟨chain', hc'⟩ := (compile_reorder hperm).mpr ⟨chain, hc⟩
    obtain rfl := chain_of_perm hperm hone hc hc'
    refine .inl ⟨chain, rfl, hc', fun env s _ => ?_⟩
    exact runAll_reorder env plugins s chain.access
  | error e =>
    refine .inr ⟨⟨e, rfl⟩, ?_⟩
    cases hc' : Plugin.compile { rule with plugins } with
    | error e' => exact ⟨e', rfl⟩
    | ok chain' =>
      obtain ⟨chain, hchain⟩ := (compile_reorder hperm).mp ⟨chain', hc'⟩
      rw [hc] at hchain
      cases hchain

def keyPolicy : StorePlugin :=
  ⟨"shop", none, none, .keyAuth { header := "apikey", workspace := none }⟩

def groupPolicy : StorePlugin :=
  ⟨"shop", some "api", none, .acl { allow := ["staff"], deny := [] }⟩

/-- A shop whose one route has a policy of its own and one of its workspace, and a
limit for everyone and one for a consumer. -/
def shopRows (plugins : List StorePlugin) (rateLimits : List StoreRateLimit) : StoreSnapshot where
  services := [ordersService "shop"]
  routes := [routeFor "shop" "api" []]
  plugins := plugins
  credentials := [⟨"k1", "ana", "shop"⟩]
  rateLimits := rateLimits
  consumers := [⟨"shop", "ana", ["staff"]⟩]

def everyone : StoreRateLimit := ⟨"shop", none, none, none, StoreLimits.perMinute 100⟩

def anaOnly : StoreRateLimit := ⟨"shop", none, none, some "ana", StoreLimits.perMinute 10⟩

theorem row_order_does_not_matter_shop :
    let rows := shopRows [keyPolicy, groupPolicy] [everyone, anaOnly]
    let rows' := shopRows [groupPolicy, keyPolicy] [anaOnly, everyone]
    SameConfig (Store.compile noDigest rows {}) (Store.compile noDigest rows' {}) ∧
      ∀ listener ∈ (Store.compile noDigest rows {}).listeners, ∀ rule ∈ listener.rules,
        rule.plugins.map Core.Plugin.kind = [.keyAuth, .acl] ∧
          ∃ chain, Plugin.compile rule = .ok chain ∧
            Plugin.compile { rule with plugins := rule.plugins.reverse } = .ok chain := by
  intro rows rows'
  have hp : Permuted rows rows' :=
    ⟨.refl _, .refl _, .swap _ _ _, .refl _, .swap _ _ _, .refl _⟩
  have hk : Keyed rows := by constructor <;> decide
  have hid : Identified rows := by
    unfold Identified
    decide
  have hrules : ∀ listener ∈ (Store.compile noDigest rows {}).listeners, ∀ rule ∈ listener.rules,
      rule.plugins.map Core.Plugin.kind = [.keyAuth, .acl] ∧
        (Plugin.compile rule).isOk = true := by decide
  obtain ⟨hsame, hchains⟩ := row_order_does_not_matter noDigest {} hp hk hid
  refine ⟨hsame, fun listener hl rule hr => ?_⟩
  obtain ⟨hkinds, hok⟩ := hrules listener hl rule hr
  obtain ⟨chain, hchain, hchain', -⟩ | ⟨⟨e, he⟩, -⟩ :=
    hchains listener hl rule hr _ rule.plugins.reverse_perm
  · exact ⟨hkinds, chain, hchain, hchain'⟩
  · rw [he] at hok
    cases hok

/-- Two consumers of one id, as one without a workspace and one with the workspace in
its name are: the later row's groups count. -/
theorem shared_id_shows_order :
    let ana : StoreConsumer := ⟨"", "a/b", ["staff"]⟩
    let ben : StoreConsumer := ⟨"a", "b", ["guests"]⟩
    let rows : StoreSnapshot := { services := [], routes := [], consumers := [ana, ben] }
    let rows' : StoreSnapshot := { services := [], routes := [], consumers := [ben, ana] }
    Permuted rows rows' ∧ Keyed rows ∧
      (Store.compile noDigest rows {}).consumers["a/b"]? = some ["guests"] ∧
      (Store.compile noDigest rows' {}).consumers["a/b"]? = some ["staff"] := by
  refine ⟨⟨.refl _, .refl _, .refl _, .refl _, .refl _, .swap _ _ _⟩, ?_, ?_, ?_⟩
  · constructor <;> decide
  · decide
  · decide

end Gapura.Proxy.Chain
