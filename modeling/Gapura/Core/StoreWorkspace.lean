import Gapura.Core.StoreRouting

/-! # Compiling one workspace's rows

A route's rule is built from rows of its own workspace alone: its service, its
policies and limits, and the consumers its policies name. So the rows of one
workspace compile to that workspace's rules, and they answer a request as all
rows do whenever no other workspace's route takes it. Consumers are found by
`workspace/username`, which tells workspaces apart only while their names hold
no slash. -/
namespace Gapura.Core.StoreWorkspace
open Lib.Ordered Store StoreRouting
open Matcher (RegexCrate RequestAttrs PortMatch matchPortWith compileRegexes)
open Std (TreeMap)

def restrict (w : String) (snap : StoreSnapshot) : StoreSnapshot where
  services := snap.services.filter fun s => s.workspace == w
  routes := snap.routes.filter fun r => r.workspace == w
  plugins := snap.plugins.filter fun p => p.workspace == w
  credentials := snap.credentials.filter fun c => c.workspace == w
  rateLimits := snap.rateLimits.filter fun l => l.workspace == w
  consumers := snap.consumers.filter fun c => c.workspace == w

/-- A workspace name that a `/` after it ends. -/
def Named (w : String) : Prop := w.isEmpty = false ∧ '/' ∉ w.toList

theorem consumerId_inj {w w' u u' : String} (hw : Named w) (hw' : Named w')
    (h : Credentials.consumerId w u = Credentials.consumerId w' u') : w = w' ∧ u = u' := by
  simp only [Credentials.consumerId, hw.1, hw'.1, Bool.false_eq_true, if_false] at h
  have hl : w.toList ++ '/' :: u.toList = w'.toList ++ '/' :: u'.toList := by
    simpa using congrArg String.toList h
  have hsplit := congrArg (List.splitOn '/') hl
  rw [List.splitOn_append_cons_self_of_not_mem hw.2,
    List.splitOn_append_cons_self_of_not_mem hw'.2] at hsplit
  have hname : w.toList = w'.toList := (List.cons.inj hsplit).1
  rw [hname] at hl
  have huser : u.toList = u'.toList := (List.cons.inj (List.append_cancel_left hl)).2
  exact ⟨String.toList_inj.mp hname, String.toList_inj.mp huser⟩

/-- A name with no `/` in it; a workspace may also be the empty one. -/
def Plain (s : String) : Prop := '/' ∉ s.toList

theorem consumerId_inj_plain {w w' u u' : String} (hw : Plain w) (hw' : Plain w') (hu : Plain u)
    (hu' : Plain u') (h : Credentials.consumerId w u = Credentials.consumerId w' u') :
    w = w' ∧ u = u' := by
  -- an id holds a `/` exactly when its workspace is not the empty one
  have hslash : ∀ {w u : String}, Plain u →
      ('/' ∈ (Credentials.consumerId w u).toList ↔ w.isEmpty = false) := by
    intro w u hu
    cases hw : w.isEmpty
    · simp [Credentials.consumerId, hw]
    · simpa [Credentials.consumerId, hw, Plain] using hu
  have hempty : w.isEmpty = false ↔ w'.isEmpty = false := by rw [← hslash hu, h, hslash hu']
  cases he : w.isEmpty with
  | false => exact consumerId_inj ⟨he, hw⟩ ⟨hempty.mp he, hw'⟩ h
  | true =>
    have he' : w'.isEmpty = true := by
      rw [← Bool.not_eq_false, ← hempty, he]
      simp
    simp only [Credentials.consumerId, he, he', if_true] at h
    rw [String.isEmpty_iff] at he he'
    exact ⟨by rw [he, he'], h⟩

variable {snap : StoreSnapshot} {w : String}

theorem getElem?_servicesOf_restrict (n : String) :
    (servicesOf (restrict w snap))[(w, n)]? = (servicesOf snap)[(w, n)]? := by
  rw [getElem?_servicesOf, getElem?_servicesOf, restrict, ← List.filter_reverse, List.find?_filter]
  congr 1
  funext s
  by_cases hs : s.workspace = w
  · simp [hs]
  · simp [hs]

variable {r : StoreRoute} {name : String} {c : Nat × Plugin} {chosen : List (Nat × Plugin)}
  (sha256 : String → List UInt8)

theorem isServed_restrict (hr : r.workspace = w) :
    isServed (servicesOf (restrict w snap)) r = isServed (servicesOf snap) r := by
  simp only [isServed, TreeMap.contains_eq_isSome_getElem?, hr, getElem?_servicesOf_restrict]

theorem servedRoutes_restrict :
    servedRoutes (restrict w snap) = (servedRoutes snap).filter fun r => r.workspace == w := by
  have hroutes : (restrict w snap).routes = snap.routes.filter fun r => r.workspace == w := rfl
  rw [servedRoutes, servedRoutes, ← sortBy_filter, hroutes, List.filter_filter,
    List.filter_filter]
  congr 1
  apply List.filter_congr
  intro r _
  by_cases hr : r.workspace = w
  · rw [isServed_restrict hr, Bool.and_comm]
  · have hne : (r.workspace == w) = false := beq_eq_false_iff_ne.mpr hr
    rw [hne, Bool.and_false, Bool.false_and]

/-! ## Policies, limits and consumers of a route -/

theorem rank_of_ne {workspace : String} (onRoute onService : Option String)
    (h : workspace ≠ r.workspace) : rank workspace onRoute onService r = none := by
  simp [rank, h]

theorem foldl_choose_restrict (all : List StorePlugin) (chosen : List (Nat × Plugin)) :
    (all.filter fun p => p.workspace == r.workspace).foldl (choose r) chosen =
      all.foldl (choose r) chosen := by
  rw [List.foldl_filter]
  congr 1
  funext acc p
  split
  · rfl
  · rename_i hp
    rw [choose, rank_of_ne p.route p.service (by simpa using hp)]

theorem limitOnEveryone_restrict (all : List StoreRateLimit) :
    limitOnEveryone (all.filter fun l => l.workspace == r.workspace) r = limitOnEveryone all r := by
  rw [limitOnEveryone, limitOnEveryone, List.foldl_filter]
  congr 2
  funext acc l
  split
  · rfl
  · rename_i hl
    rw [betterLimit, rank_of_ne l.route l.service (by simpa using hl)]
    split <;> rfl

theorem hasConsumer_consumerTable (name : String) :
    hasConsumer (consumerTable snap) w name = true ↔ ∃ c ∈ snap.consumers,
      Credentials.consumerId c.workspace c.username = Credentials.consumerId w name := by
  rw [hasConsumer, consumerTable, TreeMap.contains_eq_isSome_getElem?, getElem?_collect,
    ← List.map_reverse, List.find?_map, Option.isSome_map, Option.isSome_map, List.find?_isSome]
  simp

/-- A workspace's consumer is in the table of all rows and in that of its own rows
alike, if no other workspace's consumer has its id. -/
theorem hasConsumer_restrict_of
    (h : ∀ c ∈ snap.consumers, Credentials.consumerId c.workspace c.username =
      Credentials.consumerId w name → c.workspace = w) :
    hasConsumer (consumerTable (restrict w snap)) w name =
      hasConsumer (consumerTable snap) w name := by
  rw [Bool.eq_iff_iff, hasConsumer_consumerTable, hasConsumer_consumerTable]
  constructor
  · intro ⟨c, hmem, hid⟩
    exact ⟨c, List.mem_of_mem_filter hmem, hid⟩
  · intro ⟨c, hmem, hid⟩
    exact ⟨c, List.mem_filter.mpr ⟨hmem, by simp [h c hmem hid]⟩, hid⟩

theorem hasConsumer_restrict (hw : Named w) (hc : ∀ c ∈ snap.consumers, Named c.workspace)
    (name : String) : hasConsumer (consumerTable (restrict w snap)) w name =
      hasConsumer (consumerTable snap) w name :=
  hasConsumer_restrict_of fun c hmem hid => (consumerId_inj (hc c hmem) hw hid).1

theorem hasConsumer_restrict_plain (hw : Plain w)
    (hc : ∀ c ∈ snap.consumers, Plain c.workspace ∧ Plain c.username)
    (hname : Plain name) : hasConsumer (consumerTable (restrict w snap)) w name =
      hasConsumer (consumerTable snap) w name :=
  hasConsumer_restrict_of fun c hmem hid =>
    (consumerId_inj_plain (hc c hmem).1 hw (hc c hmem).2 hname hid).1

variable {p : Plugin}

/-- Two consumer tables that agree on the anonymous consumer stamp alike. -/
theorem stamp_congr {consumers consumers' : ConsumerTable}
    (h : ∀ policy, p = .auth policy → ∀ name ∈ policy.anonymous,
      hasConsumer consumers r.workspace name = hasConsumer consumers' r.workspace name) :
    stamp r consumers p = stamp r consumers' p := by
  cases p with
  | auth policy =>
    have hanon : policy.anonymous.filter (hasConsumer consumers r.workspace) =
        policy.anonymous.filter (hasConsumer consumers' r.workspace) := by
      cases ha : policy.anonymous with
      | none => rfl
      | some name => simp [Option.filter, h policy rfl name ha]
    simp only [stamp, hanon]
  | _ => rfl

theorem mem_place {n : Nat} (h : c ∈ place n p chosen) : c ∈ chosen ∨ c = (n, p) := by
  induction chosen with
  | nil => exact .inr (by simpa [place] using h)
  | cons d rest ih =>
    rw [place] at h
    split at h
    · split at h
      · rcases List.mem_cons.mp h with hc | hc
        · exact .inr hc
        · exact .inl (List.mem_cons_of_mem d hc)
      · exact .inl h
    · rcases List.mem_cons.mp h with rfl | hc
      · exact .inl List.mem_cons_self
      · rcases ih hc with hc | hc
        · exact .inl (List.mem_cons_of_mem d hc)
        · exact .inr hc

/-- A chosen policy is one of the rows'. -/
theorem mem_foldl_choose {all : List StorePlugin} (h : c ∈ all.foldl (choose r) chosen) :
    c ∈ chosen ∨ ∃ p ∈ all, p.plugin = c.2 := by
  induction all generalizing chosen with
  | nil => exact .inl h
  | cons p rest ih =>
    rcases ih h with hc | ⟨q, hq, hplugin⟩
    · rw [choose] at hc
      split at hc
      · exact .inl hc
      · rcases mem_place hc with hc | rfl
        · exact .inl hc
        · exact .inr ⟨p, List.mem_cons_self, rfl⟩
    · exact .inr ⟨q, List.mem_cons_of_mem p hq, hplugin⟩

/-- A route's rule is built from the rows of its own workspace, as long as
those rows tell which anonymous consumers are there. -/
theorem compiledRule_restrict_of
    (hanon : ∀ p ∈ snap.plugins, ∀ policy, p.plugin = .auth policy → ∀ name ∈ policy.anonymous,
      hasConsumer (consumerTable (restrict r.workspace snap)) r.workspace name =
        hasConsumer (consumerTable snap) r.workspace name) :
    compiledRule sha256 (restrict r.workspace snap) r = compiledRule sha256 snap r := by
  rw [compiledRule, compiledRule, getElem?_servicesOf_restrict]
  congr 1
  funext service
  have hplugins : pluginsFor (restrict r.workspace snap).plugins r
      (consumerTable (restrict r.workspace snap)) = pluginsFor snap.plugins r (consumerTable snap) := by
    rw [pluginsFor, pluginsFor,
      show (restrict r.workspace snap).plugins.foldl (choose r) [] = snap.plugins.foldl (choose r) []
        from foldl_choose_restrict snap.plugins []]
    apply List.map_congr_left
    intro c hc
    apply stamp_congr
    intro policy hpolicy name hname
    rcases mem_foldl_choose hc with hc | ⟨p, hp, hplugin⟩
    · cases hc
    · exact hanon p hp policy (hplugin.trans hpolicy) name hname
  have hlimit : limitOnEveryone (restrict r.workspace snap).rateLimits r =
      limitOnEveryone snap.rateLimits r := limitOnEveryone_restrict snap.rateLimits
  simp only [ruleOf, hplugins, hlimit]

theorem compiledRule_restrict
    (hw : Named r.workspace) (hc : ∀ c ∈ snap.consumers, Named c.workspace) :
    compiledRule sha256 (restrict r.workspace snap) r = compiledRule sha256 snap r :=
  compiledRule_restrict_of sha256 fun _ _ _ _ name _ => hasConsumer_restrict hw hc name

/-- One workspace's rows answer as all rows do when no other workspace's route
takes the request. -/
theorem rule_compile_restrict (rx : RegexCrate) (sha256 : String → List UInt8)
    {settings : StoreSettings} {port : Nat} (hp : port ∈ settings.httpPorts) {req : RequestAttrs}
    (hw : Named w) (hc : ∀ c ∈ snap.consumers, Named c.workspace)
    (hother : ∀ r ∈ snap.routes, r.workspace ≠ w → takes (pathTakes rx) r req = false) :
    (matchPortWith (compile sha256 (restrict w snap) settings) port req
      (compileRegexes rx (compile sha256 (restrict w snap) settings)).1).map PortMatch.rule =
    (matchPortWith (compile sha256 snap settings) port req
      (compileRegexes rx (compile sha256 snap settings)).1).map PortMatch.rule := by
  have hfind : (servedRoutes (restrict w snap)).find? (fun r => takes (pathTakes rx) r req) =
      (servedRoutes snap).find? fun r => takes (pathTakes rx) r req := by
    rw [servedRoutes_restrict, List.find?_filter]
    apply List.find?_congr
    intro r hr
    by_cases hrw : r.workspace = w
    · simp [hrw]
    · have hmem : r ∈ snap.routes := (mem_servedRoutes.mp hr).1
      simp [hother r hmem hrw]
  rw [rule_compile sha256 (restrict w snap) rx hp, rule_compile sha256 snap rx hp, hfind]
  cases hf : (servedRoutes snap).find? fun r => takes (pathTakes rx) r req with
  | none => rfl
  | some r =>
    have hmem : r ∈ snap.routes := (mem_servedRoutes.mp (List.mem_of_find?_eq_some hf)).1
    have htakes : takes (pathTakes rx) r req = true :=
      List.find?_some (p := fun r => takes (pathTakes rx) r req) hf
    have hrw : r.workspace = w := by
      by_contra hne
      rw [hother r hmem hne] at htakes
      cases htakes
    subst hrw
    exact compiledRule_restrict sha256 hw hc

end Gapura.Core.StoreWorkspace
