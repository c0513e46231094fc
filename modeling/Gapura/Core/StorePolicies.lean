import Gapura.Core.StoreAttached

/-! # The policies of a route, kind by kind

The compiler folds over all rows and keeps a list with one policy of each kind,
replacing one in its place when a more specific row comes. For each kind that
list holds the most specific row's policy and nothing else. -/
namespace Gapura.Core.StorePolicies
open Store StoreAttached

variable {all : List StorePlugin} {r : StoreRoute} {kind : Kind}

/-- A policy of the kind with how specific it is on the route. -/
def ofKind (r : StoreRoute) (kind : Kind) (p : StorePlugin) : Option (Nat × Plugin) :=
  if p.plugin.kind = kind then (rank p.workspace p.route p.service r).map (·, p.plugin) else none

theorem ranks_ofKind :
    Ranks policyPlace (fun p => p.plugin.kind = kind) StorePlugin.plugin r (ofKind r kind) :=
  ranks_of_rank fun p : StorePlugin => p.plugin.kind = kind

variable {n : Nat} {p : Plugin}

/-- A policy of another kind leaves the kind's choice alone. -/
theorem filter_place_of_ne (hp : p.kind ≠ kind) (chosen : List (Nat × Plugin)) :
    (place n p chosen).filter (fun c => c.2.kind = kind) =
      chosen.filter fun c => c.2.kind = kind := by
  induction chosen with
  | nil => simp [place, hp]
  | cons c rest ih =>
    rw [place]
    split
    · rename_i hkind
      -- what it replaces is of its own kind
      have hc : c.2.kind ≠ kind := by rwa [eq_of_beq hkind]
      split
      · simp [hp, hc]
      · rfl
    · rw [List.filter_cons, List.filter_cons, ih]

variable {best : Option (Nat × Plugin)} {chosen : List (Nat × Plugin)} (consumers : ConsumerTable)

theorem filter_place (hp : p.kind = kind)
    (h : chosen.filter (fun c => c.2.kind = kind) = best.toList) :
    (place n p chosen).filter (fun c => c.2.kind = kind) =
      (List.argAux (fun b c => c.1 < b.1) best (n, p)).toList := by
  induction chosen with
  | nil =>
    obtain rfl : best = none := by simpa using h.symm
    simp [place, hp, List.argAux]
  | cons c rest ih =>
    rw [place]
    by_cases hc : c.2.kind = kind
    · rw [List.filter_cons_of_pos (by simpa using hc)] at h
      cases best with
      | none => cases h
      | some b =>
        obtain ⟨rfl, hrest⟩ := List.cons.inj h
        rw [if_pos (by simp [hc, hp]), ← keep_eq]
        simp only [Option.all_some, decide_eq_true_eq]
        split
        · simpa [hp] using hrest
        · simpa [hc] using hrest
    · rw [List.filter_cons_of_neg (by simpa using hc)] at h
      rw [if_neg (by simp [hp, hc]), List.filter_cons_of_neg (by simpa using hc)]
      exact ih h

theorem filter_foldl_choose (h : chosen.filter (fun c => c.2.kind = kind) = best.toList) :
    (all.foldl (choose r) chosen).filter (fun c => c.2.kind = kind) =
      ((all.filterMap (ofKind r kind)).foldl (List.argAux fun b c => c.1 < b.1) best).toList := by
  induction all generalizing chosen best with
  | nil => exact h
  | cons p rest ih =>
    rw [List.foldl_cons]
    cases hr : rank p.workspace p.route p.service r with
    | none =>
      have hof : ofKind r kind p = none := by simp [ofKind, hr]
      rw [List.filterMap_cons_none hof, choose, hr]
      exact ih h
    | some n =>
      have hchoose : choose r chosen p = place n p.plugin chosen := by rw [choose, hr]
      rw [hchoose]
      by_cases hp : p.plugin.kind = kind
      · have hof : ofKind r kind p = some (n, p.plugin) := by simp [ofKind, hr, hp]
        rw [List.filterMap_cons_some hof, List.foldl_cons]
        exact ih (filter_place hp h)
      · have hof : ofKind r kind p = none := by simp [ofKind, hp]
        rw [List.filterMap_cons_none hof]
        exact ih ((filter_place_of_ne hp chosen).trans h)

theorem kind_stamp (p : Plugin) : (stamp r consumers p).kind = p.kind := by
  unfold stamp
  split
  · split <;> rfl
  · rfl
  · split <;> rfl
  · rfl

/-- Of each kind a route runs the most specific row's policy, once, and no
other. -/
theorem filter_pluginsFor : (pluginsFor all r consumers).filter (fun p => p.kind = kind) =
      ((mostSpecific policyPlace (fun p => p.plugin.kind = kind) all r).map
        fun p => stamp r consumers p.plugin).toList := by
  have hrun : (all.foldl (choose r) []).filter (fun c => c.2.kind = kind) =
      ((all.filterMap (ofKind r kind)).argmax Prod.fst).toList := filter_foldl_choose rfl
  have htop : ((all.filterMap (ofKind r kind)).argmax Prod.fst).map Prod.snd =
      (mostSpecific policyPlace (fun p => p.plugin.kind = kind) all r).map (·.plugin) :=
    argmax_ranked ranks_ofKind
  rw [pluginsFor, List.filter_map]
  have hcomp : ((fun p : Plugin => decide (p.kind = kind)) ∘ fun c : Nat × Plugin =>
      stamp r consumers c.2) = fun c => decide (c.2.kind = kind) := by
    funext c
    simp [kind_stamp]
  rw [hcomp, hrun, ← Option.toList_map]
  have hsplit := congrArg (Option.map (stamp r consumers)) htop
  rw [Option.map_map, Option.map_map] at hsplit
  exact congrArg Option.toList hsplit

end Gapura.Core.StorePolicies
