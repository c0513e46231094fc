import Gapura.Core.StoreWorkspace

/-! # The most specific row

Policies and limits are attached alike: to a route, to a service or to a whole
workspace. The compiler ranks the rows that apply to a route and keeps the
first of the highest rank, which is the row on the route, else the one on its
service, else the one on the workspace. -/
namespace Gapura.Core.StoreAttached
open Lib.Ordered Store StoreWorkspace

/-- What a row of a workspace is attached to. -/
inductive Target where
  | route (name : String)
  | service (name : String)
  | workspace
  deriving DecidableEq, Repr

/-- A row that names a route is on the route, whatever else it names. -/
def target : Option String → Option String → Target
  | some route, _ => .route route
  | none, some service => .service service
  | none, none => .workspace

theorem target_eq_workspace {onRoute onService : Option String} :
    target onRoute onService = .workspace ↔ (onRoute.isNone && onService.isNone) = true := by
  cases onRoute <;> cases onService <;> simp [target]

/-- A workspace and what of it a row is attached to. -/
structure Place where
  workspace : String
  target : Target
  deriving DecidableEq, Repr

def limitPlace (l : StoreRateLimit) : Place := ⟨l.workspace, target l.route l.service⟩

def policyPlace (p : StorePlugin) : Place := ⟨p.workspace, target p.route p.service⟩

section
variable {α β : Type} (place : α → Place) (picks : α → Bool)

/-- The row a search picks at a place. -/
def rowAt (all : List α) (at_ : Place) : Option α := all.find? fun a => picks a && place a = at_

/-- The row on the route, else the one on its service, else the one on the
workspace. -/
def mostSpecific (all : List α) (r : StoreRoute) : Option α :=
  (rowAt place picks all ⟨r.workspace, .route r.name⟩).or
    ((rowAt place picks all ⟨r.workspace, .service r.service⟩).or
      (rowAt place picks all ⟨r.workspace, .workspace⟩))

end

/-! ## Ranks -/

/-- The place a rank on a route stands for. -/
def rung (r : StoreRoute) : Nat → Option Place
  | 0 => some ⟨r.workspace, .workspace⟩
  | 1 => some ⟨r.workspace, .service r.service⟩
  | 2 => some ⟨r.workspace, .route r.name⟩
  | _ => none

theorem rank_eq_some {w : String} {onRoute onService : Option String} {r : StoreRoute} {k : Nat} :
    rank w onRoute onService r = some k ↔ rung r k = some ⟨w, target onRoute onService⟩ := by
  by_cases hw : w = r.workspace
  · subst hw
    simp only [rank, bne_self_eq_false, Bool.false_eq_true, if_false]
    cases onRoute with
    | some route =>
      simp only [target, beq_iff_eq, Option.ite_none_right_eq_some, Option.some.injEq]
      obtain _ | _ | _ | k := k
      · simp [rung]
      · simp [rung]
      · simpa [rung] using eq_comm
      · simp [rung]
    | none => cases onService with
      | some service =>
        simp only [target, beq_iff_eq, Option.ite_none_right_eq_some, Option.some.injEq]
        obtain _ | _ | _ | k := k
        · simp [rung]
        · simpa [rung] using eq_comm
        · simp [rung]
        · simp [rung]
      | none =>
        simp only [target, Option.some.injEq]
        obtain _ | _ | _ | k := k <;> simp [rung]
  · rw [rank_of_ne onRoute onService hw]
    obtain _ | _ | _ | k := k <;> simp [rung, Ne.symm hw]

theorem rung_le {r : StoreRoute} {k : Nat} {at_ : Place} (h : rung r k = some at_) : k ≤ 2 := by
  obtain _ | _ | _ | k := k
  · omega
  · omega
  · omega
  · cases h

/-! ## The first of the most specific -/

/-- Keeping the first of the highest rank, one candidate after the other. -/
theorem keep_eq {β : Type} (best : Option (Nat × β)) (p : Nat × β) :
    (if best.all fun c => c.1 < p.1 then some p else best) =
      List.argAux (fun b c => c.1 < b.1) best p := by
  cases best with
  | none => rfl
  | some c => simp [List.argAux]

section
variable {α β : Type} {place : α → Place} {picks : α → Bool} {value : α → β} {all : List α}
variable {r : StoreRoute} {ranked : α → Option (Nat × β)}

/-- `ranked` gives each picked row its value, with the rank of its place. -/
def Ranks (place : α → Place) (picks : α → Bool) (value : α → β) (r : StoreRoute)
    (ranked : α → Option (Nat × β)) : Prop :=
  ∀ a k b, ranked a = some (k, b) ↔ picks a = true ∧ rung r k = some (place a) ∧ b = value a

/-- A row that is picked, with how specific the route and service it names are. -/
theorem ranks_of_rank (picks : α → Prop) [DecidablePred picks] {workspace : α → String}
    {onRoute onService : α → Option String} :
    Ranks (fun a => ⟨workspace a, target (onRoute a) (onService a)⟩) (fun a => picks a) value r
      fun a => if picks a then
        (rank (workspace a) (onRoute a) (onService a) r).map (·, value a) else none := by
  intro a k b
  rw [Option.ite_none_right_eq_some, Option.map_eq_some_iff, decide_eq_true_iff]
  constructor
  · rintro ⟨hc, k', hk, heq⟩
    obtain ⟨rfl, rfl⟩ := Prod.mk.inj heq
    exact ⟨hc, rank_eq_some.mp hk, rfl⟩
  · rintro ⟨hc, hk, rfl⟩
    exact ⟨hc, k, rank_eq_some.mpr hk, rfl⟩

theorem find?_ranked (h : Ranks place picks value r ranked) {k : Nat} {at_ : Place}
    (hk : rung r k = some at_) : ((all.filterMap ranked).find? fun p => p.1 = k) =
      (rowAt place picks all at_).map fun a => (k, value a) := by
  rw [List.find?_filterMap]
  have hpred : (fun a => (ranked a).any fun p => p.1 = k) =
      fun a => picks a && decide (place a = at_) := by
    funext a
    rw [Bool.eq_iff_iff, Option.any_eq_true, Bool.and_eq_true, decide_eq_true_iff]
    constructor
    · rintro ⟨⟨k', b⟩, hp, hk'⟩
      obtain ⟨hpick, hplace, -⟩ := (h a k' b).mp hp
      rw [show k' = k from of_decide_eq_true hk', hk] at hplace
      exact ⟨hpick, (Option.some.inj hplace).symm⟩
    · rintro ⟨hpick, hplace⟩
      exact ⟨(k, value a), (h a k _).mpr ⟨hpick, by rw [hk, hplace], rfl⟩, by simp⟩
  rw [hpred, rowAt]
  cases hf : all.find? _ with
  | none => rfl
  | some a =>
    have ha := List.find?_some hf
    rw [Bool.and_eq_true, decide_eq_true_iff] at ha
    exact (h a k _).mpr ⟨ha.1, by rw [hk, ha.2], rfl⟩

/-- The first of the highest rank is the most specific row. -/
theorem argmax_ranked [DecidableEq β] (h : Ranks place picks value r ranked) :
    ((all.filterMap ranked).argmax Prod.fst).map Prod.snd =
      (mostSpecific place picks all r).map value := by
  have hle : ∀ p ∈ all.filterMap ranked, p.1 ≤ 2 := by
    intro p hp
    obtain ⟨a, -, ha⟩ := List.mem_filterMap.mp hp
    exact rung_le ((h a p.1 p.2).mp ha).2.1
  rw [argmax_eq_downFrom hle, downFrom, downFrom, downFrom, find?_ranked h (k := 2) rfl,
    find?_ranked h (k := 1) rfl, find?_ranked h (k := 0) rfl, mostSpecific]
  simp only [Option.map_or, Option.map_map, Function.comp_def]

end

end Gapura.Core.StoreAttached
