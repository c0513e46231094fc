import Mathlib

/-! # Runs of a machine

A machine is a partial step function: `none` where an event may not happen. A
run takes a list of events from a first state to the state after the last. -/
namespace Gapura.Lib.Runs

variable {σ ε : Type} {step : σ → ε → Option σ}

def run (step : σ → ε → Option σ) (s : σ) (events : List ε) : Option σ := events.foldlM step s

@[simp] theorem run_nil (s : σ) : run step s [] = some s := rfl

variable {events : List ε} {s s' : σ}

theorem run_cons_eq_some {e : ε} :
    run step s (e :: events) = some s' ↔ ∃ t, step s e = some t ∧ run step t events = some s' := by
  unfold run
  rw [List.foldlM_cons]
  exact Option.bind_eq_some_iff

/-- What holds at first and is kept by every event of the run holds at its end. -/
theorem invariant {P : σ → Prop} (h : run step s events = some s')
    (hfirst : P s) (hstep : ∀ t e t', e ∈ events → P t → step t e = some t' → P t') : P s' := by
  induction events generalizing s with
  | nil =>
    cases h
    exact hfirst
  | cons e rest ih =>
    obtain ⟨t, ht, hrest⟩ := run_cons_eq_some.mp h
    refine ih hrest (hstep s e t List.mem_cons_self hfirst ht) fun t e t' he => ?_
    exact hstep t e t' (List.mem_cons_of_mem _ he)

theorem run_append_eq_some {more : List ε} : run step s (events ++ more) = some s' ↔
      ∃ t, run step s events = some t ∧ run step t more = some s' := by
  unfold run
  rw [List.foldlM_append]
  exact Option.bind_eq_some_iff

/-- The same for what is said of a state and the events that led to it. -/
theorem invariant_of_history {P : List ε → σ → Prop}
    (h : run step s events = some s') (hfirst : P [] s)
    (hstep : ∀ before t e t', P before t → step t e = some t' → P (before ++ [e]) t') :
    P events s' := by
  induction events using List.reverseRecOn generalizing s' with
  | nil =>
    cases h
    exact hfirst
  | append_singleton before e ih =>
    obtain ⟨t, ht, hlast⟩ := run_append_eq_some.mp h
    obtain ⟨t', ht', hend⟩ := run_cons_eq_some.mp hlast
    cases hend
    exact hstep before t e _ (ih ht) ht'

end Gapura.Lib.Runs
