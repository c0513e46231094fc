import Mathlib

/-! # Computations that may fail and keep their state

A failed computation leaves behind what it did to the state before it failed.
`Along R m post` says that every run of `m` moves the state along the preorder
`R`, and that a run which succeeds ends with `post`. The rules below take such
statements through sequencing and through a loop over a list; a fact carried
past a later step has to be stable along `R`. `Blind p view m` compares two runs
of `m`: among states of `p`, only what `view` shows of one decides the answer.
The last section is about folds, which cannot fail. -/
namespace Gapura.Lib.Stateful

abbrev Comp (ε σ : Type) := ExceptT ε (StateM σ)

variable {ε σ α β : Type}

def result (m : Comp ε σ α) (s : σ) : Except ε α := (m s).1

def after (m : Comp ε σ α) (s : σ) : σ := (m s).2

/-- An answer that does not look at the state. -/
def answer (e : Except ε α) : Comp ε σ α := ExceptT.mk (pure e)

/-- An update that cannot fail. -/
def update (f : σ → α × σ) : Comp ε σ α := fun s => (.ok (f s).1, (f s).2)

variable (e : Except ε α)

@[simp] theorem result_answer (s : σ) : result (answer e) s = e := rfl

@[simp] theorem after_answer (s : σ) : after (answer e) s = s := rfl

@[simp] theorem result_update (f : σ → α × σ) (s : σ) :
    result (update f : Comp ε σ α) s = .ok (f s).1 := rfl

@[simp] theorem after_update (f : σ → α × σ) (s : σ) :
    after (update f : Comp ε σ α) s = (f s).2 := rfl

theorem bind_apply (m : Comp ε σ α) (f : α → Comp ε σ β) (s : σ) :
    (m >>= f) s = match result m s with
      | .ok a => f a (after m s)
      | .error e => (.error e, after m s) := by
  show (m >>= ExceptT.bindCont f : StateM σ _) s = _
  show ExceptT.bindCont f (m s).1 (m s).2 = _
  unfold result
  cases (m s).1 <;> rfl

def Along (R : σ → σ → Prop) (m : Comp ε σ α) (post : α → σ → Prop) : Prop :=
  ∀ s, R s (after m s) ∧ ∀ a, result m s = .ok a → post a (after m s)

/-- A fact that holds on along `R`. -/
def Stable (R : σ → σ → Prop) (p : σ → Prop) : Prop := ∀ s s', R s s' → p s → p s'

namespace Along
variable {R : σ → σ → Prop}

variable {m : Comp ε σ α} {f : α → Comp ε σ β} {post : α → β → σ → Prop} {l : List α}

theorem weaken {p q : α → σ → Prop} (h : Along R m p) (hpq : ∀ a s, p a s → q a s) : Along R m q :=
  fun s => ⟨(h s).1, fun a ha => hpq a _ ((h s).2 a ha)⟩

theorem answer [Std.Refl R] (e : Except ε α) : Along R (Stateful.answer e) fun a _ => e = .ok a :=
  fun s => ⟨refl s, fun _ ha => ha⟩

theorem pure [Std.Refl R] (a : α) : Along R (pure a : Comp ε σ α) fun b _ => b = a := by
  refine fun s => ⟨refl s, fun b hb => ?_⟩
  cases hb
  rfl

theorem bind [IsTrans σ R] {mid : α → σ → Prop} (hm : Along R m mid) (hmid : ∀ a, Stable R (mid a))
    (hf : ∀ a, Along R (f a) (post a)) :
    Along R (m >>= f) fun b s => ∃ a, mid a s ∧ post a b s := by
  intro s
  obtain ⟨hR, hok⟩ := hm s
  unfold after result
  rw [bind_apply]
  cases hres : result m s with
  | error e => exact ⟨hR, fun b hb => nomatch hb⟩
  | ok a =>
    obtain ⟨hR', hok'⟩ := hf a (after m s)
    refine ⟨IsTrans.trans _ _ _ hR hR', fun b hb => ⟨a, ?_, hok' b hb⟩⟩
    exact hmid a _ _ hR' (hok a hres)

theorem mapM [Std.Refl R] [IsTrans σ R]
    (hpost : ∀ a b, Stable R (post a b)) (hf : ∀ a ∈ l, Along R (f a) (post a)) :
    Along R (l.mapM f) fun bs s => List.Forall₂ (fun a b => post a b s) l bs := by
  induction l with
  | nil => exact (Along.pure []).weaken fun bs s hbs => hbs ▸ .nil
  | cons a l ih =>
    rw [List.mapM_cons]
    have htail := ih fun x hx => hf x (List.mem_cons_of_mem a hx)
    have hstable : ∀ bs : List β, Stable R fun s => List.Forall₂ (fun a b => post a b s) l bs :=
      fun bs s s' hR hbs => hbs.imp fun a b hab => hpost a b s s' hR hab
    refine ((hf a List.mem_cons_self).bind (hpost a) fun b =>
      htail.bind hstable fun bs => Along.pure (b :: bs)).weaken ?_
    rintro _ s ⟨b, hb, bs, hbs, rfl⟩
    exact .cons hb hbs

/-- The loop's rule where only the results matter. -/
theorem mapM_forall [Std.Refl R] [IsTrans σ R] {post : β → σ → Prop}
    (hpost : ∀ b, Stable R (post b)) (hf : ∀ a ∈ l, Along R (f a) post) :
    Along R (l.mapM f) fun bs s => ∀ b ∈ bs, post b s := by
  refine (mapM (fun _ => hpost) hf).weaken fun bs s hbs => ?_
  induction hbs with
  | nil => exact fun b hb => nomatch hb
  | cons hb _ ih =>
    intro x hx
    rcases List.mem_cons.mp hx with rfl | hx
    · exact hb
    · exact ih (fun a ha => hf a (List.mem_cons_of_mem _ ha)) x hx

end Along

/-! ## Two runs of one computation -/

structure Blind {τ : Type} (p : σ → Prop) (view : σ → τ) (m : Comp ε σ α) : Prop where
  keeps : ∀ s, p s → p (after m s)
  same : ∀ s s', p s → p s' → view s = view s' →
    result m s = result m s' ∧ view (after m s) = view (after m s')

namespace Blind
variable {τ : Type} {p : σ → Prop} {view : σ → τ}

theorem answer (e : Except ε α) : Blind p view (Stateful.answer e) :=
  ⟨fun _ h => h, fun _ _ _ _ h => ⟨rfl, h⟩⟩

theorem pure (a : α) : Blind p view (pure a : Comp ε σ α) := answer (.ok a)

variable {f : α → Comp ε σ β}

theorem bind {m : Comp ε σ α} (hm : Blind p view m)
    (hf : ∀ a, Blind p view (f a)) : Blind p view (m >>= f) := by
  constructor
  · intro s hs
    unfold after
    rw [bind_apply]
    cases result m s with
    | error e => exact hm.keeps s hs
    | ok a => exact (hf a).keeps _ (hm.keeps s hs)
  · intro s s' hs hs' hview
    obtain ⟨hres, hview⟩ := hm.same s s' hs hs' hview
    unfold after result
    rw [bind_apply, bind_apply, hres]
    cases result m s' with
    | error e => exact ⟨rfl, hview⟩
    | ok a => exact (hf a).same _ _ (hm.keeps s hs) (hm.keeps s' hs') hview

theorem mapM (hf : ∀ a, Blind p view (f a)) (l : List α) : Blind p view (l.mapM f) := by
  induction l with
  | nil => exact Blind.pure []
  | cons a l ih =>
    rw [List.mapM_cons]
    exact (hf a).bind fun b => ih.bind fun bs => Blind.pure (b :: bs)

end Blind

/-! ## Folds -/

/-- A fold keeps what each step takes from the items before to one item more. -/
theorem foldl_prefix {step : σ → α → σ} {p : List α → σ → Prop} {s : σ} (h0 : p [] s)
    (hstep : ∀ done a s, p done s → p (done ++ [a]) (step s a)) (l : List α) :
    p l (l.foldl step s) := by
  induction l using List.reverseRecOn with
  | nil => exact h0
  | append_singleton done a ih =>
    rw [List.foldl_append]
    exact hstep done a _ ih

end Gapura.Lib.Stateful
