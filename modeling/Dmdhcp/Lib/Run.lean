import Mathlib.Data.List.Basic

/-!
# Runs of a labelled transition system

A step relation `Step s e s'` reads "event `e` takes `s` to `s'`".  `Run` chains steps, `Guarded`
keeps only the steps that meet a condition on the state before the step, and the rules below turn
a one-step fact into a fact about every state a run reaches.
-/

namespace Lts

variable {σ ε : Type*}

/-- The runs of `Step`, with the events they take in order. -/
inductive Run (Step : σ → ε → σ → Prop) : σ → List ε → σ → Prop
  | nil (s : σ) : Run Step s [] s
  | cons {s t u : σ} {e : ε} {es : List ε} :
      Step s e t → Run Step t es u → Run Step s (e :: es) u

/-- The steps of `Step` whose event meets `ok` in the state it is taken from. -/
def Guarded (Step : σ → ε → σ → Prop) (ok : σ → ε → Prop) (s : σ) (e : ε) (s' : σ) : Prop :=
  Step s e s' ∧ ok s e

/-- The steps of `Step` that end in a state with `P`. -/
def Ensuring (Step : σ → ε → σ → Prop) (P : σ → Prop) (s : σ) (e : ε) (s' : σ) : Prop :=
  Step s e s' ∧ P s'

/-- The steps of a partial step function. -/
def ofPartial (step : σ → ε → Option σ) (s : σ) (e : ε) (s' : σ) : Prop := step s e = some s'

/-- The steps of a total step function. -/
def ofTotal (step : σ → ε → σ) (s : σ) (e : ε) (s' : σ) : Prop := step s e = s'

variable {Step : σ → ε → σ → Prop}

-- What every step preserves, every run preserves.
theorem Run.invariant {I : σ → Prop} (hstep : ∀ s e s', I s → Step s e s' → I s')
    {s s' : σ} {es : List ε} (hrun : Run Step s es s') (hinit : I s) : I s' := by
  induction hrun with
  | nil s => exact hinit
  | cons hs _ ih => exact ih (hstep _ _ _ hinit hs)

-- A G that is due by a time that no step puts off has been reached by then.
theorem Run.reached_of_due {I G : σ → Prop} {now due : σ → ℕ}
    (hkeep : ∀ s e s', I s → Step s e s' → I s')
    (hstay : ∀ s e s', I s → G s → Step s e s' → G s')
    (hdue : ∀ s, I s → ¬G s → now s ≤ due s)
    (hstep : ∀ s e s', I s → ¬G s → Step s e s' → G s' ∨ due s' ≤ due s)
    {s s' : σ} {es : List ε} (hrun : Run Step s es s') (hinit : I s) (hlate : due s < now s') :
    G s' := by
  have hend : I s' ∧ (G s' ∨ due s' ≤ due s) :=
    hrun.invariant (I := fun t => I t ∧ (G t ∨ due t ≤ due s))
      (fun t e t' ht hs => by
        refine ⟨hkeep t e t' ht.1 hs, ?_⟩
        by_cases hgoal : G t
        · exact .inl (hstay t e t' ht.1 hgoal hs)
        · have hsoon := ht.2.resolve_left hgoal
          exact (hstep t e t' ht.1 hgoal hs).imp_right fun h => Nat.le_trans h hsoon)
      ⟨hinit, .inr (Nat.le_refl _)⟩
  by_contra hgoal
  have hsoon := hend.2.resolve_left hgoal
  exact absurd (hdue s' hend.1 hgoal) (by omega)

theorem Run.append {s t u : σ} {es es' : List ε} (h : Run Step s es t) (h' : Run Step t es' u) :
    Run Step s (es ++ es') u := by
  induction h with
  | nil s => exact h'
  | cons hs _ ih => exact .cons hs (ih h')

-- Runs of a guarded system are runs of the system.
theorem Run.unguard {ok : σ → ε → Prop} {s s' : σ} {es : List ε}
    (hrun : Run (Guarded Step ok) s es s') : Run Step s es s' := by
  induction hrun with
  | nil s => exact .nil s
  | cons hs _ ih => exact .cons hs.1 ih

-- A condition that every event of a run meets in any state may be added as a guard.
theorem Run.guard (ok : σ → ε → Prop) {s s' : σ} {es : List ε} (hrun : Run Step s es s')
    (hok : ∀ e ∈ es, ∀ t, ok t e) : Run (Guarded Step ok) s es s' := by
  induction hrun with
  | nil s => exact .nil s
  | cons hs _ ih =>
    exact .cons ⟨hs, hok _ List.mem_cons_self _⟩ (ih fun e he => hok e (List.mem_cons_of_mem _ he))

-- An exact condition: the steps that meet it keep an invariant that gives `P`, and every other step
-- breaks `P`. The runs that meet it are then the runs in which `P` holds of every state reached.
theorem Run.guarded_iff_ensuring {ok : σ → ε → Prop} {P I : σ → Prop}
    (hkeep : ∀ s e s', I s → Step s e s' → ok s e → I s') (hgives : ∀ s, I s → P s)
    (hbreak : ∀ s e s', I s → Step s e s' → ¬ok s e → ¬P s') {s s' : σ} {es : List ε} (hs : I s) :
    Run (Guarded Step ok) s es s' ↔ Run (Ensuring Step P) s es s' := by
  constructor
  · intro hrun
    induction hrun with
    | nil s => exact .nil s
    | cons hstep _ ih =>
      have hnext := hkeep _ _ _ hs hstep.1 hstep.2
      exact .cons ⟨hstep.1, hgives _ hnext⟩ (ih hnext)
  · intro hrun
    induction hrun with
    | nil s => exact .nil s
    | cons hstep _ ih =>
      have hok := not_not.mp fun hno => hbreak _ _ _ hs hstep.1 hno hstep.2
      exact .cons ⟨hstep.1, hok⟩ (ih (hkeep _ _ _ hs hstep.1 hok))

/-- `step`, with a record, newest first, of the states left and the events they were left by. -/
def recorded (step : σ → ε → σ) (p : σ × List (σ × ε)) (e : ε) : σ × List (σ × ε) :=
  (step p.1 e, (p.1, e) :: p.2)

/-- A partial step function executed along a list of events. -/
def exec (step : σ → ε → Option σ) : σ → List ε → Option σ
  | s, [] => some s
  | s, e :: es => (step s e).bind fun t => exec step t es

/-- `es` can be executed from `s`, and `ok` holds of every step. -/
def Passes (step : σ → ε → Option σ) (ok : σ → ε → Prop) : σ → List ε → Prop
  | _, [] => True
  | s, e :: es => ok s e ∧
    match step s e with
    | some t => Passes step ok t es
    | none => False

instance Passes.decidable (step : σ → ε → Option σ) (ok : σ → ε → Prop)
    [hok : ∀ s e, Decidable (ok s e)] : ∀ s es, Decidable (Passes step ok s es)
  | _, [] => inferInstanceAs (Decidable True)
  | s, e :: es =>
    match h : step s e with
    | some t =>
      have := Passes.decidable step ok t es
      decidable_of_iff (ok s e ∧ Passes step ok t es) (by rw [Passes, h])
    | none => isFalse fun hp => by rw [Passes, h] at hp; exact hp.2

theorem exec_run_guarded {step : σ → ε → Option σ} {ok : σ → ε → Prop} {s : σ} {es : List ε}
    (h : Passes step ok s es) :
    ∃ s', exec step s es = some s' ∧ Run (Guarded (ofPartial step) ok) s es s' := by
  induction es generalizing s with
  | nil => exact ⟨s, rfl, .nil s⟩
  | cons e es ih =>
    obtain ⟨hok, hrest⟩ := h
    cases hstep : step s e with
    | none =>
      rw [hstep] at hrest
      exact hrest.elim
    | some t =>
      rw [hstep] at hrest
      obtain ⟨s', hexec, hrun⟩ := ih hrest
      exact ⟨s', by rw [exec, hstep]; exact hexec, .cons ⟨hstep, hok⟩ hrun⟩

-- A checked execution is a run, and what the execution computes holds of the state reached.
theorem Passes.run {α : Type*} (step : σ → ε → Option σ) (ok : σ → ε → Prop) (s : σ) (es : List ε)
    (f : σ → α) (a : α) (h : Passes step ok s es) (hf : (exec step s es).map f = some a) :
    ∃ s', Run (Guarded (ofPartial step) ok) s es s' ∧ f s' = a := by
  obtain ⟨s', hexec, hrun⟩ := exec_run_guarded h
  rw [hexec] at hf
  exact ⟨s', hrun, Option.some.inj hf⟩

theorem foldl_run (step : σ → ε → σ) (s : σ) (es : List ε) :
    Run (ofTotal step) s es (es.foldl step s) := by
  induction es generalizing s with
  | nil => exact .nil s
  | cons e es ih => exact .cons rfl (ih _)

/-- `ok` holds of every step of `es`, executed from `s`. -/
def Along (step : σ → ε → σ) (ok : σ → ε → Prop) : σ → List ε → Prop
  | _, [] => True
  | s, e :: es => ok s e ∧ Along step ok (step s e) es

instance Along.decidable (step : σ → ε → σ) (ok : σ → ε → Prop)
    [hok : ∀ s e, Decidable (ok s e)] : ∀ s es, Decidable (Along step ok s es)
  | _, [] => inferInstanceAs (Decidable True)
  | s, e :: es =>
    have := Along.decidable step ok (step s e) es
    inferInstanceAs (Decidable (ok s e ∧ Along step ok (step s e) es))

theorem foldl_run_guarded (step : σ → ε → σ) (ok : σ → ε → Prop) (s : σ) (es : List ε)
    (h : Along step ok s es) : Run (Guarded (ofTotal step) ok) s es (es.foldl step s) := by
  induction es generalizing s with
  | nil => exact .nil s
  | cons e es ih => exact .cons ⟨rfl, h.1⟩ (ih _ h.2)

end Lts
