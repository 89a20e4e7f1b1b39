import Dmdhcp.Lib.Run
import Mathlib.Data.List.Forall2

/-!
# Simulations between transition systems

`Simulates` says that every step of one system can be answered by a step of another, with an event
that `G` relates to the first.  A run of the first is then a run of the second, event by event, with
related states at its end.
-/

namespace Lts

variable {σ τ ε δ : Type*}

/-- Related states stay related, and a step is answered by a step. -/
def Simulates (Step : σ → ε → σ → Prop) (Step' : τ → δ → τ → Prop) (G : ε → δ → Prop)
    (R : σ → τ → Prop) : Prop :=
  ∀ s e s' t, R s t → Step s e s' → ∃ d t', G e d ∧ Step' t d t' ∧ R s' t'

variable {Step : σ → ε → σ → Prop} {Step' : τ → δ → τ → Prop}

theorem Simulates.run {G : ε → δ → Prop} {R : σ → τ → Prop} (h : Simulates Step Step' G R)
    {s s' : σ} {t : τ} {es : List ε} (hrun : Run Step s es s') (hrel : R s t) :
    ∃ ds t', List.Forall₂ G es ds ∧ Run Step' t ds t' ∧ R s' t' := by
  induction hrun generalizing t with
  | nil s => exact ⟨[], t, .nil, .nil t, hrel⟩
  | cons hstep _ ih =>
    obtain ⟨d, t₁, hevent, hstep', hrel₁⟩ := h _ _ _ _ hrel hstep
    obtain ⟨ds, t', hevents, hrun', hrel'⟩ := ih hrel₁
    exact ⟨d :: ds, t', .cons hevent hevents, .cons hstep' hrun', hrel'⟩

-- A part of the state that follows steps of its own, where an invariant holds.
theorem Run.project (f : σ → τ) {g : ε → δ} {I : σ → Prop}
    (hstep : ∀ s e s', I s → Step s e s' → I s' ∧ Step' (f s) (g e) (f s'))
    {s s' : σ} {es : List ε} (hrun : Run Step s es s') (hinit : I s) :
    Run Step' (f s) (es.map g) (f s') := by
  have hsim : Simulates Step Step' (fun e d => g e = d) fun s t => I s ∧ t = f s := by
    rintro s e s' t ⟨hs, rfl⟩ h
    obtain ⟨hs', h'⟩ := hstep s e s' hs h
    exact ⟨g e, f s', rfl, h', hs', rfl⟩
  obtain ⟨ds, t', hevents, hrun', -, rfl⟩ := hsim.run hrun ⟨hinit, rfl⟩
  have hds : es.map g = ds :=
    (congrFun₂ List.forall₂_eq_eq_eq _ _).mp (List.forall₂_map_left_iff.mpr hevents)
  rw [hds]
  exact hrun'

end Lts
