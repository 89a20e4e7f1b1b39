import Mathlib.Data.Sum.Basic

/-!
# Loops by their turns

A loop is given by what one turn does: go on with another state, or return.  `Returns` says that
the turns from a state come to an end and with what; a loop that runs forever returns nothing.
-/

namespace Loop

variable {σ ρ : Type*}

/-- The turns from a state end, with this result. -/
inductive Returns (turn : σ → σ ⊕ ρ) : σ → ρ → Prop
  | stop {s : σ} {r : ρ} : turn s = .inr r → Returns turn s r
  | again {s s' : σ} {r : ρ} : turn s = .inl s' → Returns turn s' r → Returns turn s r

variable {turn : σ → σ ⊕ ρ}

-- Total correctness: `variant` falls with every turn that goes on, and what is right for the next
-- state is right for this one.
theorem exists_returns (variant : σ → Nat) (Q : σ → ρ → Prop)
    (hstop : ∀ s r, turn s = .inr r → Q s r)
    (hagain : ∀ s s', turn s = .inl s' → variant s' < variant s ∧ ∀ r, Q s' r → Q s r) (s : σ) :
    ∃ r, Returns turn s r ∧ Q s r := by
  induction h : variant s using Nat.strongRecOn generalizing s with
  | ind n ih =>
    subst h
    cases hturn : turn s with
    | inr r => exact ⟨r, .stop hturn, hstop s r hturn⟩
    | inl s' =>
      obtain ⟨hvariant, hQ⟩ := hagain s s' hturn
      obtain ⟨r, hreturns, hr⟩ := ih (variant s') hvariant s' rfl
      exact ⟨r, .again hturn hreturns, hQ r hr⟩

end Loop
