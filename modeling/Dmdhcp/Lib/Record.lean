import Mathlib.Data.List.Basic

/-!
# Records of events

A record lists the events of a run, newest first.  `Since` and `Historically` are the two past-time
operators needed to say that an event only happens after another one.
-/

namespace Lts

variable {ε α : Type*}

/-- An event with `p` happened, and no event with `reset` after it. -/
def Since (reset p : ε → Bool) : List ε → Bool
  | [] => false
  | e :: es => p e || (!reset e && Since reset p es)

/-- How many events with `p` there are after the last one with `reset`. -/
def countSince (reset p : ε → Bool) : List ε → Nat
  | [] => 0
  | e :: es => if reset e then 0 else (if p e then 1 else 0) + countSince reset p es

/-- What the events yield since the last one with `reset`, that one included; all of it, and `base`,
if there is none. -/
def collectSince (reset : ε → Bool) (f : ε → List α) (base : List α) : List ε → List α
  | [] => base
  | e :: es => if reset e then f e else f e ++ collectSince reset f base es

/-- `P` held of every event and the record as it was before the event. -/
def Historically (P : ε → List ε → Prop) : List ε → Prop
  | [] => True
  | e :: es => P e es ∧ Historically P es

instance Historically.decidable (P : ε → List ε → Prop) [hP : ∀ e es, Decidable (P e es)] :
    ∀ es, Decidable (Historically P es)
  | [] => inferInstanceAs (Decidable True)
  | e :: es =>
    have := Historically.decidable P es
    inferInstanceAs (Decidable (P e es ∧ Historically P es))

theorem Since.append {reset p : ε → Bool} {new old : List ε} (h : Since reset p old = true)
    (hnew : ∀ e ∈ new, reset e = false) : Since reset p (new ++ old) = true := by
  induction new with
  | nil => exact h
  | cons e es ih =>
    have hold := ih fun e' he' => hnew e' (List.mem_cons_of_mem e he')
    rw [List.cons_append, Since, hnew e List.mem_cons_self, hold]
    simp

theorem Since.exists {reset p : ε → Bool} {es : List ε} (h : Since reset p es = true) :
    ∃ after e before, es = after ++ e :: before ∧ p e = true ∧ ∀ x ∈ after, reset x = false := by
  induction es with
  | nil => cases h
  | cons e es ih =>
    by_cases hp : p e = true
    · exact ⟨[], e, es, rfl, hp, fun x hx => absurd hx List.not_mem_nil⟩
    · have hrest : reset e = false ∧ Since reset p es = true := by
        simpa [Since, hp] using h
      obtain ⟨after, x, before, rfl, hx, hafter⟩ := ih hrest.2
      refine ⟨e :: after, x, before, rfl, hx, fun y hy => ?_⟩
      rcases List.mem_cons.mp hy with rfl | hy
      · exact hrest.1
      · exact hafter y hy

theorem Historically.append {P : ε → List ε → Prop} {new old : List ε} (h : Historically P old)
    (hnew : ∀ e ∈ new, ∀ es ⊆ new ++ old, P e es) : Historically P (new ++ old) := by
  induction new with
  | nil => exact h
  | cons e es ih =>
    refine ⟨hnew e List.mem_cons_self _ (List.subset_cons_self _ _), ih fun e' he' es' hes' => ?_⟩
    exact hnew e' (List.mem_cons_of_mem e he') es' (List.subset_cons_of_subset e hes')

theorem Historically.at {P : ε → List ε → Prop} {new old : List ε} {e : ε}
    (h : Historically P (new ++ e :: old)) : P e old := by
  induction new with
  | nil => exact h.1
  | cons e' es ih => exact ih h.2

end Lts
