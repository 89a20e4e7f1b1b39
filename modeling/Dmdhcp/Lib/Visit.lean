import Mathlib.Data.List.Basic

/-!
# Visitors that may ask to stop

A visitor is called on one element after the other; it has a context of its own, and with each call
it says whether it wants more.  Two nested loops of which only the inner one ends at such a request
go on with the next row; `honours_allCalls_iff` says when nobody can tell.
-/

namespace Visit

variable {σ α ρ τ : Type*}

/-- A visitor that also keeps its calls and what it answered. -/
def recorded (visit : σ → α → ρ × σ) : σ × List (α × ρ) → α → ρ × (σ × List (α × ρ)) :=
  fun (ctx, seen) a =>
    let (result, ctx) := visit ctx a
    (result, ctx, seen ++ [(a, result)])

/-- The calls are on the elements of `served`, in order, and the first answer that asks to stop is
the last one. -/
structure Honours (stop : ρ → Prop) (calls : List (α × ρ)) (served : List α) : Prop where
  inOrder : calls.map Prod.fst <+: served
  ended : ∀ before call after, calls = before ++ call :: after → stop call.2 → after = []

/-- Called on all of `as`, the visitor asks to stop at some point. -/
def Stops (visit : σ → α → ρ × σ) (stop : ρ → Prop) : List α → σ → Prop
  | [], _ => False
  | a :: as, ctx => stop (visit ctx a).1 ∨ Stops visit stop as (visit ctx a).2

/-- After the row in which the visitor, called on everything, first asks to stop, there is nothing to
visit. -/
def StopsLast (visit : σ → α → ρ × σ) (stop : ρ → Prop) (row : τ → List α) (ts : List τ)
    (ctx : σ) : Prop :=
  ∀ before t after, ts = before ++ t :: after → ¬Stops visit stop (before.flatMap row) ctx →
    Stops visit stop ((before ++ [t]).flatMap row) ctx → after.flatMap row = []

section
variable (visit : σ → α → ρ × σ) (stop : ρ → Prop) [DecidablePred stop]

/-- One loop, which a request to stop ends: its calls and the last context. -/
def calls : List α → σ → List (α × ρ) × σ
  | [], ctx => ([], ctx)
  | a :: as, ctx =>
    let (result, ctx) := visit ctx a
    if stop result then ([(a, result)], ctx)
    else
      let (rest, ctx) := calls as ctx
      ((a, result) :: rest, ctx)

/-- The loop over the rows, with a loop over each row in it. -/
def allCalls (row : τ → List α) : List τ → σ → List (α × ρ) × σ
  | [], ctx => ([], ctx)
  | t :: ts, ctx =>
    let (first, ctx) := calls visit stop (row t) ctx
    let (rest, ctx) := allCalls row ts ctx
    (first ++ rest, ctx)

end

variable {visit : σ → α → ρ × σ} {stop : ρ → Prop}

/-! ## 1. The answers in a list of calls -/

-- The calls that did not ask to stop can be left out on both sides.
theorem honours_append_iff {first : List (α × ρ)} (hgo : ∀ call ∈ first, ¬stop call.2)
    (rest : List (α × ρ)) (served : List α) :
    Honours stop (first ++ rest) (first.map Prod.fst ++ served) ↔ Honours stop rest served := by
  constructor
  · intro h
    refine ⟨?_, ?_⟩
    · have horder := h.inOrder
      rw [List.map_append] at horder
      exact (List.prefix_append_right_inj _).mp horder
    · intro before call after hrest
      exact h.ended (first ++ before) call after (by rw [hrest, List.append_assoc])
  · intro h
    refine ⟨?_, ?_⟩
    · rw [List.map_append]
      exact (List.prefix_append_right_inj _).mpr h.inOrder
    · intro before call after hsplit hstop
      rcases List.append_eq_append_iff.mp hsplit with ⟨as, rfl, hrest⟩ | ⟨cs, hfirst, hcs⟩
      · exact h.ended as call after hrest hstop
      · cases cs with
        | nil => exact h.ended [] call after hcs.symm hstop
        | cons c cs =>
          -- The call is one of the first ones.
          obtain ⟨rfl, -⟩ := List.cons.inj hcs
          exact absurd hstop (hgo call (by rw [hfirst]; simp))

-- After a call that asked to stop there may be no other.
theorem honours_append_stop_iff {before rest : List (α × ρ)} {call : α × ρ} {as served : List α}
    (hhonours : Honours stop (before ++ [call]) as) (hstop : stop call.2) :
    Honours stop (before ++ [call] ++ rest) (as ++ served) ↔ rest = [] := by
  constructor
  · intro h
    exact h.ended before call rest (by rw [List.append_assoc]; rfl) hstop
  · rintro rfl
    rw [List.append_nil]
    exact ⟨hhonours.inOrder.trans (List.prefix_append _ _), hhonours.ended⟩

theorem Stops.append {as : List α} {ctx : σ} (h : Stops visit stop as ctx) (as' : List α) :
    Stops visit stop (as ++ as') ctx := by
  induction as generalizing ctx with
  | nil => exact h.elim
  | cons a as ih => exact h.imp_right ih

-- The request is made in the first row: nothing may be left after it.
theorem stopsLast_of_stops {row : τ → List α} {t : τ} {ctx : σ}
    (h : Stops visit stop (row t) ctx) (ts : List τ) :
    StopsLast visit stop row (t :: ts) ctx ↔ ts.flatMap row = [] := by
  constructor
  · intro hlast
    refine hlast [] t ts rfl not_false ?_
    simpa using h
  · intro hrest before t' after hsplit hbefore _
    cases before with
    | nil =>
      obtain ⟨-, rfl⟩ := List.cons.inj hsplit
      exact hrest
    | cons _ before =>
      obtain ⟨rfl, -⟩ := List.cons.inj hsplit
      exact absurd (h.append _) hbefore

variable [DecidablePred stop]

/-! ## 2. One loop -/

theorem calls_of_stop {a : α} {ctx : σ} (h : stop (visit ctx a).1) (as : List α) :
    calls visit stop (a :: as) ctx = ([(a, (visit ctx a).1)], (visit ctx a).2) :=
  if_pos h

theorem calls_of_go {a : α} {ctx : σ} (h : ¬stop (visit ctx a).1) (as : List α) :
    calls visit stop (a :: as) ctx =
      ((a, (visit ctx a).1) :: (calls visit stop as (visit ctx a).2).1,
        (calls visit stop as (visit ctx a).2).2) :=
  if_neg h

-- Keeping the calls does not change them.
theorem calls_recorded (as : List α) (ctx : σ) (seen : List (α × ρ)) :
    (calls (recorded visit) stop as (ctx, seen)).2 =
      ((calls visit stop as ctx).2, seen ++ (calls visit stop as ctx).1) := by
  induction as generalizing ctx seen with
  | nil => exact Prod.ext rfl (List.append_nil seen).symm
  | cons a as ih =>
    have hresult : (recorded visit (ctx, seen) a).1 = (visit ctx a).1 := rfl
    by_cases ha : stop (visit ctx a).1
    · rw [calls_of_stop ha, calls_of_stop (hresult ▸ ha)]
      rfl
    · rw [calls_of_go ha, calls_of_go (hresult ▸ ha)]
      show (calls (recorded visit) stop as
        ((visit ctx a).2, seen ++ [(a, (visit ctx a).1)])).2 = _
      rw [ih, List.append_assoc]
      rfl

-- A visitor that has not asked to stop was called on everything.
theorem calls_of_not_stops {as : List α} {ctx : σ} (h : ¬Stops visit stop as ctx) :
    (calls visit stop as ctx).1.map Prod.fst = as ∧
      (∀ call ∈ (calls visit stop as ctx).1, ¬stop call.2) ∧
      ∀ as', Stops visit stop (as ++ as') ctx ↔ Stops visit stop as' (calls visit stop as ctx).2 := by
  induction as generalizing ctx with
  | nil => exact ⟨rfl, fun _ hmem => absurd hmem List.not_mem_nil, fun _ => Iff.rfl⟩
  | cons a as ih =>
    obtain ⟨ha, has⟩ := not_or.mp h
    obtain ⟨hmap, hgo, hafter⟩ := ih has
    rw [calls_of_go ha]
    refine ⟨?_, ?_, ?_⟩
    · rw [List.map_cons, hmap]
    · intro call hmem
      rcases List.mem_cons.mp hmem with rfl | hmem
      · exact ha
      · exact hgo call hmem
    · intro as'
      exact (or_iff_right ha).trans (hafter as')

-- Otherwise the loop ends with the call that asked for it.
theorem calls_of_stops {as : List α} {ctx : σ} (h : Stops visit stop as ctx) :
    Honours stop (calls visit stop as ctx).1 as ∧
      ∃ before call, (calls visit stop as ctx).1 = before ++ [call] ∧ stop call.2 := by
  induction as generalizing ctx with
  | nil => exact h.elim
  | cons a as ih =>
    by_cases ha : stop (visit ctx a).1
    · rw [calls_of_stop ha]
      refine ⟨⟨⟨as, rfl⟩, ?_⟩, [], _, rfl, ha⟩
      intro before call after hcalls _
      rcases List.append_eq_singleton_iff.mp hcalls.symm with ⟨-, hcons⟩ | ⟨-, hcons⟩
      · exact (List.cons.inj hcons).2
      · exact absurd hcons (List.cons_ne_nil _ _)
    · obtain ⟨hhonours, before, call, hcalls, hstop⟩ := ih (h.resolve_left ha)
      rw [calls_of_go ha]
      refine ⟨⟨?_, ?_⟩, (a, (visit ctx a).1) :: before, call, by rw [hcalls]; rfl, hstop⟩
      · exact List.cons_prefix_cons.mpr ⟨rfl, hhonours.inOrder⟩
      · intro before' call' after hsplit hstop'
        cases before' with
        | nil =>
          obtain ⟨rfl, -⟩ := List.cons.inj hsplit
          exact absurd hstop' ha
        | cons _ before' => exact hhonours.ended before' call' after (List.cons.inj hsplit).2 hstop'

-- With one that never asks, the loop is a fold.
theorem calls_context (hgo : ∀ ctx a, ¬stop (visit ctx a).1) (as : List α) (ctx : σ) :
    (calls visit stop as ctx).2 = as.foldl (fun ctx a => (visit ctx a).2) ctx := by
  induction as generalizing ctx with
  | nil => rfl
  | cons a as ih =>
    rw [calls_of_go (hgo ctx a), List.foldl_cons]
    exact ih (visit ctx a).2

/-! ## 3. A loop in a loop -/

theorem allCalls_context (hgo : ∀ ctx a, ¬stop (visit ctx a).1) (row : τ → List α) (ts : List τ)
    (ctx : σ) : (allCalls visit stop row ts ctx).2 =
      (ts.flatMap row).foldl (fun ctx a => (visit ctx a).2) ctx := by
  induction ts generalizing ctx with
  | nil => rfl
  | cons t ts ih =>
    rw [List.flatMap_cons, List.foldl_append, ← calls_context hgo (row t)]
    exact ih (calls visit stop (row t) ctx).2

theorem allCalls_recorded (row : τ → List α) (ts : List τ) (ctx : σ) (seen : List (α × ρ)) :
    (allCalls (recorded visit) stop row ts (ctx, seen)).2 =
      ((allCalls visit stop row ts ctx).2, seen ++ (allCalls visit stop row ts ctx).1) := by
  induction ts generalizing ctx seen with
  | nil => exact Prod.ext rfl (List.append_nil seen).symm
  | cons t ts ih =>
    show (allCalls (recorded visit) stop row ts
      (calls (recorded visit) stop (row t) (ctx, seen)).2).2 = _
    rw [calls_recorded, ih, List.append_assoc]
    rfl

-- The visitor is called unless there is nothing to call it on.
theorem calls_eq_nil_iff (as : List α) (ctx : σ) : (calls visit stop as ctx).1 = [] ↔ as = [] := by
  cases as with
  | nil => exact ⟨fun _ => rfl, fun _ => rfl⟩
  | cons a as =>
    refine ⟨fun h => ?_, fun h => absurd h (List.cons_ne_nil _ _)⟩
    by_cases ha : stop (visit ctx a).1
    · rw [calls_of_stop ha] at h
      cases h
    · rw [calls_of_go ha] at h
      cases h

theorem allCalls_eq_nil_iff (row : τ → List α) (ts : List τ) (ctx : σ) :
    (allCalls visit stop row ts ctx).1 = [] ↔ ts.flatMap row = [] := by
  induction ts generalizing ctx with
  | nil => exact ⟨fun _ => rfl, fun _ => rfl⟩
  | cons t ts ih =>
    show (calls visit stop (row t) ctx).1 ++
      (allCalls visit stop row ts (calls visit stop (row t) ctx).2).1 = [] ↔ _
    rw [List.append_eq_nil_iff, calls_eq_nil_iff, ih, List.flatMap_cons, List.append_eq_nil_iff]

-- No request in the first row: the others are visited from its last context.
theorem stopsLast_of_not_stops {row : τ → List α} {t : τ} {ctx : σ}
    (h : ¬Stops visit stop (row t) ctx) (ts : List τ) :
    StopsLast visit stop row (t :: ts) ctx ↔
      StopsLast visit stop row ts (calls visit stop (row t) ctx).2 := by
  obtain ⟨-, -, hafter⟩ := calls_of_not_stops h
  constructor
  · intro hlast before t' after hsplit hbefore hthere
    refine hlast (t :: before) t' after (by rw [hsplit]; rfl) ?_ ?_
    · rw [List.flatMap_cons, hafter]
      exact hbefore
    · rw [List.cons_append, List.flatMap_cons, hafter]
      exact hthere
  · intro hlast before t' after hsplit hbefore hthere
    cases before with
    | nil =>
      obtain ⟨rfl, -⟩ := List.cons.inj hsplit
      exact absurd (by simpa using hthere) h
    | cons _ before =>
      obtain ⟨rfl, htail⟩ := List.cons.inj hsplit
      rw [List.flatMap_cons, hafter] at hbefore
      rw [List.cons_append, List.flatMap_cons, hafter] at hthere
      exact hlast before t' after htail hbefore hthere

-- The nested loops honour a request to stop if and only if it is made in the last row that counts.
theorem honours_allCalls_iff (row : τ → List α) (ts : List τ) (ctx : σ) :
    Honours stop (allCalls visit stop row ts ctx).1 (ts.flatMap row) ↔
      StopsLast visit stop row ts ctx := by
  induction ts generalizing ctx with
  | nil =>
    refine iff_of_true ⟨List.prefix_refl _, ?_⟩ ?_
    · intro before call after h
      simp [allCalls] at h
    · intro before t after h
      simp at h
  | cons t ts ih =>
    show Honours stop ((calls visit stop (row t) ctx).1 ++
      (allCalls visit stop row ts (calls visit stop (row t) ctx).2).1) _ ↔ _
    rw [List.flatMap_cons]
    by_cases hstops : Stops visit stop (row t) ctx
    · -- Whether there is another call decides.
      obtain ⟨hhonours, before, call, hcalls, hstop⟩ := calls_of_stops hstops
      rw [hcalls] at hhonours ⊢
      rw [honours_append_stop_iff hhonours hstop, allCalls_eq_nil_iff, stopsLast_of_stops hstops]
    · obtain ⟨hmap, hgo, -⟩ := calls_of_not_stops hstops
      have hrows := honours_append_iff hgo
        (allCalls visit stop row ts (calls visit stop (row t) ctx).2).1 (ts.flatMap row)
      rw [hmap] at hrows
      rw [hrows, ih, stopsLast_of_not_stops hstops]

end Visit
