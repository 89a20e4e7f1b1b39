import Mathlib.Algebra.Order.Group.Multiset
import Mathlib.Tactic.Abel

/-!
# Programs that allocate

A program asks an allocator for objects and gives them back.  Whether an allocation succeeds is the
world's decision; giving back what is not allocated is a fault.  `Spec` is a triple over what a
program owns: from the objects it is given to the objects it leaves to its caller, with every other
object untouched.
-/

namespace Alloc

variable {κ : Type} {α β : Type}

/-! ## 1. Heaps and programs -/

/-- An allocated object.  Numbers are never used twice, so an old pointer cannot name a new object. -/
structure Obj (κ : Type) where
  id : Nat
  kind : κ
  deriving DecidableEq, Repr

structure Heap (κ : Type) where
  live : List (Obj κ)
  next : Nat
  /-- How the next requests end; they fail once no answer is left. -/
  answers : List Bool
  /-- Something was given back that was not allocated. -/
  fault : Bool
  deriving DecidableEq, Repr

def Heap.empty : Heap κ := ⟨[], 0, [], false⟩

/-- The same objects, with other answers to come. -/
def Heap.answering (h : Heap κ) (answers : List Bool) : Heap κ := { h with answers }

def Prog (κ α : Type) := Heap κ → α × Heap κ

namespace Prog

def pure (a : α) : Prog κ α := fun h => (a, h)

def bind (p : Prog κ α) (f : α → Prog κ β) : Prog κ β := fun h => f (p h).1 (p h).2

instance : Monad (Prog κ) where
  pure := Prog.pure
  bind := Prog.bind

theorem pure_run (a : α) (h : Heap κ) : (Pure.pure a : Prog κ α) h = (a, h) := rfl

theorem bind_run (p : Prog κ α) (f : α → Prog κ β) (h : Heap κ) :
    (p >>= f) h = f (p h).1 (p h).2 := rfl

end Prog

/-- A request that allocates nothing the program would have to give back. -/
def ask : Prog κ Bool := fun h => (h.answers.headD false, { h with answers := h.answers.tail })

/-- A new object of the kind, or nothing. -/
def alloc (kind : κ) : Prog κ (Option (Obj κ)) := do
  if ← ask then
    fun h => (some ⟨h.next, kind⟩, { h with live := ⟨h.next, kind⟩ :: h.live, next := h.next + 1 })
  else return none

section
variable [DecidableEq κ]

def free (o : Obj κ) : Prog κ Unit := fun h =>
  ((), { h with live := h.live.erase o, fault := h.fault || !h.live.contains o })

/-- Giving back a null pointer does nothing. -/
def freeOption : Option (Obj κ) → Prog κ Unit
  | none => return ()
  | some o => free o

def freeAll : List (Obj κ) → Prog κ Unit
  | [] => return ()
  | o :: os => do
    free o
    freeAll os

end

/-! ## 2. Ownership -/

/-- The heap holds exactly the objects in `own`, each once, and nothing went wrong so far. -/
structure Heap.Owned (own : Multiset (Obj κ)) (h : Heap κ) : Prop where
  fault : h.fault = false
  live : (h.live : Multiset (Obj κ)) = own
  nodup : h.live.Nodup
  fresh : ∀ o ∈ h.live, o.id < h.next

theorem Heap.empty_owned : (Heap.empty : Heap κ).Owned 0 :=
  ⟨rfl, rfl, .nil, fun _ ho => absurd ho List.not_mem_nil⟩

theorem Heap.Owned.answering {own : Multiset (Obj κ)} {h : Heap κ} (hown : h.Owned own)
    (answers : List Bool) : (h.answering answers).Owned own :=
  ⟨hown.fault, hown.live, hown.nodup, hown.fresh⟩

/-- The object behind a pointer that may be null. -/
def held (o : Option (Obj κ)) : Multiset (Obj κ) := (o.toList : Multiset (Obj κ))

@[simp] theorem held_none : held (none : Option (Obj κ)) = 0 := rfl
@[simp] theorem held_some (o : Obj κ) : held (some o) = {o} := rfl

theorem coe_cons (o : Obj κ) (os : List (Obj κ)) :
    ((o :: os : List (Obj κ)) : Multiset (Obj κ)) = {o} + os := rfl

/-! ## 3. Triples -/

/-- Run on any heap, `p` turns `pre` into what `own` says of its result, of which `fact` holds, and
leaves alone whatever else there is. -/
def Spec (pre : Multiset (Obj κ)) (p : Prog κ α) (fact : α → Prop)
    (own : α → Multiset (Obj κ)) : Prop :=
  ∀ frame h, h.Owned (pre + frame) → fact (p h).1 ∧ (p h).2.Owned (own (p h).1 + frame)

namespace Spec
variable {pre pre' : Multiset (Obj κ)} {p : Prog κ α} {fact fact' : α → Prop}
  {own own' : α → Multiset (Obj κ)}

theorem pure (a : α) (hfact : fact a) (hown : own a = pre) :
    Spec pre (Pure.pure a : Prog κ α) fact own := by
  intro frame h hh
  rw [Prog.pure_run, hown]
  exact ⟨hfact, hh⟩

theorem bind {q : α → Prog κ β} {factq : β → Prop} {ownq : β → Multiset (Obj κ)}
    (hp : Spec pre p fact own) (hq : ∀ a, fact a → Spec (own a) (q a) factq ownq) :
    Spec pre (p >>= q) factq ownq := by
  intro frame h hh
  obtain ⟨hfact, hown⟩ := hp frame h hh
  rw [Prog.bind_run]
  exact hq _ hfact frame _ hown

-- What a program does not own it keeps.
theorem frame (hp : Spec pre p fact own) (extra : Multiset (Obj κ)) :
    Spec (pre + extra) p fact fun a => own a + extra := by
  intro frame h hh
  rw [add_assoc] at hh
  obtain ⟨hfact, hown⟩ := hp (extra + frame) h hh
  rw [add_assoc]
  exact ⟨hfact, hown⟩

theorem conseq (hp : Spec pre p fact own) (hpre : pre' = pre)
    (hpost : ∀ a, fact a → fact' a ∧ own' a = own a) : Spec pre' p fact' own' := by
  intro frame h hh
  obtain ⟨hfact, hown⟩ := hp frame h (hpre ▸ hh)
  rw [(hpost _ hfact).2]
  exact ⟨(hpost _ hfact).1, hown⟩

-- The rule for a call: what the callee needs is taken from what is owned, the rest stays.
theorem call {q : α → Prog κ β} {factq : β → Prop} {ownq : β → Multiset (Obj κ)}
    (hp : Spec pre p fact own) (rest : Multiset (Obj κ)) (hpre : pre' = pre + rest)
    (hq : ∀ a, fact a → Spec (own a + rest) (q a) factq ownq) :
    Spec pre' (p >>= q) factq ownq :=
  ((hp.frame rest).conseq hpre fun _ h => ⟨h, rfl⟩).bind hq

-- The rule for a branch.
theorem ite {c : Prop} [Decidable c] {q : Prog κ α} (hp : c → Spec pre p fact own)
    (hq : ¬c → Spec pre q fact own) : Spec pre (if c then p else q) fact own := by
  by_cases hc : c
  · rw [if_pos hc]
    exact hp hc
  · rw [if_neg hc]
    exact hq hc

end Spec

-- A program that owns nothing, run where `own` is owned.
theorem Spec.run {pre : Multiset (Obj κ)} {p : Prog κ α} {fact : α → Prop}
    {own : α → Multiset (Obj κ)} (hp : Spec pre p fact own) {h : Heap κ} (hh : h.Owned pre) :
    fact (p h).1 ∧ (p h).2.Owned (own (p h).1) := by
  have hrun := hp 0 h (by rwa [add_zero])
  rwa [add_zero] at hrun

theorem ask_spec : Spec (0 : Multiset (Obj κ)) ask (fun _ => True) (fun _ => 0) :=
  fun _ _ hh => ⟨trivial, hh.fault, hh.live, hh.nodup, hh.fresh⟩

-- A request takes the next answer.
theorem alloc_answer (kind : κ) (h : Heap κ) : ∃ r h', alloc kind h = (r, h') ∧
    r.isSome = h.answers[0]?.getD false ∧ h'.answers = h.answers.tail := by
  obtain ⟨live, next, answers, fault⟩ := h
  cases answers with
  | nil => exact ⟨_, _, rfl, rfl, rfl⟩
  | cons a as => cases a <;> exact ⟨_, _, rfl, rfl, rfl⟩

theorem alloc_spec (kind : κ) :
    Spec (0 : Multiset (Obj κ)) (alloc kind) (fun r => ∀ o ∈ r, o.kind = kind) held := by
  refine ask_spec.bind fun granted _ => ?_
  cases granted with
  | false => exact .pure none (fun o ho => by cases ho) rfl
  | true =>
    intro frame h hh
    refine ⟨fun o ho => by cases ho; rfl, hh.fault, ?_, ?_, ?_⟩
    · show ((⟨h.next, kind⟩ :: h.live : List (Obj κ)) : Multiset (Obj κ)) = {⟨h.next, kind⟩} + frame
      rw [coe_cons, hh.live, zero_add]
    · -- The new number is above every number in use.
      exact List.nodup_cons.mpr ⟨fun hin => Nat.lt_irrefl _ (hh.fresh _ hin), hh.nodup⟩
    · intro o ho
      rcases List.mem_cons.mp ho with rfl | ho
      · exact Nat.lt_succ_self _
      · exact Nat.lt_succ_of_lt (hh.fresh o ho)

section
variable [DecidableEq κ]

theorem free_spec (o : Obj κ) : Spec {o} (free o) (fun _ => True) (fun _ => 0) := by
  intro frame h hh
  have hin : o ∈ h.live := by
    rw [← Multiset.mem_coe, hh.live]
    exact Multiset.mem_add.mpr (.inl (Multiset.mem_singleton_self o))
  refine ⟨trivial, ?_, ?_, hh.nodup.erase o, fun x hx => hh.fresh x (List.mem_of_mem_erase hx)⟩
  · show (h.fault || !h.live.contains o) = false
    rw [hh.fault, List.contains_iff_mem.mpr hin]
    rfl
  · show ((h.live.erase o : List (Obj κ)) : Multiset (Obj κ)) = 0 + frame
    rw [← Multiset.coe_erase, hh.live, zero_add, Multiset.singleton_add, Multiset.erase_cons_head]

theorem freeOption_spec (o : Option (Obj κ)) :
    Spec (held o) (freeOption o) (fun _ => True) (fun _ => 0) := by
  cases o with
  | none => exact .pure () trivial rfl
  | some o => exact free_spec o

theorem freeAll_spec (os : List (Obj κ)) :
    Spec (os : Multiset (Obj κ)) (freeAll os) (fun _ => True) (fun _ => 0) := by
  induction os with
  | nil => exact .pure () trivial rfl
  | cons o os ih => exact (free_spec o).call os (coe_cons o os) fun _ _ => by rwa [zero_add]

end

end Alloc
