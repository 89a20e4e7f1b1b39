import Mathlib.Data.List.Basic

/-!
# Programs that read a buffer

A buffer is the start of a memory that goes on behind it.  A program may read anywhere; everything it
reads is noted, and so are the sizes it computes.  `Yields` says that nothing of this goes wrong and
what is returned, whatever stands behind the buffer.
-/

namespace Reads

/-- What a program does: it reads a cell, computes a size, or takes one size from another. -/
inductive Access
  | read (index : Nat)
  | size (n : Nat)
  | difference (a b : Nat)
  deriving DecidableEq, Repr

/-- A read is inside a buffer of the given length, a size is at most `slack` larger than it, and a
difference does not underflow. -/
def Access.Within (length slack : Nat) : Access → Prop
  | .read index => index < length
  | .size n => n ≤ length + slack
  | .difference a b => b ≤ a

/-- A program over cells `β`: what it does to a memory, in order, and its result. -/
def Prog (β α : Type) := (Nat → β) → List Access × α

section
variable {α β γ : Type}

instance : Monad (Prog β) where
  pure a := fun _ => ([], a)
  bind p f := fun mem =>
    let (done, a) := p mem
    let (more, b) := f a mem
    (done ++ more, b)

def read (index : Nat) : Prog β β := fun mem => ([.read index], mem index)

/-- `n` cells from `index` on, as `memcpy` reads them. -/
def copy (index n : Nat) : Prog β (Fin n → β) :=
  fun mem => ((List.range n).map fun i => .read (index + i), fun i => mem (index + i))

def size (n : Nat) : Prog β Unit := fun _ => ([.size n], ())

def difference (a b : Nat) : Prog β Nat := fun _ => ([.difference a b], a - b)

/-- The memory that starts with the buffer. -/
def memory (bytes : List β) (beyond : Nat → β) : Nat → β := fun i => bytes.getD i (beyond i)

theorem memory_eq {bytes : List β} {i : Nat} (h : i < bytes.length) (beyond : Nat → β) :
    memory bytes beyond i = bytes[i] := by
  rw [memory, List.getD_eq_getElem?_getD, List.getElem?_eq_getElem h, Option.getD_some]

/-- Whatever stands behind the buffer, the program stays within it and returns `a`. -/
def Yields (bytes : List β) (slack : Nat) (p : Prog β α) (a : α) : Prop :=
  ∀ beyond, (∀ access ∈ (p (memory bytes beyond)).1, access.Within bytes.length slack) ∧
    (p (memory bytes beyond)).2 = a

variable {bytes : List β} {slack : Nat}

theorem Yields.pure (a : α) : Yields bytes slack (pure a) a :=
  fun _ => ⟨fun _ h => absurd h List.not_mem_nil, rfl⟩

theorem Yields.bind {p : Prog β α} {f : α → Prog β γ} {a : α} {c : γ} (hp : Yields bytes slack p a)
    (hf : Yields bytes slack (f a) c) : Yields bytes slack (p >>= f) c := by
  intro beyond
  obtain ⟨hdone, ha⟩ := hp beyond
  obtain ⟨hmore, hc⟩ := hf beyond
  constructor
  · intro access hmem
    rcases List.mem_append.mp hmem with hmem | hmem
    · exact hdone access hmem
    · rw [ha] at hmem
      exact hmore access hmem
  · show (f (p (memory bytes beyond)).2 (memory bytes beyond)).2 = c
    rw [ha]
    exact hc

theorem Yields.ite {c : Prop} [Decidable c] {p q : Prog β α} {a b : α}
    (hp : c → Yields bytes slack p a) (hq : ¬c → Yields bytes slack q b) :
    Yields bytes slack (if c then p else q) (if c then a else b) := by
  by_cases hc : c
  · rw [if_pos hc, if_pos hc]
    exact hp hc
  · rw [if_neg hc, if_neg hc]
    exact hq hc

theorem Yields.read {i : Nat} (h : i < bytes.length) : Yields bytes slack (read i) bytes[i] := by
  intro beyond
  refine ⟨fun access hmem => ?_, memory_eq h beyond⟩
  rw [List.mem_singleton.mp hmem]
  exact h

theorem Yields.copy {i n : Nat} (h : i + n ≤ bytes.length) :
    Yields bytes slack (copy i n) fun k => bytes[i + k.val] := by
  intro beyond
  constructor
  · intro access hmem
    obtain ⟨k, hk, rfl⟩ := List.mem_map.mp hmem
    have hlt := List.mem_range.mp hk
    show i + k < bytes.length
    omega
  · funext k
    exact memory_eq (by omega) beyond

theorem Yields.size {n : Nat} (h : n ≤ bytes.length + slack) : Yields bytes slack (size n) () := by
  intro beyond
  refine ⟨fun access hmem => ?_, rfl⟩
  rw [List.mem_singleton.mp hmem]
  exact h

theorem Yields.difference {a b : Nat} (h : b ≤ a) :
    Yields bytes slack (difference a b) (a - b) := by
  intro beyond
  refine ⟨fun access hmem => ?_, rfl⟩
  rw [List.mem_singleton.mp hmem]
  exact h

end

end Reads
