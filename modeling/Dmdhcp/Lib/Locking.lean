import Mathlib.Data.List.Nodup

/-!
# The lock discipline of a thread

A thread takes and drops mutexes of type `μ` and calls outside code of type `κ`; what it does to them
is recorded, newest first.  A `Discipline` says which mutex may be taken and which call made with
some mutexes held; no mutex may be taken twice.  The programs of a thread are stateful functions
that are interrupted by other threads wherever they take or drop a mutex or call out.
-/

namespace Locking

inductive Event (μ κ : Type*)
  | lock (m : μ)
  | unlock (m : μ)
  | call (k : κ)
  deriving DecidableEq, Repr

structure Discipline (μ κ : Type*) where
  mayLock : List μ → μ → Bool
  mayCall : List μ → κ → Bool

/-! ## 1. Records -/

section
variable {μ κ : Type*} [DecidableEq μ]

/-- The mutexes held after `e`, unless `e` breaks the discipline. -/
def Discipline.step (d : Discipline μ κ) (held : List μ) : Event μ κ → Option (List μ)
  | .lock m => if m ∉ held ∧ d.mayLock held m = true then some (m :: held) else none
  | .unlock m => if m ∈ held then some (held.erase m) else none
  | .call k => if d.mayCall held k = true then some held else none

/-- The mutexes held after a whole record. -/
def Discipline.held (d : Discipline μ κ) : List (Event μ κ) → Option (List μ)
  | [] => some []
  | e :: older => (d.held older).bind fun held => d.step held e

variable {d : Discipline μ κ}

theorem Discipline.held_cons {e : Event μ κ} {older : List (Event μ κ)} {held : List μ}
    (h : d.held (e :: older) = some held) :
    ∃ before, d.held older = some before ∧ d.step before e = some held :=
  Option.bind_eq_some_iff.mp h

-- What comes first keeps the discipline too.
theorem Discipline.held_suffix {older trace : List (Event μ κ)} (hsuffix : older <:+ trace)
    {held : List μ} (h : d.held trace = some held) : ∃ before, d.held older = some before := by
  induction trace generalizing held with
  | nil =>
    rw [List.suffix_nil.mp hsuffix]
    exact ⟨[], rfl⟩
  | cons e es ih =>
    rcases List.suffix_cons_iff.mp hsuffix with rfl | hes
    · exact ⟨held, h⟩
    · obtain ⟨before, hbefore, -⟩ := Discipline.held_cons h
      exact ih hes hbefore

-- Every event of a disciplined record, with what was held before it.
theorem Discipline.held_at {e : Event μ κ} {older trace : List (Event μ κ)}
    (hsuffix : e :: older <:+ trace) {held : List μ} (h : d.held trace = some held) :
    ∃ before after, d.held older = some before ∧ d.step before e = some after := by
  obtain ⟨after, hafter⟩ := Discipline.held_suffix hsuffix h
  obtain ⟨before, hbefore, hstep⟩ := Discipline.held_cons hafter
  exact ⟨before, after, hbefore, hstep⟩

variable [DecidableEq κ]

/-- `m` was taken more often than it was dropped. -/
def Holds (trace : List (Event μ κ)) (m : μ) : Prop :=
  trace.count (.unlock m) < trace.count (.lock m)

-- In a disciplined record a mutex is held once or not at all.
theorem Discipline.held_count {trace : List (Event μ κ)} {held : List μ}
    (h : d.held trace = some held) : held.Nodup ∧
      ∀ m, trace.count (.lock m) = trace.count (.unlock m) + if m ∈ held then 1 else 0 := by
  induction trace generalizing held with
  | nil =>
    obtain rfl := Option.some.inj h
    exact ⟨.nil, fun m => by simp⟩
  | cons e older ih =>
    obtain ⟨before, hbefore, hstep⟩ := Discipline.held_cons h
    obtain ⟨hnodup, hcount⟩ := ih hbefore
    cases e with
    | lock m =>
      simp only [Discipline.step] at hstep
      split_ifs at hstep with hfree
      obtain rfl := Option.some.inj hstep
      refine ⟨List.nodup_cons.mpr ⟨hfree.1, hnodup⟩, fun m' => ?_⟩
      have hold := hcount m'
      by_cases hm : m' = m
      · subst hm
        rw [if_neg hfree.1] at hold
        simp [hold]
      · simp [hold, hm, Ne.symm hm]
    | unlock m =>
      simp only [Discipline.step] at hstep
      split_ifs at hstep with hheld
      obtain rfl := Option.some.inj hstep
      refine ⟨hnodup.erase m, fun m' => ?_⟩
      have hold := hcount m'
      by_cases hm : m' = m
      · subst hm
        rw [if_pos hheld] at hold
        simp [hold, hnodup.mem_erase_iff]
      · simp [hold, hm, Ne.symm hm, hnodup.mem_erase_iff]
    | call k =>
      simp only [Discipline.step] at hstep
      split_ifs at hstep
      obtain rfl := Option.some.inj hstep
      refine ⟨hnodup, fun m' => ?_⟩
      simpa using hcount m'

theorem Discipline.holds_iff {trace : List (Event μ κ)} {held : List μ}
    (h : d.held trace = some held) (m : μ) : Holds trace m ↔ m ∈ held := by
  have hcount := (Discipline.held_count h).2 m
  unfold Holds
  by_cases hm : m ∈ held
  · rw [if_pos hm] at hcount
    exact ⟨fun _ => hm, fun _ => by omega⟩
  · rw [if_neg hm] at hcount
    exact ⟨fun hlt => by omega, fun hin => absurd hin hm⟩

section
variable {older trace : List (Event μ κ)} {held : List μ}

-- What was held where a mutex was taken, ...
theorem Discipline.lock_at {m : μ} (hsuffix : .lock m :: older <:+ trace)
    (h : d.held trace = some held) : ∃ before, (∀ m', Holds older m' ↔ m' ∈ before) ∧
      m ∉ before ∧ d.mayLock before m = true := by
  obtain ⟨before, after, hbefore, hstep⟩ := Discipline.held_at hsuffix h
  simp only [Discipline.step] at hstep
  split_ifs at hstep with hm
  exact ⟨before, Discipline.holds_iff hbefore, hm⟩

-- ... where one was dropped, ...
theorem Discipline.unlock_at {m : μ} (hsuffix : .unlock m :: older <:+ trace)
    (h : d.held trace = some held) : Holds older m := by
  obtain ⟨before, after, hbefore, hstep⟩ := Discipline.held_at hsuffix h
  simp only [Discipline.step] at hstep
  split_ifs at hstep with hm
  exact (Discipline.holds_iff hbefore m).mpr hm

-- ... and at a call.
theorem Discipline.call_at {k : κ} (hsuffix : .call k :: older <:+ trace)
    (h : d.held trace = some held) : ∃ before, (∀ m, Holds older m ↔ m ∈ before) ∧
      d.mayCall before k = true := by
  obtain ⟨before, after, hbefore, hstep⟩ := Discipline.held_at hsuffix h
  simp only [Discipline.step] at hstep
  split_ifs at hstep with hk
  exact ⟨before, Discipline.holds_iff hbefore, hk⟩

end

end

/-! ## 2. Programs -/

/-- A thread: the state it shares, what the other threads will do to it the next times this one lets
them, and the record. -/
structure Thread (σ μ κ : Type) where
  state : σ
  others : List (σ → σ)
  trace : List (Event μ κ)

section
variable {σ μ κ α β : Type}

/-- The other threads get their turn. -/
def Thread.interrupt (t : Thread σ μ κ) : Thread σ μ κ :=
  match t.others with
  | [] => t
  | f :: fs => { t with state := f t.state, others := fs }

def Thread.record (e : Event μ κ) (t : Thread σ μ κ) : Thread σ μ κ :=
  { t with trace := e :: t.trace }

abbrev Prog (σ μ κ : Type) := StateM (Thread σ μ κ)

def lock (m : μ) : Prog σ μ κ Unit := modify fun t => t.interrupt.record (.lock m)

def unlock (m : μ) : Prog σ μ κ Unit := modify fun t => (t.record (.unlock m)).interrupt

def call (k : κ) : Prog σ μ κ Unit := modify fun t => (t.record (.call k)).interrupt

def read : Prog σ μ κ σ := fun t => (t.state, t)

def write (f : σ → σ) : Prog σ μ κ Unit := modify fun t => { t with state := f t.state }

@[simp] theorem Thread.interrupt_trace (t : Thread σ μ κ) : t.interrupt.trace = t.trace := by
  unfold Thread.interrupt
  split <;> rfl

/-! ### What a program computes when nobody interferes -/

/-- Run alone from `s`, the program returns `a` and leaves `s'`. -/
def Alone (p : Prog σ μ κ α) (s : σ) (a : α) (s' : σ) : Prop :=
  ∀ trace, ∃ trace', p.run ⟨s, [], trace⟩ = (a, ⟨s', [], trace'⟩)

theorem Alone.pure (s : σ) (a : α) : Alone (pure a : Prog σ μ κ α) s a s :=
  fun trace => ⟨trace, rfl⟩

theorem Alone.bind {p : Prog σ μ κ α} {f : α → Prog σ μ κ β} {s s' s'' : σ} {a : α} {b : β}
    (hp : Alone p s a s') (hf : Alone (f a) s' b s'') : Alone (p >>= f) s b s'' := by
  intro trace
  obtain ⟨trace', hp⟩ := hp trace
  obtain ⟨trace'', hf⟩ := hf trace'
  refine ⟨trace'', ?_⟩
  show ((f (p.run _).1).run (p.run _).2) = _
  rw [hp]
  exact hf

theorem Alone.lock (m : μ) (s : σ) : Alone (lock m : Prog σ μ κ Unit) s () s :=
  fun trace => ⟨.lock m :: trace, rfl⟩

theorem Alone.unlock (m : μ) (s : σ) : Alone (unlock m : Prog σ μ κ Unit) s () s :=
  fun trace => ⟨.unlock m :: trace, rfl⟩

theorem Alone.call (k : κ) (s : σ) : Alone (call k : Prog σ μ κ Unit) s () s :=
  fun trace => ⟨.call k :: trace, rfl⟩

theorem Alone.read (s : σ) : Alone (read : Prog σ μ κ σ) s s s := fun trace => ⟨trace, rfl⟩

theorem Alone.write (f : σ → σ) (s : σ) : Alone (write f : Prog σ μ κ Unit) s () (f s) :=
  fun trace => ⟨trace, rfl⟩

/-! ### What a program does to the mutexes -/

variable [DecidableEq μ] {d : Discipline μ κ} {held held' held'' : List μ}

/-- Started with `held`, and whatever the others do, the program keeps the discipline and ends with
`held'`. -/
def Keeps (d : Discipline μ κ) (held held' : List μ) (p : Prog σ μ κ α) : Prop :=
  ∀ t, d.held t.trace = some held → d.held (p.run t).2.trace = some held'

theorem Keeps.pure (a : α) : Keeps d held held (pure a : Prog σ μ κ α) := fun _ h => h

theorem Keeps.bind {p : Prog σ μ κ α} {f : α → Prog σ μ κ β} (hp : Keeps d held held' p)
    (hf : ∀ a, Keeps d held' held'' (f a)) : Keeps d held held'' (p >>= f) :=
  fun t h => hf _ _ (hp t h)

theorem Keeps.read : Keeps d held held (read : Prog σ μ κ σ) := fun _ h => h

theorem Keeps.write (f : σ → σ) : Keeps d held held (write f : Prog σ μ κ Unit) := fun _ h => h

theorem Keeps.lock {m : μ} (hfree : m ∉ held) (hmay : d.mayLock held m = true) :
    Keeps d held (m :: held) (lock m : Prog σ μ κ Unit) := by
  intro t h
  show (d.held t.interrupt.trace).bind _ = _
  rw [Thread.interrupt_trace, h]
  exact if_pos ⟨hfree, hmay⟩

-- The mutex taken last is dropped.
theorem Keeps.unlock {m : μ} : Keeps d (m :: held) held (unlock m : Prog σ μ κ Unit) := by
  intro t h
  show d.held (t.record (.unlock m)).interrupt.trace = _
  rw [Thread.interrupt_trace]
  show (d.held t.trace).bind _ = _
  rw [h]
  show d.step (m :: held) (.unlock m) = _
  simp [Discipline.step]

theorem Keeps.call {k : κ} (hmay : d.mayCall held k = true) :
    Keeps d held held (call k : Prog σ μ κ Unit) := by
  intro t h
  show d.held (t.record (.call k)).interrupt.trace = _
  rw [Thread.interrupt_trace]
  show (d.held t.trace).bind _ = _
  rw [h]
  exact if_pos hmay

theorem Keeps.ite {c : Prop} [Decidable c] {p q : Prog σ μ κ α} (hp : Keeps d held held' p)
    (hq : Keeps d held held' q) : Keeps d held held' (if c then p else q) := by
  split_ifs
  · exact hp
  · exact hq

end

end Locking
