import Dmdhcp.Lib.Run

/-!
# Pools of threads

Threads that share a state and run to completion item by item: each item is atomic, and running it
may put further items in front of what the thread still has to do.  Interleavings are the runs of
`Pool.advance` over any choice of threads.
-/

namespace Lts

variable {σ κ ι : Type*}

/-- A thread of kind `kind` and the items it still has to run. -/
structure Thread (κ ι : Type*) where
  kind : κ
  todo : List ι
  deriving DecidableEq, Repr

structure Pool (σ κ ι : Type*) where
  shared : σ
  threads : List (Thread κ ι)
  deriving DecidableEq, Repr

namespace Pool

/-- The item thread `i` runs next. -/
def next (p : Pool σ κ ι) (i : Nat) : Option ι := p.threads[i]?.bind fun t => t.todo.head?

theorem next_mem {p : Pool σ κ ι} {i : Nat} {x : ι} (h : p.next i = some x) :
    ∃ t ∈ p.threads, x ∈ t.todo := by
  obtain ⟨t, ht, hx⟩ := Option.bind_eq_some_iff.mp h
  exact ⟨t, List.mem_of_getElem? ht, List.mem_of_mem_head? hx⟩

def spawn (p : Pool σ κ ι) (t : Thread κ ι) : Pool σ κ ι :=
  { p with threads := p.threads ++ [t] }

/-- Thread `i` runs its next item. -/
def advance (exec : σ → κ → ι → σ × List ι) (p : Pool σ κ ι) (i : Nat) : Option (Pool σ κ ι) :=
  match p.threads[i]? with
  | some ⟨kind, item :: rest⟩ =>
    let (shared, new) := exec p.shared kind item
    some ⟨shared, p.threads.set i ⟨kind, new ++ rest⟩⟩
  | _ => none

/-- `p'` is `p` after thread `i` of kind `kind` has run `item`, which left `new` to do. -/
structure Advanced (p : Pool σ κ ι) (i : Nat) (kind : κ) (item : ι) (new : List ι)
    (p' : Pool σ κ ι) : Prop where
  thread : ∃ rest, p.threads[i]? = some ⟨kind, item :: rest⟩ ∧
    p'.threads = p.threads.set i ⟨kind, new ++ rest⟩

theorem advance_cases {exec : σ → κ → ι → σ × List ι} {p p' : Pool σ κ ι} {i : Nat}
    (h : p.advance exec i = some p') : ∃ kind item,
      p.next i = some item ∧ p'.shared = (exec p.shared kind item).1 ∧
      p.Advanced i kind item (exec p.shared kind item).2 p' := by
  unfold advance at h
  split at h
  · rename_i kind item rest hthread
    obtain rfl := Option.some.inj h
    exact ⟨kind, item, by rw [next, hthread]; rfl, rfl, rest, hthread, rfl⟩
  · cases h

-- What holds of every thread of `p'`: it is known of each other thread by its place in the pool,
-- and of the one that ran by what it had to do.
theorem Advanced.forall_others {p p' : Pool σ κ ι} {i : Nat} {kind : κ} {item : ι} {new : List ι}
    (h : p.Advanced i kind item new p') {Q : Thread κ ι → Prop}
    (hother : ∀ j, j < p.threads.length → j ≠ i → ∀ t ∈ p.threads[j]?, Q t)
    (hself : ∀ rest, ⟨kind, item :: rest⟩ ∈ p.threads → Q ⟨kind, new ++ rest⟩) :
    ∀ t ∈ p'.threads, Q t := by
  obtain ⟨rest, hthread, hset⟩ := h.thread
  intro t ht
  obtain ⟨j, hj⟩ := List.mem_iff_getElem?.mp ht
  rw [hset, List.getElem?_set] at hj
  by_cases hji : i = j
  · subst hji
    rw [if_pos rfl, if_pos (List.getElem?_eq_some_iff.mp hthread).1] at hj
    obtain rfl := Option.some.inj hj
    exact hself rest (List.mem_of_getElem? hthread)
  · rw [if_neg hji] at hj
    exact hother j (List.getElem?_eq_some_iff.mp hj).1 (Ne.symm hji) t hj

-- An item to be run after the step was there before or has just been added.
theorem Advanced.mem_todo {p p' : Pool σ κ ι} {i : Nat} {kind : κ} {item : ι} {new : List ι}
    (h : p.Advanced i kind item new p') {t : Thread κ ι} (ht : t ∈ p'.threads) {x : ι}
    (hx : x ∈ t.todo) : x ∈ new ∨ ∃ t' ∈ p.threads, t'.kind = t.kind ∧ x ∈ t'.todo := by
  obtain ⟨rest, hthread, hset⟩ := h.thread
  rw [hset] at ht
  rcases List.mem_or_eq_of_mem_set ht with hmem | rfl
  · exact .inr ⟨t, hmem, rfl, hx⟩
  · rcases List.mem_append.mp hx with hnew | hrest
    · exact .inl hnew
    · exact .inr ⟨_, List.mem_of_getElem? hthread, rfl, List.mem_cons_of_mem _ hrest⟩

/-- `P` holds of every item to be run, except the one thread `i` runs next. -/
def Beside (p : Pool σ κ ι) (i : Nat) (P : ι → Prop) : Prop :=
  ∀ j, j < p.threads.length → ∀ t ∈ p.threads[j]?,
    ∀ x ∈ (if j = i then t.todo.tail else t.todo), P x

instance (p : Pool σ κ ι) (i : Nat) (P : ι → Prop) [DecidablePred P] : Decidable (p.Beside i P) :=
  inferInstanceAs (Decidable (∀ j, j < p.threads.length → _))

-- ... an item of another thread in particular.
theorem Beside.other {p : Pool σ κ ι} {i j : Nat} {P : ι → Prop} (h : p.Beside i P) (hji : j ≠ i)
    {t : Thread κ ι} (ht : p.threads[j]? = some t) {x : ι} (hx : x ∈ t.todo) : P x :=
  h j (List.getElem?_eq_some_iff.mp ht).1 t ht x (by rw [if_neg hji]; exact hx)

theorem Advanced.mem_todo_beside {p p' : Pool σ κ ι} {i : Nat} {kind : κ} {item : ι}
    {new : List ι} (h : p.Advanced i kind item new p') {P : ι → Prop} (hP : p.Beside i P)
    {t : Thread κ ι} (ht : t ∈ p'.threads) {x : ι} (hx : x ∈ t.todo) : x ∈ new ∨ P x := by
  obtain ⟨rest, hthread, hset⟩ := h.thread
  obtain ⟨j, hj⟩ := List.mem_iff_getElem?.mp ht
  rw [hset, List.getElem?_set] at hj
  by_cases hji : i = j
  · subst hji
    have hlt : i < p.threads.length := (List.getElem?_eq_some_iff.mp hthread).1
    rw [if_pos rfl, if_pos hlt] at hj
    obtain rfl := Option.some.inj hj
    rcases List.mem_append.mp hx with hnew | hrest
    · exact .inl hnew
    · exact .inr (hP i hlt _ hthread x (by rw [if_pos rfl]; exact hrest))
  · rw [if_neg hji] at hj
    have hlt : j < p.threads.length := (List.getElem?_eq_some_iff.mp hj).1
    exact .inr (hP j hlt t hj x (by rw [if_neg (Ne.symm hji)]; exact hx))

/-- At most one thread has `P`. -/
def AtMostOne (p : Pool σ κ ι) (P : Thread κ ι → Prop) : Prop :=
  ∀ (i j : Nat) (t t' : Thread κ ι), p.threads[i]? = some t → p.threads[j]? = some t' →
    P t → P t' → i = j

section
variable {p p' : Pool σ κ ι} {P : Thread κ ι → Prop}

theorem AtMostOne.append (h : p.AtMostOne P) {new : List (Thread κ ι)}
    (hthreads : p'.threads = p.threads ++ new) (hnew : ∀ t ∈ new, ¬P t) : p'.AtMostOne P := by
  have hold {k : Nat} {t : Thread κ ι} (hk : p'.threads[k]? = some t) (ht : P t) :
      p.threads[k]? = some t := by
    rw [hthreads] at hk
    rcases Nat.lt_or_ge k p.threads.length with hlt | hge
    · rwa [List.getElem?_append_left hlt] at hk
    · rw [List.getElem?_append_right hge] at hk
      exact absurd ht (hnew t (List.mem_of_getElem? hk))
  intro i j t t' hi hj ht ht'
  exact h i j t t' (hold hi ht) (hold hj ht') ht ht'

-- The thread that ran has `P` because it had it before, or because nobody else has.
theorem AtMostOne.advance (h : p.AtMostOne P) {i : Nat} {kind : κ} {item : ι} {new : List ι}
    (hadv : p.Advanced i kind item new p')
    (hself : ∀ rest, ⟨kind, item :: rest⟩ ∈ p.threads → P ⟨kind, new ++ rest⟩ →
      P ⟨kind, item :: rest⟩ ∨ ∀ j, j ≠ i → ∀ t ∈ p.threads[j]?, ¬P t) : p'.AtMostOne P := by
  obtain ⟨rest, hthread, hset⟩ := hadv.thread
  have hran {t : Thread κ ι} (ht : p'.threads[i]? = some t) : t = ⟨kind, new ++ rest⟩ := by
    rw [hset, List.getElem?_set_self (List.getElem?_eq_some_iff.mp hthread).1] at ht
    exact (Option.some.inj ht).symm
  have hother {j : Nat} {t : Thread κ ι} (hji : j ≠ i) (ht : p'.threads[j]? = some t) :
      p.threads[j]? = some t := by
    rwa [hset, List.getElem?_set_ne (Ne.symm hji)] at ht
  have halone {j : Nat} {t t' : Thread κ ι} (hji : j ≠ i) (ht : p'.threads[j]? = some t)
      (ht' : p'.threads[i]? = some t') (hP' : P t') : ¬P t := by
    rw [hran ht'] at hP'
    rcases hself rest (List.mem_of_getElem? hthread) hP' with hold | hnone
    · exact fun hP => hji (h j i t _ (hother hji ht) hthread hP hold)
    · exact hnone j hji t (hother hji ht)
  intro a b t t' ha hb ht ht'
  by_cases hai : a = i
  · by_cases hbi : b = i
    · rw [hai, hbi]
    · subst hai
      exact absurd ht' (halone hbi hb ha ht)
  · by_cases hbi : b = i
    · subst hbi
      exact absurd ht (halone hai ha hb ht')
    · exact h a b t t' (hother hai ha) (hother hbi hb) ht ht'

end

-- The item that runs belongs to a thread of the pool.
theorem Advanced.mem {p p' : Pool σ κ ι} {i : Nat} {kind : κ} {item : ι} {new : List ι}
    (h : p.Advanced i kind item new p') : ∃ t ∈ p.threads, t.kind = kind ∧ item ∈ t.todo := by
  obtain ⟨rest, hthread, -⟩ := h.thread
  exact ⟨_, List.mem_of_getElem? hthread, rfl, List.mem_cons_self⟩

end Pool

end Lts
