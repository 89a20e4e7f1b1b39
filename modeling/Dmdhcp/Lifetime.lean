import Dmdhcp.Machine
import Dmdhcp.Lib.Record

/-!
# The lifetime of a lease

`destroy_with_context` begins by clearing `magic`, the mark that every timer callback and every call
of the application looks for, and ends by freeing the lease.  In between it destroys the two timers
one after the other, and each time waits for the callbacks of that timer only.  Nothing waits for
the rx thread, for another call of the application or for a callback of the lease timer that is
about to start the retransmit timer again; and no caller passes the context that would keep a timer
callback from destroying its own timer.
-/

namespace Dmdhcp

def Origin.isTimer : Origin → Bool
  | .timer _ => true
  | _ => false

/-! ## 1. The protocol -/

/-- An operation on the lease, not just a call out with its pointer. -/
def Access.touchesLease : Access → Bool
  | .onBound => false
  | _ => true

/-- The operations of `destroy_with_context` after the mark is set. -/
def Access.isDestroy : Access → Bool
  | .stop _ => true
  | .destroyTimer _ _ => true
  | .destroyLists => true
  | .destroyLock => true
  | .free => true
  | _ => false

/-- The timer that an operation uses. -/
def Access.timer : Access → Option TimerKind
  | .setPeriod t => some t
  | .start t => some t
  | .stop t => some t
  | .destroyTimer t _ => some t
  | _ => none

/-- What may still be done to a lease after the operations `older`. -/
structure Access.InLifetime (a : Access) (older : List Access) : Prop where
  /-- Once marked, the lease is only destroyed, or found to be marked. -/
  marked : .clearMagic ∈ older → a.isDestroy = true ∨ a = .readMagic
  /-- A timer that was destroyed is not set, started, stopped or destroyed again. -/
  timers : ∀ t ∈ a.timer, ∀ caller, .destroyTimer t caller ∉ older
  /-- Once it is freed, it is not even looked at. -/
  freed : .free ∉ older

/-- Callbacks do not tear the lease down, except the `on_bound` of a renewal as long as there is a
lease; when it is marked, nobody else is past the lookup or the check of `magic`; and when it is
freed, nobody else is about to check. -/
def Disciplined (m : Machine) : MachineEvent → Prop
  | .advance i _ reentry => ∀ x ∈ m.next i,
      (x.callsOut = true → reentry ≠ none → x = .onBound true ∧ m.shared.freed = false) ∧
      (x = .clearMagic → m.Beside i fun y => y.unchecked = false) ∧
      (x = .free → m.Beside i fun y => y.checks = false)
  | _ => True

instance (m : Machine) : (e : MachineEvent) → Decidable (Disciplined m e)
  | .advance _ _ _ => inferInstanceAs (Decidable (∀ x ∈ _, _ ∧ _ ∧ _))
  | .datagram _ _ => inferInstanceAs (Decidable True)
  | .fire _ _ => inferInstanceAs (Decidable True)
  | .renew => inferInstanceAs (Decidable True)
  | .teardown _ => inferInstanceAs (Decidable True)

/-- The operations that end the lease or a timer of it. -/
def Access.ends : Access → Bool
  | .clearMagic => true
  | .destroyTimer _ _ => true
  | .free => true
  | _ => false

-- As long as nothing has ended, everything may be done.
theorem Access.inLifetime_of_alive (a : Access) {older : List Access}
    (h : ∀ e ∈ older, e.ends = false) : a.InLifetime older := by
  have hnot {e : Access} (he : e.ends = true) : e ∉ older := by
    intro hmem
    rw [h e hmem] at he
    cases he
  exact ⟨fun hmark => absurd hmark (hnot rfl), fun t _ caller => hnot rfl, hnot rfl⟩

-- What `destroy_with_context` does itself is said of its timers and of the lease as a whole.
theorem Access.inLifetime_of_isDestroy {a : Access} {older : List Access}
    (ha : a.isDestroy = true) (htimers : ∀ t ∈ a.timer, ∀ caller, .destroyTimer t caller ∉ older)
    (hfree : .free ∉ older) : a.InLifetime older :=
  ⟨fun _ => .inl ha, htimers, hfree⟩

/-! ## 2. What the sections do to the lifetime -/

/-- The sections that are the only thing their thread has left to do, and that the timer callbacks
do not reach: those of `dmdhcp_handle_datagram` and of the teardown. -/
def Section.isSolo : Section → Bool
  | .lookup _ _ => true
  | .datagram _ _ => true
  | .onBound isRenewal => isRenewal
  | .teardownGuard _ => true
  | .tableRemove _ => true
  | .teardown _ => true
  | .clearMagic => true
  | .destroyTimer _ => true
  | .free => true
  | _ => false

/-- The sections after the removal from the table. -/
def Section.isUnlisted : Section → Bool
  | .teardown _ => true
  | .clearMagic => true
  | .destroyTimer _ => true
  | .free => true
  | _ => false

/-- The sections after the mark is set. -/
def Section.isMarked : Section → Bool
  | .destroyTimer _ => true
  | .free => true
  | _ => false

/-- The timers that are destroyed when such a section is reached, the last one first. -/
def Section.outlives : Section → Option (List TimerKind)
  | .destroyTimer .retransmit => some []
  | .destroyTimer .lease => some [.retransmit]
  | .free => some [.lease, .retransmit]
  | _ => none

theorem Section.isMarked_iff {x : Section} : x.isMarked = true ↔ ∃ ts, x.outlives = some ts := by
  cases x with
  | destroyTimer t => cases t <;> simp [Section.isMarked, Section.outlives]
  | _ => simp [Section.isMarked, Section.outlives]

section
variable {env : Env} {reentry : Option Teardown} {s : Shared} {caller : Origin} {x y : Section}

theorem Section.exec_destroyed {k : TimerKind} :
    k ∈ (x.exec env reentry s caller).1.destroyed ↔ x = .destroyTimer k ∨ k ∈ s.destroyed := by
  cases x with
  | destroyTimer t =>
    simp only [Section.exec, List.mem_cons, Section.destroyTimer.injEq]
    exact or_congr_left eq_comm
  | lookup iface r =>
    simp only [Section.exec]
    split_ifs <;> simp [Shared.touch]
  | onBound isRenewal =>
    simp only [Section.exec]
    split_ifs <;> simp [Shared.touch]
  | _ => simp [Section.exec, Shared.touch, Shared.locked]

theorem Section.exec_destroyed_eq (hx : x.isMarked = false) :
    (x.exec env reentry s caller).1.destroyed = s.destroyed := by
  cases x with
  | destroyTimer t => cases hx
  | lookup iface r =>
    simp only [Section.exec]
    split_ifs <;> rfl
  | onBound isRenewal =>
    simp only [Section.exec]
    split_ifs <;> rfl
  | _ => rfl

theorem Made.ends {a : Access} (h : Made s caller a x) (ha : a.ends = true) :
    x = .clearMagic ∨ x.isMarked = true := by
  cases h with
  | clearMagic => exact .inl rfl
  | destroyTimer t => exact .inr rfl
  | free => exact .inr rfl
  | locked a x hlock hx => cases a <;> first | cases ha; done | cases hlock
  | _ => cases ha

-- Only a solo section leaves one, if the callbacks are disciplined.
theorem Leaves.isSolo (h : Leaves env reentry s x y)
    (hcall : x.callsOut = true → reentry ≠ none → x = .onBound true ∧ s.freed = false)
    (hy : y.isSolo = true) : x.isSolo = true := by
  cases h with
  | reentry x how hre hx =>
    rw [(hcall hx (by rw [hre]; simp)).1]
    rfl
  | found => rfl
  | renewed => rfl
  | tableRemove => rfl
  | teardown => rfl
  | clearMagic => rfl
  | destroyRetransmit => rfl
  | destroyLease => rfl
  | free => rfl
  | _ => cases hy

-- An unlisted section follows another one, or the removal from the table itself.
theorem Leaves.isUnlisted (h : Leaves env reentry s x y) (hy : y.isUnlisted = true) :
    x.isUnlisted = true ∨ ∃ how, x = .tableRemove how := by
  cases h with
  | teardown how => exact .inr ⟨how, rfl⟩
  | clearMagic how => exact .inl rfl
  | destroyRetransmit => exact .inl rfl
  | destroyLease => exact .inl rfl
  | free => exact .inl rfl
  | _ => cases hy

-- The sections after the mark follow it, and one another.
theorem Leaves.isMarked (h : Leaves env reentry s x y) (hy : y.isMarked = true) :
    x = .clearMagic ∨ x.isMarked = true := by
  cases h with
  | destroyRetransmit => exact .inl rfl
  | destroyLease => exact .inr rfl
  | free => exact .inr rfl
  | _ => cases hy

theorem Leaves.isMarked_of (h : Leaves env reentry s x y) (hx : x.isMarked = true) :
    y.isMarked = true := by
  cases h with
  | destroyLease => rfl
  | free => rfl
  | reentry x how hre hcall =>
    cases x with
    | destroyTimer t => cases hcall
    | free => cases hcall
    | _ => cases hx
  | _ => cases hx

-- With `magic` cleared and the lease out of the table, nothing new begins to work on it.
theorem Leaves.unchecked (h : y ∈ (x.exec env reentry s caller).2) (hmagic : s.magic = false)
    (htable : s.inTable = false) (hy : y.unchecked = true) : x.unchecked = true := by
  cases x with
  | lookup iface r => simp [Section.exec, htable] at h
  | timerGuard t => simp [Section.exec, hmagic] at h
  | renewGuard => simp [Section.exec, hmagic] at h
  | teardownGuard how => simp [Section.exec, hmagic] at h
  | onExpired =>
    obtain ⟨how, -, rfl⟩ := mem_reentrySections h
    cases hy
  | onBound isRenewal =>
    obtain ⟨how, -, rfl⟩ := mem_reentrySections h
    cases hy
  | onError error =>
    obtain ⟨how, -, rfl⟩ := mem_reentrySections h
    cases hy
  | _ => rfl

-- Only a callback leaves a check of `magic`.
theorem Leaves.checks (h : Leaves env reentry s x y) (hy : y.checks = true) :
    x.callsOut = true ∧ reentry ≠ none := by
  cases h with
  | reentry x how hre hx => exact ⟨hx, by rw [hre]; simp⟩
  | _ => cases hy

theorem reentrySections_length (isSet : Bool) (reentry : Option Teardown) :
    (reentrySections isSet reentry).length ≤ 1 := by
  cases isSet <;> cases reentry <;> simp [reentrySections]

theorem After.sections_length (nak : Option UInt32) (after : After) :
    (after.sections nak).length ≤ 1 := by
  cases after <;> simp [After.sections]

-- Only `retransmit` and the first locked section of the lost path leave more than one section.
theorem Section.exec_length (hx : x ≠ .retransmit) (hx' : ∀ nak, x ≠ .lostUnapply nak) :
    (x.exec env reentry s caller).2.length ≤ 1 := by
  cases x with
  | retransmit => exact absurd rfl hx
  | lostUnapply nak => exact absurd rfl (hx' nak)
  | lookup iface r =>
    simp only [Section.exec]
    split_ifs
    · split <;> simp
    · simp
    · simp
  | datagram r msgType => exact After.sections_length _ _
  | leaseTimer => exact After.sections_length _ _
  | timerGuard t =>
    simp only [Section.exec]
    split_ifs
    · cases t <;> simp
    · simp
  | onExpired => exact reentrySections_length _ _
  | onBound isRenewal => exact reentrySections_length _ _
  | onError error => exact reentrySections_length _ _
  | renewGuard =>
    simp only [Section.exec]
    split_ifs <;> simp
  | teardownGuard how =>
    simp only [Section.exec]
    split_ifs <;> simp
  | destroyTimer t => cases t <;> simp [Section.exec]
  | _ => simp [Section.exec]

-- A solo section is all that its predecessor leaves.
theorem Section.exec_solo (h : y ∈ (x.exec env reentry s caller).2) (hy : y.isSolo = true) :
    (x.exec env reentry s caller).2 = [y] := by
  have hleaves := Section.exec_leaves h
  have hlen : (x.exec env reentry s caller).2.length ≤ 1 := by
    apply Section.exec_length
    · rintro rfl
      cases hleaves with
      | reentry _ _ _ hx => cases hx
      | _ => cases hy
    · rintro nak rfl
      cases hleaves with
      | reentry _ _ _ hx => cases hx
      | _ => cases hy
  -- At most one section is left, and `y` is among what is left.
  match hnew : (x.exec env reentry s caller).2 with
  | [] =>
    rw [hnew] at h
    cases h
  | [z] =>
    rw [hnew] at h
    rw [List.mem_singleton.mp h]
  | z :: z' :: rest =>
    rw [hnew] at hlen
    simp at hlen

end

/-! ## 3. The invariant -/

/-- What a thread may still have to do, given how far the teardown is. -/
structure ThreadOk (s : Shared) (t : Lts.Thread Origin Section) : Prop where
  solo : ∀ x ∈ t.todo, x.isSolo = true → t.todo = [x]
  timer : t.kind.isTimer = true → ∀ x ∈ t.todo, x.isSolo = false
  unlisted : ∀ x ∈ t.todo, x.isUnlisted = true → s.inTable = false
  outlives : ∀ x ∈ t.todo, ∀ ts, x.outlives = some ts →
    s.magic = false ∧ s.destroyed = ts ∧ s.freed = false
  joined : ∀ k ∈ s.destroyed, t.kind = .timer k → t.todo = []
  marked : s.magic = false → ∀ x ∈ t.todo, x.unchecked = true → x.isMarked = true
  dead : s.freed = true → ∀ x ∈ t.todo, x.checks = false

def DestroysLease (t : Lts.Thread Origin Section) : Prop := ∃ x ∈ t.todo, x.isMarked = true

structure LifetimeInv (m : Machine) : Prop where
  threads : ∀ t ∈ m.threads, ThreadOk m.shared t
  single : m.AtMostOne DestroysLease
  unmarked : m.shared.magic = true → m.shared.destroyed = [] ∧ m.shared.freed = false
  marked : m.shared.magic = false → m.shared.inTable = false
  freed : m.shared.freed = true → ∀ k, k ∈ m.shared.destroyed
  -- The record does not run ahead of the state.
  clearMagic : .clearMagic ∈ m.shared.trace → m.shared.magic = false
  destroyTimer : ∀ k caller, .destroyTimer k caller ∈ m.shared.trace → k ∈ m.shared.destroyed
  free : .free ∈ m.shared.trace → m.shared.freed = true
  foreign : ∀ k caller, .destroyTimer k caller ∈ m.shared.trace → caller ≠ .timer k
  record : Lts.Historically (fun a older => a.touchesLease = true → a.InLifetime older)
    m.shared.trace

theorem Entry.ok {s : Shared} (hfreed : s.freed = true → ∀ k, k ∈ s.destroyed)
    {t : Lts.Thread Origin Section} (h : Entry s t) : ThreadOk s t := by
  have hsingle {x : Section} {P : Section → Prop} (hx : P x) : ∀ y ∈ [x], P y :=
    fun y hy => List.mem_singleton.mp hy ▸ hx
  cases h with
  | rx iface r =>
    exact ⟨hsingle fun _ => rfl, fun ht => (by cases ht), hsingle fun hu => (by cases hu),
      hsingle fun ts hts => (by cases hts), fun k hk ht => (by cases ht),
      fun _ => hsingle fun hu => (by cases hu), fun _ => hsingle rfl⟩
  | timer t halive =>
    refine ⟨hsingle fun hs => (by cases hs), fun _ => hsingle rfl, hsingle fun hu => (by cases hu),
      hsingle fun ts hts => (by cases hts), fun k hk ht => ?_,
      fun _ => hsingle fun hu => (by cases hu), fun hf => absurd (hfreed hf t) halive⟩
    cases ht
    exact absurd hk halive
  | renew hno =>
    exact ⟨hsingle fun hs => (by cases hs), fun ht => (by cases ht),
      hsingle fun hu => (by cases hu), hsingle fun ts hts => (by cases hts),
      fun k hk ht => (by cases ht), fun _ => hsingle fun hu => (by cases hu),
      fun hf => (by rw [hno] at hf; cases hf)⟩
  | teardown how hno =>
    exact ⟨hsingle fun _ => rfl, fun ht => (by cases ht), hsingle fun hu => (by cases hu),
      hsingle fun ts hts => (by cases hts), fun k hk ht => (by cases ht),
      fun _ => hsingle fun hu => (by cases hu), fun hf => (by rw [hno] at hf; cases hf)⟩

theorem Entry.not_destroysLease {s : Shared} {t : Lts.Thread Origin Section} (h : Entry s t) :
    ¬DestroysLease t := by
  rintro ⟨x, hx, hmarked⟩
  cases h <;> rw [List.mem_singleton.mp hx] at hmarked <;> cases hmarked

theorem LifetimeInv.arrive {m m' : Machine} (hinv : LifetimeInv m) {c : Client}
    (hshared : m'.shared = { m.shared with client := c })
    {new : List (Lts.Thread Origin Section)} (hthreads : m'.threads = m.threads ++ new)
    (hnew : ∀ t ∈ new, Entry m.shared t) : LifetimeInv m' := by
  have hok (t : Lts.Thread Origin Section) (ht : t ∈ m'.threads) : ThreadOk m.shared t := by
    rw [hthreads] at ht
    rcases List.mem_append.mp ht with hold | hentry
    · exact hinv.threads t hold
    · exact (hnew t hentry).ok hinv.freed
  refine ⟨fun t ht => ?_, ?_, ?_, ?_, ?_, ?_, ?_, ?_, ?_, ?_⟩
  · have h := hok t ht
    rw [hshared]
    exact ⟨h.solo, h.timer, h.unlisted, h.outlives, h.joined, h.marked, h.dead⟩
  · exact hinv.single.append hthreads fun t ht => (hnew t ht).not_destroysLease
  all_goals rw [hshared]
  · exact hinv.unmarked
  · exact hinv.marked
  · exact hinv.freed
  · exact hinv.clearMagic
  · exact hinv.destroyTimer
  · exact hinv.free
  · exact hinv.foreign
  · exact hinv.record

section
variable {m m' : Machine} (hinv : LifetimeInv m) {i : Nat} {env : Env}
  {reentry : Option Teardown} {kind : Origin} {x : Section} (hready : m.Ready i)
  (hnext : m.next i = some x)
  (hshared : m'.shared = (x.exec env reentry m.shared kind).1)
  (hadv : m.Advanced i kind x (x.exec env reentry m.shared kind).2 m')
  (hok : Disciplined m (.advance i env reentry))
include hinv hready hnext hshared hadv hok

-- Another thread: destroying a timer waits for its callbacks, and nobody else is in the way when
-- the lease is marked and when it is freed.
theorem LifetimeInv.other {j : Nat} (hji : j ≠ i) {t : Lts.Thread Origin Section}
    (ht : m.threads[j]? = some t) : ThreadOk m'.shared t := by
  have hold := hinv.threads t (List.mem_of_getElem? ht)
  have hlt := (List.getElem?_eq_some_iff.mp ht).1
  obtain ⟨-, hmark, hfree⟩ := hok x hnext
  obtain ⟨rest, hthread, -⟩ := hadv.thread
  refine ⟨hold.solo, hold.timer, fun y hy hu => ?_, fun y hy ts hts => ?_, fun k hk hkind => ?_,
    fun hmagic y hy hu => ?_, fun hfreed y hy => ?_⟩
  · rw [hshared]
    exact Section.exec_inTable (.inl (hold.unlisted y hy hu))
  · -- The thread destroys the lease, so the one that ran does not.
    have hy' : y.isMarked = true := Section.isMarked_iff.mpr ⟨ts, hts⟩
    obtain ⟨hmagic, hdestroyed, hnot⟩ := hold.outlives y hy ts hts
    have hx : x.isMarked = false := by
      by_contra hx
      exact hji (hinv.single j i t _ ht hthread ⟨y, hy, hy'⟩
        ⟨x, List.mem_cons_self, Bool.not_eq_false _ ▸ hx⟩)
    rw [hshared]
    refine ⟨Section.exec_magic.mpr (.inr hmagic), ?_, ?_⟩
    · rw [Section.exec_destroyed_eq hx, hdestroyed]
    · by_contra hf
      rcases Section.exec_freed.mp (Bool.not_eq_false _ ▸ hf) with rfl | hf
      · cases hx
      · rw [hnot] at hf
        cases hf
  · rw [hshared, Section.exec_destroyed] at hk
    rcases hk with rfl | hk
    · exact hready k (by rw [hnext]; rfl) j hlt hji t ht hkind
    · exact hold.joined k hk hkind
  · rw [hshared] at hmagic
    rcases Section.exec_magic.mp hmagic with rfl | hbefore
    · rw [(hmark rfl).other hji ht hy] at hu
      cases hu
    · exact hold.marked hbefore y hy hu
  · rw [hshared] at hfreed
    rcases Section.exec_freed.mp hfreed with rfl | hbefore
    · exact (hfree rfl).other hji ht hy
    · exact hold.dead hbefore y hy

omit hready in
-- The thread that ran.
theorem LifetimeInv.self {rest : List Section} (hmem : ⟨kind, x :: rest⟩ ∈ m.threads) :
    ThreadOk m'.shared ⟨kind, (x.exec env reentry m.shared kind).2 ++ rest⟩ := by
  have hold := hinv.threads _ hmem
  have hhead : x ∈ x :: rest := List.mem_cons_self
  have htail {y : Section} (hy : y ∈ rest) : y ∈ x :: rest := List.mem_cons_of_mem x hy
  have hrest (hsolo : x.isSolo = true) : rest = [] := (List.cons.inj (hold.solo x hhead hsolo)).2
  obtain ⟨hcall, -, -⟩ := hok x hnext
  refine ⟨fun y hy hsolo => ?_, fun hkind y hy => ?_, fun y hy hu => ?_, fun y hy ts hts => ?_,
    fun k hk hkind => ?_, fun hmagic y hy hu => ?_, fun hfreed y hy => ?_⟩
  · rcases List.mem_append.mp hy with hnew | hy
    · have hx := (Section.exec_leaves hnew).isSolo hcall hsolo
      rw [Section.exec_solo hnew hsolo, hrest hx]
      rfl
    · have hxs := hold.solo y (htail hy) hsolo
      rw [(List.cons.inj hxs).2] at hy
      cases hy
  · -- What a timer callback leaves to do does not lead to a teardown either.
    rcases List.mem_append.mp hy with hnew | hy
    · by_contra hsolo
      have hx := (Section.exec_leaves hnew).isSolo hcall (Bool.not_eq_false _ ▸ hsolo)
      rw [hold.timer hkind x hhead] at hx
      cases hx
    · exact hold.timer hkind y (htail hy)
  · rw [hshared]
    apply Section.exec_inTable
    rcases List.mem_append.mp hy with hnew | hy
    · exact ((Section.exec_leaves hnew).isUnlisted hu).imp_left (hold.unlisted x hhead)
    · exact .inl (hold.unlisted y (htail hy) hu)
  · rcases List.mem_append.mp hy with hnew | hy
    · cases Section.exec_leaves hnew with
      | destroyRetransmit =>
        cases hts
        -- The lease was not marked before, so nothing of it is destroyed.
        have hbefore : m.shared.magic = true := by
          by_contra hmagic
          cases hold.marked (Bool.not_eq_true _ ▸ hmagic) _ hhead rfl
        obtain ⟨hdestroyed, hfreed⟩ := hinv.unmarked hbefore
        rw [hshared]
        exact ⟨rfl, hdestroyed, hfreed⟩
      | destroyLease =>
        cases hts
        obtain ⟨hmagic, hdestroyed, hfreed⟩ := hold.outlives _ hhead _ rfl
        rw [hshared]
        exact ⟨hmagic, congrArg _ hdestroyed, hfreed⟩
      | free =>
        cases hts
        obtain ⟨hmagic, hdestroyed, hfreed⟩ := hold.outlives _ hhead _ rfl
        rw [hshared]
        exact ⟨hmagic, congrArg _ hdestroyed, hfreed⟩
      | _ => cases hts
    · have hsolo : y.isSolo = true := by
        cases y with
        | destroyTimer t => rfl
        | free => rfl
        | _ => cases hts
      rw [(List.cons.inj (hold.solo y (htail hy) hsolo)).2] at hy
      cases hy
  · rw [hshared, Section.exec_destroyed] at hk
    rcases hk with rfl | hk
    · -- A timer callback does not get to a teardown.
      have hsolo := hold.timer (by rw [show kind = .timer k from hkind]; rfl) _ hhead
      cases hsolo
    · cases hold.joined k hk hkind
  · rw [hshared] at hmagic
    rcases Section.exec_magic.mp hmagic with rfl | hbefore
    · rw [hrest rfl] at hy
      rw [List.mem_singleton.mp hy]
      rfl
    · rcases List.mem_append.mp hy with hnew | hy
      · have hx := Leaves.unchecked hnew hbefore (hinv.marked hbefore) hu
        exact (Section.exec_leaves hnew).isMarked_of (hold.marked hbefore x hhead hx)
      · exact hold.marked hbefore y (htail hy) hu
  · rw [hshared] at hfreed
    rcases Section.exec_freed.mp hfreed with rfl | hbefore
    · rw [hrest rfl] at hy
      cases hy
    · rcases List.mem_append.mp hy with hnew | hy
      · by_contra hy'
        obtain ⟨hx, hre⟩ := (Section.exec_leaves hnew).checks (Bool.not_eq_false _ ▸ hy')
        rw [(hcall hx hre).2] at hbefore
        cases hbefore
      · exact hold.dead hbefore y (htail hy)

omit hinv hready hnext hadv hok in
theorem LifetimeInv.added {a : Access} (ha : a ∈ m'.shared.trace) :
    Made m.shared kind a x ∨ a ∈ m.shared.trace := by
  rw [hshared, Section.exec_trace] at ha
  exact (List.mem_append.mp ha).imp_left fun h => Section.made (List.mem_reverse.mp h)

omit hready hnext hadv hok in
-- What a section adds to the record of a lease that is not marked yet, ...
theorem LifetimeInv.record_unmarked (hmagic : m.shared.magic = true) (hx : x.isMarked = false) :
    Lts.Historically (fun a older => a.touchesLease = true → a.InLifetime older)
      m'.shared.trace := by
  obtain ⟨hdestroyed, hfreed⟩ := hinv.unmarked hmagic
  have hold : ∀ e ∈ m.shared.trace, e.ends = false := by
    intro e he
    by_contra hends
    cases e with
    | clearMagic =>
      rw [hinv.clearMagic he] at hmagic
      cases hmagic
    | destroyTimer k caller =>
      have hk := hinv.destroyTimer k caller he
      rw [hdestroyed] at hk
      cases hk
    | free =>
      rw [hinv.free he] at hfreed
      cases hfreed
    | _ => exact hends rfl
  rw [hshared, Section.exec_trace]
  by_cases hmark : x = .clearMagic
  · subst hmark
    exact ⟨fun _ => Access.inLifetime_of_alive _ hold, hinv.record⟩
  · refine hinv.record.append fun a _ older holder _ => Access.inLifetime_of_alive a fun e he => ?_
    rcases List.mem_append.mp (holder he) with hnew | hmem
    · by_contra hends
      rcases (Section.made (List.mem_reverse.mp hnew)).ends (Bool.not_eq_false _ ▸ hends) with
        hclear | hmarked
      · exact hmark hclear
      · rw [hx] at hmarked
        cases hmarked
    · exact hold e hmem

omit hready hnext hok in
-- ... and to that of one that is.
theorem LifetimeInv.record_marked (hmagic : m.shared.magic = false) :
    Lts.Historically (fun a older => a.touchesLease = true → a.InLifetime older)
      m'.shared.trace := by
  obtain ⟨tx, htx, -, hx⟩ := hadv.mem
  have hokx := hinv.threads tx htx
  rw [hshared, Section.exec_trace]
  by_cases hu : x.unchecked = true
  · -- Only `destroy_with_context` still works on the lease without a check.
    obtain ⟨ts, hts⟩ := Section.isMarked_iff.mp (hokx.marked hmagic x hx hu)
    obtain ⟨-, hdestroyed, hfreed⟩ := hokx.outlives x hx ts hts
    have hfree : .free ∉ m.shared.trace := by
      intro h
      rw [hinv.free h] at hfreed
      cases hfreed
    cases x with
    | destroyTimer t =>
      have htimer (caller : Origin) : .destroyTimer t caller ∉ m.shared.trace := by
        intro h
        have hk := hinv.destroyTimer t caller h
        rw [hdestroyed] at hk
        cases t <;> cases hts <;> simp at hk
      have hown {t' : TimerKind} (ht' : t' ∈ some t) : t' = t := (Option.some.inj ht').symm
      refine ⟨fun _ => Access.inLifetime_of_isDestroy rfl (fun t' ht' caller => ?_) ?_,
        fun _ => Access.inLifetime_of_isDestroy rfl (fun t' ht' caller => ?_) hfree, hinv.record⟩
      · simpa [hown ht'] using htimer caller
      · simpa using hfree
      · simpa [hown ht'] using htimer caller
    | free =>
      have hnone {P : TimerKind → Prop} : ∀ t ∈ (none : Option TimerKind), P t :=
        fun t ht => by cases ht
      refine ⟨fun _ => Access.inLifetime_of_isDestroy rfl hnone ?_,
        fun _ => Access.inLifetime_of_isDestroy rfl hnone ?_,
        fun _ => Access.inLifetime_of_isDestroy rfl hnone hfree, hinv.record⟩
      · simpa using hfree
      · simpa using hfree
    | _ => cases hts
  · refine hinv.record.append fun a ha older holder htouch => ?_
    have hmade := Section.made (List.mem_reverse.mp ha)
    cases hmade with
    | lookup iface r htable =>
      rw [hinv.marked hmagic] at htable
      cases htable
    | onBound isRenewal => cases htouch
    | locked a x _ hx => exact absurd hx hu
    | readMagic x hchecks =>
      refine ⟨fun _ => .inr rfl, fun t ht => (by cases ht), fun hfree => ?_⟩
      rcases List.mem_append.mp (holder hfree) with hnew | hold
      · rw [(Section.made (List.mem_reverse.mp hnew)).of_free] at hu
        exact absurd rfl hu
      · rw [hokx.dead (hinv.free hold) x hx] at hchecks
        cases hchecks
    | _ => exact absurd rfl hu

omit hinv hready hnext hadv hok in
-- Where the lease is not marked after the step, it was not marked before.
theorem LifetimeInv.unmarked_before (h : m'.shared.magic = true) : m.shared.magic = true := by
  rw [hshared] at h
  by_contra hmagic
  rw [Section.exec_magic.mpr (.inr (Bool.not_eq_true _ ▸ hmagic))] at h
  cases h

omit hready hnext hshared hok in
theorem LifetimeInv.isMarked_of_unmarked (h : m.shared.magic = true) : x.isMarked = false := by
  obtain ⟨tx, htx, -, hx⟩ := hadv.mem
  by_contra hmarked
  obtain ⟨ts, hts⟩ := Section.isMarked_iff.mp (Bool.not_eq_false _ ▸ hmarked)
  rw [((hinv.threads tx htx).outlives x hx ts hts).1] at h
  cases h

omit hready hshared in
-- Whoever marks the lease is the only one to destroy it.
theorem LifetimeInv.single_after : m'.AtMostOne DestroysLease := by
  refine hinv.single.advance hadv fun rest _ hdestroys => ?_
  obtain ⟨y, hy, hmarked⟩ := hdestroys
  rcases List.mem_append.mp hy with hnew | hy
  · rcases (Section.exec_leaves hnew).isMarked hmarked with rfl | hxm
    · right
      rintro j hji t ht ⟨z, hz, hzm⟩
      have hno := ((hok _ hnext).2.1 rfl).other hji ht hz
      cases z <;> first | cases hzm; done | cases hno
    · exact .inl ⟨x, List.mem_cons_self, hxm⟩
  · exact .inl ⟨y, List.mem_cons_of_mem x hy, hmarked⟩

omit hready hnext hok in
theorem LifetimeInv.unmarked_after (hmagic : m'.shared.magic = true) :
    m'.shared.destroyed = [] ∧ m'.shared.freed = false := by
  have hbefore := LifetimeInv.unmarked_before hshared hmagic
  have hx := hinv.isMarked_of_unmarked hadv hbefore
  obtain ⟨hdestroyed, hfreed⟩ := hinv.unmarked hbefore
  rw [hshared, Section.exec_destroyed_eq hx]
  refine ⟨hdestroyed, ?_⟩
  by_contra hf
  rcases Section.exec_freed.mp (Bool.not_eq_false _ ▸ hf) with rfl | hf
  · cases hx
  · rw [hfreed] at hf
    cases hf

omit hready hnext hok in
theorem LifetimeInv.marked_after (hmagic : m'.shared.magic = false) :
    m'.shared.inTable = false := by
  obtain ⟨tx, htx, -, hx⟩ := hadv.mem
  rw [hshared] at hmagic ⊢
  apply Section.exec_inTable
  left
  rcases Section.exec_magic.mp hmagic with rfl | hbefore
  · exact (hinv.threads tx htx).unlisted _ hx rfl
  · exact hinv.marked hbefore

omit hready hnext hok in
theorem LifetimeInv.freed_after (hfreed : m'.shared.freed = true) (k : TimerKind) :
    k ∈ m'.shared.destroyed := by
  obtain ⟨tx, htx, -, hx⟩ := hadv.mem
  rw [hshared] at hfreed ⊢
  rw [Section.exec_destroyed]
  right
  rcases Section.exec_freed.mp hfreed with rfl | hbefore
  · rw [((hinv.threads tx htx).outlives _ hx _ rfl).2.1]
    cases k <;> simp
  · exact hinv.freed hbefore k

omit hready hnext hok in
-- A timer callback does not get to a teardown, so it destroys no timer, its own or another.
theorem LifetimeInv.foreign_after {k : TimerKind} {caller : Origin}
    (hmem : .destroyTimer k caller ∈ m'.shared.trace) : caller ≠ .timer k := by
  obtain ⟨tx, htx, hkind, hx⟩ := hadv.mem
  rcases LifetimeInv.added hshared hmem with hmade | hold
  · obtain ⟨rfl, rfl⟩ := hmade.of_destroyTimer
    intro hown
    have hsolo := (hinv.threads tx htx).timer (by rw [hkind, hown]; rfl) _ hx
    cases hsolo
  · exact hinv.foreign k caller hold

theorem LifetimeInv.advance : LifetimeInv m' := by
  have hadded {a : Access} := LifetimeInv.added (a := a) hshared
  refine ⟨?_, hinv.single_after hnext hadv hok, hinv.unmarked_after hshared hadv,
    hinv.marked_after hshared hadv, hinv.freed_after hshared hadv, fun hmem => ?_,
    fun k caller hmem => ?_, fun hmem => ?_, fun k caller => hinv.foreign_after hshared hadv, ?_⟩
  · exact hadv.forall_others
      (fun j hj hji t ht => hinv.other hready hnext hshared hadv hok hji ht)
      fun rest hmem => hinv.self hnext hshared hadv hok hmem
  · rw [hshared, Section.exec_magic]
    exact (hadded hmem).imp Made.of_clearMagic hinv.clearMagic
  · rw [hshared, Section.exec_destroyed]
    exact (hadded hmem).imp (fun h => h.of_destroyTimer.1) (hinv.destroyTimer k caller)
  · rw [hshared, Section.exec_freed]
    exact (hadded hmem).imp Made.of_free hinv.free
  · cases hmagic : m.shared.magic with
    | true =>
      exact hinv.record_unmarked hshared hmagic (hinv.isMarked_of_unmarked hadv hmagic)
    | false => exact hinv.record_marked hshared hadv hmagic

end

theorem LifetimeInv.step {m m' : Machine} {e : MachineEvent} (hinv : LifetimeInv m)
    (hstep : m.step e = some m') (hok : Disciplined m e) : LifetimeInv m' := by
  rcases Machine.step_arrives hstep with
    ⟨c, -, hshared, new, hthreads, hnew⟩ |
    ⟨i, env, reentry, kind, x, rfl, hready, hnext, hshared, hadv⟩
  · exact hinv.arrive hshared hthreads hnew
  · exact hinv.advance hready hnext hshared hadv hok

theorem start_lifetimeInv (c : Client) : LifetimeInv (.start c) := by
  refine ⟨fun t ht => ?_, fun i j t t' hi => ?_, fun _ => ⟨rfl, rfl⟩, fun hmagic => ?_,
    fun hfreed => ?_, fun hmem => ?_, fun k caller hmem => ?_, fun hmem => ?_,
    fun k caller hmem => ?_, trivial⟩
  · cases ht
  · cases hi
  · cases hmagic
  · cases hfreed
  · cases hmem
  · cases hmem
  · cases hmem
  · cases hmem

/-! ## 4. Disciplined runs, and what happens in others -/

/-- **The lifetime protocol of a lease.**  In every disciplined interleaving no timer is destroyed
from within its own callback.  Once `destroy_with_context` has marked the lease, nobody else does
anything to it but find the mark, no timer is used after it was destroyed, and nothing at all
touches the lease after it is freed. -/
theorem lifetime_respected (env₀ : Env) (iface : Iface) (netif : Netif) (callbacks : Callbacks)
    (userData : Nat) (options : Option StartOptions) (events : List MachineEvent) (m : Machine)
    (hrun : Lts.Run (Lts.Guarded (Lts.ofPartial Machine.step) Disciplined)
      (.start (Client.start env₀ iface netif callbacks userData options)) events m) :
    (∀ k caller, .destroyTimer k caller ∈ m.shared.trace → caller ≠ .timer k) ∧
      ∀ newer a older, m.shared.trace = newer ++ a :: older → a.touchesLease = true →
        a.InLifetime older := by
  have hinv : LifetimeInv m := hrun.invariant (fun _ _ _ hs hstep => hs.step hstep.1 hstep.2)
    (start_lifetimeInv _)
  refine ⟨hinv.foreign, fun newer a older htrace htouch => ?_⟩
  have hrecord := hinv.record
  rw [htrace] at hrecord
  exact hrecord.at htouch

-- A record that begins so, newest first.
theorem record_eq_of_take {trace recent : List Access} {n : Nat} (h : trace.take n = recent) :
    trace = recent ++ trace.drop n := by
  rw [← h, List.take_append_drop]

/-- The lease is renewed, and the `on_bound` of the renewal stops it, on the rx thread; the lease
timer fires once more after the lease is marked. -/
def stoppedOnRenewalEvents : List MachineEvent :=
  boundEvents ++ [.fire .lease false] ++ runSections 4 2 (quietEnv 8) ++
    [serverMessage .ack 8] ++ runSections 5 2 (quietEnv 8) ++
    [.advance 5 (quietEnv 8) (some .stop)] ++ runSections 5 4 (quietEnv 8) ++
    [.fire .lease false] ++ runSections 6 1 (quietEnv 8) ++ runSections 5 3 (quietEnv 8)

/-- The theorem at that run: the last callback finds the mark, and the lease is freed. -/
theorem lifetime_respected_stopped :
    ∃ m older, Lts.Run (Lts.Guarded (Lts.ofPartial Machine.step) Disciplined)
        (.start startedClient) stoppedOnRenewalEvents m ∧
      m.shared.freed = true ∧
      m.shared.trace = [.free, .destroyLock, .destroyLists, .destroyTimer .lease .rx,
        .stop .lease, .destroyTimer .retransmit .rx, .stop .retransmit, .readMagic,
        .clearMagic] ++ older ∧
      ∀ newer a older, m.shared.trace = newer ++ a :: older → a.touchesLease = true →
        a.InLifetime older := by
  obtain ⟨m, hrun, hresult⟩ := Lts.Passes.run Machine.step Disciplined
    (.start startedClient) stoppedOnRenewalEvents
    (fun m => (m.shared.freed, m.shared.trace.take 9))
    (true, [.free, .destroyLock, .destroyLists, .destroyTimer .lease .rx, .stop .lease,
      .destroyTimer .retransmit .rx, .stop .retransmit, .readMagic, .clearMagic])
    (by decide +kernel) (by decide +kernel)
  obtain ⟨hfreed, htake⟩ := Prod.mk.inj hresult
  exact ⟨m, _, hrun, hfreed, record_eq_of_take htake,
    (lifetime_respected _ _ blankNetif _ _ _ _ _ hrun).2⟩

/-- The first `on_bound` is called from the callback of the retransmit timer; if it stops the lease,
it destroys that very timer. -/
def selfDestroyEvents : List MachineEvent :=
  ackEvents ++ [.fire .retransmit false] ++ runSections 3 2 (quietEnv 7) ++
    [.advance 3 (quietEnv 7) (some .stop)] ++ runSections 3 5 (quietEnv 7)

/-- T1 has passed, and the callback of the lease timer has found `magic` set, when `dmdhcp_stop`
marks the lease and destroys the retransmit timer; the callback then begins the renewal. -/
def rearmRaceEvents : List MachineEvent :=
  boundEvents ++ [.fire .lease false] ++ runSections 4 1 (quietEnv 8) ++ [.teardown .stop] ++
    runSections 5 5 (quietEnv 8) ++ runSections 4 1 (quietEnv 8)

/-- An OFFER has been looked up when `dmdhcp_stop` runs from start to end; the rx thread then takes
the lock of the freed lease. -/
def lookupRaceEvents : List MachineEvent :=
  [serverMessage .offer 7] ++ runSections 0 1 (quietEnv 7) ++ [.teardown .stop] ++
    runSections 1 7 (quietEnv 7) ++ runSections 0 1 (quietEnv 7)

theorem lifetime_violated :
    (∃ m, Lts.Run (Lts.ofPartial Machine.step) (.start startedClient) selfDestroyEvents m ∧
      .destroyTimer .retransmit (.timer .retransmit) ∈ m.shared.trace) ∧
    (∃ m newer older, Lts.Run (Lts.ofPartial Machine.step) (.start startedClient)
        rearmRaceEvents m ∧
      m.shared.trace = newer ++ .start .retransmit :: .setPeriod .retransmit :: .fields :: .lock ::
        .destroyTimer .retransmit .app :: .stop .retransmit :: .clearMagic :: older) ∧
    ∃ m newer older, Lts.Run (Lts.ofPartial Machine.step) (.start startedClient)
        lookupRaceEvents m ∧
      m.shared.trace = newer ++ .lock :: .free :: older := by
  refine ⟨?_, ?_, ?_⟩
  · obtain ⟨m, hrun, hmem⟩ := Lts.Passes.run Machine.step (fun _ _ => True)
      (.start startedClient) selfDestroyEvents
      (fun m => decide (.destroyTimer .retransmit (.timer .retransmit) ∈ m.shared.trace))
      true (by decide +kernel) (by decide +kernel)
    exact ⟨m, hrun.unguard, of_decide_eq_true hmem⟩
  · obtain ⟨m, hrun, htake⟩ := Lts.Passes.run Machine.step (fun _ _ => True)
      (.start startedClient) rearmRaceEvents (fun m => m.shared.trace.take 10)
      ([.unlock, .start .lease, .setPeriod .lease] ++ [.start .retransmit,
        .setPeriod .retransmit, .fields, .lock, .destroyTimer .retransmit .app, .stop .retransmit,
        .clearMagic]) (by decide +kernel) (by decide +kernel)
    exact ⟨m, [.unlock, .start .lease, .setPeriod .lease], _, hrun.unguard,
      record_eq_of_take htake⟩
  · obtain ⟨m, hrun, htake⟩ := Lts.Passes.run Machine.step (fun _ _ => True)
      (.start startedClient) lookupRaceEvents (fun m => m.shared.trace.take 7)
      ([.unlock, .start .retransmit, .setPeriod .retransmit, .lists, .fields] ++ [.lock, .free])
      (by decide +kernel) (by decide +kernel)
    exact ⟨m, [.unlock, .start .retransmit, .setPeriod .retransmit, .lists, .fields], _,
      hrun.unguard, record_eq_of_take htake⟩

end Dmdhcp
