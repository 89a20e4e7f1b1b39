import Dmdhcp.Lib.Pool
import Dmdhcp.Accesses

/-!
# Interleavings on one lease

The code of a lease runs on the rx thread, on the workers of its two timers and on the threads of
the application.  What each of them does is cut into sections at the points where a lock is taken
or dropped: a section under `lease->lock` or the table mutex is atomic, and so is a single access
outside of them.  Everything else may be interleaved.
-/

namespace Dmdhcp

inductive Teardown
  | stop
  | release
  deriving DecidableEq, Repr

/-- The sections of `dmdhcp_handle_datagram`, the timer callbacks, `dmdhcp_lifecycle_handle_lost`,
`dmdhcp_renew`, `dmdhcp_stop` and `dmdhcp_release` (with `destroy_with_context`), and the calls out
to the user.  `nak` is the xid of the datagram that the lost path is run for. -/
inductive Section
  | lookup (iface : Iface) (r : Reply)
  | datagram (r : Reply) (msgType : UInt8)
  | timerGuard (t : TimerKind)
  | retransmit
  | leaseTimer
  | lostUnapply (nak : Option UInt32)
  | onExpired
  | lostRestart (nak : Option UInt32)
  | onBound (isRenewal : Bool)
  | onError (error : Errno)
  | relock
  | renewGuard
  | renew
  | teardownGuard (how : Teardown)
  | tableRemove (how : Teardown)
  | teardown (how : Teardown)
  | clearMagic
  | destroyTimer (t : TimerKind)
  | free
  deriving DecidableEq, Repr

/-- What the threads share: the client, whether the lease is in the table and its `magic` is set,
which of its timers are destroyed, whether it is freed, and the accesses so far, newest first. -/
structure Shared where
  client : Client
  inTable : Bool
  magic : Bool
  destroyed : List TimerKind
  freed : Bool
  trace : List Access
  deriving DecidableEq, Repr

/-- The accesses of a section, in the order it makes them. -/
def Shared.touch (as : List Access) (s : Shared) : Shared :=
  { s with trace := as.reverse ++ s.trace }

/-- A section under `lease->lock` that leaves the client `c`. -/
def Shared.locked (work : List Access) (c : Client) (s : Shared) : Shared :=
  { s.touch (lockedAccesses work) with client := c }

/-- What a locked section leaves to its thread. -/
def After.sections (nak : Option UInt32) : After → List Section
  | .done => []
  | .onBound isRenewal => [.onBound isRenewal]
  | .onError error => [.onError error]
  | .lost => [.lostUnapply nak]

/-- `run_conflict_probe` and `handle_conflict` take the lock again after a callback. -/
def After.relocked (after : After) : List Section :=
  match after with
  | .done => []
  | _ => after.sections none ++ [.relock]

/-- What the user's callback, if it is set, does with the lease it is given. -/
def reentrySections (isSet : Bool) (reentry : Option Teardown) : List Section :=
  match isSet, reentry with
  | true, some how => [.teardownGuard how]
  | _, _ => []

/-- The locked section of `dmdhcp_stop` or `dmdhcp_release`. -/
def teardownSection (env : Env) : Teardown → Client → Client
  | .stop, c => stopSection env c
  | .release, c => releaseSection env c

theorem teardownSection_lease (env : Env) (how : Teardown) (c : Client) : ∃ route,
    (teardownSection env how c).lease =
      { c.lease with ifaceConfigured := false, defaultRoute := route } := by
  have hstop (c : Client) : ∃ route, (stopSection env c).lease =
      { c.lease with ifaceConfigured := false, defaultRoute := route } := by
    unfold stopSection
    split_ifs with hc
    · exact lifecycleUnapply_lease env c
    · have hflag : c.lease.ifaceConfigured = false := Bool.not_eq_true _ ▸ hc
      exact ⟨c.lease.defaultRoute, by rw [← hflag]⟩
  cases how with
  | stop => exact hstop c
  | release =>
    -- The RELEASE goes out first; it leaves the lease as it is.
    have hsend : (outputSendRelease env c).lease = c.lease := sendMessage_lease ..
    show ∃ route, (stopSection env _).lease = _
    split_ifs
    · rw [← hsend]
      exact hstop _
    · exact hstop c

/-- `dmosi_timer_stop` on one of the timers. -/
def Client.disarm : TimerKind → Client → Client
  | .retransmit, c => c.disarmRetransmit
  | .lease, c => c.disarmLease

/-- Run one section on a thread of kind `caller`; the sections returned are what it leaves to do. -/
def Section.exec (env : Env) (reentry : Option Teardown) (s : Shared) (caller : Origin) :
    Section → Shared × List Section
  | .lookup iface r =>
    if s.inTable then
      -- Under the table mutex; a missing or malformed option 53 is found after it is dropped.
      (s.touch [.lookup],
        if s.client.matchesXid iface r.msg.xid then
          match messageType r.options with
          | some msgType => [.datagram r msgType]
          | none => []
        else [])
    else (s, [])
  | .datagram r msgType =>
    let (c, after) := datagramSection env r msgType s.client
    (s.locked (datagramAccesses msgType s.client.lease) c, after.sections (some r.msg.xid))
  | .timerGuard t =>
    (s.touch [.readMagic],
      if s.magic then
        match t with
        | .retransmit => [.retransmit]
        | .lease => [.leaseTimer]
      else [])
  | .retransmit =>
    let (c, after) := retransmitTimerSection env s.client
    (s.locked (retransmitAccesses env s.client.lease) c, after.relocked)
  | .leaseTimer =>
    let (c, after) := leaseTimerSection env s.client
    (s.locked (leaseTimerAccesses s.client.lease) c, after.sections none)
  | .lostUnapply nak =>
    (s.locked [.lists] (Dmdhcp.lostUnapply env s.client), [.onExpired, .lostRestart nak])
  | .onExpired =>
    ({ s with client := callOnExpiredOrLost s.client },
      reentrySections s.client.lease.callbacks.onExpiredOrLost reentry)
  | .lostRestart _ => (s.locked discoveryAccesses (Dmdhcp.lostRestart env s.client), [])
  | .onBound isRenewal =>
    ({ (if s.client.lease.callbacks.onBound then s.touch [.onBound] else s) with
        client := callOnBound isRenewal s.client },
      reentrySections s.client.lease.callbacks.onBound reentry)
  | .onError error =>
    ({ s with client := callOnError error s.client },
      reentrySections s.client.lease.callbacks.onError reentry)
  -- The lock is taken only to be dropped by the caller.
  | .relock => (s.touch [.lock, .unlock], [])
  | .renewGuard => (s.touch [.readMagic], if s.magic then [.renew] else [])
  | .renew => (s.locked (renewAccesses s.client.lease) (s.client.renew env), [])
  | .teardownGuard how => (s.touch [.readMagic], if s.magic then [.tableRemove how] else [])
  | .tableRemove how => ({ s.touch [.tableRemove] with inTable := false }, [.teardown how])
  | .teardown how =>
    ({ s.touch [.lock, .teardown, .unlock] with client := teardownSection env how s.client },
      [.clearMagic])
  | .clearMagic =>
    ({ s.touch [.clearMagic] with magic := false }, [.destroyTimer .retransmit])
  -- A timer may fire whether it is running or not, so it is stopped where it is destroyed.
  | .destroyTimer t =>
    ({ s.touch [.stop t, .destroyTimer t caller] with
        client := s.client.disarm t
        destroyed := t :: s.destroyed },
      match t with
      | .retransmit => [.destroyTimer .lease]
      | .lease => [.free])
  | .free => ({ s.touch [.destroyLists, .destroyLock, .free] with freed := true }, [])

abbrev Machine := Lts.Pool Shared Origin Section

/-- What happens next: a datagram is delivered, a timer fires, the application calls, or thread `i`
runs its next section, in which the user's callback may call `dmdhcp_stop` or `dmdhcp_release`. -/
inductive MachineEvent
  | datagram (iface : Iface) (payload : List UInt8)
  | fire (t : TimerKind) (stale : Bool)
  | renew
  | teardown (how : Teardown)
  | advance (i : Nat) (env : Env) (reentry : Option Teardown)
  deriving DecidableEq, Repr

/-- No other thread is inside a callback of timer `t`. -/
def Machine.Joined (m : Machine) (i : Nat) (t : TimerKind) : Prop :=
  ∀ j, j < m.threads.length → j ≠ i → ∀ th ∈ m.threads[j]?, th.kind = .timer t → th.todo = []

instance (m : Machine) (i : Nat) (t : TimerKind) : Decidable (m.Joined i t) :=
  inferInstanceAs (Decidable (∀ j, j < m.threads.length → _))

/-- The timer whose callbacks a section waits for. -/
def Section.joins : Section → Option TimerKind
  | .destroyTimer t => some t
  | _ => none

/-- `dmosi_timer_destroy` waits for a running callback of that timer; nothing else blocks between
sections. -/
def Machine.Ready (m : Machine) (i : Nat) : Prop :=
  ∀ t ∈ (m.next i).bind Section.joins, m.Joined i t

instance (m : Machine) (i : Nat) : Decidable (m.Ready i) :=
  inferInstanceAs (Decidable (∀ t ∈ (m.next i).bind Section.joins, _))

def Machine.setClient (m : Machine) (c : Client) : Machine :=
  { m with shared := { m.shared with client := c } }

/-- A destroyed timer does not fire, and the application does not use a lease it has destroyed. -/
def Machine.step (m : Machine) : MachineEvent → Option Machine
  | .datagram iface payload =>
    match parseReply payload with
    | some r => some (m.spawn ⟨.rx, [.lookup iface r]⟩)
    | none => some m
  | .fire t stale =>
    if t ∈ m.shared.destroyed then none
    else
      some ((m.setClient (if stale then m.shared.client else m.shared.client.disarm t)).spawn
        ⟨.timer t, [.timerGuard t]⟩)
  | .renew => if m.shared.freed then none else some (m.spawn ⟨.app, [.renewGuard]⟩)
  | .teardown how =>
    if m.shared.freed then none else some (m.spawn ⟨.app, [.teardownGuard how]⟩)
  | .advance i env reentry =>
    if m.Ready i then m.advance (Section.exec env reentry) i else none

/-- A lease that `dmdhcp_start` has just returned.  It is in the table from the insertion on, in
`init` and with xid 0; what other threads do to it before the locked section of `dmdhcp_start` is
left out. -/
def Machine.start (c : Client) : Machine := ⟨⟨c, true, true, [], false, []⟩, []⟩

/-- The threads that can start on a lease. -/
inductive Entry (s : Shared) : Lts.Thread Origin Section → Prop
  | rx (iface : Iface) (r : Reply) : Entry s ⟨.rx, [.lookup iface r]⟩
  | timer (t : TimerKind) (h : t ∉ s.destroyed) : Entry s ⟨.timer t, [.timerGuard t]⟩
  | renew (h : s.freed = false) : Entry s ⟨.app, [.renewGuard]⟩
  | teardown (how : Teardown) (h : s.freed = false) : Entry s ⟨.app, [.teardownGuard how]⟩

theorem Client.disarm_same (t : TimerKind) (c : Client) : SameButTimers c (c.disarm t) := by
  cases t <;> exact ⟨rfl, rfl, rfl, _, _, rfl⟩

theorem SameButTimers.refl (c : Client) : SameButTimers c c := ⟨rfl, rfl, rfl, _, _, rfl⟩

-- Every step of the machine: something arrives, or a thread runs its next section.
theorem Machine.step_arrives {m m' : Machine} {e : MachineEvent} (h : m.step e = some m') :
    (∃ c, SameButTimers m.shared.client c ∧ m'.shared = { m.shared with client := c } ∧
      ∃ new, m'.threads = m.threads ++ new ∧ ∀ t ∈ new, Entry m.shared t) ∨
    ∃ i env reentry kind x, e = .advance i env reentry ∧ m.Ready i ∧ m.next i = some x ∧
      m'.shared = (x.exec env reentry m.shared kind).1 ∧
      m.Advanced i kind x (x.exec env reentry m.shared kind).2 m' := by
  have hone {t : Lts.Thread Origin Section} (ht : Entry m.shared t) :
      ∀ t' ∈ [t], Entry m.shared t' := fun t' ht' => List.mem_singleton.mp ht' ▸ ht
  cases e with
  | datagram iface payload =>
    refine .inl ⟨m.shared.client, .refl _, ?_⟩
    simp only [Machine.step] at h
    split at h
    · obtain rfl := Option.some.inj h
      exact ⟨rfl, _, rfl, hone (.rx iface _)⟩
    · obtain rfl := Option.some.inj h
      exact ⟨rfl, [], (List.append_nil _).symm, fun t ht => absurd ht List.not_mem_nil⟩
  | fire t stale =>
    simp only [Machine.step] at h
    split_ifs at h with halive
    all_goals obtain rfl := Option.some.inj h
    · exact .inl ⟨_, .refl _, rfl, _, rfl, hone (.timer t halive)⟩
    · exact .inl ⟨_, Client.disarm_same t _, rfl, _, rfl, hone (.timer t halive)⟩
  | renew =>
    simp only [Machine.step] at h
    split_ifs at h with hfreed
    obtain rfl := Option.some.inj h
    exact .inl ⟨_, .refl _, rfl, _, rfl, hone (.renew (Bool.not_eq_true _ ▸ hfreed))⟩
  | teardown how =>
    simp only [Machine.step] at h
    split_ifs at h with hfreed
    obtain rfl := Option.some.inj h
    exact .inl ⟨_, .refl _, rfl, _, rfl, hone (.teardown how (Bool.not_eq_true _ ▸ hfreed))⟩
  | advance i env reentry =>
    simp only [Machine.step] at h
    split_ifs at h with hready
    obtain ⟨kind, x, hnext, hshared, hadv⟩ := Lts.Pool.advance_cases h
    exact .inr ⟨i, env, reentry, kind, x, rfl, hready, hnext, hshared, hadv⟩

-- The same, with the new thread, if there is one, among the others.
theorem Machine.step_cases {m m' : Machine} {e : MachineEvent} (h : m.step e = some m') :
    (∃ c, SameButTimers m.shared.client c ∧ m'.shared = { m.shared with client := c } ∧
      ∀ t ∈ m'.threads, t ∈ m.threads ∨ Entry m.shared t) ∨
    ∃ i env reentry kind x, e = .advance i env reentry ∧ m.Ready i ∧ m.next i = some x ∧
      m'.shared = (x.exec env reentry m.shared kind).1 ∧
      m.Advanced i kind x (x.exec env reentry m.shared kind).2 m' := by
  rcases Machine.step_arrives h with ⟨c, hsame, hshared, new, hthreads, hnew⟩ | hadvance
  · refine .inl ⟨c, hsame, hshared, fun t ht => ?_⟩
    rw [hthreads] at ht
    exact (List.mem_append.mp ht).imp_right (hnew t)
  · exact .inr hadvance

/-! ### What a section does to the client -/

/-- The sections that apply a lease: an ACK to a renewal, and a clean final probe. -/
def Section.applies (env : Env) (c : Client) : Section → Bool
  | .datagram _ msgType =>
    msgType = MsgType.ack.toByte ∧ (c.lease.state = .renewing ∨ c.lease.state = .rebinding)
  | .retransmit => c.lease.state = .checkingAck ∧ env.arpReply = false
  | _ => false

/-- Everything a section can do to the client. -/
inductive Change (env : Env) (c : Client) : Section → Client → Prop
  | move {x : Section} {c' : Client} (h : Move env c c') : Change env c x c'
  | commit (h : c.lease.state = .checkingAck) (harp : env.arpReply = false) :
      Change env c .retransmit (commitProbed env c)
  | renewal (r : Reply) (h : c.lease.state = .renewing ∨ c.lease.state = .rebinding) :
      Change env c (.datagram r MsgType.ack.toByte) (acceptRenewal env r c)
  | unapply (nak : Option UInt32) : Change env c (.lostUnapply nak) (lostUnapply env c)
  | restart (nak : Option UInt32) : Change env c (.lostRestart nak) (lostRestart env c)
  | teardown (how : Teardown) : Change env c (.teardown how) (teardownSection env how c)
  | record {x : Section} (e : Effect) : Change env c x (c.emit e)
  | disarm (t : TimerKind) : Change env c (.destroyTimer t) (c.disarm t)

theorem Section.exec_change (env : Env) (reentry : Option Teardown) (s : Shared) (caller : Origin)
    (x : Section) : Change env s.client x (x.exec env reentry s caller).1.client := by
  cases x with
  | lookup iface r =>
    simp only [Section.exec]
    split_ifs <;> exact .move .stay
  | datagram r msgType =>
    simp only [Section.exec]
    rcases datagramSection_cases env r msgType s.client with
      ⟨c', heq, hmove⟩ | ⟨heq, rfl, hs⟩ | ⟨heq, -, -⟩
    · rw [heq]
      exact .move hmove
    · rw [heq]
      exact .renewal r hs
    · rw [heq]
      exact .move .stay
  | retransmit =>
    simp only [Section.exec]
    rcases retransmitTimerSection_cases env s.client with
      ⟨c', after, heq, hmove, -⟩ | ⟨heq, hs, harp⟩
    · rw [heq]
      exact .move hmove
    · rw [heq]
      exact .commit hs harp
  | leaseTimer =>
    simp only [Section.exec]
    rcases leaseTimerSection_cases env s.client with ⟨c', heq, hmove⟩ | ⟨heq, -⟩
    · rw [heq]
      exact .move hmove
    · rw [heq]
      exact .move .stay
  | onExpired =>
    simp only [Section.exec, callOnExpiredOrLost]
    split_ifs
    · exact .record _
    · exact .move .stay
  | onBound isRenewal =>
    simp only [Section.exec, callOnBound]
    split_ifs
    · exact .record _
    · exact .move .stay
  | onError error =>
    simp only [Section.exec, callOnError]
    split_ifs
    · exact .record _
    · exact .move .stay
  | lostUnapply nak => exact .unapply nak
  | lostRestart nak => exact .restart nak
  | renew => exact .move (renew_move env s.client)
  | teardown how => exact .teardown how
  | destroyTimer t => exact .disarm t
  | timerGuard t => exact .move .stay
  | relock => exact .move .stay
  | renewGuard => exact .move .stay
  | teardownGuard how => exact .move .stay
  | tableRemove how => exact .move .stay
  | clearMagic => exact .move .stay
  | free => exact .move .stay

/-! ### What a section leaves to do -/

theorem mem_reentrySections {isSet : Bool} {reentry : Option Teardown} {y : Section}
    (h : y ∈ reentrySections isSet reentry) : ∃ how, reentry = some how ∧ y = .teardownGuard how := by
  unfold reentrySections at h
  split at h
  · exact ⟨_, rfl, List.mem_singleton.mp h⟩
  · cases h

/-- The calls out to the user. -/
def Section.callsOut : Section → Bool
  | .onExpired => true
  | .onBound _ => true
  | .onError _ => true
  | _ => false

/-- Everything a section can leave to do. -/
inductive Leaves (env : Env) (reentry : Option Teardown) (s : Shared) : Section → Section → Prop
  | found (iface : Iface) (r : Reply) (msgType : UInt8)
      (h : s.client.matchesXid iface r.msg.xid = true) :
      Leaves env reentry s (.lookup iface r) (.datagram r msgType)
  | renewed (r : Reply) (h : (Section.datagram r MsgType.ack.toByte).applies env s.client = true) :
      Leaves env reentry s (.datagram r MsgType.ack.toByte) (.onBound true)
  | nak (r : Reply) (msgType : UInt8)
      (h : s.client.lease.state = .renewing ∨ s.client.lease.state = .rebinding) :
      Leaves env reentry s (.datagram r msgType) (.lostUnapply (some r.msg.xid))
  | retransmit : Leaves env reentry s (.timerGuard .retransmit) .retransmit
  | leaseTimer : Leaves env reentry s (.timerGuard .lease) .leaseTimer
  | bound (h : Section.retransmit.applies env s.client = true) :
      Leaves env reentry s .retransmit (.onBound false)
  | failed (error : Errno) : Leaves env reentry s .retransmit (.onError error)
  | relock : Leaves env reentry s .retransmit .relock
  | expired : Leaves env reentry s .leaseTimer (.lostUnapply none)
  | onExpired (nak : Option UInt32) : Leaves env reentry s (.lostUnapply nak) .onExpired
  | lostRestart (nak : Option UInt32) :
      Leaves env reentry s (.lostUnapply nak) (.lostRestart nak)
  | reentry (x : Section) (how : Teardown) (h : reentry = some how)
      (hx : x.callsOut = true) :
      Leaves env reentry s x (.teardownGuard how)
  | renew : Leaves env reentry s .renewGuard .renew
  | tableRemove (how : Teardown) : Leaves env reentry s (.teardownGuard how) (.tableRemove how)
  | teardown (how : Teardown) : Leaves env reentry s (.tableRemove how) (.teardown how)
  | clearMagic (how : Teardown) : Leaves env reentry s (.teardown how) .clearMagic
  | destroyRetransmit : Leaves env reentry s .clearMagic (.destroyTimer .retransmit)
  | destroyLease :
      Leaves env reentry s (.destroyTimer .retransmit) (.destroyTimer .lease)
  | free : Leaves env reentry s (.destroyTimer .lease) .free

theorem Leaves.of_mem_singleton {env : Env} {reentry : Option Teardown} {s : Shared}
    {x y z : Section} (hz : Leaves env reentry s x z) (h : y ∈ [z]) : Leaves env reentry s x y :=
  List.mem_singleton.mp h ▸ hz

theorem Section.exec_leaves {env : Env} {reentry : Option Teardown} {s : Shared} {caller : Origin}
    {x y : Section} (h : y ∈ (x.exec env reentry s caller).2) : Leaves env reentry s x y := by
  cases x with
  | lookup iface r =>
    simp only [Section.exec] at h
    split_ifs at h with htable hx
    · split at h
      · exact .of_mem_singleton (.found iface r _ hx) h
      · cases h
    · cases h
    · cases h
  | datagram r msgType =>
    simp only [Section.exec] at h
    rcases datagramSection_cases env r msgType s.client with
      ⟨c', heq, -⟩ | ⟨heq, rfl, hs⟩ | ⟨heq, -, hs⟩
    · rw [heq] at h
      cases h
    · rw [heq] at h
      exact .of_mem_singleton (.renewed r (decide_eq_true ⟨rfl, hs⟩)) h
    · rw [heq] at h
      exact .of_mem_singleton (.nak r msgType hs) h
  | timerGuard t =>
    simp only [Section.exec] at h
    split_ifs at h
    · cases t with
      | retransmit => exact .of_mem_singleton .retransmit h
      | lease => exact .of_mem_singleton .leaseTimer h
    · cases h
  | retransmit =>
    simp only [Section.exec] at h
    rcases retransmitTimerSection_cases env s.client with
      ⟨c', after, heq, -, rfl | rfl⟩ | ⟨heq, hs, harp⟩
    · rw [heq] at h
      cases h
    · rw [heq] at h
      rcases List.mem_cons.mp h with rfl | h
      · exact .failed _
      · exact .of_mem_singleton .relock h
    · rw [heq] at h
      rcases List.mem_cons.mp h with rfl | h
      · exact .bound (decide_eq_true ⟨hs, harp⟩)
      · exact .of_mem_singleton .relock h
  | leaseTimer =>
    simp only [Section.exec] at h
    rcases leaseTimerSection_cases env s.client with ⟨c', heq, -⟩ | ⟨heq, -⟩
    · rw [heq] at h
      cases h
    · rw [heq] at h
      exact .of_mem_singleton .expired h
  | lostUnapply nak =>
    rcases List.mem_cons.mp h with rfl | h
    · exact .onExpired nak
    · exact .of_mem_singleton (.lostRestart nak) h
  | onExpired =>
    obtain ⟨how, hre, rfl⟩ := mem_reentrySections h
    exact .reentry _ how hre rfl
  | onBound isRenewal =>
    obtain ⟨how, hre, rfl⟩ := mem_reentrySections h
    exact .reentry _ how hre rfl
  | onError error =>
    obtain ⟨how, hre, rfl⟩ := mem_reentrySections h
    exact .reentry _ how hre rfl
  | renewGuard =>
    simp only [Section.exec] at h
    split_ifs at h
    · exact .of_mem_singleton .renew h
    · cases h
  | teardownGuard how =>
    simp only [Section.exec] at h
    split_ifs at h
    · exact .of_mem_singleton (.tableRemove how) h
    · cases h
  | tableRemove how => exact .of_mem_singleton (.teardown how) h
  | teardown how => exact .of_mem_singleton (.clearMagic how) h
  | clearMagic => exact .of_mem_singleton .destroyRetransmit h
  | destroyTimer t =>
    cases t with
    | retransmit => exact .of_mem_singleton .destroyLease h
    | lease => exact .of_mem_singleton .free h
  | lostRestart nak => cases h
  | relock => cases h
  | renew => cases h
  | free => cases h

/-! ### What a section records -/

/-- The accesses a section makes. -/
def Section.accesses (env : Env) (s : Shared) (caller : Origin) : Section → List Access
  | .lookup _ _ => if s.inTable then [.lookup] else []
  | .datagram _ msgType => lockedAccesses (datagramAccesses msgType s.client.lease)
  | .timerGuard _ => [.readMagic]
  | .retransmit => lockedAccesses (retransmitAccesses env s.client.lease)
  | .leaseTimer => lockedAccesses (leaseTimerAccesses s.client.lease)
  | .lostUnapply _ => lockedAccesses [.lists]
  | .onExpired => []
  | .lostRestart _ => lockedAccesses discoveryAccesses
  | .onBound _ => if s.client.lease.callbacks.onBound then [.onBound] else []
  | .onError _ => []
  | .relock => [.lock, .unlock]
  | .renewGuard => [.readMagic]
  | .renew => lockedAccesses (renewAccesses s.client.lease)
  | .teardownGuard _ => [.readMagic]
  | .tableRemove _ => [.tableRemove]
  | .teardown _ => [.lock, .teardown, .unlock]
  | .clearMagic => [.clearMagic]
  | .destroyTimer t => [.stop t, .destroyTimer t caller]
  | .free => [.destroyLists, .destroyLock, .free]

theorem Section.exec_trace (env : Env) (reentry : Option Teardown) (s : Shared) (caller : Origin)
    (x : Section) :
    (x.exec env reentry s caller).1.trace = (x.accesses env s caller).reverse ++ s.trace := by
  cases x with
  | lookup iface r =>
    simp only [Section.exec, Section.accesses]
    split_ifs <;> rfl
  | onBound isRenewal =>
    simp only [Section.exec, Section.accesses]
    split_ifs <;> rfl
  | _ => rfl

/-- The sections that read `magic` before anything else. -/
def Section.checks : Section → Bool
  | .timerGuard _ => true
  | .renewGuard => true
  | .teardownGuard _ => true
  | _ => false

/-- The sections that work on a lease which an earlier section has looked up or checked. -/
def Section.unchecked : Section → Bool
  | .lookup _ _ => false
  | .timerGuard _ => false
  | .renewGuard => false
  | .teardownGuard _ => false
  | .onExpired => false
  | .onBound _ => false
  | .onError _ => false
  | _ => true

/-- Which section makes an access. -/
inductive Made (s : Shared) (caller : Origin) : Access → Section → Prop
  | lookup (iface : Iface) (r : Reply) (h : s.inTable = true) :
      Made s caller .lookup (.lookup iface r)
  | readMagic (x : Section) (h : x.checks = true) : Made s caller .readMagic x
  | locked (a : Access) (x : Section) (ha : a.underLock = true) (hx : x.unchecked = true) :
      Made s caller a x
  | onBound (isRenewal : Bool) : Made s caller .onBound (.onBound isRenewal)
  | tableRemove (how : Teardown) : Made s caller .tableRemove (.tableRemove how)
  | teardown (how : Teardown) : Made s caller .teardown (.teardown how)
  | clearMagic : Made s caller .clearMagic .clearMagic
  | stop (t : TimerKind) : Made s caller (.stop t) (.destroyTimer t)
  | destroyTimer (t : TimerKind) : Made s caller (.destroyTimer t caller) (.destroyTimer t)
  | destroyLists : Made s caller .destroyLists .free
  | destroyLock : Made s caller .destroyLock .free
  | free : Made s caller .free .free

theorem Section.made {env : Env} {s : Shared} {caller : Origin} {x : Section} {a : Access}
    (h : a ∈ x.accesses env s caller) : Made s caller a x := by
  have hlocked {work : List Access} (hwork : ∀ a ∈ work, a.underLock = true)
      (hx : x.unchecked = true) (h : a ∈ lockedAccesses work) : Made s caller a x :=
    .locked a x (lockedAccesses_underLock hwork a h) hx
  cases x with
  | lookup iface r =>
    simp only [Section.accesses] at h
    split_ifs at h with htable
    · rw [List.mem_singleton.mp h]
      exact .lookup iface r htable
    · cases h
  | datagram r msgType => exact hlocked (datagramAccesses_underLock _ _) rfl h
  | retransmit => exact hlocked (retransmitAccesses_underLock _ _) rfl h
  | leaseTimer => exact hlocked (leaseTimerAccesses_underLock _) rfl h
  | lostUnapply nak => exact hlocked (by simp [Access.underLock]) rfl h
  | lostRestart nak => exact hlocked discoveryAccesses_underLock rfl h
  | renew => exact hlocked (renewAccesses_underLock _) rfl h
  | relock => rcases List.mem_pair.mp h with rfl | rfl <;> exact .locked _ _ rfl rfl
  | timerGuard t =>
    rw [List.mem_singleton.mp h]
    exact .readMagic _ rfl
  | renewGuard =>
    rw [List.mem_singleton.mp h]
    exact .readMagic _ rfl
  | teardownGuard how =>
    rw [List.mem_singleton.mp h]
    exact .readMagic _ rfl
  | onExpired => cases h
  | onError error => cases h
  | onBound isRenewal =>
    simp only [Section.accesses] at h
    split_ifs at h
    · rw [List.mem_singleton.mp h]
      exact .onBound isRenewal
    · cases h
  | tableRemove how =>
    rw [List.mem_singleton.mp h]
    exact .tableRemove how
  | teardown how =>
    rcases List.mem_cons.mp h with rfl | h
    · exact .locked _ _ rfl rfl
    · rcases List.mem_pair.mp h with rfl | rfl
      · exact .teardown how
      · exact .locked _ _ rfl rfl
  | clearMagic =>
    rw [List.mem_singleton.mp h]
    exact .clearMagic
  | destroyTimer t =>
    rcases List.mem_pair.mp h with rfl | rfl
    · exact .stop t
    · exact .destroyTimer t
  | free =>
    rcases List.mem_cons.mp h with rfl | h
    · exact .destroyLists
    · rcases List.mem_pair.mp h with rfl | rfl
      · exact .destroyLock
      · exact .free

-- What ends the lease or a timer is not done under the lock, so its section is known.
theorem Made.of_clearMagic {s : Shared} {caller : Origin} {x : Section}
    (h : Made s caller .clearMagic x) : x = .clearMagic := by
  cases h with
  | clearMagic => rfl
  | locked _ _ ha _ => cases ha

theorem Made.of_destroyTimer {s : Shared} {caller caller' : Origin} {t : TimerKind} {x : Section}
    (h : Made s caller (.destroyTimer t caller') x) : x = .destroyTimer t ∧ caller' = caller := by
  cases h with
  | destroyTimer t => exact ⟨rfl, rfl⟩
  | locked _ _ ha _ => cases ha

theorem Made.of_free {s : Shared} {caller : Origin} {x : Section}
    (h : Made s caller .free x) : x = .free := by
  cases h with
  | free => rfl
  | locked _ _ ha _ => cases ha

-- The record is complete: a section changes no timer and no list without an access to it, ...
theorem Section.exec_accounts (env : Env) (reentry : Option Teardown) (s : Shared)
    (caller : Origin) (x : Section) :
    Accounts env (x.accesses env s caller) s.client.lease
      (x.exec env reentry s caller).1.client.lease := by
  have hsame {as : List Access} {l : Lease} (hl : l = s.client.lease)
      (has : ∀ t, .start t ∉ as) : Accounts env as s.client.lease l := by
    subst hl
    exact ⟨⟨fun t ht => absurd ht (has t), fun _ _ _ => rfl⟩, fun _ => ⟨rfl, rfl⟩⟩
  cases x with
  | lookup iface r =>
    simp only [Section.exec, Section.accesses]
    split_ifs <;> exact hsame rfl (by simp)
  | datagram r msgType => exact (datagramSection_accounts env s.client r msgType).locked
  | retransmit => exact (retransmitTimerSection_accounts env s.client).locked
  | leaseTimer => exact (leaseTimerSection_accounts env s.client).locked
  | lostUnapply nak => exact (lostUnapply_accounts env s.client).locked
  | lostRestart nak => exact (outputStartDiscovery_accounts env s.client).locked
  | renew => exact (renew_accounts env s.client).locked
  | onExpired =>
    simp only [Section.exec, callOnExpiredOrLost]
    split_ifs <;> exact hsame rfl (by simp [Section.accesses])
  | onBound isRenewal =>
    simp only [Section.exec, Section.accesses, callOnBound]
    split_ifs <;> exact hsame rfl (by simp)
  | onError error =>
    simp only [Section.exec, callOnError]
    split_ifs <;> exact hsame rfl (by simp [Section.accesses])
  | teardown how =>
    obtain ⟨route, h⟩ := teardownSection_lease env how s.client
    refine ⟨⟨fun t ht => by simp [Section.accesses] at ht, fun t _ _ => ?_⟩, fun _ => ?_⟩
    · show (teardownSection env how s.client).lease.timer t = _
      rw [h]
      cases t <;> rfl
    · show (teardownSection env how s.client).lease.dnsServers = _ ∧ _
      rw [h]
      exact ⟨rfl, by rw [Section.exec, h]⟩
  | destroyTimer t =>
    refine ⟨⟨fun t' ht => by simp [Section.accesses] at ht, fun t' _ hstop => ?_⟩, fun _ => ?_⟩
    · -- Only the timer that is destroyed is stopped.
      cases t <;> cases t' <;> first | rfl | simp [Section.accesses] at hstop
    · cases t <;> exact ⟨rfl, rfl⟩
  | _ => exact hsame rfl (by simp [Section.accesses])

-- ... and no other field without the lock.
theorem Section.exec_fields {env : Env} {reentry : Option Teardown} {s : Shared}
    {caller : Origin} {x : Section} (hfields : .fields ∉ x.accesses env s caller)
    (hteardown : .teardown ∉ x.accesses env s caller) : ∃ retransmitTimer leaseTimer,
      (x.exec env reentry s caller).1.client.lease =
        { s.client.lease with retransmitTimer, leaseTimer } := by
  have hlocked {work : List Access} (h : .fields ∉ lockedAccesses work) : False :=
    h (by simp [lockedAccesses])
  cases x with
  | lookup iface r =>
    simp only [Section.exec]
    split_ifs <;> exact ⟨_, _, rfl⟩
  | datagram r msgType => exact (hlocked hfields).elim
  | retransmit => exact (hlocked hfields).elim
  | leaseTimer => exact (hlocked hfields).elim
  | lostUnapply nak => exact (hlocked hfields).elim
  | lostRestart nak => exact (hlocked hfields).elim
  | renew => exact (hlocked hfields).elim
  | teardown how => simp [Section.accesses] at hteardown
  | onExpired =>
    simp only [Section.exec, callOnExpiredOrLost]
    split_ifs <;> exact ⟨_, _, rfl⟩
  | onBound isRenewal =>
    simp only [Section.exec, callOnBound]
    split_ifs <;> exact ⟨_, _, rfl⟩
  | onError error =>
    simp only [Section.exec, callOnError]
    split_ifs <;> exact ⟨_, _, rfl⟩
  | destroyTimer t => cases t <;> exact ⟨_, _, rfl⟩
  | _ => exact ⟨_, _, rfl⟩

-- A lease that left the table does not come back.
theorem Section.exec_inTable {env : Env} {reentry : Option Teardown} {s : Shared} {caller : Origin}
    {x : Section} (h : s.inTable = false ∨ ∃ how, x = .tableRemove how) :
    (x.exec env reentry s caller).1.inTable = false := by
  rcases h with h | ⟨how, rfl⟩
  · cases x with
    | tableRemove how => rfl
    | lookup iface r =>
      simp only [Section.exec]
      split_ifs <;> exact h
    | onBound isRenewal =>
      simp only [Section.exec]
      split_ifs <;> exact h
    | _ => exact h
  · rfl

-- `magic` is cleared for good.
theorem Section.exec_magic {env : Env} {reentry : Option Teardown} {s : Shared} {caller : Origin}
    {x : Section} : (x.exec env reentry s caller).1.magic = false ↔
    x = .clearMagic ∨ s.magic = false := by
  cases x with
  | lookup iface r =>
    simp only [Section.exec]
    split_ifs <;> simp [Shared.touch]
  | onBound isRenewal =>
    simp only [Section.exec]
    split_ifs <;> simp [Shared.touch]
  | _ => simp [Section.exec, Shared.touch, Shared.locked]

theorem Section.exec_freed {env : Env} {reentry : Option Teardown} {s : Shared} {caller : Origin}
    {x : Section} : (x.exec env reentry s caller).1.freed = true ↔ x = .free ∨ s.freed = true := by
  cases x with
  | lookup iface r =>
    simp only [Section.exec]
    split_ifs <;> simp [Shared.touch]
  | onBound isRenewal =>
    simp only [Section.exec]
    split_ifs <;> simp [Shared.touch]
  | _ => simp [Section.exec, Shared.touch, Shared.locked]

/-! ### The small network again, section by section -/

/-- Thread `i` runs its next `n` sections. -/
def runSections (i n : Nat) (env : Env) : List MachineEvent :=
  List.replicate n (.advance i env none)

/-- A message from the server of the small network. -/
def serverMessage (msgType : MsgType) (xid : UInt32) : MachineEvent :=
  .datagram 1 (replyPayload msgType xid ⟨10, 0, 0, 5⟩ (grantOptions ⟨10, 0, 0, 1⟩ 3600))

/-- OFFER, clean probe and ACK, on threads 0 to 2. -/
def ackEvents : List MachineEvent :=
  [serverMessage .offer 7] ++ runSections 0 2 (quietEnv 7) ++
    [.fire .retransmit false] ++ runSections 1 2 (quietEnv 7) ++
    [serverMessage .ack 7] ++ runSections 2 2 (quietEnv 7)

/-- The same, and the final probe on thread 3. -/
def boundEvents : List MachineEvent :=
  ackEvents ++ [.fire .retransmit false] ++ runSections 3 4 (quietEnv 7)

end Dmdhcp
