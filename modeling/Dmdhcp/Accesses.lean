import Dmdhcp.StateMachine

/-!
# What the code does to a lease

The operations on the mutex, the timers, the lists and the fields of a lease, as the locked sections
of its code make them, in the order of the source.  Nothing can be done to a lease that is not one
of them, so what must not happen to a destroyed lease is said about these.
-/

namespace Dmdhcp

inductive TimerKind
  | retransmit
  | lease
  deriving DecidableEq, Repr

/-- The thread an operation runs on. -/
inductive Origin
  | rx
  | timer (t : TimerKind)
  | app
  deriving DecidableEq, Repr

/-- An operation on a lease; and the delivery of `on_bound`, which is none. -/
inductive Access
  /-- `compare_by_xid`, on an entry of the table. -/
  | lookup
  | readMagic
  | lock
  | unlock
  /-- Its fields, read or written with the lock held. -/
  | fields
  /-- The entries of `dns_servers` and `ntp_servers`, likewise. -/
  | lists
  | setPeriod (t : TimerKind)
  | start (t : TimerKind)
  | tableRemove
  /-- The fields, in the locked section of `dmdhcp_stop` or `dmdhcp_release`. -/
  | teardown
  | clearMagic
  | stop (t : TimerKind)
  | destroyTimer (t : TimerKind) (caller : Origin)
  /-- `dmlist_destroy`, of both lists and with their entries. -/
  | destroyLists
  | destroyLock
  | free
  | onBound
  deriving DecidableEq, Repr

/-- What is done between `dmosi_mutex_lock` and `dmosi_mutex_unlock`, these included. -/
def Access.underLock : Access → Bool
  | .lock => true
  | .unlock => true
  | .fields => true
  | .lists => true
  | .setPeriod _ => true
  | .start _ => true
  | _ => false

/-! ### The locked sections -/

/-- `dmosi_timer_set_period` and `dmosi_timer_start`. -/
def armAccesses (t : TimerKind) : List Access := [.setPeriod t, .start t]

/-- From `dmosi_mutex_lock` to `dmosi_mutex_unlock`, with `work` on the lists and timers. -/
def lockedAccesses (work : List Access) : List Access := [.lock, .fields] ++ work ++ [.unlock]

/-- Both lists are emptied, and the retransmit timer runs from the DISCOVER. -/
def discoveryAccesses : List Access := .lists :: armAccesses .retransmit

def conflictAccesses (l : Lease) : List Access :=
  if l.declineRetryCount + 1 > maxDeclineRetries then [] else armAccesses .retransmit

def probeAccesses (env : Env) (l : Lease) : List Access :=
  if env.arpReply then conflictAccesses l
  else if l.state = .checkingOffer then armAccesses .retransmit
  else armAccesses .lease

def resendAccesses (l : Lease) : List Access :=
  if l.retransmitCount + 1 > maxRequestRetransmits then discoveryAccesses
  else armAccesses .retransmit

/-- The `switch` of `retransmit_timer_callback`. -/
def retransmitAccesses (env : Env) (l : Lease) : List Access :=
  match l.state with
  | .selecting => armAccesses .retransmit
  | .requesting => resendAccesses l
  | .rebooting => resendAccesses l
  | .renewing => armAccesses .retransmit
  | .rebinding => armAccesses .retransmit
  | .checkingOffer => probeAccesses env l
  | .checkingAck => probeAccesses env l
  | .declining => discoveryAccesses
  | .init => []
  | .initReboot => []
  | .bound => []
  | .failed => []

def leaseTimerAccesses (l : Lease) : List Access :=
  if l.state = .bound then armAccesses .retransmit ++ armAccesses .lease
  else if l.state = .renewing then armAccesses .retransmit ++ armAccesses .lease
  else []

def datagramAccesses (msgType : UInt8) (l : Lease) : List Access :=
  let state := l.state
  -- Both lists are filled anew from the options.
  if msgType = MsgType.offer.toByte ∧ state = .selecting then
    .lists :: armAccesses .retransmit
  else if msgType = MsgType.ack.toByte ∧ (state = .requesting ∨ state = .rebooting) then
    .lists :: armAccesses .retransmit
  else if msgType = MsgType.nak.toByte ∧ (state = .requesting ∨ state = .rebooting) then
    discoveryAccesses
  else if msgType = MsgType.ack.toByte ∧ (state = .renewing ∨ state = .rebinding) then
    .lists :: armAccesses .lease
  else []

def renewAccesses (l : Lease) : List Access :=
  if l.state = .bound then armAccesses .retransmit else []

theorem armAccesses_underLock (t : TimerKind) : ∀ a ∈ armAccesses t, a.underLock = true := by
  simp [armAccesses, Access.underLock]

theorem discoveryAccesses_underLock : ∀ a ∈ discoveryAccesses, a.underLock = true := by
  simp [discoveryAccesses, armAccesses, Access.underLock]

theorem resendAccesses_underLock (l : Lease) : ∀ a ∈ resendAccesses l, a.underLock = true := by
  unfold resendAccesses
  split_ifs
  · exact discoveryAccesses_underLock
  · exact armAccesses_underLock _

theorem probeAccesses_underLock (env : Env) (l : Lease) :
    ∀ a ∈ probeAccesses env l, a.underLock = true := by
  unfold probeAccesses conflictAccesses
  split_ifs
  · simp
  all_goals exact armAccesses_underLock _

theorem retransmitAccesses_underLock (env : Env) (l : Lease) :
    ∀ a ∈ retransmitAccesses env l, a.underLock = true := by
  unfold retransmitAccesses
  cases l.state with
  | selecting => exact armAccesses_underLock _
  | requesting => exact resendAccesses_underLock l
  | rebooting => exact resendAccesses_underLock l
  | renewing => exact armAccesses_underLock _
  | rebinding => exact armAccesses_underLock _
  | checkingOffer => exact probeAccesses_underLock env l
  | checkingAck => exact probeAccesses_underLock env l
  | declining => exact discoveryAccesses_underLock
  | _ => simp

theorem leaseTimerAccesses_underLock (l : Lease) :
    ∀ a ∈ leaseTimerAccesses l, a.underLock = true := by
  unfold leaseTimerAccesses
  split_ifs <;> simp [armAccesses, Access.underLock]

theorem datagramAccesses_underLock (msgType : UInt8) (l : Lease) :
    ∀ a ∈ datagramAccesses msgType l, a.underLock = true := by
  unfold datagramAccesses
  dsimp only
  split_ifs <;> simp [discoveryAccesses, armAccesses, Access.underLock]

theorem renewAccesses_underLock (l : Lease) : ∀ a ∈ renewAccesses l, a.underLock = true := by
  unfold renewAccesses
  split_ifs
  · exact armAccesses_underLock _
  · simp

theorem lockedAccesses_underLock {work : List Access} (h : ∀ a ∈ work, a.underLock = true) :
    ∀ a ∈ lockedAccesses work, a.underLock = true := by
  intro a ha
  rcases List.mem_append.mp ha with ha | ha
  · rcases List.mem_append.mp ha with ha | ha
    · rcases List.mem_pair.mp ha with rfl | rfl <;> rfl
    · exact h a ha
  · rw [List.mem_singleton.mp ha]
    rfl

/-! ### Nothing is left out -/

def Lease.timer (l : Lease) : TimerKind → Timer
  | .retransmit => l.retransmitTimer
  | .lease => l.leaseTimer

/-- A timer is started at `now` if that is among the operations, and left alone if neither that nor
stopping it is. -/
structure TimersAccounted (env : Env) (as : List Access) (l l' : Lease) : Prop where
  started : ∀ t, .start t ∈ as → ∃ periodMs, l'.timer t = .arm env.now periodMs
  kept : ∀ t, .start t ∉ as → .stop t ∉ as → l'.timer t = l.timer t

/-- What changes of the timers and the lists is among the operations. -/
structure Accounts (env : Env) (as : List Access) (l l' : Lease) : Prop where
  timers : TimersAccounted env as l l'
  lists : .lists ∉ as → l'.dnsServers = l.dnsServers ∧ l'.ntpServers = l.ntpServers

section
variable {env : Env} {as : List Access} {l l' : Lease} {periodMs periodMs' : UInt32}

theorem TimersAccounted.nothing (hretransmit : l'.retransmitTimer = l.retransmitTimer)
    (hlease : l'.leaseTimer = l.leaseTimer) : TimersAccounted env [] l l' := by
  refine ⟨fun t ht => absurd ht List.not_mem_nil, fun t _ _ => ?_⟩
  cases t with
  | retransmit => exact hretransmit
  | lease => exact hlease

-- Arming one timer leaves the other alone.
theorem TimersAccounted.arm {t : TimerKind} (hstart : l'.timer t = .arm env.now periodMs)
    (hother : ∀ t' ≠ t, l'.timer t' = l.timer t') :
    TimersAccounted env (armAccesses t) l l' := by
  refine ⟨fun t' ht' => ?_, fun t' ht' _ => hother t' ?_⟩
  · have heq : t' = t := by simpa [armAccesses] using ht'
    rw [heq]
    exact ⟨periodMs, hstart⟩
  · rintro rfl
    simp [armAccesses] at ht'

theorem TimersAccounted.armRetransmit (hretransmit : l'.retransmitTimer = .arm env.now periodMs)
    (hlease : l'.leaseTimer = l.leaseTimer) :
    TimersAccounted env (armAccesses .retransmit) l l' := by
  refine .arm hretransmit fun t' ht' => ?_
  cases t' with
  | retransmit => exact absurd rfl ht'
  | lease => exact hlease

theorem TimersAccounted.armLease (hretransmit : l'.retransmitTimer = l.retransmitTimer)
    (hlease : l'.leaseTimer = .arm env.now periodMs) :
    TimersAccounted env (armAccesses .lease) l l' := by
  refine .arm hlease fun t' ht' => ?_
  cases t' with
  | retransmit => exact hretransmit
  | lease => exact absurd rfl ht'

theorem TimersAccounted.armBoth (hretransmit : l'.retransmitTimer = .arm env.now periodMs)
    (hlease : l'.leaseTimer = .arm env.now periodMs') :
    TimersAccounted env (armAccesses .retransmit ++ armAccesses .lease) l l' := by
  refine ⟨fun t _ => ?_, fun t ht _ => ?_⟩
  · cases t with
    | retransmit => exact ⟨periodMs, hretransmit⟩
    | lease => exact ⟨periodMs', hlease⟩
  · cases t <;> simp [armAccesses] at ht

-- With work on the lists, nothing is said of them.
theorem TimersAccounted.withLists (h : TimersAccounted env as l l') :
    Accounts env (.lists :: as) l l' := by
  refine ⟨⟨fun t ht => h.started t ?_, fun t ht hstop => h.kept t ?_ ?_⟩, fun hno => ?_⟩
  · simpa using ht
  · simpa using ht
  · simpa using hstop
  · exact absurd List.mem_cons_self hno

theorem Accounts.locked (h : Accounts env as l l') : Accounts env (lockedAccesses as) l l' := by
  refine ⟨⟨fun t ht => h.timers.started t ?_, fun t ht hstop => h.timers.kept t ?_ ?_⟩,
    fun hno => h.lists ?_⟩
  · simpa [lockedAccesses] using ht
  · simpa [lockedAccesses] using ht
  · simpa [lockedAccesses] using hstop
  · simpa [lockedAccesses] using hno

end

section
variable (env : Env) (c : Client)

theorem Accounts.nothing : Accounts env [] c.lease c.lease :=
  ⟨.nothing rfl rfl, fun _ => ⟨rfl, rfl⟩⟩

theorem outputStartDiscovery_accounts :
    Accounts env discoveryAccesses c.lease (outputStartDiscovery env c).lease := by
  rw [outputStartDiscovery_lease]
  exact TimersAccounted.withLists (.armRetransmit rfl rfl)

theorem acceptForProbe_accounts (r : Reply) (next : State) :
    Accounts env (.lists :: armAccesses .retransmit) c.lease
      (acceptForProbe env r next c).lease := by
  rw [acceptForProbe_lease]
  exact TimersAccounted.withLists (.armRetransmit rfl rfl)

theorem acceptRenewal_accounts (r : Reply) :
    Accounts env (.lists :: armAccesses .lease) c.lease (acceptRenewal env r c).lease := by
  obtain ⟨configured, route, h⟩ :=
    commitLease_lease env (c.update (populateLeaseFromOptions env r.msg r.options))
  rw [acceptRenewal, h]
  exact TimersAccounted.withLists (.armLease rfl rfl)

theorem commitLease_accounts :
    Accounts env (armAccesses .lease) c.lease (commitLease env c).lease := by
  obtain ⟨configured, route, h⟩ := commitLease_lease env c
  rw [h]
  exact ⟨.armLease rfl rfl, fun _ => ⟨rfl, rfl⟩⟩

-- A resend: whatever was sent before, only the backoff and its timer change.
theorem rearmBackoff_accounts {l : Lease} (hlease : c.lease.leaseTimer = l.leaseTimer)
    (hdns : c.lease.dnsServers = l.dnsServers) (hntp : c.lease.ntpServers = l.ntpServers) :
    Accounts env (armAccesses .retransmit) l (rearmBackoff env c).lease := by
  rw [rearmBackoff_lease]
  exact ⟨.armRetransmit rfl hlease, fun _ => ⟨hdns, hntp⟩⟩

theorem resendRequest_accounts :
    Accounts env (resendAccesses c.lease) c.lease (resendRequest env c).lease := by
  unfold resendAccesses
  split_ifs with hcount
  · rw [show resendRequest env c = outputStartDiscovery env (c.update _) from if_pos hcount,
      outputStartDiscovery_lease]
    exact TimersAccounted.withLists (.armRetransmit rfl rfl)
  · rw [show resendRequest env c = rearmBackoff env _ from if_neg hcount]
    apply rearmBackoff_accounts <;> split_ifs <;> simp [sendRequestSelecting, sendRequestReboot]

theorem handleConflict_accounts :
    Accounts env (conflictAccesses c.lease) c.lease (handleConflict env c).1.lease := by
  unfold handleConflict conflictAccesses
  by_cases hcount : c.lease.declineRetryCount + 1 > maxDeclineRetries
  · simp only [sendDecline, Client.update_lease, sendMessage_lease, if_pos hcount]
    exact ⟨.nothing rfl rfl, fun _ => ⟨rfl, rfl⟩⟩
  · simp only [sendDecline, Client.update_lease, sendMessage_lease, if_neg hcount,
      Client.armRetransmit]
    exact ⟨.armRetransmit rfl rfl, fun _ => ⟨rfl, rfl⟩⟩

theorem runConflictProbe_accounts :
    Accounts env (probeAccesses env c.lease) c.lease (runConflictProbe env c).1.lease := by
  let c' := c.emit (.probe c.lease.offeredIp env.arpReply)
  unfold probeAccesses
  split_ifs with harp hs
  · rw [show runConflictProbe env c = handleConflict env c' from if_pos harp]
    exact handleConflict_accounts env c'
  · rw [show runConflictProbe env c = (requestOffered env c', .done) from
      (if_neg harp).trans (if_pos hs), requestOffered_lease]
    exact ⟨.armRetransmit rfl rfl, fun _ => ⟨rfl, rfl⟩⟩
  · rw [show runConflictProbe env c = (commitLease env c', .onBound false) from
      (if_neg harp).trans (if_neg hs)]
    exact commitLease_accounts env c'

theorem retransmitTimerSection_accounts :
    Accounts env (retransmitAccesses env c.lease) c.lease
      (retransmitTimerSection env c).1.lease := by
  unfold retransmitTimerSection retransmitAccesses
  cases c.lease.state with
  | selecting => apply rearmBackoff_accounts <;> simp [sendDiscover]
  | requesting => exact resendRequest_accounts env c
  | rebooting => exact resendRequest_accounts env c
  | renewing => apply rearmBackoff_accounts <;> simp [sendRequestRenew]
  | rebinding => apply rearmBackoff_accounts <;> simp [sendRequestRebind]
  | checkingOffer => exact runConflictProbe_accounts env c
  | checkingAck => exact runConflictProbe_accounts env c
  | declining => exact outputStartDiscovery_accounts env c
  | _ => exact .nothing env c

theorem leaseTimerSection_accounts :
    Accounts env (leaseTimerAccesses c.lease) c.lease (leaseTimerSection env c).1.lease := by
  unfold leaseTimerSection leaseTimerAccesses
  by_cases hbound : c.lease.state = .bound
  · simp only [if_pos hbound, outputStartRenew_armT2_lease]
    exact ⟨.armBoth rfl rfl, fun _ => ⟨rfl, rfl⟩⟩
  by_cases hrenewing : c.lease.state = .renewing
  · simp only [if_neg hbound, if_pos hrenewing, outputStartRebind_armExpiry_lease]
    exact ⟨.armBoth rfl rfl, fun _ => ⟨rfl, rfl⟩⟩
  · simp only [if_neg hbound, if_neg hrenewing]
    split_ifs <;> exact .nothing env c

theorem datagramSection_accounts (r : Reply) (msgType : UInt8) :
    Accounts env (datagramAccesses msgType c.lease) c.lease
      (datagramSection env r msgType c).1.lease := by
  unfold datagramSection datagramAccesses
  dsimp only
  split_ifs
  · exact acceptForProbe_accounts env c r _
  · exact acceptForProbe_accounts env c r _
  · exact outputStartDiscovery_accounts env c
  · exact acceptRenewal_accounts env c r
  · exact .nothing env c
  · exact .nothing env c

theorem renew_accounts : Accounts env (renewAccesses c.lease) c.lease (c.renew env).lease := by
  unfold Client.renew renewAccesses
  by_cases hbound : c.lease.state = .bound
  · simp only [if_pos hbound, outputStartRenew_lease]
    exact ⟨.armRetransmit rfl rfl, fun _ => ⟨rfl, rfl⟩⟩
  · simp only [if_neg hbound]
    exact .nothing env c

theorem lostUnapply_accounts : Accounts env [.lists] c.lease (lostUnapply env c).lease := by
  obtain ⟨route, h⟩ := lostUnapply_lease env c
  rw [h]
  exact TimersAccounted.withLists (.nothing rfl rfl)

end

end Dmdhcp
