import Dmdhcp.Traced

/-!
# The lock discipline

Some functions are entered with the lease locked and left with it locked, some do their own locking,
and some drop the lock around a handler.  What each of them does to the mutexes is one lemma, and the
discipline of every operation follows from these.
-/

namespace Dmdhcp.Traced

open Locking

/-! ## 1. Every function keeps the discipline -/

section
variable {α : Type} {held : List Mutex}

theorem lease_keeps (id : LeaseId) : Keeps lockDiscipline held held (lease id) :=
  .bind .read fun _ => .pure _

theorem onLease_keeps (id : LeaseId) (f : Client → Client) :
    Keeps lockDiscipline held held (onLease id f) := .write _

theorem lockTable_keeps : Keeps lockDiscipline [] [.table] (lock .table : Code Unit) :=
  .lock List.not_mem_nil rfl

theorem lockLease_keeps (id : LeaseId) :
    Keeps lockDiscipline [] [.lease id] (lock (.lease id) : Code Unit) :=
  .lock List.not_mem_nil rfl

-- Below the table mutex.
theorem lockListed_keeps (id : LeaseId) :
    Keeps lockDiscipline [.table] [.lease id, .table] (lock (.lease id) : Code Unit) :=
  .lock (by simp) rfl

theorem withLease_keeps {handle : Option LeaseId} {invalid : α} {body : LeaseId → Code α}
    (h : ∀ id, Keeps lockDiscipline [] [] (body id)) :
    Keeps lockDiscipline [] [] (withLease handle invalid body) := by
  unfold withLease
  cases handle with
  | none => exact .pure _
  | some id => exact .bind .read fun w => .ite (h id) (.pure _)

theorem readLocked_keeps (id : LeaseId) (f : Lease → α) :
    Keeps lockDiscipline [] [] (readLocked id f) := by
  unfold readLocked
  apply Keeps.bind (lockLease_keeps id)
  intro _
  apply Keeps.bind (lease_keeps id)
  intro c
  apply Keeps.bind .unlock
  intro _
  exact .pure _

-- One section that changes the lease.
theorem lockedWrite_keeps (id : LeaseId) (f : World → Client → Client) (a : α) :
    Keeps lockDiscipline [] [] (do
      lock (.lease id)
      let w ← read
      onLease id (f w)
      unlock (.lease id)
      return a) := by
  apply Keeps.bind (lockLease_keeps id)
  intro _
  apply Keeps.bind .read
  intro w
  apply Keeps.bind (onLease_keeps id _)
  intro _
  apply Keeps.bind .unlock
  intro _
  exact .pure _

theorem ignore_keeps {p : Code α} (h : Keeps lockDiscipline [] [] p) :
    Keeps lockDiscipline [] [] (ignore p) := .bind h fun _ => .pure _

end

theorem copyAllNtpServers_keeps (maxCount : Nat) (ids : List LeaseId) (s : List Addr × Nat) :
    Keeps lockDiscipline [.table] [.table] (copyAllNtpServers maxCount ids s) := by
  induction ids generalizing s with
  | nil => exact .pure _
  | cons id rest ih =>
    unfold copyAllNtpServers
    apply Keeps.ite _ (.pure _)
    apply Keeps.bind .read
    intro w
    apply Keeps.ite _ (ih s)
    -- The lease is unlocked before the next one is locked.
    apply Keeps.bind (lockListed_keeps id)
    intro _
    apply Keeps.bind (lease_keeps id)
    intro c
    apply Keeps.bind .unlock
    intro _
    exact ih _

theorem getNtpServers_keeps (out : Option (List Addr)) (maxCount : Nat) :
    Keeps lockDiscipline [] [] (getNtpServers out maxCount) := by
  unfold getNtpServers
  cases out with
  | none => exact .pure _
  | some out =>
    apply Keeps.ite (.pure _)
    apply Keeps.bind lockTable_keeps
    intro _
    apply Keeps.bind .read
    intro w
    apply Keeps.bind (copyAllNtpServers_keeps maxCount w.table (out, 0))
    intro s
    apply Keeps.bind .unlock
    intro _
    exact .pure _

theorem serverAt_keeps (list : Lease → List Addr) (handle : Option LeaseId) (index : Nat)
    (out : Bool) : Keeps lockDiscipline [] [] (serverAt list handle index out) :=
  .ite (withLease_keeps fun id => readLocked_keeps id _) (.pure _)

theorem PlainOp.run_keeps (op : PlainOp) : Keeps lockDiscipline [] [] op.run := by
  cases op with
  | getState handle => exact ignore_keeps (withLease_keeps fun id => readLocked_keeps id _)
  | getIface handle =>
    exact ignore_keeps (withLease_keeps fun id => .bind (lease_keeps id) fun _ => .pure _)
  | getUserData handle => exact ignore_keeps (withLease_keeps fun id => readLocked_keeps id _)
  | getXid handle => exact ignore_keeps (withLease_keeps fun id => readLocked_keeps id _)
  | getLeaseInfo handle out =>
    exact ignore_keeps (.ite (withLease_keeps fun id => readLocked_keeps id _) (.pure _))
  | getDnsServerCount handle => exact ignore_keeps (withLease_keeps fun id => readLocked_keeps id _)
  | getDnsServer handle index out => exact ignore_keeps (serverAt_keeps _ handle index out)
  | getNtpServerCount handle => exact ignore_keeps (withLease_keeps fun id => readLocked_keeps id _)
  | getNtpServer handle index out => exact ignore_keeps (serverAt_keeps _ handle index out)
  | getNtpServers out maxCount => exact ignore_keeps (getNtpServers_keeps out maxCount)
  | setCallbacks handle callbacks userData =>
    refine ignore_keeps (withLease_keeps fun id => ?_)
    apply Keeps.bind (lockLease_keeps id)
    intro _
    apply Keeps.bind (onLease_keeps id _)
    intro _
    exact .bind .unlock fun _ => .pure _
  | renew handle =>
    exact ignore_keeps (withLease_keeps fun id =>
      lockedWrite_keeps id (fun w => Client.renew w.env) (Except.ok () : Except Errno Unit))

theorem runScript_keeps (ops : List PlainOp) : Keeps lockDiscipline [] [] (runScript ops) := by
  induction ops with
  | nil => exact .pure _
  | cons op ops ih => exact .bind op.run_keeps fun _ => ih

-- A handler is called with nothing held, and what it does takes and drops its own locks.
theorem invoke_keeps (isSet : Bool) (id : LeaseId) (handler : Handler) :
    Keeps lockDiscipline [] [] (invoke isSet id handler) := by
  unfold invoke
  apply Keeps.ite _ (.pure _)
  apply Keeps.bind (.call rfl)
  intro _
  apply Keeps.bind (onLease_keeps id _)
  intro _
  exact .bind .read fun w => runScript_keeps w.script

-- The lock is dropped around a handler and taken again.
theorem invokeUnlocked_keeps (isSet : Bool) (id : LeaseId) (handler : Handler) :
    Keeps lockDiscipline [.lease id] [.lease id] (do
      unlock (.lease id)
      invoke isSet id handler
      lock (.lease id)) := by
  apply Keeps.bind .unlock
  intro _
  apply Keeps.bind (invoke_keeps isSet id handler)
  intro _
  exact lockLease_keeps id

theorem handleConflict_keeps (id : LeaseId) :
    Keeps lockDiscipline [.lease id] [.lease id] (handleConflict id) := by
  unfold handleConflict
  apply Keeps.bind .read
  intro w
  apply Keeps.bind (onLease_keeps id _)
  intro _
  apply Keeps.bind (lease_keeps id)
  intro c
  apply Keeps.ite
  · exact .bind (onLease_keeps id _) fun _ => invokeUnlocked_keeps _ id _
  · exact onLease_keeps id _

theorem runConflictProbe_keeps (id : LeaseId) :
    Keeps lockDiscipline [.lease id] [.lease id] (runConflictProbe id) := by
  unfold runConflictProbe
  apply Keeps.bind .read
  intro w
  apply Keeps.bind (onLease_keeps id _)
  intro _
  apply Keeps.bind (lease_keeps id)
  intro c
  -- A conflict, an accepted offer and a bound lease: only the middle one keeps the lock throughout.
  apply Keeps.ite (handleConflict_keeps id)
  apply Keeps.ite (onLease_keeps id _)
  exact .bind (onLease_keeps id _) fun _ => invokeUnlocked_keeps _ id _

theorem retransmitSwitch_keeps (id : LeaseId) :
    Keeps lockDiscipline [.lease id] [.lease id] (retransmitSwitch id) := by
  unfold retransmitSwitch
  apply Keeps.bind .read
  intro w
  -- Only the two states with a probe can drop the lock in between.
  cases (w.leases id).lease.state with
  | checkingOffer => exact runConflictProbe_keeps id
  | checkingAck => exact runConflictProbe_keeps id
  | init => exact .pure _
  | initReboot => exact .pure _
  | bound => exact .pure _
  | failed => exact .pure _
  | _ => exact onLease_keeps id _

theorem retransmitTimerCallback_keeps (id : LeaseId) :
    Keeps lockDiscipline [] [] (retransmitTimerCallback id) := by
  unfold retransmitTimerCallback
  apply withLease_keeps
  intro id
  apply Keeps.bind (lockLease_keeps id)
  intro _
  exact .bind (retransmitSwitch_keeps id) fun _ => .unlock

theorem lifecycleHandleLost_keeps (id : LeaseId) :
    Keeps lockDiscipline [] [] (lifecycleHandleLost id) := by
  unfold lifecycleHandleLost
  apply Keeps.bind (lockLease_keeps id)
  intro _
  apply Keeps.bind .read
  intro w
  apply Keeps.bind (onLease_keeps id _)
  intro _
  apply Keeps.bind (lease_keeps id)
  intro c
  apply Keeps.bind .unlock
  intro _
  -- Between its two sections the lost path holds nothing.
  apply Keeps.bind (invoke_keeps _ id _)
  intro _
  apply Keeps.bind (lockLease_keeps id)
  intro _
  apply Keeps.bind .read
  intro w
  exact .bind (onLease_keeps id _) fun _ => .unlock

theorem leaseTimerCallback_keeps (id : LeaseId) :
    Keeps lockDiscipline [] [] (leaseTimerCallback id) := by
  unfold leaseTimerCallback
  apply withLease_keeps
  intro id
  apply Keeps.bind (lockLease_keeps id)
  intro _
  apply Keeps.bind .read
  intro w
  -- Every branch has an `unlock` of its own.
  apply Keeps.ite (.bind (onLease_keeps id _) fun _ => .unlock)
  apply Keeps.ite (.bind (onLease_keeps id _) fun _ => .unlock)
  apply Keeps.ite (.bind .unlock fun _ => lifecycleHandleLost_keeps id)
  exact .unlock

theorem dispatch_keeps (id : LeaseId) (r : Reply) (msgType : UInt8) :
    Keeps lockDiscipline [] [] (dispatch id r msgType) := by
  unfold dispatch
  apply Keeps.bind (lockLease_keeps id)
  intro _
  apply Keeps.bind .read
  intro w
  apply Keeps.ite (.bind (onLease_keeps id _) fun _ => .unlock)
  apply Keeps.ite (.bind (onLease_keeps id _) fun _ => .unlock)
  apply Keeps.ite (.bind (onLease_keeps id _) fun _ => .unlock)
  apply Keeps.ite
  -- A renewal: the handler is called after the lock is dropped, and it is not taken again.
  · apply Keeps.bind (onLease_keeps id _)
    intro _
    exact .bind .unlock fun _ => invoke_keeps _ id _
  apply Keeps.ite (.bind .unlock fun _ => lifecycleHandleLost_keeps id)
  exact .unlock

theorem findByXid_keeps (iface : Iface) (xid : UInt32) :
    Keeps lockDiscipline [] [] (findByXid iface xid) := by
  unfold findByXid
  apply Keeps.bind lockTable_keeps
  intro _
  apply Keeps.bind .read
  intro w
  exact .bind .unlock fun _ => .pure _

theorem handleDatagram_keeps (iface : Iface) (payload : List UInt8) :
    Keeps lockDiscipline [] [] (handleDatagram iface payload) := by
  unfold handleDatagram
  cases parseReply payload with
  | none => exact .pure _
  | some r =>
    -- The table mutex is dropped before the lease is locked.
    apply Keeps.bind (findByXid_keeps iface r.msg.xid)
    intro found
    cases found with
    | none => exact .pure _
    | some id =>
      cases messageType r.options with
      | none => exact .pure _
      | some msgType => exact dispatch_keeps id r msgType

theorem insert_keeps (id : LeaseId) : Keeps lockDiscipline [] [] (insert id) := by
  unfold insert
  apply Keeps.bind lockTable_keeps
  intro _
  apply Keeps.bind .read
  intro w
  apply Keeps.bind (.write _)
  intro _
  exact .bind .unlock fun _ => .pure _

theorem remove_keeps (id : LeaseId) : Keeps lockDiscipline [] [] (remove id) := by
  unfold remove
  apply Keeps.bind lockTable_keeps
  intro _
  exact .bind (.write _) fun _ => .unlock

theorem create_keeps (iface : Iface) (netif : Netif) (callbacks : Option Callbacks)
    (userData : Nat) (options : Option StartOptions) :
    Keeps lockDiscipline [] [] (create iface netif callbacks userData options) := by
  unfold create
  apply Keeps.bind .read
  intro w
  cases w.fresh with
  | none => exact .pure _
  | some id => exact .bind (.write _) fun _ => .pure _

theorem start_keeps (iface : Option Iface) (netif : Netif) (callbacks : Option Callbacks)
    (userData : Nat) (options : Option StartOptions) :
    Keeps lockDiscipline [] [] (start iface netif callbacks userData options) := by
  unfold start
  cases iface with
  | none => exact .pure _
  | some iface =>
    apply Keeps.bind (create_keeps iface netif callbacks userData options)
    intro created
    cases created with
    | none => exact .pure _
    | some id =>
      apply Keeps.bind (insert_keeps id)
      intro result
      apply Keeps.ite
      -- The lease is locked only once it is in the table.
      · exact lockedWrite_keeps id (fun w => startSection w.env options) (some id)
      · exact .bind (.write _) fun _ => .pure _

theorem release_keeps (handle : Option LeaseId) :
    Keeps lockDiscipline [] [] (release handle) := by
  unfold release
  apply withLease_keeps
  intro id
  apply Keeps.bind (remove_keeps id)
  intro _
  apply Keeps.bind (lockLease_keeps id)
  intro _
  apply Keeps.bind .read
  intro w
  apply Keeps.bind (onLease_keeps id _)
  intro _
  apply Keeps.bind .unlock
  intro _
  exact .bind (.write _) fun _ => .pure _

theorem stop_keeps (handle : Option LeaseId) : Keeps lockDiscipline [] [] (stop handle) := by
  unfold stop
  apply withLease_keeps
  intro id
  apply Keeps.bind (remove_keeps id)
  intro _
  apply Keeps.bind (lockLease_keeps id)
  intro _
  apply Keeps.bind .read
  intro w
  apply Keeps.bind (onLease_keeps id _)
  intro _
  exact .bind .unlock fun _ => .write _

section
variable {τ : Type}

theorem sinkDns_keeps (visit : τ → Addr → τ) (id : LeaseId) (servers : List Addr) (ctx : τ) :
    Keeps lockDiscipline [.lease id, .table] [.lease id, .table] (sinkDns visit id servers ctx) := by
  induction servers generalizing ctx with
  | nil => exact .pure _
  | cons a rest ih => exact .bind (.call (by simp [lockDiscipline])) fun _ => ih _

theorem sinkNtp_keeps (visit : τ → Ipv4 → Int × τ) (id : LeaseId) (servers : List Addr) (ctx : τ) :
    Keeps lockDiscipline [.lease id, .table] [.lease id, .table] (sinkNtp visit id servers ctx) := by
  induction servers generalizing ctx with
  | nil => exact .pure _
  | cons a rest ih =>
    cases a with
    | none => exact ih ctx
    | v6 a => exact ih ctx
    | v4 a =>
      apply Keeps.bind (.call (by simp [lockDiscipline]))
      intro _
      -- A sink that does not return 0 ends the loop, not the locks.
      exact .ite (.pure _) (ih _)

theorem visitEach_keeps {visitLease : LeaseId → τ → Code τ}
    (h : ∀ id ctx, Keeps lockDiscipline [.lease id, .table] [.lease id, .table] (visitLease id ctx))
    (ids : List LeaseId) (ctx : τ) :
    Keeps lockDiscipline [.table] [.table] (visitEach visitLease ids ctx) := by
  induction ids generalizing ctx with
  | nil => exact .pure _
  | cons id rest ih =>
    unfold visitEach
    apply Keeps.bind .read
    intro w
    apply Keeps.ite _ (ih ctx)
    apply Keeps.bind (lockListed_keeps id)
    intro _
    apply Keeps.bind (h id ctx)
    intro ctx'
    exact .bind .unlock fun _ => ih ctx'

theorem visitTable_keeps {visitLease : LeaseId → τ → Code τ}
    (h : ∀ id ctx, Keeps lockDiscipline [.lease id, .table] [.lease id, .table] (visitLease id ctx))
    (ctx : τ) : Keeps lockDiscipline [] [] (visitTable visitLease ctx) := by
  unfold visitTable
  apply Keeps.bind lockTable_keeps
  intro _
  apply Keeps.bind .read
  intro w
  apply Keeps.bind (visitEach_keeps h w.table ctx)
  intro ctx'
  exact .bind .unlock fun _ => .pure _

theorem visitDnsServers_keeps (visit : τ → Addr → τ) (ctx : τ) :
    Keeps lockDiscipline [] [] (visitDnsServers visit ctx) :=
  visitTable_keeps (fun id ctx => .bind (lease_keeps id) fun _ =>
    .ite (sinkDns_keeps visit id _ ctx) (.pure _)) ctx

theorem visitNtpServers_keeps (visit : τ → Ipv4 → Int × τ) (ctx : τ) :
    Keeps lockDiscipline [] [] (visitNtpServers visit ctx) :=
  visitTable_keeps (fun id ctx => .bind (lease_keeps id) fun _ =>
    .ite (sinkNtp_keeps visit id _ ctx) (.pure _)) ctx

end

/-! ## 2. The discipline of every operation -/

/-- What a thread can be asked to do: the public operations, an inbound datagram, the fire of a timer,
and the requests of the DNS and NTP modules. -/
inductive Op : Type 1
  | plain (op : PlainOp)
  | start (iface : Option Iface) (netif : Netif) (callbacks : Option Callbacks) (userData : Nat)
      (options : Option StartOptions)
  | release (handle : Option LeaseId)
  | stop (handle : Option LeaseId)
  | datagram (iface : Iface) (payload : List UInt8)
  | retransmitTimer (id : LeaseId)
  | leaseTimer (id : LeaseId)
  | visitDns (τ : Type) (visit : τ → Addr → τ) (ctx : τ)
  | visitNtp (τ : Type) (visit : τ → Ipv4 → Int × τ) (ctx : τ)

def Op.run : Op → Code Unit
  | .plain op => op.run
  | .start iface netif callbacks userData options =>
    ignore (Traced.start iface netif callbacks userData options)
  | .release handle => ignore (Traced.release handle)
  | .stop handle => Traced.stop handle
  | .datagram iface payload => handleDatagram iface payload
  | .retransmitTimer id => retransmitTimerCallback id
  | .leaseTimer id => leaseTimerCallback id
  | .visitDns _ visit ctx => ignore (visitDnsServers visit ctx)
  | .visitNtp _ visit ctx => ignore (visitNtpServers visit ctx)

theorem Op.run_keeps (op : Op) : Keeps lockDiscipline [] [] op.run := by
  cases op with
  | plain op => exact op.run_keeps
  | start iface netif callbacks userData options =>
    exact ignore_keeps (start_keeps iface netif callbacks userData options)
  | release handle => exact ignore_keeps (release_keeps handle)
  | stop handle => exact stop_keeps handle
  | datagram iface payload => exact handleDatagram_keeps iface payload
  | retransmitTimer id => exact retransmitTimerCallback_keeps id
  | leaseTimer id => exact leaseTimerCallback_keeps id
  | visitDns τ visit ctx => exact ignore_keeps (visitDnsServers_keeps visit ctx)
  | visitNtp τ visit ctx => exact ignore_keeps (visitNtpServers_keeps visit ctx)

/-- The lock discipline, by counting.  The record has its newest event first, so `e :: older` at the
end of it is an event with everything that came before. -/
structure Disciplined (trace : List (Locking.Event Mutex Outside)) : Prop where
  balanced : ∀ m, trace.count (.lock m) = trace.count (.unlock m)
  dropsHeld : ∀ m older, .unlock m :: older <:+ trace → Holds older m
  noRelock : ∀ m older, .lock m :: older <:+ trace → ¬Holds older m
  tableFirst : ∀ older, .lock .table :: older <:+ trace → ∀ id, ¬Holds older (.lease id)
  handlersUnlocked : ∀ handler id older, .call (.callback handler id) :: older <:+ trace →
    ∀ m, ¬Holds older m
  sinksLocked : ∀ id older, .call (.sink id) :: older <:+ trace →
    Holds older .table ∧ Holds older (.lease id)

theorem disciplined_of_held {trace : List (Locking.Event Mutex Outside)}
    (h : lockDiscipline.held trace = some []) : Disciplined trace where
  balanced m := by simpa using (Discipline.held_count h).2 m
  dropsHeld m older hsuffix := Discipline.unlock_at hsuffix h
  noRelock m older hsuffix := by
    obtain ⟨before, hholds, hfree, -⟩ := Discipline.lock_at hsuffix h
    rw [hholds]
    exact hfree
  tableFirst older hsuffix id := by
    obtain ⟨before, hholds, -, hmay⟩ := Discipline.lock_at hsuffix h
    rw [hholds]
    intro hin
    have honly : (Mutex.lease id == .table) = true := List.all_eq_true.mp hmay _ hin
    cases honly
  handlersUnlocked handler id older hsuffix m := by
    obtain ⟨before, hholds, hmay⟩ := Discipline.call_at hsuffix h
    rw [hholds, List.isEmpty_iff.mp hmay]
    exact List.not_mem_nil
  sinksLocked id older hsuffix := by
    obtain ⟨before, hholds, hmay⟩ := Discipline.call_at hsuffix h
    rw [hholds, hholds, eq_of_beq hmay]
    simp

/-- **The lock discipline.**  Whatever the state it starts in, whatever the other threads change
wherever it takes or drops a mutex or calls out, and whatever the handlers call in turn, an operation
drops every mutex it takes exactly once, takes none it holds, never takes the table mutex with a lease
locked, and calls the handlers with nothing held. -/
theorem operations_disciplined (op : Op) (w : World) (others : List (World → World)) :
    Disciplined (op.run.run ⟨w, others, []⟩).2.trace :=
  disciplined_of_held (op.run_keeps _ rfl)

/-- The lost path, newest event first: the handler runs between the two sections, and the accessor it
calls takes the lock for itself. -/
example :
    let c := startedClient.update fun l => { l with state := .rebinding }
    let w : World := ⟨fun _ => c, fun _ => true, [0], quietEnv 7, none, true, [.getState (some 0)]⟩
    ((leaseTimerCallback 0).run ⟨w, [], []⟩).2.trace =
      [.unlock (.lease 0), .lock (.lease 0), .unlock (.lease 0), .lock (.lease 0),
        .call (.callback .onExpiredOrLost 0), .unlock (.lease 0), .lock (.lease 0),
        .unlock (.lease 0), .lock (.lease 0)] := by
  decide +kernel

end Dmdhcp.Traced
