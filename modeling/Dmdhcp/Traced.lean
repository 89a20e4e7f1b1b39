import Dmdhcp.Lib.Locking
import Dmdhcp.Provider

/-!
# The code with its locks

Every public operation, `dmdhcp_handle_datagram` and the two timer callbacks once more, this time
with each `dmosi_mutex_lock`, `dmosi_mutex_unlock` and call out to the user where the source has it.
Wherever a thread takes or drops a mutex or calls out, the other threads may change anything, what
the calls of the next section answer included.
-/

namespace Dmdhcp.Traced

open Locking

/-! ## 1. What a thread sees -/

/-- A `struct dmdhcp_lease*`. -/
abbrev LeaseId := Nat

/-- `g_leases_mutex`, or the `lock` of a lease. -/
inductive Mutex
  | table
  | lease (id : LeaseId)
  deriving DecidableEq, Repr

inductive Handler
  | onBound (isRenewal : Bool)
  | onExpiredOrLost
  | onError (error : Errno)
  deriving DecidableEq, Repr

def Handler.effect : Handler → Effect
  | .onBound isRenewal => .onBound isRenewal
  | .onExpiredOrLost => .onExpiredOrLost
  | .onError error => .onError error

/-- The code that is called: a handler of the user, given a lease, or a visitor's sink, for a server
of a lease. -/
inductive Outside
  | callback (handler : Handler) (id : LeaseId)
  | sink (id : LeaseId)
  deriving DecidableEq, Repr

/-- The operations that call nobody: the accessors, `dmdhcp_set_callbacks` and `dmdhcp_renew`.  A
`none` is a `NULL` argument; `out` says whether the pointer to the result is not. -/
inductive PlainOp
  | getState (handle : Option LeaseId)
  | getIface (handle : Option LeaseId)
  | getUserData (handle : Option LeaseId)
  | getXid (handle : Option LeaseId)
  | getLeaseInfo (handle : Option LeaseId) (out : Bool)
  | getDnsServerCount (handle : Option LeaseId)
  | getDnsServer (handle : Option LeaseId) (index : Nat) (out : Bool)
  | getNtpServerCount (handle : Option LeaseId)
  | getNtpServer (handle : Option LeaseId) (index : Nat) (out : Bool)
  | getNtpServers (out : Option (List Addr)) (maxCount : Nat)
  | setCallbacks (handle : Option LeaseId) (callbacks : Option Callbacks) (userData : Nat)
  | renew (handle : Option LeaseId)
  deriving DecidableEq, Repr

structure World where
  leases : LeaseId → Client
  /-- `lease->magic == DMDHCP_LEASE_MAGIC`. -/
  magic : LeaseId → Bool
  table : List LeaseId
  env : Env
  /-- What `dmdhcp_lease_table_create` can allocate, if it can. -/
  fresh : Option LeaseId
  /-- `dmlist_push_back` succeeds. -/
  pushed : Bool
  /-- What the next handler does. -/
  script : List PlainOp

abbrev Code := Prog World Mutex Outside

/-- The table mutex is not taken with a lease locked, handlers are called with nothing held, and
sinks with the table and the lease locked. -/
def lockDiscipline : Discipline Mutex Outside where
  mayLock held m :=
    match m with
    | .table => held.all fun h => h == .table
    | .lease _ => true
  mayCall held k :=
    match k with
    -- The handlers may call back into the API, ...
    | .callback _ _ => held.isEmpty
    -- ... a sink must not.
    | .sink id => held == [.lease id, .table]

def World.update (w : World) (id : LeaseId) (f : Client → Client) : World :=
  { w with leases := Function.update w.leases id (f (w.leases id)) }

def lease (id : LeaseId) : Code Client := do
  let w ← read
  return w.leases id

def onLease (id : LeaseId) (f : Client → Client) : Code Unit := write fun w => w.update id f

/-! ## 2. Operations that call nobody -/

section
variable {α : Type}

/-- The check of the handle that every operation starts with. -/
def withLease (handle : Option LeaseId) (invalid : α) (body : LeaseId → Code α) : Code α :=
  match handle with
  | none => pure invalid
  | some id => do
    let w ← read
    if w.magic id then body id else pure invalid

/-- What an accessor reads under the lock. -/
def readLocked (id : LeaseId) (f : Lease → α) : Code α := do
  lock (.lease id)
  let c ← lease id
  unlock (.lease id)
  return f c.lease

end

def getState (handle : Option LeaseId) : Code State :=
  withLease handle .failed fun id => readLocked id Lease.state

/-- `iface` is never written again, so it is read without the lock. -/
def getIface (handle : Option LeaseId) : Code (Option Iface) :=
  withLease handle none fun id => do
    let c ← lease id
    return some c.lease.iface

def getUserData (handle : Option LeaseId) : Code Nat :=
  withLease handle 0 fun id => readLocked id Lease.userData

def getXid (handle : Option LeaseId) : Code UInt32 :=
  withLease handle 0 fun id => readLocked id Lease.xid

def getLeaseInfo (handle : Option LeaseId) (out : Bool) : Code (Except Errno LeaseInfo) :=
  if out then withLease handle (.error .einval) fun id => readLocked id Dmdhcp.getLeaseInfo
  else pure (.error .einval)

def serverCount (list : Lease → List Addr) (handle : Option LeaseId) : Code Nat :=
  withLease handle 0 fun id => readLocked id fun l => (list l).length

def serverAt (list : Lease → List Addr) (handle : Option LeaseId) (index : Nat) (out : Bool) :
    Code (Except Errno Addr) :=
  if out then
    withLease handle (.error .einval) fun id => readLocked id fun l =>
      match (list l)[index]? with
      | none => .error .einval
      | some a => .ok a
  else pure (.error .einval)

def getDnsServerCount (handle : Option LeaseId) : Code Nat := serverCount Lease.dnsServers handle

def getDnsServer (handle : Option LeaseId) (index : Nat) (out : Bool) :
    Code (Except Errno Addr) := serverAt Lease.dnsServers handle index out

def getNtpServerCount (handle : Option LeaseId) : Code Nat := serverCount Lease.ntpServers handle

def getNtpServer (handle : Option LeaseId) (index : Nat) (out : Bool) :
    Code (Except Errno Addr) := serverAt Lease.ntpServers handle index out

/-- The loop over the table in `dmdhcp_get_ntp_servers`. -/
def copyAllNtpServers (maxCount : Nat) : List LeaseId → List Addr × Nat → Code (List Addr × Nat)
  | [], s => pure s
  | id :: rest, s =>
    if s.2 < maxCount then do
      let w ← read
      if w.magic id then do
        lock (.lease id)
        let c ← lease id
        let s :=
          if c.lease.state.holdsValidLease then copyNtpServers maxCount c.lease.ntpServers s else s
        unlock (.lease id)
        copyAllNtpServers maxCount rest s
      else copyAllNtpServers maxCount rest s
    else pure s

def getNtpServers (out : Option (List Addr)) (maxCount : Nat) :
    Code (Except Errno (Int × List Addr)) :=
  match out with
  | none => pure (.error .einval)
  | some out =>
    if maxCount = 0 then pure (.error .einval)
    else do
      lock .table
      let w ← read
      let s ← copyAllNtpServers maxCount w.table (out, 0)
      unlock .table
      return .ok (toCInt s.2, s.1)

def setCallbacks (handle : Option LeaseId) (callbacks : Option Callbacks) (userData : Nat) :
    Code (Except Errno Unit) :=
  withLease handle (.error .einval) fun id => do
    lock (.lease id)
    onLease id (Client.setCallbacks callbacks userData)
    unlock (.lease id)
    return .ok ()

def renew (handle : Option LeaseId) : Code (Except Errno Unit) :=
  withLease handle (.error .einval) fun id => do
    lock (.lease id)
    let w ← read
    onLease id (Client.renew w.env)
    unlock (.lease id)
    return .ok ()

/-- The result is dropped. -/
def ignore {α : Type} (p : Code α) : Code Unit := do
  let _ ← p
  return ()

def PlainOp.run : PlainOp → Code Unit
  | .getState handle => ignore (Traced.getState handle)
  | .getIface handle => ignore (Traced.getIface handle)
  | .getUserData handle => ignore (Traced.getUserData handle)
  | .getXid handle => ignore (Traced.getXid handle)
  | .getLeaseInfo handle out => ignore (Traced.getLeaseInfo handle out)
  | .getDnsServerCount handle => ignore (Traced.getDnsServerCount handle)
  | .getDnsServer handle index out => ignore (Traced.getDnsServer handle index out)
  | .getNtpServerCount handle => ignore (Traced.getNtpServerCount handle)
  | .getNtpServer handle index out => ignore (Traced.getNtpServer handle index out)
  | .getNtpServers out maxCount => ignore (Traced.getNtpServers out maxCount)
  | .setCallbacks handle callbacks userData =>
    ignore (Traced.setCallbacks handle callbacks userData)
  | .renew handle => ignore (Traced.renew handle)

/-! ## 3. Timers and datagrams -/

def runScript : List PlainOp → Code Unit
  | [] => pure ()
  | op :: ops => do
    op.run
    runScript ops

/-- A handler, if the pointer read under the lock is not `NULL`. -/
def invoke (isSet : Bool) (id : LeaseId) (handler : Handler) : Code Unit :=
  if isSet then do
    call (.callback handler id)
    -- From here on it is the user's code that runs.
    onLease id fun c => c.emit handler.effect
    let w ← read
    runScript w.script
  else pure ()

/-- `handle_conflict`: entered and left with the lease locked. -/
def handleConflict (id : LeaseId) : Code Unit := do
  let w ← read
  onLease id fun c => (sendDecline w.env c).update fun l =>
    { l with declineRetryCount := l.declineRetryCount + 1 }
  let c ← lease id
  if c.lease.declineRetryCount > maxDeclineRetries then do
    onLease id fun c => c.update fun l => { l with state := .failed }
    unlock (.lease id)
    invoke c.lease.callbacks.onError id (.onError .eaddrinuse)
    lock (.lease id)
  else
    onLease id fun c =>
      (c.update fun l => { l with state := .declining }).armRetransmit w.env declinePauseMs

/-- `run_conflict_probe`: entered and left with the lease locked. -/
def runConflictProbe (id : LeaseId) : Code Unit := do
  let w ← read
  onLease id fun c => c.emit (.probe c.lease.offeredIp w.env.arpReply)
  let c ← lease id
  if w.env.arpReply then handleConflict id
  else if c.lease.state = .checkingOffer then onLease id (requestOffered w.env)
  else do
    onLease id (commitLease w.env)
    unlock (.lease id)
    invoke c.lease.callbacks.onBound id (.onBound false)
    lock (.lease id)

/-- The `switch` of `retransmit_timer_callback`. -/
def retransmitSwitch (id : LeaseId) : Code Unit := do
  let w ← read
  match (w.leases id).lease.state with
  | .selecting => onLease id fun c => rearmBackoff w.env (sendDiscover w.env c)
  | .requesting => onLease id (resendRequest w.env)
  | .rebooting => onLease id (resendRequest w.env)
  | .renewing => onLease id fun c => rearmBackoff w.env (sendRequestRenew w.env c)
  | .rebinding => onLease id fun c => rearmBackoff w.env (sendRequestRebind w.env c)
  | .checkingOffer => runConflictProbe id
  | .checkingAck => runConflictProbe id
  | .declining => onLease id (outputStartDiscovery w.env)
  | .init => pure ()
  | .initReboot => pure ()
  | .bound => pure ()
  | .failed => pure ()

def retransmitTimerCallback (id : LeaseId) : Code Unit :=
  withLease (some id) () fun id => do
    lock (.lease id)
    retransmitSwitch id
    unlock (.lease id)

/-- `dmdhcp_lifecycle_handle_lost`: does its own locking. -/
def lifecycleHandleLost (id : LeaseId) : Code Unit := do
  lock (.lease id)
  let w ← read
  onLease id (lostUnapply w.env)
  let c ← lease id
  unlock (.lease id)
  invoke c.lease.callbacks.onExpiredOrLost id .onExpiredOrLost
  lock (.lease id)
  let w ← read
  onLease id (lostRestart w.env)
  unlock (.lease id)

def leaseTimerCallback (id : LeaseId) : Code Unit :=
  withLease (some id) () fun id => do
    lock (.lease id)
    let w ← read
    let state := (w.leases id).lease.state
    if state = .bound then do
      onLease id fun c => lifecycleArmT2 w.env (outputStartRenew w.env c)
      unlock (.lease id)
    else if state = .renewing then do
      onLease id fun c => lifecycleArmExpiry w.env (outputStartRebind w.env c)
      unlock (.lease id)
    else if state = .rebinding then do
      unlock (.lease id)
      lifecycleHandleLost id
    else unlock (.lease id)

/-- `dmdhcp_handle_datagram` from `dmosi_mutex_lock` on. -/
def dispatch (id : LeaseId) (r : Reply) (msgType : UInt8) : Code Unit := do
  lock (.lease id)
  let w ← read
  let c := w.leases id
  let state := c.lease.state
  if msgType = MsgType.offer.toByte ∧ state = .selecting then do
    onLease id (acceptForProbe w.env r .checkingOffer)
    unlock (.lease id)
  else if msgType = MsgType.ack.toByte ∧ (state = .requesting ∨ state = .rebooting) then do
    onLease id (acceptForProbe w.env r .checkingAck)
    unlock (.lease id)
  else if msgType = MsgType.nak.toByte ∧ (state = .requesting ∨ state = .rebooting) then do
    onLease id (outputStartDiscovery w.env)
    unlock (.lease id)
  else if msgType = MsgType.ack.toByte ∧ (state = .renewing ∨ state = .rebinding) then do
    onLease id (acceptRenewal w.env r)
    unlock (.lease id)
    invoke c.lease.callbacks.onBound id (.onBound true)
  else if msgType = MsgType.nak.toByte ∧ (state = .renewing ∨ state = .rebinding) then do
    unlock (.lease id)
    lifecycleHandleLost id
  else unlock (.lease id)

/-- `dmdhcp_lease_table_find_by_xid`. -/
def findByXid (iface : Iface) (xid : UInt32) : Code (Option LeaseId) := do
  lock .table
  let w ← read
  unlock .table
  return w.table.find? fun id => (w.leases id).matchesXid iface xid

def handleDatagram (iface : Iface) (payload : List UInt8) : Code Unit :=
  match parseReply payload with
  | none => pure ()
  | some r => do
    let found ← findByXid iface r.msg.xid
    match found, messageType r.options with
    | some id, some msgType => dispatch id r msgType
    | _, _ => pure ()

/-! ## 4. Start, release, stop and the visitors -/

/-- `dmdhcp_lease_table_create`, with the fields `dmdhcp_start` sets before it inserts the lease. -/
def create (iface : Iface) (netif : Netif) (callbacks : Option Callbacks) (userData : Nat)
    (options : Option StartOptions) : Code (Option LeaseId) := do
  let w ← read
  match w.fresh with
  | none => pure none
  | some id => do
    write fun w =>
      { w.update id fun _ => Client.create iface netif (callbacks.getD ⟨false, false, false⟩)
          userData (options.bind StartOptions.hostname) with
        magic := Function.update w.magic id true }
    return some id

/-- `dmdhcp_lease_table_insert`. -/
def insert (id : LeaseId) : Code (Except Errno Unit) := do
  lock .table
  let w ← read
  -- One critical section: nobody can insert between the check and the push.
  let taken := w.table.any fun other => (w.leases other).lease.iface == (w.leases id).lease.iface
  let result : Except Errno Unit :=
    if taken then .error .eexist else if w.pushed then .ok () else .error .enomem
  write fun w => if result.isOk then { w with table := w.table ++ [id] } else w
  unlock .table
  return result

/-- `dmdhcp_lease_table_remove`. -/
def remove (id : LeaseId) : Code Unit := do
  lock .table
  write fun w => { w with table := w.table.erase id }
  unlock .table

/-- `dmdhcp_lease_table_destroy` takes no lock. -/
def destroy (id : LeaseId) : Code Unit :=
  write fun w => { w with magic := Function.update w.magic id false }

def start (iface : Option Iface) (netif : Netif) (callbacks : Option Callbacks) (userData : Nat)
    (options : Option StartOptions) : Code (Option LeaseId) :=
  match iface with
  | none => pure none
  | some iface => do
    let created ← create iface netif callbacks userData options
    match created with
    | none => pure none
    | some id => do
      let result ← insert id
      if result.isOk then do
        lock (.lease id)
        let w ← read
        onLease id (startSection w.env options)
        unlock (.lease id)
        return some id
      else do
        destroy id
        return none

def release (handle : Option LeaseId) : Code (Except Errno Unit) :=
  withLease handle (.error .einval) fun id => do
    remove id
    lock (.lease id)
    let w ← read
    onLease id (releaseSection w.env)
    unlock (.lease id)
    destroy id
    return .ok ()

def stop (handle : Option LeaseId) : Code Unit :=
  withLease handle () fun id => do
    remove id
    lock (.lease id)
    let w ← read
    onLease id (stopSection w.env)
    unlock (.lease id)
    destroy id

section
variable {τ : Type}

/-- The loop of `visit_lease_dns_servers`. -/
def sinkDns (visit : τ → Addr → τ) (id : LeaseId) : List Addr → τ → Code τ
  | [], ctx => pure ctx
  | a :: rest, ctx => do
    call (.sink id)
    sinkDns visit id rest (visit ctx a)

def visitLeaseDnsServers (visit : τ → Addr → τ) (id : LeaseId) (ctx : τ) : Code τ := do
  let c ← lease id
  if c.lease.state.holdsValidLease then sinkDns visit id c.lease.dnsServers ctx else pure ctx

/-- The loop over the NTP servers of one lease. -/
def sinkNtp (visit : τ → Ipv4 → Int × τ) (id : LeaseId) : List Addr → τ → Code τ
  | [], ctx => pure ctx
  | .v4 a :: rest, ctx => do
    call (.sink id)
    if (visit ctx a).1 ≠ 0 then pure (visit ctx a).2 else sinkNtp visit id rest (visit ctx a).2
  | _ :: rest, ctx => sinkNtp visit id rest ctx

def visitLeaseNtpServers (visit : τ → Ipv4 → Int × τ) (id : LeaseId) (ctx : τ) : Code τ := do
  let c ← lease id
  if c.lease.state.holdsValidLease then sinkNtp visit id c.lease.ntpServers ctx else pure ctx

/-- The loop over the table that both visitors have. -/
def visitEach (visitLease : LeaseId → τ → Code τ) : List LeaseId → τ → Code τ
  | [], ctx => pure ctx
  | id :: rest, ctx => do
    let w ← read
    if w.magic id then do
      lock (.lease id)
      let ctx ← visitLease id ctx
      unlock (.lease id)
      visitEach visitLease rest ctx
    else visitEach visitLease rest ctx

/-- The table is locked for the whole loop. -/
def visitTable (visitLease : LeaseId → τ → Code τ) (ctx : τ) : Code τ := do
  lock .table
  let w ← read
  let ctx ← visitEach visitLease w.table ctx
  unlock .table
  return ctx

def visitDnsServers (visit : τ → Addr → τ) (ctx : τ) : Code τ :=
  visitTable (visitLeaseDnsServers visit) ctx

def visitNtpServers (visit : τ → Ipv4 → Int × τ) (ctx : τ) : Code τ :=
  visitTable (visitLeaseNtpServers visit) ctx

end

end Dmdhcp.Traced
