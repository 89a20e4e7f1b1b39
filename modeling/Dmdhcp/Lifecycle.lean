import Dmdhcp.Output

/-!
# Applying a lease to the interface, and the lease timer

`dmdhcp_lifecycle.c`.  `lifecycleHandleLost` is kept as its two locked sections: what another
thread does between them is the subject of the interleaving model.
-/

namespace Dmdhcp

/-- The `dmroute_add` step of `dmdhcp_lifecycle_apply`: the handle is stored over whatever handle
the lease held before. -/
def installDefaultRoute (env : Env) (c : Client) : Client :=
  if c.lease.gateway.isV4 then
    let (handle, routes) := c.routes.add env.routeAdd c.lease.gateway c.lease.iface
    { c with routes, lease := { c.lease with defaultRoute := handle } }
  -- `default_route = NULL`: the handle is forgotten, the route is not removed.
  else c.update fun l => { l with defaultRoute := none }

/-- `dmnetif_set_broadcast`, called only for an IPv4 netmask. -/
def setBroadcast (env : Env) (c : Client) : Client :=
  if c.lease.netmask.isV4 ∧ env.setBroadcast then
    { c with
      netif := { c.netif with
        broadcast := .v4 (directedBroadcast c.lease.offeredIp.raw c.lease.netmask.raw) } }
  else c

/-- `dmdhcp_lifecycle_apply`; both callers discard the result of a call that failed. -/
def lifecycleApply (env : Env) (c : Client) : Client :=
  -- Each failing call returns early, with what was set before it left in place.
  if env.setNetmask then
    let c := { c with netif := { c.netif with netmask := c.lease.netmask } }
    let c := c.emit (.applyIpAddress c.lease.offeredIp)
    if env.setIpAddress then
      let c := { c with netif := { c.netif with ipAddress := c.lease.offeredIp } }
      let c := installDefaultRoute env (setBroadcast env c)
      c.update fun l => { l with ifaceConfigured := true }
    else c
  else c

/-- The interface after the three clearing calls of `dmdhcp_lifecycle_unapply`. -/
def clearInterface (env : Env) (n : Netif) : Netif :=
  { n with
    ipAddress := if env.setIpAddress then .none else n.ipAddress
    netmask := if env.setNetmask then .none else n.netmask
    broadcast := if env.setBroadcast then .none else n.broadcast }

/-- `dmroute_remove` of the stored handle, if there is one. -/
def removeDefaultRoute (c : Client) : Client :=
  match c.lease.defaultRoute with
  | some handle =>
    { c with
      routes := c.routes.remove handle
      lease := { c.lease with defaultRoute := none } }
  | none => c

def lifecycleUnapply (env : Env) (c : Client) : Client :=
  if c.lease.ifaceConfigured then
    -- The results of the three clearing calls are discarded, so the flag is cleared in any case.
    let c := removeDefaultRoute c
    let c := { c.emit .clearIpAddress with netif := clearInterface env c.netif }
    c.update fun l => { l with ifaceConfigured := false }
  else c

/-! ### The three deadlines of the lease timer -/

/-- The period `dmdhcp_lifecycle_arm_t1` programs. -/
def periodT1 (l : Lease) : UInt32 :=
  let periodMs := l.t1Sec * 1000
  -- Also taken when the product wraps to 0.
  if periodMs = 0 then 1 else periodMs

/-- The period `dmdhcp_lifecycle_arm_t2` programs. -/
def periodT2 (l : Lease) : UInt32 :=
  -- The server orders neither T1 and T2 nor T2 and the lease time; 1 s is the fallback.
  let remainingSec := if l.t2Sec > l.t1Sec then l.t2Sec - l.t1Sec else 1
  remainingSec * 1000

/-- The period `dmdhcp_lifecycle_arm_expiry` programs. -/
def periodExpiry (l : Lease) : UInt32 :=
  let remainingSec := if l.leaseTimeSec > l.t2Sec then l.leaseTimeSec - l.t2Sec else 1
  remainingSec * 1000

def lifecycleArmT1 (env : Env) (c : Client) : Client := c.armLease env (periodT1 c.lease)
def lifecycleArmT2 (env : Env) (c : Client) : Client := c.armLease env (periodT2 c.lease)
def lifecycleArmExpiry (env : Env) (c : Client) : Client := c.armLease env (periodExpiry c.lease)

/-- Enter `bound` with the lease fields as they are: what follows a clean final probe
(`run_conflict_probe`) and an ACK to a renewal (`dmdhcp_handle_datagram`) alike. -/
def commitLease (env : Env) (c : Client) : Client :=
  lifecycleArmT1 env ((lifecycleApply env c).update fun l =>
    { l with state := .bound, declineRetryCount := 0 })

/-- The first locked section of `dmdhcp_lifecycle_handle_lost`. -/
def lostUnapply (env : Env) (c : Client) : Client :=
  (lifecycleUnapply env c).update fun l => { l with ntpServers := [] }

/-- The second locked section of `dmdhcp_lifecycle_handle_lost`. -/
def lostRestart (env : Env) (c : Client) : Client := outputStartDiscovery env c

def callOnBound (isRenewal : Bool) (c : Client) : Client :=
  if c.lease.callbacks.onBound then c.emit (.onBound isRenewal) else c

def callOnExpiredOrLost (c : Client) : Client :=
  if c.lease.callbacks.onExpiredOrLost then c.emit .onExpiredOrLost else c

def callOnError (error : Errno) (c : Client) : Client :=
  if c.lease.callbacks.onError then c.emit (.onError error) else c

@[simp] theorem callOnExpiredOrLost_lease (c : Client) :
    (callOnExpiredOrLost c).lease = c.lease := by
  unfold callOnExpiredOrLost
  split_ifs <;> rfl

@[simp] theorem callOnExpiredOrLost_netif (c : Client) :
    (callOnExpiredOrLost c).netif = c.netif := by
  unfold callOnExpiredOrLost
  split_ifs <;> rfl

@[simp] theorem callOnExpiredOrLost_routes (c : Client) :
    (callOnExpiredOrLost c).routes = c.routes := by
  unfold callOnExpiredOrLost
  split_ifs <;> rfl

/-- `dmdhcp_lifecycle_handle_lost` with nothing in between. -/
def lifecycleHandleLost (env : Env) (c : Client) : Client :=
  lostRestart env (callOnExpiredOrLost (lostUnapply env c))

/-- What a locked section leaves to be done once it has dropped the lock. -/
inductive After
  | done
  | onBound (isRenewal : Bool)
  | onError (error : Errno)
  | lost
  deriving DecidableEq, Repr

/-- What a locked section leaves, done at once. -/
def After.finish (env : Env) : After → Client → Client
  | .done, c => c
  | .onBound isRenewal, c => callOnBound isRenewal c
  | .onError error, c => callOnError error c
  | .lost, c => lifecycleHandleLost env c

/-- The locked section of `lease_timer_callback`. -/
def leaseTimerSection (env : Env) (c : Client) : Client × After :=
  if c.lease.state = .bound then (lifecycleArmT2 env (outputStartRenew env c), .done)
  else if c.lease.state = .renewing then
    (lifecycleArmExpiry env (outputStartRebind env c), .done)
  else if c.lease.state = .rebinding then (c, .lost)
  else (c, .done) -- stale fire

def leaseTimerCallback (env : Env) (c : Client) : Client :=
  let (c, after) := leaseTimerSection env c
  after.finish env c

/-! ### What applying and unapplying leave -/

/-- The result of the `dmroute_add` step: the handle stored and the routes installed. -/
def routeResult (env : Env) (c : Client) : Option RouteHandle × Routes :=
  if c.lease.gateway.isV4 then c.routes.add env.routeAdd c.lease.gateway c.lease.iface
  else (none, c.routes)

theorem installDefaultRoute_eq (env : Env) (c : Client) : installDefaultRoute env c =
    { c with
      routes := (routeResult env c).2
      lease := { c.lease with defaultRoute := (routeResult env c).1 } } := by
  unfold installDefaultRoute routeResult
  split_ifs <;> rfl

/-- The broadcast address an applied lease leaves: computed from an IPv4 netmask, else untouched. -/
def broadcastOf (l : Lease) (old : Addr) : Addr :=
  if l.netmask.isV4 then .v4 (directedBroadcast l.offeredIp.raw l.netmask.raw) else old

theorem setBroadcast_lease (env : Env) (c : Client) : (setBroadcast env c).lease = c.lease := by
  unfold setBroadcast
  split_ifs <;> rfl

theorem setBroadcast_routes (env : Env) (c : Client) :
    (setBroadcast env c).routes = c.routes := by
  unfold setBroadcast
  split_ifs <;> rfl

theorem setBroadcast_netif {env : Env} (henv : env.setBroadcast = true) (c : Client) :
    (setBroadcast env c).netif =
      { c.netif with broadcast := broadcastOf c.lease c.netif.broadcast } := by
  unfold setBroadcast broadcastOf
  rw [henv]
  -- The call is made, and succeeds, exactly for an IPv4 netmask.
  by_cases hm : c.lease.netmask.isV4 = true
  · simp only [hm, and_self, if_true]
  · simp only [hm, Bool.false_eq_true, false_and, if_false]

-- Whatever the interface calls return, `commitLease` ends in `bound` with T1 armed and keeps the
-- terms of the lease.
theorem commitLease_lease (env : Env) (c : Client) : ∃ configured route,
    (commitLease env c).lease =
      { c.lease with
        state := .bound
        declineRetryCount := 0
        ifaceConfigured := configured
        defaultRoute := route
        leaseTimer := .arm env.now (periodT1 c.lease) } := by
  unfold commitLease lifecycleArmT1 Client.armLease lifecycleApply
  split_ifs
  · simp only [Client.update_lease, installDefaultRoute_eq, setBroadcast_lease, Client.emit_lease]
    exact ⟨true, _, rfl⟩
  · exact ⟨c.lease.ifaceConfigured, c.lease.defaultRoute, rfl⟩
  · exact ⟨c.lease.ifaceConfigured, c.lease.defaultRoute, rfl⟩

-- Unapplying changes nothing of the lease but the record of what was applied.
theorem lifecycleUnapply_lease (env : Env) (c : Client) : ∃ route,
    (lifecycleUnapply env c).lease =
      { c.lease with ifaceConfigured := false, defaultRoute := route } := by
  by_cases hc : c.lease.ifaceConfigured = true
  · refine ⟨(removeDefaultRoute c).lease.defaultRoute, ?_⟩
    rw [lifecycleUnapply, if_pos hc]
    unfold removeDefaultRoute
    split <;> rfl
  · -- The flag was already clear.
    have hflag : c.lease.ifaceConfigured = false := Bool.not_eq_true _ ▸ hc
    refine ⟨c.lease.defaultRoute, ?_⟩
    rw [lifecycleUnapply, if_neg hc, ← hflag]

theorem lostUnapply_lease (env : Env) (c : Client) : ∃ route,
    (lostUnapply env c).lease =
      { c.lease with ifaceConfigured := false, defaultRoute := route, ntpServers := [] } := by
  obtain ⟨route, h⟩ := lifecycleUnapply_lease env c
  exact ⟨route, by rw [lostUnapply, Client.update_lease, h]⟩

section
variable {env : Env} (henv : env.SetsSucceed) (c : Client)
include henv

theorem commitLease_lease_of_succeed : (commitLease env c).lease =
    { c.lease with
      state := .bound
      declineRetryCount := 0
      ifaceConfigured := true
      defaultRoute := (routeResult env c).1
      leaseTimer := .arm env.now (periodT1 c.lease) } := by
  obtain ⟨h1, h2, h3⟩ := henv
  simp only [commitLease, lifecycleArmT1, Client.armLease, lifecycleApply, h1, h2, if_true,
    Client.update_lease, installDefaultRoute_eq, setBroadcast_lease, routeResult,
    setBroadcast_routes, Client.emit_lease, Client.emit_routes]
  rfl

theorem commitLease_netif : (commitLease env c).netif =
    { c.netif with
      ipAddress := c.lease.offeredIp
      netmask := c.lease.netmask
      broadcast := broadcastOf c.lease c.netif.broadcast } := by
  obtain ⟨h1, h2, h3⟩ := henv
  simp only [commitLease, lifecycleArmT1, Client.armLease, lifecycleApply, h1, h2, if_true,
    Client.update_netif, installDefaultRoute_eq, setBroadcast_netif h3, Client.emit_lease]
  rfl

theorem commitLease_routes : (commitLease env c).routes = (routeResult env c).2 := by
  obtain ⟨h1, h2, h3⟩ := henv
  simp only [commitLease, lifecycleArmT1, Client.armLease, lifecycleApply, h1, h2, if_true,
    Client.update_routes, installDefaultRoute_eq, setBroadcast_lease, routeResult,
    setBroadcast_routes, Client.emit_lease, Client.emit_routes]

theorem clearInterface_unconfigured (n : Netif) : (clearInterface env n).Unconfigured := by
  obtain ⟨h1, h2, h3⟩ := henv
  simp only [clearInterface, h1, h2, h3, if_true, Netif.Unconfigured, and_self]

end

end Dmdhcp
