import Dmdhcp.Input

/-!
# The public operations on a lease

`dmdhcp.c` and the accessors of `dmdhcp_lease_table.c`.
-/

namespace Dmdhcp

/-- `dmdhcp_options_t`. -/
structure StartOptions where
  hostname : Option (List UInt8)
  requestedIp : Addr
  deriving DecidableEq, Repr

/-- `dmdhcp_lease_table_create`: a zeroed lease with both timers created and stopped. -/
def Lease.create (iface : Iface) : Lease where
  iface
  state := .init
  xid := 0
  offeredIp := .none
  netmask := .none
  gateway := .none
  serverId := .none
  leaseTimeSec := 0
  t1Sec := 0
  t2Sec := 0
  dnsServers := []
  ntpServers := []
  retransmitIntervalMs := 0
  retransmitCount := 0
  declineRetryCount := 0
  retransmitTimer := .create
  leaseTimer := .create
  defaultRoute := none
  ifaceConfigured := false
  hostname := none
  callbacks := ⟨false, false, false⟩
  userData := 0

/-- A lease as `dmdhcp_start` inserts it into the table, before its first locked section.
`hostname` is what `Dmod_StrDup` returned. -/
def Client.create (iface : Iface) (netif : Netif) (callbacks : Callbacks) (userData : Nat)
    (hostname : Option (List UInt8)) : Client where
  lease := { Lease.create iface with callbacks, userData, hostname }
  netif
  routes := ⟨[], 0⟩
  log := []

/-- The locked section of `dmdhcp_start`: INIT-REBOOT if an IPv4 address is remembered. -/
def startSection (env : Env) (options : Option StartOptions) (c : Client) : Client :=
  match options with
  -- `requested_ip` set to `dmroute_family_none` means no remembered address.
  | some ⟨_, .v4 a⟩ => outputStartReboot env (c.update fun l => { l with offeredIp := .v4 a })
  | _ => outputStartDiscovery env c

/-- `dmdhcp_start` once the lease is allocated and in the table. -/
def Client.start (env : Env) (iface : Iface) (netif : Netif) (callbacks : Callbacks)
    (userData : Nat) (options : Option StartOptions) : Client :=
  startSection env options
    (Client.create iface netif callbacks userData (options.bind StartOptions.hostname))

def Client.renew (env : Env) (c : Client) : Client :=
  if c.lease.state = .bound then outputStartRenew env c else c

/-- The locked section of `dmdhcp_set_callbacks`; `NULL` clears all three. -/
def Client.setCallbacks (callbacks : Option Callbacks) (userData : Nat) (c : Client) : Client :=
  c.update fun l => { l with callbacks := callbacks.getD ⟨false, false, false⟩, userData }

/-- The locked section of `dmdhcp_stop`. -/
def stopSection (env : Env) (c : Client) : Client :=
  if c.lease.ifaceConfigured then lifecycleUnapply env c else c

/-- The locked section of `dmdhcp_release`. -/
def releaseSection (env : Env) (c : Client) : Client :=
  let c :=
    -- Whatever the state: a lease that was only offered is released too.
    if c.lease.offeredIp.isV4 ∧ c.lease.serverId.isV4 then outputSendRelease env c else c
  stopSection env c

/-- `dmdhcp_lease_info_t`. -/
structure LeaseInfo where
  ipAddress : Addr
  netmask : Addr
  gateway : Addr
  serverId : Addr
  leaseTimeSec : UInt32
  renewalTimeSec : UInt32
  rebindingTimeSec : UInt32
  deriving DecidableEq, Repr

/-- `dmdhcp_get_lease_info`. -/
def getLeaseInfo (l : Lease) : Except Errno LeaseInfo :=
  if l.state ≠ .bound ∧ l.state ≠ .renewing ∧ l.state ≠ .rebinding then .error .einval
  else
    .ok {
      ipAddress := l.offeredIp
      netmask := l.netmask
      gateway := l.gateway
      serverId := l.serverId
      leaseTimeSec := l.leaseTimeSec
      renewalTimeSec := l.t1Sec
      rebindingTimeSec := l.t2Sec }

end Dmdhcp
