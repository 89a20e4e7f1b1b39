import Dmdhcp.Options

/-!
# The lease and what its code acts on

`struct dmdhcp_lease` (`dmdhcp_internal.h`) together with the parts of the world that the code of
one lease reads and writes: the configuration of its interface (dmnetif), the routes it has
installed (dmroute), its two one-shot timers (dmosi) and the record of what it did.
-/

namespace Dmdhcp

/-- `dmdhcp_state_t`. -/
inductive State
  | init
  | selecting
  | checkingOffer
  | requesting
  | checkingAck
  | bound
  | renewing
  | rebinding
  | initReboot
  | rebooting
  | declining
  | failed
  deriving DecidableEq, Repr

/-- The states in which the address is held (`holds_valid_lease`). -/
def State.holdsValidLease : State → Bool
  | .bound => true
  | .renewing => true
  | .rebinding => true
  | _ => false

theorem State.holdsValidLease_iff {s : State} :
    s.holdsValidLease = true ↔ s = .bound ∨ s = .renewing ∨ s = .rebinding := by
  cases s <;> simp [State.holdsValidLease]

def retransmitInitialMs : UInt32 := 4000
def retransmitMaxMs : UInt32 := 64000
def maxRequestRetransmits : UInt32 := 4
def probeHandoffMs : UInt32 := 1
def maxDeclineRetries : UInt32 := 3
def declinePauseMs : UInt32 := 10000
def maxMessageLen : Nat := 576

/-- A one-shot `dmosi_timer_t`: its period, and the instant (in ms) at which it fires if it is
running. -/
structure Timer where
  periodMs : UInt32
  deadline : Option Nat
  deriving DecidableEq, Repr

/-- `dmosi_timer_create(_, _, DMDHCP_RETRANSMIT_INITIAL_MS, false)`: created stopped. -/
def Timer.create : Timer := ⟨retransmitInitialMs, none⟩

/-- `dmosi_timer_set_period` followed by `dmosi_timer_start` at `now`. -/
def Timer.arm (now : Nat) (periodMs : UInt32) : Timer := ⟨periodMs, some (now + periodMs.toNat)⟩

/-- `dmosi_timer_stop`, and what a one-shot timer does as it fires. -/
def Timer.disarm (t : Timer) : Timer := { t with deadline := none }

/-- Which members of `dmdhcp_callbacks_t` are set. -/
structure Callbacks where
  onBound : Bool
  onExpiredOrLost : Bool
  onError : Bool
  deriving DecidableEq, Repr

/-- A `dmroute_route_t`. -/
abbrev RouteHandle := Nat

/-- `struct dmdhcp_lease`; `magic` and `lock` belong to the interleaving model. -/
structure Lease where
  iface : Iface
  state : State
  xid : UInt32
  offeredIp : Addr
  netmask : Addr
  gateway : Addr
  serverId : Addr
  leaseTimeSec : UInt32
  t1Sec : UInt32
  t2Sec : UInt32
  dnsServers : List Addr
  ntpServers : List Addr
  retransmitIntervalMs : UInt32
  retransmitCount : UInt32
  declineRetryCount : UInt32
  retransmitTimer : Timer
  leaseTimer : Timer
  defaultRoute : Option RouteHandle
  ifaceConfigured : Bool
  hostname : Option (List UInt8)
  callbacks : Callbacks
  userData : Nat
  deriving DecidableEq, Repr

/-- The configuration dmnetif keeps for one interface. -/
structure Netif where
  mac : Vector UInt8 6
  ipAddress : Addr
  netmask : Addr
  broadcast : Addr
  deriving DecidableEq, Repr

/-- No address, netmask or broadcast is set. -/
def Netif.Unconfigured (n : Netif) : Prop :=
  n.ipAddress = .none ∧ n.netmask = .none ∧ n.broadcast = .none

instance (n : Netif) : Decidable n.Unconfigured := inferInstanceAs (Decidable (_ ∧ _ ∧ _))

/-- One entry of the routing table. -/
structure Route where
  handle : RouteHandle
  destination : Addr
  netmask : Addr
  gateway : Addr
  iface : Iface
  deriving DecidableEq, Repr

/-- The entries that a lease has installed through `dmroute_add` and not removed through
`dmroute_remove`, and the next unused handle. -/
structure Routes where
  entries : List Route
  next : RouteHandle
  deriving DecidableEq, Repr

/-- What `dmroute_add` does when asked for a route: it may fail, and where an identical entry
exists it may hand that entry out again or create a second one. -/
inductive RouteAdd
  | fail
  | reuse
  | create
  deriving DecidableEq, Repr

/-- `dmroute_add(0.0.0.0, 0.0.0.0, gateway, iface, ...)`. -/
def Routes.add (rs : Routes) (how : RouteAdd) (gateway : Addr) (iface : Iface) :
    Option RouteHandle × Routes :=
  let any := Addr.v4 .zero
  -- Handles are never used twice, so a stale handle cannot name a newer route.
  let created := (some rs.next, ⟨⟨rs.next, any, any, gateway, iface⟩ :: rs.entries, rs.next + 1⟩)
  match how with
  | .fail => (none, rs)
  | .create => created
  | .reuse =>
    match rs.entries.find? fun r =>
        r.destination == any && r.netmask == any && r.gateway == gateway && r.iface == iface with
    | some r => (some r.handle, rs)
    | none => created

/-- `dmroute_remove`. -/
def Routes.remove (rs : Routes) (handle : RouteHandle) : Routes :=
  { rs with entries := rs.entries.filter fun r => r.handle != handle }

/-- A message handed to dmudp: the arguments of `send_message` and the encoded bytes. -/
structure Sent where
  msgType : MsgType
  xid : UInt32
  ciaddr : Option Addr
  requestedIp : Option Addr
  serverIdOption : Option Addr
  dst : Addr
  viaIface : Bool
  payload : List UInt8
  deriving DecidableEq, Repr

/-- What the code of a lease does beyond its own fields, in the order it does it. -/
inductive Effect
  | startDiscovery
  | startReboot
  | sent (message : Sent)
  | probe (address : Addr) (conflict : Bool)
  | applyIpAddress (address : Addr)
  | clearIpAddress
  | onBound (isRenewal : Bool)
  | onExpiredOrLost
  | onError (error : Errno)
  deriving DecidableEq, Repr

/-- A lease, its interface, its routes and its record, newest effect first. -/
structure Client where
  lease : Lease
  netif : Netif
  routes : Routes
  log : List Effect
  deriving DecidableEq, Repr

/-- How the world answers the calls made by one section of code.  No section draws more than one
random number, sends more than one message or calls a `dmnetif_set_*` function twice. -/
structure Env where
  /-- The instant of the section's timer calls. -/
  now : Nat
  /-- What `dmosi_rand32` returns. -/
  rand32 : UInt32
  /-- `dmarp_resolve` returns 0: somebody answered for the probed address. -/
  arpReply : Bool
  /-- The `dmnetif_set_netmask` call returns 0; a failing call changes nothing. -/
  setNetmask : Bool
  setIpAddress : Bool
  setBroadcast : Bool
  routeAdd : RouteAdd
  /-- The `Dmod_Malloc` of the send buffer succeeds. -/
  sendBuffer : Bool
  /-- How many DNS (NTP) list entries can be allocated and pushed before one fails. -/
  dnsRoom : Nat
  ntpRoom : Nat
  deriving DecidableEq, Repr

/-- Every `dmnetif_set_*` call succeeds. -/
def Env.SetsSucceed (env : Env) : Prop :=
  env.setNetmask = true ∧ env.setIpAddress = true ∧ env.setBroadcast = true

instance (env : Env) : Decidable env.SetsSucceed := inferInstanceAs (Decidable (_ ∧ _ ∧ _))

def Client.emit (c : Client) (e : Effect) : Client := { c with log := e :: c.log }

@[simp] theorem Client.emit_lease (c : Client) (e : Effect) : (c.emit e).lease = c.lease := rfl
@[simp] theorem Client.emit_netif (c : Client) (e : Effect) : (c.emit e).netif = c.netif := rfl
@[simp] theorem Client.emit_routes (c : Client) (e : Effect) : (c.emit e).routes = c.routes := rfl
@[simp] theorem Client.emit_log (c : Client) (e : Effect) : (c.emit e).log = e :: c.log := rfl

/-- Change the lease's own fields only. -/
def Client.update (c : Client) (f : Lease → Lease) : Client := { c with lease := f c.lease }

@[simp] theorem Client.update_lease (c : Client) (f : Lease → Lease) :
    (c.update f).lease = f c.lease := rfl
@[simp] theorem Client.update_netif (c : Client) (f : Lease → Lease) :
    (c.update f).netif = c.netif := rfl
@[simp] theorem Client.update_routes (c : Client) (f : Lease → Lease) :
    (c.update f).routes = c.routes := rfl
@[simp] theorem Client.update_log (c : Client) (f : Lease → Lease) :
    (c.update f).log = c.log := rfl

/-- `dmosi_timer_set_period` and `_start` on `retransmit_timer`. -/
def Client.armRetransmit (env : Env) (periodMs : UInt32) (c : Client) : Client :=
  c.update fun l => { l with retransmitTimer := .arm env.now periodMs }

/-- `dmosi_timer_set_period` and `_start` on `lease_timer`. -/
def Client.armLease (env : Env) (periodMs : UInt32) (c : Client) : Client :=
  c.update fun l => { l with leaseTimer := .arm env.now periodMs }

end Dmdhcp
