import Dmdhcp.Retransmit

/-!
# Inbound datagrams

`dmdhcp_input.c`: the header and option checks, the lookup by (interface, xid), and the locked
section that dispatches on (state, message type).
-/

namespace Dmdhcp

/-- The `lease_time` local of `populate_lease_from_options`: 0 unless a decodable option 51 was
found. -/
def leaseTimeOf (options : List UInt8) : UInt32 :=
  match optionsFind options optLeaseTime with
  | .ok opt => opt.getU32.toOption.getD 0
  | .error _ => 0

/-- Option 58 if it is present (0 if it does not decode), else half the lease time. -/
def t1Of (options : List UInt8) (leaseTime : UInt32) : UInt32 :=
  match optionsFind options optRenewalT1 with
  | .ok opt => opt.getU32.toOption.getD 0
  | .error _ => if leaseTime > 0 then leaseTime / 2 else 0

/-- Option 59 if it is present (0 if it does not decode), else 7/8 of the lease time. -/
def t2Of (options : List UInt8) (leaseTime : UInt32) : UInt32 :=
  match optionsFind options optRebindingT2 with
  | .ok opt => opt.getU32.toOption.getD 0
  | .error _ => if leaseTime > 0 then (leaseTime * 7) / 8 else 0

/-- `netmask` and `server_id`: overwritten only by a decodable option. -/
def addrOr (options : List UInt8) (code : UInt8) (old : Addr) : Addr :=
  match optionsFind options code with
  | .ok opt => opt.getAddr.toOption.getD old
  | .error _ => old

/-- `gateway`: the first router, or none. -/
def gatewayOf (options : List UInt8) (old : Addr) : Addr :=
  match optionsFind options optRouter with
  -- An option shorter than one address counts as no router.
  | .ok opt => if opt.addrCount > 0 then (opt.getAddrAt 0).toOption.getD old else .none
  | .error _ => .none

/-- The addresses of a multi-address option, up to the first entry that cannot be stored. -/
def DhcpOption.storedAddrs (opt : DhcpOption) (room : Nat) : List Addr :=
  ((List.range opt.addrCount).map fun i => (opt.getAddrAt i).toOption.getD .none).take room

def dnsServersOf (options : List UInt8) (room : Nat) : List Addr :=
  match optionsFind options optDnsServer with
  | .ok opt => opt.storedAddrs room
  | .error _ => []

def ntpServersOf (options : List UInt8) (room : Nat) : List Addr :=
  match optionsFind options optNtpServer with
  | .ok opt => if opt.data.length > 0 ∧ opt.data.length % 4 = 0 then opt.storedAddrs room else []
  | .error _ => []

def populateLeaseFromOptions (env : Env) (msg : Message) (options : List UInt8) (l : Lease) :
    Lease :=
  { l with
    offeredIp := msg.yiaddr
    netmask := addrOr options optSubnetMask l.netmask
    gateway := gatewayOf options l.gateway
    serverId := addrOr options optServerId l.serverId
    leaseTimeSec := leaseTimeOf options
    t1Sec := t1Of options (leaseTimeOf options)
    t2Sec := t2Of options (leaseTimeOf options)
    dnsServers := dnsServersOf options env.dnsRoom
    ntpServers := ntpServersOf options env.ntpRoom }

/-- A datagram that passed the checks before the table lookup: a BOOTREPLY whose header parsed, and
its options area. -/
structure Reply where
  msg : Message
  options : List UInt8
  isReply : msg.op = .bootreply
  yiaddrIsV4 : msg.yiaddr.isV4 = true
  deriving DecidableEq, Repr

/-- An accepted OFFER, or an ACK that still has to be probed: hand over to the timer thread. -/
def acceptForProbe (env : Env) (r : Reply) (next : State) (c : Client) : Client :=
  (c.update fun l =>
    { populateLeaseFromOptions env r.msg r.options l with state := next }).armRetransmit
      env probeHandoffMs

/-- An ACK to a renewing or rebinding REQUEST: applied inline, without a probe. -/
def acceptRenewal (env : Env) (r : Reply) (c : Client) : Client :=
  commitLease env (c.update (populateLeaseFromOptions env r.msg r.options))

/-- The locked section of `dmdhcp_handle_datagram`. -/
def datagramSection (env : Env) (r : Reply) (msgType : UInt8) (c : Client) : Client × After :=
  -- The xid was compared before the lock was taken; only the state is looked at here.
  let state := c.lease.state
  if msgType = MsgType.offer.toByte ∧ state = .selecting then
    -- `dmarp_resolve` must not run on the rx thread: the probe is left to the timer.
    (acceptForProbe env r .checkingOffer c, .done)
  else if msgType = MsgType.ack.toByte ∧ (state = .requesting ∨ state = .rebooting) then
    (acceptForProbe env r .checkingAck c, .done)
  else if msgType = MsgType.nak.toByte ∧ (state = .requesting ∨ state = .rebooting) then
    -- No lease was confirmed yet, so the restart is silent.
    (outputStartDiscovery env c, .done)
  else if msgType = MsgType.ack.toByte ∧ (state = .renewing ∨ state = .rebinding) then
    (acceptRenewal env r c, .onBound true)
  else if msgType = MsgType.nak.toByte ∧ (state = .renewing ∨ state = .rebinding) then (c, .lost)
  else (c, .done) -- unexpected message for the current state

/-- The checks of `dmdhcp_handle_datagram` before the table lookup. -/
def parseReply (payload : List UInt8) : Option Reply :=
  match h : parseMessage payload with
  | .error _ => none
  | .ok (msg, optionsOffset) =>
    if hop : msg.op = .bootreply then
      some ⟨msg, payload.drop optionsOffset, hop, parseMessage_yiaddr h⟩
    else none

theorem parseReply_error {payload : List UInt8} {e : Errno} (h : parseMessage payload = .error e) :
    parseReply payload = none := by
  unfold parseReply
  split
  next => rfl
  next msg off hok => cases h.symm.trans hok

theorem parseReply_ok {payload : List UInt8} {msg : Message} {off : Nat}
    (h : parseMessage payload = .ok (msg, off)) : parseReply payload =
      if hop : msg.op = .bootreply then
        some ⟨msg, payload.drop off, hop, parseMessage_yiaddr h⟩
      else none := by
  unfold parseReply
  split
  next e herror => cases h.symm.trans herror
  next msg' off' hok =>
    cases h.symm.trans hok
    rfl

/-- The message type: the byte of a one-byte option 53. -/
def messageType (options : List UInt8) : Option UInt8 :=
  match optionsFind options optMsgType with
  | .error _ => none
  | .ok opt =>
    match opt.data with
    | [msgType] => some msgType
    | _ => none

theorem messageType_eq {options : List UInt8} {opt : DhcpOption}
    (h : optionsFind options optMsgType = .ok opt) : messageType options =
      if hlen : opt.data.length = 1 then some opt.data[0] else none := by
  rw [messageType, h]
  dsimp only
  split
  next msgType hdata =>
    rw [dif_pos (by rw [hdata]; rfl)]
    simp only [hdata]
    rfl
  next hother =>
    rw [dif_neg fun hlen => ?_]
    obtain ⟨msgType, hdata⟩ := List.length_eq_one_iff.mp hlen
    exact hother msgType hdata

/-- `compare_by_xid`. -/
def Client.matchesXid (iface : Iface) (xid : UInt32) (c : Client) : Bool :=
  c.lease.iface == iface && c.lease.xid == xid

/-- `dmdhcp_handle_datagram` from the lookup's result on. -/
def handleReply (env : Env) (r : Reply) (c : Client) : Client :=
  match messageType r.options with
  | none => c
  | some msgType =>
    let (c, after) := datagramSection env r msgType c
    after.finish env c

/-- `dmlist_find` followed by work on the entry found: the first match changes, nothing else. -/
def modifyFirst {α : Type*} (p : α → Bool) (f : α → α) : List α → List α
  | [] => []
  | a :: as => if p a then f a :: as else a :: modifyFirst p f as

/-- `dmdhcp_handle_datagram` on the lease table. -/
def handleDatagram (env : Env) (iface : Iface) (payload : List UInt8) (leases : List Client) :
    List Client :=
  match parseReply payload with
  | none => leases
  | some r => modifyFirst (Client.matchesXid iface r.msg.xid) (handleReply env r) leases

/-- `dmdhcp_handle_datagram` as one lease sees it. -/
def Client.receive (env : Env) (iface : Iface) (payload : List UInt8) (c : Client) : Client :=
  match parseReply payload with
  | none => c
  | some r => if c.matchesXid iface r.msg.xid then handleReply env r c else c

end Dmdhcp
