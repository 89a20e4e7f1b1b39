import Dmdhcp.Lease

/-!
# Message senders and the start of each phase

The first half of `dmdhcp_output.c`.  Every caller of a sender discards its result, so a sender
returns only the client; a message that could not be built or had no buffer is not recorded.
-/

namespace Dmdhcp

/-- The parameter request list sent with every DISCOVER and REQUEST. -/
def requestedParameters : List UInt8 := [1, 3, 6, 42, 51, 58, 59]

/-- The options of one message, in the order `send_message` fills its array. -/
def messageOptions (lease : Lease) (msgType : MsgType) (requestedIp serverIdOption : Option Addr) :
    List DhcpOption :=
  [⟨optMsgType, [msgType.toByte], by simp⟩]
    ++ (requestedIp.map fun a => ⟨optRequestedIp, a.raw.bytes, by simp [Ipv4.bytes]⟩).toList
    ++ (serverIdOption.map fun a => ⟨optServerId, a.raw.bytes, by simp [Ipv4.bytes]⟩).toList
    ++ (lease.hostname.map fun name =>
        -- the length byte is clipped to 255, whatever `strlen` says
        ⟨optHostname, name.take 255, by rw [List.length_take]; omega⟩).toList
    ++ if msgType = .discover ∨ msgType = .request then
        [⟨optParameterList, requestedParameters, by decide⟩]
      else []

/-- The fixed header `send_message` fills in. -/
def messageHeader (lease : Lease) (netif : Netif) (ciaddr : Option Addr) : Message where
  op := .bootrequest
  htype := 1
  hlen := UInt8.ofNat macAddrLen
  hops := 0
  xid := lease.xid
  secs := 0
  flags := flagBroadcast
  ciaddr := ciaddr.getD .none
  yiaddr := .none
  siaddr := .none
  giaddr := .none
  chaddr := Vector.ofFn fun i => if h : i.val < 6 then netif.mac[i.val] else 0

/-- The bytes of one message: header, cookie and options in a `DMDHCP_MAX_MESSAGE_LEN` buffer. -/
def encodeMessage (lease : Lease) (netif : Netif) (msgType : MsgType)
    (ciaddr requestedIp serverIdOption : Option Addr) : Except Errno (List UInt8) := do
  let buffer ← buildMessage (List.replicate maxMessageLen 0) (messageHeader lease netif ciaddr)
  let optionsOffset := fixedHeaderLen + 4
  let (area, optionsLen) ← optionsWrite (buffer.drop optionsOffset)
    (messageOptions lease msgType requestedIp serverIdOption)
  pure ((buffer.take optionsOffset ++ area).take (optionsOffset + optionsLen))

def sendMessage (env : Env) (msgType : MsgType) (ciaddr requestedIp serverIdOption : Option Addr)
    (dst : Addr) (viaIface : Bool) (c : Client) : Client :=
  if env.sendBuffer then
    match encodeMessage c.lease c.netif msgType ciaddr requestedIp serverIdOption with
    | .ok payload =>
      c.emit (.sent ⟨msgType, c.lease.xid, ciaddr, requestedIp, serverIdOption, dst, viaIface,
        payload⟩)
    -- A message that does not fit is not sent; the state changes all the same.
    | .error _ => c
  else c

def sendDiscover (env : Env) (c : Client) : Client :=
  sendMessage env .discover none none none limitedBroadcast true c

def sendRequestSelecting (env : Env) (c : Client) : Client :=
  sendMessage env .request none (some c.lease.offeredIp) (some c.lease.serverId)
    limitedBroadcast true c

def sendRequestReboot (env : Env) (c : Client) : Client :=
  sendMessage env .request none (some c.lease.offeredIp) none limitedBroadcast true c

def sendRequestRenew (env : Env) (c : Client) : Client :=
  sendMessage env .request (some c.lease.offeredIp) none none c.lease.serverId false c

def sendRequestRebind (env : Env) (c : Client) : Client :=
  sendMessage env .request (some c.lease.offeredIp) none none limitedBroadcast true c

def sendDecline (env : Env) (c : Client) : Client :=
  sendMessage env .decline none (some c.lease.offeredIp) (some c.lease.serverId)
    limitedBroadcast true c

def outputSendRelease (env : Env) (c : Client) : Client :=
  sendMessage env .release (some c.lease.offeredIp) none (some c.lease.serverId)
    c.lease.serverId false c

/-! ### A sender only adds to the record -/

section
variable (env : Env) (msgType : MsgType) (ciaddr requestedIp serverIdOption : Option Addr)
  (dst : Addr) (viaIface : Bool) (c : Client)

@[simp] theorem sendMessage_lease :
    (sendMessage env msgType ciaddr requestedIp serverIdOption dst viaIface c).lease = c.lease := by
  unfold sendMessage
  split
  · split <;> rfl
  · rfl

@[simp] theorem sendMessage_netif :
    (sendMessage env msgType ciaddr requestedIp serverIdOption dst viaIface c).netif = c.netif := by
  unfold sendMessage
  split
  · split <;> rfl
  · rfl

@[simp] theorem sendMessage_routes :
    (sendMessage env msgType ciaddr requestedIp serverIdOption dst viaIface c).routes
      = c.routes := by
  unfold sendMessage
  split
  · split <;> rfl
  · rfl

theorem sendMessage_log :
    (sendMessage env msgType ciaddr requestedIp serverIdOption dst viaIface c).log = c.log ∨
      ∃ m, (sendMessage env msgType ciaddr requestedIp serverIdOption dst viaIface c).log
        = .sent m :: c.log := by
  unfold sendMessage
  split
  · split
    · exact .inr ⟨_, rfl⟩
    · exact .inl rfl
  · exact .inl rfl

end

/-- Doubling, capped at `DMDHCP_RETRANSMIT_MAX_MS`. -/
def nextBackoff (currentMs : UInt32) : UInt32 :=
  let next := currentMs * 2
  if next > retransmitMaxMs then retransmitMaxMs else next

def rearmBackoff (env : Env) (c : Client) : Client :=
  let c := c.update fun l => { l with retransmitIntervalMs := nextBackoff l.retransmitIntervalMs }
  c.armRetransmit env c.lease.retransmitIntervalMs

/-- (Re)start discovery. -/
def outputStartDiscovery (env : Env) (c : Client) : Client :=
  let c := (c.emit .startDiscovery).update fun l =>
    { l with
      xid := env.rand32
      offeredIp := .none
      serverId := .none
      gateway := .none
      netmask := .none
      dnsServers := []
      ntpServers := []
      retransmitCount := 0
      retransmitIntervalMs := retransmitInitialMs }
  -- Everything the last server said is forgotten before the DISCOVER goes out.
  let c := (sendDiscover env c).update fun l => { l with state := .selecting }
  c.armRetransmit env c.lease.retransmitIntervalMs

/-- What the other three starts do before they send: a fresh xid and a fresh backoff. -/
def beginExchange (env : Env) (c : Client) : Client :=
  c.update fun l =>
    { l with
      xid := env.rand32
      retransmitCount := 0
      retransmitIntervalMs := retransmitInitialMs }

/-- What the other three starts do after they have sent. -/
def enterExchange (env : Env) (state : State) (c : Client) : Client :=
  let c := c.update fun l => { l with state }
  c.armRetransmit env c.lease.retransmitIntervalMs

/-- `offered_ip` is pre-seeded by `dmdhcp_start`. -/
def outputStartReboot (env : Env) (c : Client) : Client :=
  enterExchange env .rebooting (sendRequestReboot env (beginExchange env (c.emit .startReboot)))

def outputStartRenew (env : Env) (c : Client) : Client :=
  enterExchange env .renewing (sendRequestRenew env (beginExchange env c))

def outputStartRebind (env : Env) (c : Client) : Client :=
  enterExchange env .rebinding (sendRequestRebind env (beginExchange env c))

/-! ### What the starts leave in the client -/

section
variable (env : Env) (c : Client)

theorem outputStartDiscovery_lease : (outputStartDiscovery env c).lease =
    { c.lease with
      xid := env.rand32
      state := .selecting
      offeredIp := .none
      serverId := .none
      gateway := .none
      netmask := .none
      dnsServers := []
      ntpServers := []
      retransmitCount := 0
      retransmitIntervalMs := retransmitInitialMs
      retransmitTimer := .arm env.now retransmitInitialMs } := by
  simp [outputStartDiscovery, sendDiscover, Client.armRetransmit]

@[simp] theorem outputStartDiscovery_netif : (outputStartDiscovery env c).netif = c.netif := by
  simp [outputStartDiscovery, sendDiscover, Client.armRetransmit]

@[simp] theorem outputStartDiscovery_routes : (outputStartDiscovery env c).routes = c.routes := by
  simp [outputStartDiscovery, sendDiscover, Client.armRetransmit]

/-- The lease after `beginExchange`, a send and `enterExchange`. -/
def Lease.inExchange (env : Env) (state : State) (l : Lease) : Lease :=
  { l with
    xid := env.rand32
    state
    retransmitCount := 0
    retransmitIntervalMs := retransmitInitialMs
    retransmitTimer := .arm env.now retransmitInitialMs }

theorem outputStartReboot_lease :
    (outputStartReboot env c).lease = c.lease.inExchange env .rebooting := by
  simp [outputStartReboot, sendRequestReboot, enterExchange, beginExchange, Client.armRetransmit,
    Lease.inExchange]

theorem outputStartRenew_lease :
    (outputStartRenew env c).lease = c.lease.inExchange env .renewing := by
  simp [outputStartRenew, sendRequestRenew, enterExchange, beginExchange, Client.armRetransmit,
    Lease.inExchange]

theorem outputStartRebind_lease :
    (outputStartRebind env c).lease = c.lease.inExchange env .rebinding := by
  simp [outputStartRebind, sendRequestRebind, enterExchange, beginExchange, Client.armRetransmit,
    Lease.inExchange]

theorem outputStartDiscovery_state : (outputStartDiscovery env c).lease.state = .selecting := by
  rw [outputStartDiscovery_lease]

theorem outputStartRenew_state : (outputStartRenew env c).lease.state = .renewing := by
  rw [outputStartRenew_lease]
  rfl

theorem outputStartRebind_state : (outputStartRebind env c).lease.state = .rebinding := by
  rw [outputStartRebind_lease]
  rfl

@[simp] theorem outputStartReboot_netif : (outputStartReboot env c).netif = c.netif := by
  simp [outputStartReboot, sendRequestReboot, enterExchange, beginExchange, Client.armRetransmit]

@[simp] theorem outputStartRenew_netif : (outputStartRenew env c).netif = c.netif := by
  simp [outputStartRenew, sendRequestRenew, enterExchange, beginExchange, Client.armRetransmit]

@[simp] theorem outputStartRebind_netif : (outputStartRebind env c).netif = c.netif := by
  simp [outputStartRebind, sendRequestRebind, enterExchange, beginExchange, Client.armRetransmit]

@[simp] theorem outputStartReboot_routes : (outputStartReboot env c).routes = c.routes := by
  simp [outputStartReboot, sendRequestReboot, enterExchange, beginExchange, Client.armRetransmit]

@[simp] theorem outputStartRenew_routes : (outputStartRenew env c).routes = c.routes := by
  simp [outputStartRenew, sendRequestRenew, enterExchange, beginExchange, Client.armRetransmit]

@[simp] theorem outputStartRebind_routes : (outputStartRebind env c).routes = c.routes := by
  simp [outputStartRebind, sendRequestRebind, enterExchange, beginExchange, Client.armRetransmit]

end

end Dmdhcp
