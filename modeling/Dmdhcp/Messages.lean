import Dmdhcp.HeaderCodec
import Dmdhcp.OptionsCodec
import Dmdhcp.Output

/-!
# What the senders put on the wire

The seven senders of `dmdhcp_output.c` differ only in the arguments they pass to `send_message`.
The encoding always fits the send buffer, and a receiver that decodes it reads those arguments
back.
-/

namespace Dmdhcp

inductive Sender
  | discover
  | requestSelecting
  | requestReboot
  | requestRenew
  | requestRebind
  | decline
  | release
  deriving DecidableEq, Repr

namespace Sender

def msgType : Sender → MsgType
  | .discover => .discover
  | .requestSelecting => .request
  | .requestReboot => .request
  | .requestRenew => .request
  | .requestRebind => .request
  | .decline => .decline
  | .release => .release

/-- The address in the fixed header: the client's own, once it has one. -/
def ciaddr (l : Lease) : Sender → Option Addr
  | .requestRenew => some l.offeredIp
  | .requestRebind => some l.offeredIp
  | .release => some l.offeredIp
  | _ => none

def requestedIp (l : Lease) : Sender → Option Addr
  | .requestSelecting => some l.offeredIp
  | .requestReboot => some l.offeredIp
  | .decline => some l.offeredIp
  | _ => none

def serverIdOption (l : Lease) : Sender → Option Addr
  | .requestSelecting => some l.serverId
  | .decline => some l.serverId
  | .release => some l.serverId
  | _ => none

/-- Unicast to the server, or broadcast. -/
def dst (l : Lease) : Sender → Addr
  | .requestRenew => l.serverId
  | .release => l.serverId
  | _ => limitedBroadcast

def viaIface : Sender → Bool
  | .requestRenew => false
  | .release => false
  | _ => true

def send (env : Env) (s : Sender) (c : Client) : Client :=
  sendMessage env s.msgType (s.ciaddr c.lease) (s.requestedIp c.lease) (s.serverIdOption c.lease)
    (s.dst c.lease) s.viaIface c

/-- The sender of the source. -/
def call : Sender → Env → Client → Client
  | .discover => sendDiscover
  | .requestSelecting => sendRequestSelecting
  | .requestReboot => sendRequestReboot
  | .requestRenew => sendRequestRenew
  | .requestRebind => sendRequestRebind
  | .decline => sendDecline
  | .release => outputSendRelease

end Sender

section
variable (env : Env) (c : Client)

theorem sendDiscover_eq : sendDiscover env c = Sender.discover.send env c := rfl
theorem sendRequestSelecting_eq :
    sendRequestSelecting env c = Sender.requestSelecting.send env c := rfl
theorem sendRequestReboot_eq : sendRequestReboot env c = Sender.requestReboot.send env c := rfl
theorem sendRequestRenew_eq : sendRequestRenew env c = Sender.requestRenew.send env c := rfl
theorem sendRequestRebind_eq : sendRequestRebind env c = Sender.requestRebind.send env c := rfl
theorem sendDecline_eq : sendDecline env c = Sender.decline.send env c := rfl
theorem outputSendRelease_eq : outputSendRelease env c = Sender.release.send env c := rfl

theorem Sender.call_eq (s : Sender) : s.call env c = s.send env c := by
  cases s <;> rfl

-- The start of an exchange records what its sender records.
theorem outputStartReboot_log : (outputStartReboot env c).log =
    (Sender.requestReboot.send env (beginExchange env (c.emit .startReboot))).log := by
  simp only [outputStartReboot, enterExchange, sendRequestReboot_eq, Client.armRetransmit,
    Client.update_log]

theorem outputStartRenew_log : (outputStartRenew env c).log =
    (Sender.requestRenew.send env (beginExchange env c)).log := by
  simp only [outputStartRenew, enterExchange, sendRequestRenew_eq, Client.armRetransmit,
    Client.update_log]

theorem outputStartRebind_log : (outputStartRebind env c).log =
    (Sender.requestRebind.send env (beginExchange env c)).log := by
  simp only [outputStartRebind, enterExchange, sendRequestRebind_eq, Client.armRetransmit,
    Client.update_log]

theorem rearmBackoff_send_log (s : Sender) :
    (rearmBackoff env (s.send env c)).log = (s.send env c).log := by
  simp only [rearmBackoff, Client.armRetransmit, Client.update_log]

end

/-! ## 1. The encoding fits -/

section
variable (l : Lease) (n : Netif) (msgType : MsgType) (ciaddr requestedIp serverIdOption : Option Addr)

theorem messageOptions_codes : ∀ opt ∈ messageOptions l msgType requestedIp serverIdOption,
    IsEntryCode opt.code := by
  intro opt hopt
  simp only [messageOptions, List.mem_append, List.mem_singleton, Option.mem_toList,
    Option.map_eq_some_iff] at hopt
  rcases hopt with (((rfl | ⟨a, -, rfl⟩) | ⟨a, -, rfl⟩) | ⟨a, -, rfl⟩) | hopt
  · show IsEntryCode optMsgType
    decide
  · show IsEntryCode optRequestedIp
    decide
  · show IsEntryCode optServerId
    decide
  · show IsEntryCode optHostname
    decide
  · split_ifs at hopt
    · rw [List.mem_singleton.mp hopt]
      decide
    · cases hopt

theorem optionsSize_append (options options' : List DhcpOption) :
    optionsSize (options ++ options') + 1 = optionsSize options + optionsSize options' := by
  simp only [optionsSize, List.map_append, List.sum_append]
  omega

-- One option at most: its size and END.
theorem optionsSize_toList (o : Option DhcpOption) (k : Nat) (h : ∀ opt ∈ o, opt.data.length ≤ k) :
    optionsSize o.toList ≤ 3 + k := by
  cases o with
  | none =>
    show optionsSize [] ≤ 3 + k
    rw [optionsSize_nil]
    omega
  | some opt =>
    have hlen := h opt rfl
    show optionsSize [opt] ≤ 3 + k
    rw [optionsSize_cons, optionsSize_nil]
    omega

-- At most 282 of the 336 bytes behind the header are used.
theorem messageOptions_size :
    optionsSize (messageOptions l msgType requestedIp serverIdOption) ≤ 282 := by
  unfold messageOptions
  set base := [(⟨optMsgType, [msgType.toByte], by simp⟩ : DhcpOption)]
  set ip := (requestedIp.map fun a =>
    (⟨optRequestedIp, a.raw.bytes, by simp [Ipv4.bytes]⟩ : DhcpOption)).toList
  set server := (serverIdOption.map fun a =>
    (⟨optServerId, a.raw.bytes, by simp [Ipv4.bytes]⟩ : DhcpOption)).toList
  set host := (l.hostname.map fun name =>
    (⟨optHostname, name.take 255, by rw [List.length_take]; omega⟩ : DhcpOption)).toList
  set list := if msgType = .discover ∨ msgType = .request then
    [(⟨optParameterList, requestedParameters, by decide⟩ : DhcpOption)] else []
  have hbase : optionsSize base = 4 := rfl
  have hip : optionsSize ip ≤ 3 + 4 := by
    refine optionsSize_toList _ 4 fun opt hopt => ?_
    obtain ⟨a, -, rfl⟩ := Option.map_eq_some_iff.mp hopt
    exact Nat.le_refl 4
  have hserver : optionsSize server ≤ 3 + 4 := by
    refine optionsSize_toList _ 4 fun opt hopt => ?_
    obtain ⟨a, -, rfl⟩ := Option.map_eq_some_iff.mp hopt
    exact Nat.le_refl 4
  have hhost : optionsSize host ≤ 3 + 255 := by
    refine optionsSize_toList _ 255 fun opt hopt => ?_
    obtain ⟨name, -, rfl⟩ := Option.map_eq_some_iff.mp hopt
    show (name.take 255).length ≤ 255
    rw [List.length_take]
    omega
  have hlist : optionsSize list ≤ 10 := by
    by_cases hasks : msgType = .discover ∨ msgType = .request
    · rw [show list = [⟨optParameterList, requestedParameters, by decide⟩] from if_pos hasks]
      decide
    · rw [show list = [] from if_neg hasks]
      decide
  have h1 := optionsSize_append base ip
  have h2 := optionsSize_append (base ++ ip) server
  have h3 := optionsSize_append (base ++ ip ++ server) host
  have h4 := optionsSize_append (base ++ ip ++ server ++ host) list
  omega

/-- **The bytes of a message**: the header and the options, with END at their end. -/
theorem encodeMessage_eq (hci : (ciaddr.getD .none).isV6 = false) :
    encodeMessage l n msgType ciaddr requestedIp serverIdOption =
      .ok (headerBytes (messageHeader l n ciaddr) ++
        encodeOptions (messageOptions l msgType requestedIp serverIdOption)) := by
  have hbuild : buildMessage (List.replicate maxMessageLen 0) (messageHeader l n ciaddr) =
      .ok (headerBytes (messageHeader l n ciaddr) ++ (List.replicate maxMessageLen 0).drop 240) :=
    buildMessage_eq (by rw [List.length_replicate]; decide) hci rfl rfl rfl
  have hoffset : fixedHeaderLen + 4 = (headerBytes (messageHeader l n ciaddr)).length := by
    rw [headerBytes_length]
    rfl
  have hsize := messageOptions_size l msgType requestedIp serverIdOption
  have hroom : ((List.replicate maxMessageLen (0 : UInt8)).drop 240).length = 336 := by
    rw [List.length_drop, List.length_replicate]
    rfl
  unfold encodeMessage
  rw [hbuild]
  simp only [bind, Except.bind, pure, Except.pure]
  rw [hoffset, List.drop_left, List.take_left, optionsWrite_eq, if_pos (by rw [hroom]; omega)]
  simp only
  -- What is cut off behind the options is the unused rest of the buffer.
  rw [← encodeOptions_length, ← List.append_assoc, ← List.length_append, List.take_left]

-- An IPv6 address in the header is the one thing that is refused.
theorem encodeMessage_v6 (hci : (ciaddr.getD .none).isV6 = true) :
    encodeMessage l n msgType ciaddr requestedIp serverIdOption = .error .einval := by
  have haddr : addrBytes (ciaddr.getD .none) = .error .einval := by
    cases h : ciaddr.getD .none with
    | v6 a => rfl
    | none => rw [h] at hci; cases hci
    | v4 a => rw [h] at hci; cases hci
  unfold encodeMessage buildMessage
  rw [if_neg (by rw [List.length_replicate]; decide),
    show addrBytes (messageHeader l n ciaddr).ciaddr = .error .einval from haddr]
  rfl

end

/-! ## 2. Reading a message back -/

/-- The data of an option of a sent message, as a receiver finds it. -/
def Sent.option (m : Sent) (code : UInt8) : Option (List UInt8) :=
  (optionsFind (m.payload.drop (fixedHeaderLen + 4)) code).toOption.map DhcpOption.data

/-- `ciaddr` of a sent message, as a receiver parses it. -/
def Sent.parsedCiaddr (m : Sent) : Option Addr :=
  (parseMessage m.payload).toOption.map fun parsed => parsed.1.ciaddr

section
variable (l : Lease) (msgType : MsgType) (requestedIp serverIdOption : Option Addr)

theorem firstOption_requestedIp :
    (firstOption (messageOptions l msgType requestedIp serverIdOption) optRequestedIp).toOption.map
      DhcpOption.data = requestedIp.map fun a => a.raw.bytes := by
  unfold firstOption messageOptions
  cases requestedIp <;> cases serverIdOption <;> cases l.hostname <;> split_ifs <;> rfl

theorem firstOption_serverId :
    (firstOption (messageOptions l msgType requestedIp serverIdOption) optServerId).toOption.map
      DhcpOption.data = serverIdOption.map fun a => a.raw.bytes := by
  unfold firstOption messageOptions
  cases requestedIp <;> cases serverIdOption <;> cases l.hostname <;> split_ifs <;> rfl

theorem firstOption_hostname :
    (firstOption (messageOptions l msgType requestedIp serverIdOption) optHostname).toOption.map
      DhcpOption.data = l.hostname.map fun name => name.take 255 := by
  unfold firstOption messageOptions
  cases requestedIp <;> cases serverIdOption <;> cases l.hostname <;> split_ifs <;> rfl

theorem firstOption_parameterList :
    (firstOption (messageOptions l msgType requestedIp serverIdOption)
      optParameterList).toOption.map DhcpOption.data =
        if msgType = .discover ∨ msgType = .request then some requestedParameters else none := by
  unfold firstOption messageOptions
  cases requestedIp <;> cases serverIdOption <;> cases l.hostname <;> split_ifs <;> rfl

-- The array is filled to its capacity by a REQUEST that names both addresses and a hostname.
theorem messageOptions_length :
    (messageOptions l msgType requestedIp serverIdOption).length ≤ 5 := by
  have hone (o : Option DhcpOption) : o.toList.length ≤ 1 := by
    cases o with
    | none => exact Nat.zero_le 1
    | some opt => exact Nat.le_refl 1
  have hip := hone (requestedIp.map fun a =>
    (⟨optRequestedIp, a.raw.bytes, by simp [Ipv4.bytes]⟩ : DhcpOption))
  have hserver := hone (serverIdOption.map fun a =>
    (⟨optServerId, a.raw.bytes, by simp [Ipv4.bytes]⟩ : DhcpOption))
  have hhost := hone (l.hostname.map fun name =>
    (⟨optHostname, name.take 255, by rw [List.length_take]; omega⟩ : DhcpOption))
  unfold messageOptions
  rw [List.length_append, List.length_append, List.length_append, List.length_append]
  split_ifs
  · rw [List.length_singleton, List.length_singleton]
    omega
  · rw [List.length_singleton, List.length_nil]
    omega

end

namespace Sender

/-- What a sender hands to dmudp for the lease of `c`. -/
def message (s : Sender) (c : Client) : Sent where
  msgType := s.msgType
  xid := c.lease.xid
  ciaddr := s.ciaddr c.lease
  requestedIp := s.requestedIp c.lease
  serverIdOption := s.serverIdOption c.lease
  dst := s.dst c.lease
  viaIface := s.viaIface
  payload := headerBytes (messageHeader c.lease c.netif (s.ciaddr c.lease)) ++
    encodeOptions (messageOptions c.lease s.msgType (s.requestedIp c.lease)
      (s.serverIdOption c.lease))

variable (s : Sender) (env : Env) (c : Client)

-- The address the client puts into `ciaddr` is never an IPv6 one if `offered_ip` is none.
theorem ciaddr_isV6 (h : c.lease.offeredIp.isV6 = false) :
    ((s.ciaddr c.lease).getD .none).isV6 = false := by
  cases s <;> first | exact h | rfl

-- A sender sends its message, unless there is no buffer for it.
theorem send_eq (h : c.lease.offeredIp.isV6 = false) :
    s.send env c = if env.sendBuffer then c.emit (.sent (s.message c)) else c := by
  unfold send sendMessage
  rw [encodeMessage_eq _ _ _ _ _ _ (s.ciaddr_isV6 c h)]
  rfl

theorem send_log : (s.send env c).log = c.log ∨
    (s.send env c).log = .sent (s.message c) :: c.log := by
  cases hv6 : ((s.ciaddr c.lease).getD .none).isV6 with
  | true =>
    left
    unfold send sendMessage
    rw [encodeMessage_v6 _ _ _ _ _ _ hv6]
    split_ifs <;> rfl
  | false =>
    unfold send sendMessage
    rw [encodeMessage_eq _ _ _ _ _ _ hv6]
    split_ifs
    · exact .inr rfl
    · exact .inl rfl

theorem message_find (code : UInt8) :
    (s.message c).option code = (firstOption (messageOptions c.lease s.msgType
      (s.requestedIp c.lease) (s.serverIdOption c.lease)) code).toOption.map DhcpOption.data := by
  have hdrop : (s.message c).payload.drop (fixedHeaderLen + 4) =
      encodeOptions (messageOptions c.lease s.msgType (s.requestedIp c.lease)
        (s.serverIdOption c.lease)) := by
    have hoffset : fixedHeaderLen + 4 =
        (headerBytes (messageHeader c.lease c.netif (s.ciaddr c.lease))).length := by
      rw [headerBytes_length]
      rfl
    rw [hoffset]
    exact List.drop_left
  have hfind := optionsFind_encodeOptions (messageOptions c.lease s.msgType
    (s.requestedIp c.lease) (s.serverIdOption c.lease)) (messageOptions_codes _ _ _ _) code []
  rw [List.append_nil] at hfind
  rw [Sent.option, hdrop, hfind]

-- A receiver reads back the requested address, ...
theorem message_requestedIp : (s.message c).option optRequestedIp =
    (s.requestedIp c.lease).map fun a => a.raw.bytes := by
  rw [message_find, firstOption_requestedIp]

-- ... the server identifier ...
theorem message_serverId : (s.message c).option optServerId =
    (s.serverIdOption c.lease).map fun a => a.raw.bytes := by
  rw [message_find, firstOption_serverId]

theorem message_msgType : (s.message c).option optMsgType = some [s.msgType.toByte] := by
  rw [message_find]
  rfl

-- ... and the client's address, `0.0.0.0` if the message carries none.
theorem message_ciaddr : (s.message c).parsedCiaddr =
    some (.v4 ((s.ciaddr c.lease).getD .none).raw) := by
  rw [Sent.parsedCiaddr, message, parseMessage_headerBytes]
  rfl

theorem message_hostname : (s.message c).option optHostname =
    c.lease.hostname.map fun name => name.take 255 := by
  rw [message_find, firstOption_hostname]

theorem message_parameterList : (s.message c).option optParameterList =
    if s.msgType = .discover ∨ s.msgType = .request then some requestedParameters else none := by
  rw [message_find, firstOption_parameterList]

theorem message_length : (s.message c).payload.length ≤ 522 := by
  have hsize := messageOptions_size c.lease s.msgType (s.requestedIp c.lease)
    (s.serverIdOption c.lease)
  rw [message, List.length_append, headerBytes_length, encodeOptions_length]
  omega

-- Six bytes of `chaddr` are the interface's, the other ten stay zero.
theorem messageHeader_chaddr (l : Lease) (n : Netif) (ciaddr : Option Addr) :
    (messageHeader l n ciaddr).chaddr.toList = n.mac.toList ++ List.replicate 10 0 := by
  apply List.ext_getElem
  · rw [List.length_append, Vector.length_toList, Vector.length_toList, List.length_replicate]
  · intro i hi hi'
    have hleft : n.mac.toList.length = 6 := Vector.length_toList
    rw [Vector.getElem_toList]
    simp only [messageHeader]
    rw [Vector.getElem_ofFn]
    by_cases hmac : i < 6
    · rw [List.getElem_append_left (by omega), Vector.getElem_toList]
      exact dif_pos hmac
    · rw [List.getElem_append_right (by omega), List.getElem_replicate]
      exact dif_neg hmac

/-- **Every message is well formed and fits.**  With an `offered_ip` that is not an IPv6 address,
whatever else the lease holds, the encoding of each sender succeeds within its five options and 576
bytes, and a receiver reads back what the sender was given. -/
theorem message_decodes (h : c.lease.offeredIp.isV6 = false) :
    (∀ env, s.call env c = if env.sendBuffer then c.emit (.sent (s.message c)) else c) ∧
    encodeMessage c.lease c.netif s.msgType (s.ciaddr c.lease) (s.requestedIp c.lease)
      (s.serverIdOption c.lease) = .ok (s.message c).payload ∧
    (messageOptions c.lease s.msgType (s.requestedIp c.lease)
      (s.serverIdOption c.lease)).length ≤ 5 ∧
    (s.message c).payload.length ≤ 576 ∧
    (∃ m, parseMessage (s.message c).payload = .ok (m, 240) ∧ m.op = .bootrequest ∧
      m.xid = c.lease.xid ∧ m.flags = flagBroadcast ∧
      m.chaddr.toList = c.netif.mac.toList ++ List.replicate 10 0 ∧
      m.ciaddr = ((s.ciaddr c.lease).getD .none).orZero) ∧
    (s.message c).option optMsgType = some [s.msgType.toByte] ∧
    (s.message c).option optRequestedIp = (s.requestedIp c.lease).map (fun a => a.raw.bytes) ∧
    (s.message c).option optServerId = (s.serverIdOption c.lease).map (fun a => a.raw.bytes) ∧
    (s.message c).option optHostname = c.lease.hostname.map (fun name => name.take 255) ∧
    (s.message c).option optParameterList =
      if s.msgType = .discover ∨ s.msgType = .request then some requestedParameters else none := by
  have hci := s.ciaddr_isV6 c h
  refine ⟨fun env => ?_, encodeMessage_eq _ _ _ _ _ _ hci, messageOptions_length _ _ _ _, ?_, ?_,
    s.message_msgType c, s.message_requestedIp c, s.message_serverId c, s.message_hostname c,
    s.message_parameterList c⟩
  · rw [call_eq, send_eq s env c h]
  · have hlen := s.message_length c
    omega
  · have hparse := parseMessage_headerBytes (messageHeader c.lease c.netif (s.ciaddr c.lease))
      (encodeOptions (messageOptions c.lease s.msgType (s.requestedIp c.lease)
        (s.serverIdOption c.lease)))
    rw [Addr.orZero_eq hci]
    exact ⟨_, hparse, rfl, rfl, rfl,
      messageHeader_chaddr c.lease c.netif (s.ciaddr c.lease), rfl⟩

/-- A lease that asks for an offered address, under a name of 300 bytes. -/
def namedClient : Client where
  lease :=
    { iface := 1, state := .requesting, xid := 7, offeredIp := .v4 ⟨10, 0, 0, 5⟩
      netmask := .none, gateway := .none, serverId := .v4 ⟨10, 0, 0, 1⟩
      leaseTimeSec := 0, t1Sec := 0, t2Sec := 0, dnsServers := [], ntpServers := []
      retransmitIntervalMs := retransmitInitialMs, retransmitCount := 0, declineRetryCount := 0
      retransmitTimer := .create, leaseTimer := .create, defaultRoute := none
      ifaceConfigured := false, hostname := some (List.replicate 300 97)
      callbacks := ⟨true, true, true⟩, userData := 0 }
  netif := ⟨#v[2, 0, 0, 0, 0, 1], .none, .none, .none⟩
  routes := ⟨[], 0⟩
  log := []

/-- All five options at once: the REQUEST of the selected offer. -/
theorem message_decodes_named :
    namedClient.lease.offeredIp.isV6 = false ∧
      (Sender.requestSelecting.message namedClient).payload.length ≤ 576 ∧
      (Sender.requestSelecting.message namedClient).option optRequestedIp = some [10, 0, 0, 5] ∧
      (Sender.requestSelecting.message namedClient).option optServerId = some [10, 0, 0, 1] ∧
      (Sender.requestSelecting.message namedClient).option optHostname =
        some ((List.replicate 300 97).take 255) := by
  obtain ⟨-, -, -, hlen, -, -, hip, hserver, hhost, -⟩ :=
    message_decodes .requestSelecting namedClient rfl
  exact ⟨rfl, hlen, hip, hserver, hhost⟩

end Sender

end Dmdhcp
