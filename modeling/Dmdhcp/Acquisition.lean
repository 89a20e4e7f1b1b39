import Mathlib.Data.List.Nodup
import Dmdhcp.DefaultRoute
import Dmdhcp.HeaderCodec
import Dmdhcp.Terms

/-!
# From a server's terms to a configured interface

A server grants terms; a reply that carries them is built with the module's own codec, its options
in any order and among any others.  What the client then holds, reports and configures are these
terms.
-/

namespace Dmdhcp

/-! ## 1. Terms and the replies that carry them -/

/-- What a server grants; a list fits into one option. -/
structure Grant where
  ip : Ipv4
  serverId : Ipv4
  leaseTime : UInt32
  netmask : Option Ipv4
  routers : List Ipv4
  t1 : Option UInt32
  t2 : Option UInt32
  dnsServers : List Ipv4
  ntpServers : List Ipv4
  routersFit : routers.length ≤ 63
  dnsFit : dnsServers.length ≤ 63
  ntpFit : ntpServers.length ≤ 63
  deriving DecidableEq, Repr

theorem flatMap_bytes_length (addrs : List Ipv4) :
    (addrs.flatMap Ipv4.bytes).length = 4 * addrs.length := by
  induction addrs with
  | nil => rfl
  | cons a as ih =>
    rw [List.flatMap_cons, List.length_append, Ipv4.bytes_length, ih, List.length_cons]
    omega

def addrListOption (code : UInt8) (addrs : List Ipv4) (h : addrs.length ≤ 63) : Option DhcpOption :=
  if addrs = [] then none
  else some ⟨code, addrs.flatMap Ipv4.bytes, by rw [flatMap_bytes_length]; omega⟩

theorem typeByte_fits (msgType : MsgType) : [msgType.toByte].length ≤ 255 :=
  Nat.le_of_ble_eq_true rfl

theorem Ipv4.bytes_fit (a : Ipv4) : a.bytes.length ≤ 255 := Nat.le_of_ble_eq_true rfl

theorem u32Be_fits (value : UInt32) : (u32Be value).length ≤ 255 := Nat.le_of_ble_eq_true rfl

def typeOption (msgType : MsgType) : DhcpOption :=
  ⟨optMsgType, [msgType.toByte], typeByte_fits msgType⟩

def addrOption (code : UInt8) (a : Ipv4) : DhcpOption := ⟨code, a.bytes, a.bytes_fit⟩

def timeOption (code : UInt8) (seconds : UInt32) : DhcpOption :=
  ⟨code, u32Be seconds, u32Be_fits seconds⟩

/-- The options that a reply with the terms consists of, each with its code. -/
def Grant.options (g : Grant) (msgType : MsgType) : List (UInt8 × Option DhcpOption) :=
  [(optMsgType, some (typeOption msgType)),
    (optServerId, some (addrOption optServerId g.serverId)),
    (optLeaseTime, some (timeOption optLeaseTime g.leaseTime)),
    (optSubnetMask, g.netmask.map (addrOption optSubnetMask)),
    (optRouter, addrListOption optRouter g.routers g.routersFit),
    (optRenewalT1, g.t1.map (timeOption optRenewalT1)),
    (optRebindingT2, g.t2.map (timeOption optRebindingT2)),
    (optDnsServer, addrListOption optDnsServer g.dnsServers g.dnsFit),
    (optNtpServer, addrListOption optNtpServer g.ntpServers g.ntpFit)]

/-- The options say of each of these codes what the grant says, in any order, among any others. -/
def Grant.Carried (g : Grant) (msgType : MsgType) (options : List DhcpOption) : Prop :=
  ∀ f ∈ g.options msgType, ∀ opt, (opt ∈ options ∧ opt.code = f.1) ↔ f.2 = some opt

/-- A server's reply as it is put together: its header, its options and what follows them. -/
structure ServerReply where
  header : Message
  options : List DhcpOption
  padding : List UInt8
  noV6 : header.NoV6
  entryCodes : ∀ opt ∈ options, IsEntryCode opt.code

/-- The reply, built in a buffer as the tests' `build_dhcp_payload` does. -/
def ServerReply.build (m : ServerReply) (buffer : List UInt8) : Except Errno (List UInt8) := do
  let buffer ← buildMessage buffer m.header
  let (area, len) ← optionsWrite (buffer.drop 240) m.options
  pure ((buffer.take 240 ++ area).take (240 + len) ++ m.padding)

/-- The reply is addressed to the transaction and carries the terms. -/
structure ServerReply.Grants (m : ServerReply) (msgType : MsgType) (xid : UInt32) (g : Grant) :
    Prop where
  op : m.header.op = .bootreply
  xid : m.header.xid = xid
  yiaddr : m.header.yiaddr = .v4 g.ip
  carried : g.Carried msgType m.options

theorem addrListOption_code {code : UInt8} {addrs : List Ipv4} {hfit : addrs.length ≤ 63}
    {opt : DhcpOption} (h : addrListOption code addrs hfit = some opt) : opt.code = code := by
  unfold addrListOption at h
  split_ifs at h
  obtain rfl := Option.some.inj h
  rfl

theorem Grant.options_code {g : Grant} {msgType : MsgType} :
    ∀ f ∈ g.options msgType, ∀ opt, f.2 = some opt → opt.code = f.1 := by
  have hmap {α : Type} {x : Option α} {make : α → DhcpOption} {code : UInt8}
      (hmake : ∀ a, (make a).code = code) (opt : DhcpOption) (h : x.map make = some opt) :
      opt.code = code := by
    obtain ⟨a, -, rfl⟩ := Option.map_eq_some_iff.mp h
    exact hmake a
  have hsome {o : DhcpOption} (opt : DhcpOption) (h : some o = some opt) : opt.code = o.code :=
    congrArg DhcpOption.code (Option.some.inj h).symm
  simp only [Grant.options, List.forall_mem_cons, List.not_mem_nil, false_imp_iff, implies_true,
    and_true]
  exact ⟨hsome, hsome, hsome, hmap fun a => rfl, fun opt => addrListOption_code, hmap fun a => rfl,
    hmap fun a => rfl, fun opt => addrListOption_code, fun opt => addrListOption_code⟩

-- Its options are the terms and nothing else.
theorem Grant.carried (g : Grant) (msgType : MsgType) :
    g.Carried msgType ((g.options msgType).filterMap Prod.snd) := by
  intro f hf opt
  have hnodup : ((g.options msgType).map Prod.fst).Nodup := by
    simp only [Grant.options, List.map_cons, List.map_nil]
    decide
  constructor
  · rintro ⟨hin, hcode⟩
    obtain ⟨f', hf', hopt⟩ := List.mem_filterMap.mp hin
    have hsame : f' = f :=
      List.inj_on_of_nodup_map hnodup hf' hf ((g.options_code f' hf' opt hopt).symm.trans hcode)
    rw [← hsame, hopt]
  · exact fun hopt => ⟨List.mem_filterMap.mpr ⟨f, hf, hopt⟩, g.options_code f hf opt hopt⟩

/-- The reply with these options alone, for the transaction. -/
def Grant.reply (g : Grant) (msgType : MsgType) (xid : UInt32) : ServerReply where
  header := ⟨.bootreply, 1, 6, 0, xid, 0, 0, .none, .v4 g.ip, .none, .none, Vector.replicate 16 0⟩
  options := (g.options msgType).filterMap Prod.snd
  padding := []
  noV6 := ⟨rfl, rfl, rfl, rfl⟩
  entryCodes opt hin := by
    obtain ⟨f, hf, hopt⟩ := List.mem_filterMap.mp hin
    rw [g.options_code f hf opt hopt]
    have hcodes : ∀ f ∈ g.options msgType, IsEntryCode f.1 := by
      simp only [Grant.options, List.forall_mem_cons]
      refine ⟨?_, ?_, ?_, ?_, ?_, ?_, ?_, ?_, ?_, List.forall_mem_nil _⟩ <;> decide
    exact hcodes f hf

/-! ## 2. What the client reads -/

theorem ServerReply.build_eq (m : ServerReply) {buffer : List UInt8}
    (hroom : 240 + optionsSize m.options ≤ buffer.length) :
    m.build buffer = .ok (headerBytes m.header ++ (encodeOptions m.options ++ m.padding)) := by
  obtain ⟨hci, hyi, hsi, hgi⟩ := m.noV6
  have hdrop : (headerBytes m.header ++ buffer.drop 240).drop 240 = buffer.drop 240 := by
    rw [List.drop_append, headerBytes_length, List.drop_eq_nil_of_le (by rw [headerBytes_length])]
    rfl
  have htake : (headerBytes m.header ++ buffer.drop 240).take 240 = headerBytes m.header := by
    rw [List.take_append, headerBytes_length, List.take_of_length_le (by rw [headerBytes_length])]
    exact List.append_nil _
  unfold ServerReply.build
  rw [buildMessage_eq (by omega) hci hyi hsi hgi]
  show (do
    let (area, len) ← optionsWrite ((headerBytes m.header ++ buffer.drop 240).drop 240) m.options
    pure (((headerBytes m.header ++ buffer.drop 240).take 240 ++ area).take (240 + len) ++
      m.padding)) = _
  rw [hdrop, htake, optionsWrite_eq, if_pos (by rw [List.length_drop]; omega)]
  show Except.ok ((headerBytes m.header ++ (encodeOptions m.options ++ _)).take _ ++ m.padding) = _
  have hlen : (headerBytes m.header ++ encodeOptions m.options).length =
      240 + optionsSize m.options := by
    rw [List.length_append, headerBytes_length, encodeOptions_length]
  rw [← List.append_assoc, ← hlen, List.take_left, List.append_assoc]

/-- What a search that may fail returns. -/
def found (opt : Option DhcpOption) : Except Errno DhcpOption :=
  match opt with
  | some opt => .ok opt
  | none => .error .enoent

section
variable {g : Grant} {msgType : MsgType} {options : List DhcpOption}
  (h : g.Carried msgType options)
include h

theorem Grant.Carried.firstOption {code : UInt8} {opt : Option DhcpOption}
    (hf : (code, opt) ∈ g.options msgType) : Dmdhcp.firstOption options code = found opt := by
  have hall := h (code, opt) hf
  unfold Dmdhcp.firstOption
  cases hfind : options.find? fun o => o.code == code with
  | some o =>
    have ho := (hall o).mp ⟨List.mem_of_find?_eq_some hfind, beq_iff_eq.mp
      (List.find?_some (p := fun o : DhcpOption => o.code == code) hfind)⟩
    rw [show opt = some o from ho]
    rfl
  | none =>
    cases opt with
    | none => rfl
    | some o =>
      obtain ⟨hin, hcode⟩ := (hall o).mpr rfl
      exact absurd (beq_iff_eq.mpr hcode) (List.find?_eq_none.mp hfind o hin)

end

theorem addrsOf_bytes (addrs : List Ipv4) : addrsOf (addrs.flatMap Ipv4.bytes) = addrs := by
  induction addrs with
  | nil => rfl
  | cons a as ih =>
    show a :: addrsOf (as.flatMap Ipv4.bytes) = a :: as
    rw [ih]

theorem timeOption_getU32 (code : UInt8) (seconds : UInt32) :
    (timeOption code seconds).getU32 = .ok seconds :=
  congrArg Except.ok (ofU32Be_u32Be seconds)

/-- The terms in the fields of a lease; what the server left out of the netmask stays. -/
def Grant.fill (env : Env) (g : Grant) (l : Lease) : Lease :=
  { l with
    offeredIp := .v4 g.ip
    netmask := g.netmask.elim l.netmask .v4
    gateway := g.routers.head?.elim .none .v4
    serverId := .v4 g.serverId
    leaseTimeSec := g.leaseTime
    t1Sec := g.t1.getD (g.leaseTime / 2)
    t2Sec := g.t2.getD (g.leaseTime * 7 / 8)
    dnsServers := (g.dnsServers.map .v4).take env.dnsRoom
    ntpServers := (g.ntpServers.map .v4).take env.ntpRoom }

/-- What `dmdhcp_options_find` returns for each code of a grant. -/
structure Grant.Reads (g : Grant) (msgType : MsgType) (area : List UInt8) : Prop where
  msgType : optionsFind area optMsgType = .ok (typeOption msgType)
  serverId : optionsFind area optServerId = .ok (addrOption optServerId g.serverId)
  leaseTime : optionsFind area optLeaseTime = .ok (timeOption optLeaseTime g.leaseTime)
  netmask : optionsFind area optSubnetMask = found (g.netmask.map (addrOption optSubnetMask))
  router : optionsFind area optRouter = found (addrListOption optRouter g.routers g.routersFit)
  t1 : optionsFind area optRenewalT1 = found (g.t1.map (timeOption optRenewalT1))
  t2 : optionsFind area optRebindingT2 = found (g.t2.map (timeOption optRebindingT2))
  dnsServers : optionsFind area optDnsServer =
    found (addrListOption optDnsServer g.dnsServers g.dnsFit)
  ntpServers : optionsFind area optNtpServer =
    found (addrListOption optNtpServer g.ntpServers g.ntpFit)

theorem ServerReply.reads (m : ServerReply) {g : Grant} {msgType : MsgType}
    (h : g.Carried msgType m.options) :
    g.Reads msgType (encodeOptions m.options ++ m.padding) := by
  have hfind : ∀ f ∈ g.options msgType,
      optionsFind (encodeOptions m.options ++ m.padding) f.1 = found f.2 := fun f hf =>
    (optionsFind_encodeOptions m.options m.entryCodes f.1 m.padding).trans (h.firstOption hf)
  simp only [Grant.options, List.forall_mem_cons] at hfind
  obtain ⟨htype, hserver, htime, hmask, hrouter, ht1, ht2, hdns, hntp, -⟩ := hfind
  exact ⟨htype, hserver, htime, hmask, hrouter, ht1, ht2, hdns, hntp⟩

-- As many of the addresses as there is room for.
theorem storedAddrs_take (opt : DhcpOption) (room : Nat) :
    opt.storedAddrs room = ((addrsOf opt.data).map .v4).take room := by
  have hlen : opt.addrCount ≤ 63 := by
    have hdata := opt.fits
    unfold DhcpOption.addrCount
    omega
  rw [← storedAddrs_eq opt (Nat.le_refl 63)]
  unfold DhcpOption.storedAddrs
  rw [List.take_take, List.take_eq_take_iff]
  simp only [List.length_map, List.length_range]
  omega

-- A list option is there unless the list is empty, and is read back as the list.
theorem addrListOption_read (code : UInt8) (addrs : List Ipv4) (hfit : addrs.length ≤ 63) :
    (addrs = [] ∧ addrListOption code addrs hfit = none) ∨
    ∃ a as opt, addrs = a :: as ∧ addrListOption code addrs hfit = some opt ∧
      addrsOf opt.data = addrs ∧ opt.data.length = 4 * addrs.length ∧
      opt.getAddrAt 0 = .ok (.v4 a) := by
  cases addrs with
  | nil => exact .inl ⟨rfl, rfl⟩
  | cons a as =>
    refine .inr ⟨a, as, _, rfl, if_neg (List.cons_ne_nil a as), addrsOf_bytes (a :: as),
      flatMap_bytes_length (a :: as), ?_⟩
    rw [DhcpOption.getAddrAt, dif_pos]
    · rfl
    · show 0 < ((a :: as).flatMap Ipv4.bytes).length / 4
      rw [flatMap_bytes_length, List.length_cons]
      omega

section
variable {g : Grant} {msgType : MsgType} {area : List UInt8} (h : g.Reads msgType area)
include h

theorem Grant.Reads.messageType : Dmdhcp.messageType area = some msgType.toByte := by
  rw [Dmdhcp.messageType, h.msgType]
  rfl

theorem Grant.Reads.netmaskOf (old : Addr) :
    addrOr area optSubnetMask old = g.netmask.elim old .v4 := by
  rw [addrOr, h.netmask]
  cases g.netmask <;> rfl

theorem Grant.Reads.gateway (old : Addr) : gatewayOf area old = g.routers.head?.elim .none .v4 := by
  rw [gatewayOf, h.router]
  rcases addrListOption_read optRouter g.routers g.routersFit with
    ⟨hnil, hopt⟩ | ⟨a, as, opt, hcons, hopt, -, hlen, hfirst⟩
  · rw [hopt, hnil]
    rfl
  · have hcount : opt.addrCount > 0 := by
      rw [DhcpOption.addrCount, hlen, hcons, List.length_cons]
      omega
    rw [hopt, hcons]
    show (if opt.addrCount > 0 then (opt.getAddrAt 0).toOption.getD old else .none) = .v4 a
    rw [if_pos hcount, hfirst]
    rfl

theorem Grant.Reads.dnsServersOf (room : Nat) :
    Dmdhcp.dnsServersOf area room = (g.dnsServers.map .v4).take room := by
  rw [Dmdhcp.dnsServersOf, h.dnsServers]
  rcases addrListOption_read optDnsServer g.dnsServers g.dnsFit with
    ⟨hnil, hopt⟩ | ⟨a, as, opt, -, hopt, haddrs, -, -⟩
  · rw [hopt, hnil]
    exact List.take_nil.symm
  · rw [hopt]
    show opt.storedAddrs room = _
    rw [storedAddrs_take, haddrs]

theorem Grant.Reads.ntpServersOf (room : Nat) :
    Dmdhcp.ntpServersOf area room = (g.ntpServers.map .v4).take room := by
  rw [Dmdhcp.ntpServersOf, h.ntpServers]
  rcases addrListOption_read optNtpServer g.ntpServers g.ntpFit with
    ⟨hnil, hopt⟩ | ⟨a, as, opt, hcons, hopt, haddrs, hlen, -⟩
  · rw [hopt, hnil]
    exact List.take_nil.symm
  · have hwhole : opt.data.length > 0 ∧ opt.data.length % 4 = 0 := by
      rw [hlen, hcons, List.length_cons]
      omega
    rw [hopt]
    show (if opt.data.length > 0 ∧ opt.data.length % 4 = 0 then opt.storedAddrs room else []) = _
    rw [if_pos hwhole, storedAddrs_take, haddrs]

theorem Grant.Reads.leaseTimeOf : Dmdhcp.leaseTimeOf area = g.leaseTime := by
  rw [Dmdhcp.leaseTimeOf, h.leaseTime]
  show (timeOption _ _).getU32.toOption.getD 0 = _
  rw [timeOption_getU32]
  rfl

theorem Grant.Reads.t1Of : Dmdhcp.t1Of area g.leaseTime = g.t1.getD (g.leaseTime / 2) := by
  rw [Dmdhcp.t1Of, h.t1]
  cases g.t1 with
  | none =>
    show (if g.leaseTime > 0 then g.leaseTime / 2 else 0) = g.leaseTime / 2
    split_ifs with hpos
    · rfl
    · rw [show g.leaseTime = 0 from by simpa using hpos]
      rfl
  | some seconds =>
    show (timeOption _ _).getU32.toOption.getD 0 = _
    rw [timeOption_getU32]
    rfl

theorem Grant.Reads.t2Of : Dmdhcp.t2Of area g.leaseTime = g.t2.getD (g.leaseTime * 7 / 8) := by
  rw [Dmdhcp.t2Of, h.t2]
  cases g.t2 with
  | none =>
    show (if g.leaseTime > 0 then g.leaseTime * 7 / 8 else 0) = g.leaseTime * 7 / 8
    split_ifs with hpos
    · rfl
    · rw [show g.leaseTime = 0 from by simpa using hpos]
      rfl
  | some seconds =>
    show (timeOption _ _).getU32.toOption.getD 0 = _
    rw [timeOption_getU32]
    rfl

theorem Grant.Reads.serverIdOf (old : Addr) : addrOr area optServerId old = .v4 g.serverId := by
  rw [addrOr, h.serverId]
  rfl

-- The fields after an OFFER or ACK with the terms.
theorem Grant.Reads.fill (env : Env) {msg : Message} (hip : msg.yiaddr = .v4 g.ip) (l : Lease) :
    populateLeaseFromOptions env msg area l = g.fill env l := by
  simp only [populateLeaseFromOptions, Grant.fill, hip, h.netmaskOf, h.gateway, h.serverIdOf,
    h.leaseTimeOf, h.t1Of, h.t2Of, h.dnsServersOf, h.ntpServersOf]

end

/-! ## 3. What happens while the client waits -/

/-- The clients differ in the timers and the counts of resends only. -/
structure Unmoved (c c' : Client) : Prop where
  netif : c'.netif = c.netif
  routes : c'.routes = c.routes
  lease : ∃ retransmitCount retransmitIntervalMs retransmitTimer leaseTimer, c'.lease =
    { c.lease with retransmitCount, retransmitIntervalMs, retransmitTimer, leaseTimer }

theorem Unmoved.refl (c : Client) : Unmoved c c := ⟨rfl, rfl, _, _, _, _, rfl⟩

theorem Unmoved.trans {c₁ c₂ c₃ : Client} (h : Unmoved c₁ c₂) (h' : Unmoved c₂ c₃) :
    Unmoved c₁ c₃ := by
  obtain ⟨_, _, _, _, hl⟩ := h.lease
  obtain ⟨count, interval, rt, lt, hl'⟩ := h'.lease
  exact ⟨h'.netif.trans h.netif, h'.routes.trans h.routes, count, interval, rt, lt, by rw [hl', hl]⟩

theorem Move.unmoved {env : Env} {c c' : Client} (h : Move env c c')
    (hs : c'.lease.state = c.lease.state) : Unmoved c c' := by
  have hf := h.frame
  refine ⟨hf.netif, hf.routes, ?_⟩
  cases h with
  | stay => exact ⟨_, _, _, _, rfl⟩
  | resend h =>
    rw [rearmBackoff_lease, sendMessage_lease]
    exact ⟨_, _, _, _, rfl⟩
  -- Every other move leads to another state.
  | offer r h => rw [h] at hs; cases hs
  | ack r h => rcases h with h | h <;> rw [h] at hs <;> cases hs
  | restart h =>
    rw [outputStartDiscovery_lease] at hs
    rcases h with h | h | h <;> rw [h] at hs <;> cases hs
  | conflict h harp =>
    obtain ⟨state, timer, hstate, hl⟩ := handleConflict_lease env
      (c.emit (.probe c.lease.offeredIp true))
    rw [hl] at hs
    rcases hstate with rfl | rfl <;> rcases h with h | h <;> rw [h] at hs <;> cases hs
  | request h harp => rw [requestOffered_lease, h] at hs; cases hs
  | renew h => rw [outputStartRenew_lease, h] at hs; cases hs
  | t1 h => rw [outputStartRenew_armT2_lease, h] at hs; cases hs
  | t2 h => rw [outputStartRebind_armExpiry_lease, h] at hs; cases hs

-- Whatever happens: if the state is the same after it, so is everything that matters.
theorem Client.step_unmoved {c : Client} {env : Env} {ev : Event}
    (hs : (c.step (env, ev)).lease.state = c.lease.state) : Unmoved c (c.step (env, ev)) := by
  have hbefore : Unmoved c (c.before ev) := by
    obtain ⟨hnetif, hroutes, -, rt, lt, hl⟩ := c.before_same ev
    exact ⟨hnetif, hroutes, _, _, rt, lt, hl⟩
  refine hbefore.trans ?_
  rw [← c.before_state ev] at hs
  have houtcome := c.step_outcome env ev
  generalize c.step (env, ev) = c' at houtcome hs ⊢
  cases houtcome with
  | move h => exact h.unmoved hs
  | failed error h =>
    rw [callOnError_lease] at hs
    obtain ⟨hnetif, hroutes, hlease⟩ := h.unmoved hs
    exact ⟨(callOnError_netif _ _).trans hnetif, (callOnError_routes _ _).trans hroutes,
      by rw [callOnError_lease]; exact hlease⟩
  | commit h harp =>
    rw [callOnBound_lease, commitProbed, commitLease_state, h] at hs
    cases hs
  | renewal r h =>
    rw [callOnBound_lease, acceptRenewal, commitLease_state] at hs
    rcases Client.renewalAck_state h with h | h <;> rw [h] at hs <;> cases hs
  | lost h =>
    rw [lifecycleHandleLost_state] at hs
    rcases h with h | h <;> rw [h] at hs <;> cases hs

/-- Any events that leave the client in the state it is in: resends, datagrams it does not expect,
stale timer fires, calls of `dmdhcp_renew`. -/
def Waits (s : State) (c c' : Client) : Prop :=
  ∃ inputs, Lts.Run (Lts.Ensuring (Lts.ofTotal Client.step) fun c => c.lease.state = s) c inputs c'

theorem Waits.unmoved {s : State} {c c' : Client} (h : Waits s c c') (hs : c.lease.state = s) :
    c'.lease.state = s ∧ Unmoved c c' := by
  obtain ⟨inputs, hrun⟩ := h
  refine hrun.invariant (I := fun c' => c'.lease.state = s ∧ Unmoved c c')
    (fun c₁ input c₂ hc hstep => ?_) ⟨hs, .refl c⟩
  obtain ⟨rfl, hstate⟩ := hstep
  exact ⟨hstate, hc.2.trans (Client.step_unmoved (hstate.trans hc.1.symm))⟩

/-! ## 4. The exchange -/

/-- A reply with the terms arrives, built in any buffer with room. -/
def Receives (msgType : MsgType) (g : Grant) (env : Env) (c c' : Client) : Prop :=
  ∃ (m : ServerReply) (buffer payload : List UInt8), m.Grants msgType c.lease.xid g ∧
    240 + optionsSize m.options ≤ buffer.length ∧ m.build buffer = .ok payload ∧
    c' = c.step (env, .datagram c.lease.iface payload)

/-- The retransmit timer runs the probe, and nobody answers. -/
def ProbesClean (env : Env) (c c' : Client) : Prop :=
  env.arpReply = false ∧ ∃ stale, c' = c.step (env, .retransmit stale)

-- Every server can grant what it likes.
theorem Grant.reply_receives (g : Grant) (msgType : MsgType) (env : Env) (c : Client) :
    ∃ c', Receives msgType g env c c' := by
  let m := g.reply msgType c.lease.xid
  have hroom : 240 + optionsSize m.options ≤
      (List.replicate (240 + optionsSize m.options) (0 : UInt8)).length :=
    (List.length_replicate).ge
  exact ⟨_, m, _, _, ⟨rfl, rfl, rfl, g.carried msgType⟩, hroom, m.build_eq hroom, rfl⟩

theorem ServerReply.parse (m : ServerReply) (hop : m.header.op = .bootreply) :
    ∃ r, parseReply (headerBytes m.header ++ (encodeOptions m.options ++ m.padding)) = some r ∧
      r.msg = m.header.orZero ∧ r.options = encodeOptions m.options ++ m.padding := by
  have hparse := parseReply_ok (parseMessage_built m.noV6 (encodeOptions m.options ++ m.padding))
  rw [dif_pos (show m.header.orZero.op = .bootreply from hop)] at hparse
  refine ⟨_, hparse, rfl, ?_⟩
  show (headerBytes m.header ++ (encodeOptions m.options ++ m.padding)).drop 240 = _
  rw [← headerBytes_length m.header, List.drop_left]

theorem Receives.delivered {msgType : MsgType} {g : Grant} {env : Env} {c c' : Client}
    (h : Receives msgType g env c c') : ∃ r payload,
      c.delivered (.datagram c.lease.iface payload) = some (r, msgType.toByte) ∧
      (∀ env l, populateLeaseFromOptions env r.msg r.options l = g.fill env l) ∧
      c' = c.step (env, .datagram c.lease.iface payload) := by
  obtain ⟨m, buffer, payload, hgrants, hroom, hbuild, rfl⟩ := h
  obtain rfl := Except.ok.inj ((m.build_eq hroom).symm.trans hbuild)
  have hreads := m.reads hgrants.carried
  obtain ⟨r, hparse, hmsg, hoptions⟩ := m.parse hgrants.op
  refine ⟨r, _, ?_, fun env l => ?_, rfl⟩
  · have hmatch : c.matchesXid c.lease.iface r.msg.xid = true := by
      rw [hmsg, show m.header.orZero.xid = c.lease.xid from hgrants.xid, Client.matchesXid,
        beq_self_eq_true, beq_self_eq_true]
      rfl
    simp only [Client.delivered, hparse, if_pos hmatch, hoptions, hreads.messageType,
      Option.map_some]
  · rw [hoptions]
    refine hreads.fill env ?_ l
    rw [hmsg, Message.orZero, hgrants.yiaddr]
    rfl

theorem step_of_delivered {c : Client} {iface : Iface} {payload : List UInt8} {r : Reply}
    {msgType : UInt8} (h : c.delivered (.datagram iface payload) = some (r, msgType)) (env : Env) :
    c.step (env, .datagram iface payload) =
      (datagramSection env r msgType c).2.finish env (datagramSection env r msgType c).1 := by
  rw [Client.step_eq, Client.eventSection, h]

section
variable {g : Grant} {env : Env} {c c' : Client}

-- What the two replies of an exchange leave, ...
theorem Receives.offer (h : Receives .offer g env c c') (hs : c.lease.state = .selecting) :
    c'.netif = c.netif ∧ c'.routes = c.routes ∧ ∃ timer, c'.lease =
      { g.fill env c.lease with state := .checkingOffer, retransmitTimer := timer } := by
  obtain ⟨r, payload, hdelivered, hfill, rfl⟩ := h.delivered
  have hsection : datagramSection env r MsgType.offer.toByte c =
      (acceptForProbe env r .checkingOffer c, .done) := if_pos ⟨rfl, hs⟩
  rw [step_of_delivered hdelivered env, hsection]
  exact ⟨rfl, rfl, .arm env.now probeHandoffMs,
    by rw [After.finish, acceptForProbe_lease, hfill]⟩

theorem Receives.ack (h : Receives .ack g env c c') (hs : c.lease.state = .requesting) :
    c'.netif = c.netif ∧ c'.routes = c.routes ∧ ∃ timer, c'.lease =
      { g.fill env c.lease with state := .checkingAck, retransmitTimer := timer } := by
  obtain ⟨r, payload, hdelivered, hfill, rfl⟩ := h.delivered
  have hsection : datagramSection env r MsgType.ack.toByte c =
      (acceptForProbe env r .checkingAck c, .done) := by
    rw [datagramSection, if_neg (fun hoffer => by cases hoffer.1), if_pos ⟨rfl, .inl hs⟩]
  rw [step_of_delivered hdelivered env, hsection]
  exact ⟨rfl, rfl, .arm env.now probeHandoffMs,
    by rw [After.finish, acceptForProbe_lease, hfill]⟩

theorem Receives.renewal (h : Receives .ack g env c c')
    (hs : c.lease.state = .renewing ∨ c.lease.state = .rebinding) :
    c' = callOnBound true (commitLease env (c.update (g.fill env))) := by
  obtain ⟨r, payload, hdelivered, hfill, rfl⟩ := h.delivered
  have hother : ¬(c.lease.state = .requesting ∨ c.lease.state = .rebooting) := by
    rcases hs with hs | hs <;> rw [hs] <;> decide
  have hupdate : populateLeaseFromOptions env r.msg r.options = g.fill env := funext (hfill env)
  have hsection : datagramSection env r MsgType.ack.toByte c =
      (acceptRenewal env r c, .onBound true) := by
    rw [datagramSection, if_neg (fun hoffer => by cases hoffer.1), if_neg fun hack => hother hack.2,
      if_neg (fun hnak => by cases hnak.1), if_pos ⟨rfl, hs⟩]
  rw [step_of_delivered hdelivered env, hsection, acceptRenewal, hupdate]
  rfl

-- ... and its two probes.
theorem ProbesClean.offered (h : ProbesClean env c c') (hs : c.lease.state = .checkingOffer) :
    c'.netif = c.netif ∧ c'.routes = c.routes ∧
      ∃ retransmitCount retransmitIntervalMs retransmitTimer leaseTimer, c'.lease = { c.lease with
        state := .requesting, retransmitCount, retransmitIntervalMs, retransmitTimer,
        leaseTimer } := by
  obtain ⟨harp, stale, rfl⟩ := h
  obtain ⟨hnetif, hroutes, -, rt, lt, hl⟩ := c.before_same (.retransmit stale)
  rw [Client.step_eq, Client.eventSection]
  generalize c.before (.retransmit stale) = b at hnetif hroutes hl ⊢
  have hb : b.lease.state = .checkingOffer := by rw [hl, ← hs]
  have hsection : retransmitTimerSection env b =
      (requestOffered env (b.emit (.probe b.lease.offeredIp false)), .done) := by
    simp only [retransmitTimerSection, runConflictProbe, harp, hb, Client.emit_lease, if_true,
      Bool.false_eq_true, if_false]
  have hf := (Move.request hb harp).frame
  rw [hsection]
  refine ⟨hf.netif.trans hnetif, hf.routes.trans hroutes, 0, retransmitInitialMs,
    .arm env.now retransmitInitialMs, lt, ?_⟩
  rw [After.finish, requestOffered_lease, Client.emit_lease, hl]

theorem ProbesClean.commit (h : ProbesClean env c c') (hs : c.lease.state = .checkingAck) :
    ∃ c₁, c' = callOnBound false (commitLease env c₁) ∧ c₁.netif = c.netif ∧
      c₁.routes = c.routes ∧ ∃ retransmitTimer leaseTimer,
        c₁.lease = { c.lease with retransmitTimer, leaseTimer } := by
  obtain ⟨harp, stale, rfl⟩ := h
  obtain ⟨hnetif, hroutes, -, rt, lt, hl⟩ := c.before_same (.retransmit stale)
  rw [Client.step_eq, Client.eventSection]
  generalize c.before (.retransmit stale) = b at hnetif hroutes hl ⊢
  have hb : b.lease.state = .checkingAck := by rw [hl, ← hs]
  have hsection : retransmitTimerSection env b =
      (commitLease env (b.emit (.probe b.lease.offeredIp false)), .onBound false) := by
    simp only [retransmitTimerSection, runConflictProbe, harp, hb, Client.emit_lease,
      Bool.false_eq_true, if_false, reduceCtorEq]
  rw [hsection]
  exact ⟨_, rfl, hnetif, hroutes, rt, lt, hl⟩

end

/-- OFFER, clean probe, ACK, clean probe, and any waiting before each of the four. -/
def Acquires (offered granted : Grant) (ackEnv boundEnv : Env) (c c' : Client) : Prop :=
  ∃ c₁ c₂ c₃ c₄ c₅ c₆ c₇ offerEnv requestEnv,
    Waits .selecting c c₁ ∧ Receives .offer offered offerEnv c₁ c₂ ∧
    Waits .checkingOffer c₂ c₃ ∧ ProbesClean requestEnv c₃ c₄ ∧
    Waits .requesting c₄ c₅ ∧ Receives .ack granted ackEnv c₅ c₆ ∧
    Waits .checkingAck c₆ c₇ ∧ ProbesClean boundEnv c₇ c'

theorem Waits.refl (s : State) (c : Client) : Waits s c c := ⟨[], .nil c⟩

theorem acquires_of_quiet (offered granted : Grant) (ackEnv : Env) {boundEnv : Env}
    (hquiet : boundEnv.arpReply = false) (c : Client) :
    ∃ c', Acquires offered granted ackEnv boundEnv c c' := by
  obtain ⟨c₁, hoffer⟩ := offered.reply_receives .offer boundEnv c
  obtain ⟨c₂, hack⟩ :=
    granted.reply_receives .ack ackEnv (c₁.step (boundEnv, .retransmit false))
  exact ⟨_, _, _, _, _, _, _, _, boundEnv, boundEnv, .refl _ _, hoffer, .refl _ _,
    ⟨hquiet, false, rfl⟩, .refl _ _, hack, .refl _ _, hquiet, false, rfl⟩

/-! ## 5. The configured interface -/

/-- The terms are in the fields of the lease. -/
structure Lease.HasTerms (l : Lease) (g : Grant) (netmask : Addr) : Prop where
  offeredIp : l.offeredIp = .v4 g.ip
  netmask : l.netmask = netmask
  gateway : l.gateway = g.routers.head?.elim .none .v4
  serverId : l.serverId = .v4 g.serverId
  leaseTimeSec : l.leaseTimeSec = g.leaseTime
  t1Sec : l.t1Sec = g.t1.getD (g.leaseTime / 2)
  t2Sec : l.t2Sec = g.t2.getD (g.leaseTime * 7 / 8)
  dnsServers : l.dnsServers = g.dnsServers.map .v4
  ntpServers : l.ntpServers = g.ntpServers.map .v4

/-- The client is bound with the terms: it reports them, has both lists of servers, and the
interface and the default route are configured with them, if dmroute had a route to give. -/
structure Client.BoundWith (env : Env) (c : Client) (g : Grant) (mask : Addr) : Prop where
  info : getLeaseInfo c.lease = .ok
    { ipAddress := .v4 g.ip
      netmask := mask
      gateway := g.routers.head?.elim .none .v4
      serverId := .v4 g.serverId
      leaseTimeSec := g.leaseTime
      renewalTimeSec := g.t1.getD (g.leaseTime / 2)
      rebindingTimeSec := g.t2.getD (g.leaseTime * 7 / 8) }
  dnsServers : c.lease.dnsServers = g.dnsServers.map .v4
  ntpServers : c.lease.ntpServers = g.ntpServers.map .v4
  ipAddress : c.netif.ipAddress = .v4 g.ip
  netmask : c.netif.netmask = mask
  broadcast : ∀ a, mask = .v4 a → c.netif.broadcast = .v4 (directedBroadcast g.ip a)
  route : env.routeAdd ≠ .fail → ∀ router ∈ g.routers.head?, ∃ handle,
    c.lease.defaultRoute = some handle ∧
      defaultRouteEntry handle (.v4 router) c.lease.iface ∈ c.routes.entries

theorem Grant.fill_hasTerms {env : Env} (henv : env.StoresAll) (g : Grant) (l : Lease) :
    (g.fill env l).HasTerms g (g.netmask.elim l.netmask .v4) := by
  have htake (addrs : List Ipv4) {room : Nat} (hfit : addrs.length ≤ 63) (hroom : 63 ≤ room) :
      (addrs.map Addr.v4).take room = addrs.map .v4 :=
    List.take_of_length_le (by rw [List.length_map]; omega)
  exact ⟨rfl, rfl, rfl, rfl, rfl, rfl, rfl, htake g.dnsServers g.dnsFit henv.1,
    htake g.ntpServers g.ntpFit henv.2⟩

-- What `dmroute_add` stores is the handle of the route asked for.
theorem Routes.add_entry {how : RouteAdd} (h : how ≠ .fail) (rs : Routes) (gateway : Addr)
    (iface : Iface) : ∃ handle, (rs.add how gateway iface).1 = some handle ∧
      defaultRouteEntry handle gateway iface ∈ (rs.add how gateway iface).2.entries := by
  cases how with
  | fail => exact absurd rfl h
  | create => exact ⟨_, rfl, List.mem_cons_self⟩
  | reuse =>
    simp only [Routes.add]
    split
    next r hr =>
      have hmatch := List.find?_some hr
      have hin := List.mem_of_find?_eq_some hr
      obtain ⟨handle, destination, netmask, gateway', iface'⟩ := r
      simp only [Bool.and_eq_true, beq_iff_eq] at hmatch
      obtain ⟨⟨⟨rfl, rfl⟩, rfl⟩, rfl⟩ := hmatch
      exact ⟨handle, rfl, hin⟩
    next => exact ⟨_, rfl, List.mem_cons_self⟩

-- Applying a lease puts its terms in force.
theorem commitLease_boundWith {env : Env} (henv : env.SetsSucceed) {c : Client} {g : Grant}
    {mask : Addr} (h : c.lease.HasTerms g mask) (isRenewal : Bool) :
    (callOnBound isRenewal (commitLease env c)).BoundWith env g mask := by
  have hl := commitLease_lease_of_succeed henv c
  have hnetif := commitLease_netif henv c
  refine ⟨?_, ?_, ?_, ?_, ?_, fun a hmask => ?_, fun hadd router hrouter => ?_⟩
  · simp only [callOnBound_lease, hl, getLeaseInfo, h.offeredIp, h.netmask, h.gateway, h.serverId,
      h.leaseTimeSec, h.t1Sec, h.t2Sec, ne_eq, not_true_eq_false, false_and, if_false]
  · rw [callOnBound_lease, hl]
    exact h.dnsServers
  · rw [callOnBound_lease, hl]
    exact h.ntpServers
  · rw [callOnBound_netif, hnetif]
    exact h.offeredIp
  · rw [callOnBound_netif, hnetif]
    exact h.netmask
  · rw [callOnBound_netif, hnetif]
    show broadcastOf c.lease _ = _
    rw [broadcastOf, h.offeredIp, h.netmask, hmask]
    rfl
  · have hgateway : c.lease.gateway = .v4 router := by
      rw [h.gateway, Option.mem_def.mp hrouter]
      rfl
    have hresult : routeResult env c = c.routes.add env.routeAdd (.v4 router) c.lease.iface := by
      rw [routeResult, hgateway]
      rfl
    rw [callOnBound_lease, callOnBound_routes, hl, commitLease_routes henv, hresult]
    exact c.routes.add_entry hadd (.v4 router) c.lease.iface

-- The terms outlast waiting and the change to the next state.
theorem Lease.HasTerms.congr {l l' : Lease} {g : Grant} {mask : Addr} (h : l.HasTerms g mask)
    (hl : ∃ state retransmitCount retransmitIntervalMs retransmitTimer leaseTimer, l' =
      { l with state, retransmitCount, retransmitIntervalMs, retransmitTimer, leaseTimer }) :
    l'.HasTerms g mask := by
  obtain ⟨_, _, _, _, _, rfl⟩ := hl
  exact ⟨h.offeredIp, h.netmask, h.gateway, h.serverId, h.leaseTimeSec, h.t1Sec, h.t2Sec,
    h.dnsServers, h.ntpServers⟩

/-- **An acquired lease configures the interface as granted.** From any client that discovers: if an
OFFER, a clean probe, an ACK and a clean probe follow each other, with anything in between that does
not end the exchange, then what is reported, listed and configured at the end are the terms of the
ACK, in whatever order and among whatever other options the server wrote them.  The netmask is the
one of the OFFER if the ACK has none. -/
theorem acquisition_configures {offered granted : Grant} {ackEnv boundEnv : Env}
    (hstores : ackEnv.StoresAll) (hsets : boundEnv.SetsSucceed) {c c' : Client}
    (hs : c.lease.state = .selecting) (h : Acquires offered granted ackEnv boundEnv c c') :
    c'.BoundWith boundEnv granted
      (granted.netmask.elim (offered.netmask.elim c.lease.netmask .v4) .v4) := by
  obtain ⟨c₁, c₂, c₃, c₄, c₅, c₆, c₇, offerEnv, requestEnv, hwait₁, hoffer, hwait₂, hprobe₁, hwait₃,
    hack, hwait₄, hprobe₂⟩ := h
  obtain ⟨hs₁, -, -, _, _, _, _, hl₁⟩ := hwait₁.unmoved hs
  obtain ⟨-, -, _, hl₂⟩ := hoffer.offer hs₁
  obtain ⟨hs₃, -, -, _, _, _, _, hl₃⟩ := hwait₂.unmoved (by rw [hl₂])
  obtain ⟨-, -, _, _, _, _, hl₄⟩ := hprobe₁.offered hs₃
  obtain ⟨hs₅, -, -, _, _, _, _, hl₅⟩ := hwait₃.unmoved (by rw [hl₄])
  obtain ⟨-, -, _, hl₆⟩ := hack.ack hs₅
  obtain ⟨hs₇, -, -, _, _, _, _, hl₇⟩ := hwait₄.unmoved (by rw [hl₆])
  obtain ⟨c₈, rfl, -, -, _, _, hl₈⟩ := hprobe₂.commit hs₇
  -- The OFFER leaves its netmask to the ACK, which decides everything else.
  have hmask : c₅.lease.netmask = offered.netmask.elim c.lease.netmask .v4 := by
    rw [hl₅, hl₄, hl₃, hl₂, hl₁]
    rfl
  have hterms := granted.fill_hasTerms hstores c₅.lease
  rw [hmask] at hterms
  refine commitLease_boundWith hsets (hterms.congr ?_) false
  rw [hl₈, hl₇, hl₆]
  exact ⟨_, _, _, _, _, rfl⟩

/-- The OFFER of a small network, with its netmask, ... -/
def networkOffer : Grant where
  ip := ⟨10, 0, 0, 5⟩
  serverId := ⟨10, 0, 0, 1⟩
  leaseTime := 3600
  netmask := some ⟨255, 255, 255, 0⟩
  routers := [⟨10, 0, 0, 1⟩]
  t1 := none
  t2 := none
  dnsServers := []
  ntpServers := []
  routersFit := by decide
  dnsFit := by decide
  ntpFit := by decide

/-- ... and its ACK, without. -/
def networkAck : Grant :=
  { networkOffer with
    netmask := none
    t1 := some 1200
    dnsServers := [⟨10, 0, 0, 2⟩, ⟨10, 0, 0, 3⟩]
    dnsFit := by decide }

theorem acquired_in_network : ∃ c,
    Acquires networkOffer networkAck roomyEnv (quietEnv 7) startedClient c ∧
      c.BoundWith (quietEnv 7) networkAck (.v4 ⟨255, 255, 255, 0⟩) := by
  obtain ⟨c, h⟩ := acquires_of_quiet networkOffer networkAck roomyEnv
    (show (quietEnv 7).arpReply = false from rfl) startedClient
  exact ⟨c, h, acquisition_configures (by decide) (by decide) (by decide +kernel) h⟩

end Dmdhcp
