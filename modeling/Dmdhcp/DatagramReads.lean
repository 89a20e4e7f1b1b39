import Dmdhcp.Input
import Dmdhcp.Lib.Reads
import Dmdhcp.OptionsGrammar

/-!
# What `dmdhcp_handle_datagram` reads

The parsing functions once more, over `payload` as a pointer into memory: they read by index, an
option is the index of its data, and nothing but their own checks keeps them inside the payload.
-/

namespace Dmdhcp.Buffer

open Reads

/-! ## 1. The code over a pointer -/

/-- Code that reads the bytes behind `payload`. -/
abbrev Code := Prog UInt8

def readU16Be (p : Nat) : Code UInt16 := do
  let b0 ← read p
  let b1 ← read (p + 1)
  return ofU16Be b0 b1

def readU32Be (p : Nat) : Code UInt32 := do
  let b0 ← read p
  let b1 ← read (p + 1)
  let b2 ← read (p + 2)
  let b3 ← read (p + 3)
  return ofU32Be b0 b1 b2 b3

def readAddr (p : Nat) : Code Addr := do
  let b ← copy p 4
  return .v4 ⟨b 0, b 1, b 2, b 3⟩

def parseMessage (length : Nat) : Code (Except Errno (Message × Nat)) :=
  if length < fixedHeaderLen + 4 then return .error .einval
  else do
    let cookie ← readU32Be fixedHeaderLen
    if cookie ≠ magicCookie then return .error .eproto
    else
      let op ← read 0
      match Op.ofByte op with
      | none => return .error .eproto
      | some op =>
        let htype ← read 1
        let hlen ← read 2
        let hops ← read 3
        let xid ← readU32Be 4
        let secs ← readU16Be 8
        let flags ← readU16Be 10
        let ciaddr ← readAddr 12
        let yiaddr ← readAddr 16
        let siaddr ← readAddr 20
        let giaddr ← readAddr 24
        let chaddr ← copy 28 16
        return .ok ({
          op, htype, hlen, hops, xid, secs, flags, ciaddr, yiaddr, siaddr, giaddr
          chaddr := Vector.ofFn chaddr }, fixedHeaderLen + 4)

/-- The loop of `dmdhcp_options_find`; the `data` of what it finds is an index into the payload. -/
def optionsFindFrom (options optionsLen : Nat) (code : UInt8) (pos : Nat) :
    Code (Except Errno OptionRef) :=
  if pos < optionsLen then do
    let entryCode ← read (options + pos)
    if entryCode = optPad then
      size (pos + 1)
      optionsFindFrom options optionsLen code (pos + 1)
    else if entryCode = optEnd then return .error .enoent
    else
      size (pos + 1)
      if pos + 1 ≥ optionsLen then return .error .eproto
      else
        let entryLen ← read (options + (pos + 1))
        size (pos + 2 + entryLen.toNat)
        if pos + 2 + entryLen.toNat > optionsLen then return .error .eproto
        else if entryCode = code then return .ok ⟨entryCode, entryLen, options + (pos + 2)⟩
        else optionsFindFrom options optionsLen code (pos + 2 + entryLen.toNat)
  else return .error .enoent
termination_by optionsLen - pos

def optionsFind (options optionsLen : Nat) (code : UInt8) : Code (Except Errno OptionRef) :=
  optionsFindFrom options optionsLen code 0

def optionGetU32 (opt : OptionRef) : Code (Except Errno UInt32) :=
  if opt.length ≠ 4 then return .error .einval
  else do
    let value ← readU32Be opt.data
    return .ok value

def optionGetAddr (opt : OptionRef) : Code (Except Errno Addr) :=
  if opt.length ≠ 4 then return .error .einval
  else do
    let a ← readAddr opt.data
    return .ok a

def optionAddrCount (opt : OptionRef) : Nat := opt.length.toNat / 4

def optionGetAddrAt (opt : OptionRef) (index : Nat) : Code (Except Errno Addr) :=
  if index ≥ optionAddrCount opt then return .error .einval
  else do
    size (index * 4)
    let a ← readAddr (opt.data + index * 4)
    return .ok a

/-- For each of the two lists, whether the first entry that is not stored was filled in before:
`dmlist_push_back` fails after it was read, `Dmod_Malloc` before. -/
structure Refused where
  dns : Bool
  ntp : Bool
  deriving DecidableEq, Repr

/-- The loop over the addresses of an option from the `index`-th on, `left` of them, with room for
`room` more entries. -/
def storeAddrsFrom (opt : OptionRef) (refused : Bool) (index : Nat) : Nat → Nat → Code (List Addr)
  | 0, _ => return []
  | _ + 1, 0 =>
    if refused then do
      let _ ← optionGetAddrAt opt index
      return []
    else return []
  | left + 1, room + 1 => do
    let a ← optionGetAddrAt opt index
    let rest ← storeAddrsFrom opt refused (index + 1) left room
    return a.toOption.getD .none :: rest

def storeAddrs (opt : OptionRef) (refused : Bool) (room : Nat) : Code (List Addr) :=
  storeAddrsFrom opt refused 0 (optionAddrCount opt) room

/-! ### `populate_lease_from_options` -/

section
variable (options optionsLen : Nat)

/-- What is done with an option that is found, and the value without it. -/
def withOption {α : Type} (code : UInt8) (found : OptionRef → Code α) (missing : α) : Code α := do
  let opt ← optionsFind options optionsLen code
  match opt with
  | .ok opt => found opt
  | .error _ => return missing

def addrOr (code : UInt8) (old : Addr) : Code Addr :=
  withOption options optionsLen code (fun opt => do
    let a ← optionGetAddr opt
    return a.toOption.getD old) old

def gatewayOf (old : Addr) : Code Addr :=
  withOption options optionsLen optRouter (fun opt =>
    if optionAddrCount opt > 0 then do
      let a ← optionGetAddrAt opt 0
      return a.toOption.getD old
    else return .none) .none

/-- An option of four bytes, 0 if it has another length. -/
def u32Or (code : UInt8) (missing : UInt32) : Code UInt32 :=
  withOption options optionsLen code (fun opt => do
    let value ← optionGetU32 opt
    return value.toOption.getD 0) missing

def dnsServersOf (refused : Bool) (room : Nat) : Code (List Addr) :=
  withOption options optionsLen optDnsServer (fun opt => storeAddrs opt refused room) []

def ntpServersOf (refused : Bool) (room : Nat) : Code (List Addr) :=
  withOption options optionsLen optNtpServer (fun opt =>
    if opt.length.toNat > 0 ∧ opt.length.toNat % 4 = 0 then storeAddrs opt refused room
    else return []) []

def populateLeaseFromOptions (env : Env) (refused : Refused) (msg : Message) (l : Lease) :
    Code Lease := do
  let netmask ← addrOr options optionsLen optSubnetMask l.netmask
  let gateway ← gatewayOf options optionsLen l.gateway
  let serverId ← addrOr options optionsLen optServerId l.serverId
  let leaseTime ← u32Or options optionsLen optLeaseTime 0
  let t1 ← u32Or options optionsLen optRenewalT1 (if leaseTime > 0 then leaseTime / 2 else 0)
  let t2 ← u32Or options optionsLen optRebindingT2
    (if leaseTime > 0 then (leaseTime * 7) / 8 else 0)
  let dns ← dnsServersOf options optionsLen refused.dns env.dnsRoom
  let ntp ← ntpServersOf options optionsLen refused.ntp env.ntpRoom
  return { l with
    offeredIp := msg.yiaddr, netmask, gateway, serverId, leaseTimeSec := leaseTime, t1Sec := t1,
    t2Sec := t2, dnsServers := dns, ntpServers := ntp }

/-! ### `dmdhcp_handle_datagram` -/

/-- The locked section and what follows it. -/
def datagramSection (env : Env) (refused : Refused) (msg : Message) (msgType : UInt8) (c : Client) :
    Code (Client × After) :=
  let state := c.lease.state
  if msgType = MsgType.offer.toByte ∧ state = .selecting then do
    let l ← populateLeaseFromOptions options optionsLen env refused msg c.lease
    return ((c.update fun _ => { l with state := .checkingOffer }).armRetransmit env probeHandoffMs,
      .done)
  else if msgType = MsgType.ack.toByte ∧ (state = .requesting ∨ state = .rebooting) then do
    let l ← populateLeaseFromOptions options optionsLen env refused msg c.lease
    return ((c.update fun _ => { l with state := .checkingAck }).armRetransmit env probeHandoffMs,
      .done)
  else if msgType = MsgType.nak.toByte ∧ (state = .requesting ∨ state = .rebooting) then
    return (outputStartDiscovery env c, .done)
  else if msgType = MsgType.ack.toByte ∧ (state = .renewing ∨ state = .rebinding) then do
    let l ← populateLeaseFromOptions options optionsLen env refused msg c.lease
    return (commitLease env (c.update fun _ => l), .onBound true)
  else if msgType = MsgType.nak.toByte ∧ (state = .renewing ∨ state = .rebinding) then
    return (c, .lost)
  else return (c, .done)

/-- `dmdhcp_handle_datagram` from the lookup's result on. -/
def handleReply (env : Env) (refused : Refused) (msg : Message) (c : Client) : Code Client := do
  let typeOpt ← optionsFind options optionsLen optMsgType
  match typeOpt with
  | .error _ => return c
  | .ok typeOpt =>
    if typeOpt.length ≠ 1 then return c
    else
      let msgType ← read typeOpt.data
      let (c, after) ← datagramSection options optionsLen env refused msg msgType c
      return after.finish env c

end

/-- The lookup, and work on the lease found. -/
def modifyFirst (p : Client → Bool) (f : Client → Code Client) : List Client → Code (List Client)
  | [] => return []
  | c :: cs =>
    if p c then do
      let c ← f c
      return c :: cs
    else do
      let cs ← modifyFirst p f cs
      return c :: cs

def handleDatagram (env : Env) (refused : Refused) (iface : Iface) (payloadLen : Nat)
    (leases : List Client) : Code (List Client) := do
  let parsed ← parseMessage payloadLen
  match parsed with
  | .error _ => return leases
  | .ok (msg, optionsOffset) =>
    if msg.op ≠ .bootreply then return leases
    else
      modifyFirst (Client.matchesXid iface msg.xid) (fun c => do
        let optionsLen ← difference payloadLen optionsOffset
        handleReply optionsOffset optionsLen env refused msg c) leases

/-! ## 2. The header -/

section
variable {payload : List UInt8}

theorem readU16Be_yields {p : Nat} (h : p + 2 ≤ payload.length) :
    Yields payload 15 (readU16Be p) (Dmdhcp.readU16Be payload p h) :=
  (Yields.read (by omega)).bind ((Yields.read (by omega)).bind (.pure _))

theorem readU32Be_yields {p : Nat} (h : p + 4 ≤ payload.length) :
    Yields payload 15 (readU32Be p) (Dmdhcp.readU32Be payload p h) :=
  (Yields.read (by omega)).bind ((Yields.read (by omega)).bind
    ((Yields.read (by omega)).bind ((Yields.read (by omega)).bind (.pure _))))

theorem readAddr_yields {p : Nat} (h : p + 4 ≤ payload.length) :
    Yields payload 15 (readAddr p) (Dmdhcp.readAddr payload p h) :=
  (Yields.copy h).bind (.pure _)

theorem parseMessage_yields :
    Yields payload 15 (parseMessage payload.length) (Dmdhcp.parseMessage payload) := by
  unfold parseMessage Dmdhcp.parseMessage
  by_cases hshort : payload.length < fixedHeaderLen + 4
  · rw [if_pos hshort, dif_pos hshort]
    exact .pure _
  · rw [if_neg hshort, dif_neg hshort]
    have hlen : 240 ≤ payload.length := Nat.le_of_not_lt hshort
    refine (readU32Be_yields (Nat.le_of_not_lt hshort)).bind (Yields.ite (fun _ => .pure _) ?_)
    intro _
    refine (Yields.read (by omega)).bind ?_
    -- Every offset of the header is below the 240 that were checked.
    show Yields payload 15 _ (match Op.ofByte payload[0] with
      | none => Except.error Errno.eproto
      | some op => Except.ok (headerFields payload op hlen, fixedHeaderLen + 4))
    cases Op.ofByte payload[0] with
    | none => exact .pure _
    | some op =>
      refine (Yields.read (by omega)).bind ?_
      refine (Yields.read (by omega)).bind ?_
      refine (Yields.read (by omega)).bind ?_
      refine (readU32Be_yields (by omega)).bind ?_
      refine (readU16Be_yields (by omega)).bind ?_
      refine (readU16Be_yields (by omega)).bind ?_
      refine (readAddr_yields (by omega)).bind ?_
      refine (readAddr_yields (by omega)).bind ?_
      refine (readAddr_yields (by omega)).bind ?_
      refine (readAddr_yields (by omega)).bind ?_
      exact (Yields.copy (by omega)).bind (.pure _)

/-! ## 3. The options -/

/-- The options area starts behind the header, inside the payload. -/
structure OptionsAt (payload : List UInt8) (off : Nat) : Prop where
  header : fixedHeaderLen + 4 ≤ off
  inside : off ≤ payload.length

/-- The data of an option lies inside the payload. -/
def Inside (payload : List UInt8) (opt : OptionRef) : Prop :=
  opt.data + opt.length.toNat ≤ payload.length

/-- An option found in the area that starts at `off`. -/
def behind (off : Nat) (opt : OptionRef) : OptionRef := { opt with data := off + opt.data }

variable {off : Nat}

-- One turn of the loop: it reads inside, and then goes on or returns as `findTurn` says.
theorem optionsFindFrom_turn (hoff : OptionsAt payload off) {code : UInt8} {pos : Nat}
    {a : Except Errno OptionRef}
    (hnext : ∀ next, findTurn (payload.drop off) code pos = .inl next →
      Yields payload 15 (optionsFindFrom off (payload.length - off) code next) a)
    (hreturn : ∀ r, findTurn (payload.drop off) code pos = .inr r → a = r.map (behind off)) :
    Yields payload 15 (optionsFindFrom off (payload.length - off) code pos) a := by
  have hheader : 240 ≤ off := hoff.header
  have hinside := hoff.inside
  have hlength : (payload.drop off).length = payload.length - off := List.length_drop
  rw [optionsFindFrom]
  unfold findTurn at hnext hreturn
  by_cases hpos : pos < payload.length - off
  · rw [dif_pos (by rw [hlength]; exact hpos)] at hnext hreturn
    simp only [List.getElem_drop] at hnext hreturn
    rw [if_pos hpos]
    refine (Yields.read (by omega)).bind ?_
    generalize payload[off + pos] = entryCode at hnext hreturn ⊢
    by_cases hpad : entryCode = optPad
    · rw [if_pos hpad]
      exact (Yields.size (by omega)).bind (hnext _ (if_pos hpad))
    · rw [if_neg hpad]
      simp only [if_neg hpad] at hnext hreturn
      by_cases hend : entryCode = optEnd
      · rw [if_pos hend, hreturn _ (if_pos hend)]
        exact .pure _
      · rw [if_neg hend]
        simp only [if_neg hend] at hnext hreturn
        refine (Yields.size (by omega)).bind ?_
        by_cases hbyte : pos + 1 < payload.length - off
        · rw [dif_pos (by rw [hlength]; exact hbyte)] at hnext hreturn
          rw [if_neg (Nat.not_le_of_lt hbyte)]
          refine (Yields.read (by omega)).bind ?_
          generalize payload[off + (pos + 1)] = entryLen at hnext hreturn ⊢
          have hentry := entryLen.toNat_lt
          -- The area is 240 bytes shorter than the payload, and an entry at most 255 bytes long.
          refine (Yields.size (by omega)).bind ?_
          simp only [hlength] at hnext hreturn
          by_cases hdata : pos + 2 + entryLen.toNat > payload.length - off
          · rw [if_pos hdata, hreturn _ (if_pos hdata)]
            exact .pure _
          · rw [if_neg hdata]
            simp only [if_neg hdata] at hnext hreturn
            by_cases hcode : entryCode = code
            · rw [if_pos hcode, hreturn _ (if_pos hcode)]
              exact .pure _
            · rw [if_neg hcode]
              exact hnext _ (if_neg hcode)
        · rw [if_pos (Nat.le_of_not_lt hbyte),
            hreturn _ (dif_neg (by rw [hlength]; exact hbyte))]
          exact .pure _
  · rw [if_neg hpos, hreturn _ (dif_neg (by rw [hlength]; exact hpos))]
    exact .pure _

theorem optionsFindFrom_yields (hoff : OptionsAt payload off) {code : UInt8} {pos : Nat}
    {r : Except Errno OptionRef} (h : Loop.Returns (findTurn (payload.drop off) code) pos r) :
    Yields payload 15 (optionsFindFrom off (payload.length - off) code pos)
      (r.map (behind off)) := by
  induction h with
  | @stop pos r hturn =>
    refine optionsFindFrom_turn hoff (fun next hnext => ?_) (fun r' hr' => ?_)
    · rw [hturn] at hnext
      cases hnext
    · rw [hturn] at hr'
      cases hr'
      rfl
  | @again pos next r hturn _ ih =>
    refine optionsFindFrom_turn hoff (fun next' hnext => ?_) (fun r' hr' => ?_)
    · rw [hturn] at hnext
      cases hnext
      exact ih
    · rw [hturn] at hr'
      cases hr'

-- The loop ends, and what it finds is what the model finds in the area, inside the payload.
theorem optionsFind_yields (hoff : OptionsAt payload off) (code : UInt8) :
    ∃ r, Yields payload 15 (optionsFind off (payload.length - off) code) r ∧
      r.map (OptionRef.read payload) = Dmdhcp.optionsFind (payload.drop off) code ∧
      ∀ opt, r = .ok opt → Inside payload opt := by
  obtain ⟨r, hreturns, hread, hinside⟩ := findTurn_returns (payload.drop off) code 0
  refine ⟨r.map (behind off), optionsFindFrom_yields hoff hreturns, ?_, ?_⟩
  · rw [List.drop_zero] at hread
    rw [optionsFind_eq, ← hread]
    cases r with
    | error e => rfl
    | ok opt =>
      show Except.ok (leadingEntry opt.code opt.length (payload.drop (off + opt.data))) = _
      rw [← List.drop_drop]
      rfl
  · intro opt hopt
    cases r with
    | error e => cases hopt
    | ok found =>
      cases hopt
      have hfound := hinside found rfl
      rw [List.length_drop] at hfound
      have hoffset := hoff.inside
      show off + found.data + found.length.toNat ≤ payload.length
      omega

/-! ### The data of an option -/

variable {opt : OptionRef}

theorem length_data (h : Inside payload opt) :
    (opt.read payload).data.length = opt.length.toNat := by
  unfold Inside at h
  show ((payload.drop opt.data).take opt.length.toNat).length = _
  rw [List.length_take, List.length_drop]
  omega

-- Reading from the option is reading from the payload where its data is.
theorem readU32Be_data {i : Nat} (hi : i + 4 ≤ (opt.read payload).data.length)
    (hi' : opt.data + i + 4 ≤ payload.length) :
    Dmdhcp.readU32Be (opt.read payload).data i hi =
      Dmdhcp.readU32Be payload (opt.data + i) hi' := by
  simp only [Dmdhcp.readU32Be, OptionRef.read, leadingEntry, List.getElem_take, List.getElem_drop,
    Nat.add_assoc]

theorem readAddr_data {i : Nat} (hi : i + 4 ≤ (opt.read payload).data.length)
    (hi' : opt.data + i + 4 ≤ payload.length) :
    Dmdhcp.readAddr (opt.read payload).data i hi = Dmdhcp.readAddr payload (opt.data + i) hi' := by
  simp only [Dmdhcp.readAddr, readIpv4, OptionRef.read, leadingEntry, List.getElem_take,
    List.getElem_drop, Nat.add_assoc]

theorem length_eq_iff (h : Inside payload opt) (n : UInt8) :
    opt.length = n ↔ (opt.read payload).data.length = n.toNat := by
  rw [length_data h]
  exact UInt8.toNat_inj.symm

-- Both accessors of one value check for four bytes and read them.
theorem fourBytes_yields {α : Type} (h : Inside payload opt) {p : Code α}
    {value : (opt.read payload).data.length = 4 → α}
    (hread : ∀ hfour, Yields payload 15 p (value hfour)) :
    Yields payload 15
      (if opt.length ≠ 4 then return Except.error Errno.einval
        else do
          let a ← p
          return Except.ok a)
      (if hfour : (opt.read payload).data.length = 4 then Except.ok (value hfour)
        else Except.error Errno.einval) := by
  by_cases hfour : (opt.read payload).data.length = 4
  · rw [if_neg (not_not.mpr ((length_eq_iff h 4).mpr hfour)), dif_pos hfour]
    exact (hread hfour).bind (.pure _)
  · rw [if_pos fun hlen => hfour ((length_eq_iff h 4).mp hlen), dif_neg hfour]
    exact .pure _

theorem optionGetU32_yields (h : Inside payload opt) :
    Yields payload 15 (optionGetU32 opt) (opt.read payload).getU32 := by
  rw [DhcpOption.getU32_eq]
  refine fourBytes_yields h fun hfour => ?_
  have hdata := length_data h
  unfold Inside at h
  rw [readU32Be_data _ (by omega)]
  exact readU32Be_yields (by omega)

theorem optionGetAddr_yields (h : Inside payload opt) :
    Yields payload 15 (optionGetAddr opt) (opt.read payload).getAddr := by
  rw [DhcpOption.getAddr_eq]
  refine fourBytes_yields h fun hfour => ?_
  have hdata := length_data h
  unfold Inside at h
  rw [readAddr_data _ (by omega)]
  exact readAddr_yields (by omega)

theorem optionAddrCount_eq (h : Inside payload opt) :
    optionAddrCount opt = (opt.read payload).addrCount := by
  rw [optionAddrCount, DhcpOption.addrCount, length_data h]

theorem optionGetAddrAt_yields (h : Inside payload opt) (index : Nat) :
    Yields payload 15 (optionGetAddrAt opt index) ((opt.read payload).getAddrAt index) := by
  have hcount := optionAddrCount_eq h
  have hdata := length_data h
  have hbyte := opt.length.toNat_lt
  unfold Inside at h
  unfold optionGetAddrAt DhcpOption.getAddrAt
  by_cases hindex : index < (opt.read payload).addrCount
  · have hentry : index * 4 + 4 ≤ opt.length.toNat := by
      unfold DhcpOption.addrCount at hindex
      omega
    rw [if_neg (by omega), dif_pos hindex, readAddr_data _ (by omega)]
    refine (Yields.size (by omega)).bind ?_
    exact (readAddr_yields (by omega)).bind (.pure _)
  · rw [if_pos (by omega), dif_neg hindex]
    exact .pure _

-- The loop that stores the addresses, with `left` of them to go.
theorem storeAddrsFrom_yields (h : Inside payload opt) (refused : Bool) (index left room : Nat) :
    Yields payload 15 (storeAddrsFrom opt refused index left room)
      (((List.range' index left).map fun i =>
        ((opt.read payload).getAddrAt i).toOption.getD .none).take room) := by
  induction left generalizing index room with
  | zero =>
    rw [storeAddrsFrom, List.range'_zero, List.map_nil, List.take_nil]
    exact .pure _
  | succ left ih =>
    cases room with
    | zero =>
      rw [storeAddrsFrom, List.take_zero]
      cases refused with
      | true => exact (optionGetAddrAt_yields h index).bind (.pure _)
      | false => exact .pure _
    | succ room =>
      rw [storeAddrsFrom, List.range'_succ, List.map_cons, List.take_succ_cons]
      exact (optionGetAddrAt_yields h index).bind ((ih (index + 1) room).bind (.pure _))

theorem storeAddrs_yields (h : Inside payload opt) (refused : Bool) (room : Nat) :
    Yields payload 15 (storeAddrs opt refused room) ((opt.read payload).storedAddrs room) := by
  unfold storeAddrs DhcpOption.storedAddrs
  rw [List.range_eq_range', ← optionAddrCount_eq h]
  exact storeAddrsFrom_yields h refused 0 _ room

/-! ## 4. The lease -/

-- What is done with an option is done with what the model finds.
theorem withOption_yields {α : Type} (hoff : OptionsAt payload off) {code : UInt8}
    {found : OptionRef → Code α} {g : DhcpOption → α} {missing : α}
    (hfound : ∀ opt, Inside payload opt → Yields payload 15 (found opt) (g (opt.read payload))) :
    Yields payload 15 (withOption off (payload.length - off) code found missing)
      (match Dmdhcp.optionsFind (payload.drop off) code with
        | .ok opt => g opt
        | .error _ => missing) := by
  obtain ⟨r, hr, hread, hinside⟩ := optionsFind_yields hoff code
  refine hr.bind ?_
  rw [← hread]
  cases r with
  | error e => exact .pure _
  | ok opt => exact hfound opt (hinside opt rfl)

theorem addrOr_yields (hoff : OptionsAt payload off) (code : UInt8) (old : Addr) :
    Yields payload 15 (addrOr off (payload.length - off) code old)
      (Dmdhcp.addrOr (payload.drop off) code old) :=
  withOption_yields hoff fun _ hopt => (optionGetAddr_yields hopt).bind (.pure _)

theorem gatewayOf_yields (hoff : OptionsAt payload off) (old : Addr) :
    Yields payload 15 (gatewayOf off (payload.length - off) old)
      (Dmdhcp.gatewayOf (payload.drop off) old) := by
  refine withOption_yields hoff fun opt hopt => ?_
  rw [← optionAddrCount_eq hopt]
  exact .ite (fun _ => (optionGetAddrAt_yields hopt 0).bind (.pure _)) fun _ => .pure _

theorem u32Or_yields (hoff : OptionsAt payload off) (code : UInt8) (missing : UInt32) :
    Yields payload 15 (u32Or off (payload.length - off) code missing)
      (match Dmdhcp.optionsFind (payload.drop off) code with
        | .ok opt => opt.getU32.toOption.getD 0
        | .error _ => missing) :=
  withOption_yields hoff fun _ hopt => (optionGetU32_yields hopt).bind (.pure _)

theorem dnsServersOf_yields (hoff : OptionsAt payload off) (refused : Bool) (room : Nat) :
    Yields payload 15 (dnsServersOf off (payload.length - off) refused room)
      (Dmdhcp.dnsServersOf (payload.drop off) room) :=
  withOption_yields hoff fun _ hopt => storeAddrs_yields hopt refused room

theorem ntpServersOf_yields (hoff : OptionsAt payload off) (refused : Bool) (room : Nat) :
    Yields payload 15 (ntpServersOf off (payload.length - off) refused room)
      (Dmdhcp.ntpServersOf (payload.drop off) room) := by
  refine withOption_yields hoff fun opt hopt => ?_
  rw [← length_data hopt]
  exact .ite (fun _ => storeAddrs_yields hopt refused room) fun _ => .pure _

theorem populateLeaseFromOptions_yields (hoff : OptionsAt payload off) (env : Env)
    (refused : Refused) (msg : Message) (l : Lease) :
    Yields payload 15
      (populateLeaseFromOptions off (payload.length - off) env refused msg l)
      (Dmdhcp.populateLeaseFromOptions env msg (payload.drop off) l) := by
  refine (addrOr_yields hoff optSubnetMask l.netmask).bind ?_
  refine (gatewayOf_yields hoff l.gateway).bind ?_
  refine (addrOr_yields hoff optServerId l.serverId).bind ?_
  refine (u32Or_yields hoff optLeaseTime 0).bind ?_
  refine (u32Or_yields hoff optRenewalT1 _).bind ?_
  refine (u32Or_yields hoff optRebindingT2 _).bind ?_
  refine (dnsServersOf_yields hoff refused.dns env.dnsRoom).bind ?_
  exact (ntpServersOf_yields hoff refused.ntp env.ntpRoom).bind (.pure _)

-- Populating is all that reads the options in the locked section.
theorem datagramSection_yields (r : Reply) (hoff : OptionsAt payload off)
    (hr : r.options = payload.drop off) (env : Env) (refused : Refused) (msgType : UInt8)
    (c : Client) :
    Yields payload 15
      (datagramSection off (payload.length - off) env refused r.msg msgType c)
      (Dmdhcp.datagramSection env r msgType c) := by
  have hpopulate := populateLeaseFromOptions_yields hoff env refused r.msg c.lease
  rw [← hr] at hpopulate
  refine .ite (fun _ => hpopulate.bind (.pure _)) fun _ => ?_
  refine .ite (fun _ => hpopulate.bind (.pure _)) fun _ => ?_
  refine .ite (fun _ => .pure _) fun _ => ?_
  refine .ite (fun _ => hpopulate.bind (.pure _)) fun _ => ?_
  exact .ite (fun _ => .pure _) fun _ => .pure _

theorem handleReply_yields (r : Reply) (hoff : OptionsAt payload off)
    (hr : r.options = payload.drop off) (env : Env) (refused : Refused) (c : Client) :
    Yields payload 15 (handleReply off (payload.length - off) env refused r.msg c)
      (Dmdhcp.handleReply env r c) := by
  obtain ⟨found, hfound, hread, hinside⟩ := optionsFind_yields hoff optMsgType
  refine hfound.bind ?_
  rw [← hr] at hread
  unfold Dmdhcp.handleReply
  cases found with
  | error e =>
    rw [messageType, ← hread]
    exact .pure _
  | ok typeOpt =>
    have hopt := hinside typeOpt rfl
    rw [messageType_eq hread.symm]
    have hdata := length_data hopt
    show Yields payload 15 (if typeOpt.length ≠ 1 then _ else _) _
    by_cases hone : (typeOpt.read payload).data.length = 1
    · have hlt : typeOpt.data < payload.length := by
        unfold Inside at hopt
        omega
      have hbyte : (typeOpt.read payload).data[0] = payload[typeOpt.data] := by
        simp only [OptionRef.read, leadingEntry, List.getElem_take, List.getElem_drop, Nat.add_zero]
      rw [if_neg (not_not.mpr ((length_eq_iff hopt 1).mpr hone)), dif_pos hone, hbyte]
      exact (Yields.read hlt).bind ((datagramSection_yields r hoff hr env refused _ c).bind (.pure _))
    · rw [if_pos fun hlen => hone ((length_eq_iff hopt 1).mp hlen), dif_neg hone]
      exact .pure _

end

/-! ## 5. The datagram -/

theorem modifyFirst_yields {payload : List UInt8} {p : Client → Bool} {f : Client → Code Client}
    {g : Client → Client} (h : ∀ c, Yields payload 15 (f c) (g c)) (leases : List Client) :
    Yields payload 15 (modifyFirst p f leases) (Dmdhcp.modifyFirst p g leases) := by
  induction leases with
  | nil => exact .pure _
  | cons c cs ih =>
    exact .ite (fun _ => (h c).bind (.pure _)) fun _ => ih.bind (.pure _)

theorem handleDatagram_yields (env : Env) (refused : Refused) (iface : Iface)
    (payload : List UInt8) (leases : List Client) :
    Yields payload 15 (handleDatagram env refused iface payload.length leases)
      (Dmdhcp.handleDatagram env iface payload leases) := by
  refine parseMessage_yields.bind ?_
  unfold Dmdhcp.handleDatagram
  cases hparse : Dmdhcp.parseMessage payload with
  | error e =>
    rw [parseReply_error hparse]
    exact .pure _
  | ok parsed =>
    obtain ⟨msg, optionsOffset⟩ := parsed
    rw [parseReply_ok hparse]
    show Yields payload 15 (if msg.op ≠ .bootreply then _ else _) _
    by_cases hop : msg.op = .bootreply
    · rw [if_neg (not_not.mpr hop), dif_pos hop]
      -- The length check of the header is what keeps the length of the options from wrapping around.
      have hoff : OptionsAt payload optionsOffset := by
        obtain ⟨hlen, _, -, -, -, rfl⟩ := parseMessage_ok hparse
        exact ⟨Nat.le_refl _, hlen⟩
      let r : Reply := ⟨msg, payload.drop optionsOffset, hop, parseMessage_yiaddr hparse⟩
      show Yields payload 15 _
        (Dmdhcp.modifyFirst (Client.matchesXid iface msg.xid) (Dmdhcp.handleReply env r) leases)
      refine modifyFirst_yields (fun c => ?_) leases
      exact (Yields.difference hoff.inside).bind (handleReply_yields r hoff rfl env refused c)
    · rw [if_pos hop, dif_neg hop]
      exact .pure _

/-- **No datagram makes the code read outside its payload.**  For every payload and whatever stands
behind it in memory, every interface, table and outcome of the allocations: each index that
`dmdhcp_handle_datagram` reads is below `payload_len`, the length of the options area does not
underflow, and no size it computes is more than 15 above `payload_len`.  It ends, and leaves the
table as the model over byte lists does. -/
theorem datagram_reads_inside (env : Env) (refused : Refused) (iface : Iface)
    (payload : List UInt8) (beyond : Nat → UInt8) (leases : List Client) :
    let run := handleDatagram env refused iface payload.length leases (memory payload beyond)
    (∀ i, .read i ∈ run.1 → i < payload.length) ∧
      (∀ a b, .difference a b ∈ run.1 → b ≤ a) ∧
      (∀ n, .size n ∈ run.1 → n ≤ payload.length + 15) ∧
      run.2 = Dmdhcp.handleDatagram env iface payload leases := by
  intro run
  obtain ⟨hwithin, hresult⟩ := handleDatagram_yields env refused iface payload leases beyond
  exact ⟨fun i hi => hwithin (.read i) hi, fun a b hab => hwithin (.difference a b) hab,
    fun n hn => hwithin (.size n) hn, hresult⟩

end Dmdhcp.Buffer
