import Dmdhcp.Wire

/-!
# The TLV options area

`dmdhcp_options.c`: a sequence of `[code][length][data]` entries, except PAD and END, which are a
code byte alone.
-/

namespace Dmdhcp

def optPad : UInt8 := 0
def optSubnetMask : UInt8 := 1
def optRouter : UInt8 := 3
def optDnsServer : UInt8 := 6
def optHostname : UInt8 := 12
def optNtpServer : UInt8 := 42
def optRequestedIp : UInt8 := 50
def optLeaseTime : UInt8 := 51
def optMsgType : UInt8 := 53
def optServerId : UInt8 := 54
def optParameterList : UInt8 := 55
def optRenewalT1 : UInt8 := 58
def optRebindingT2 : UInt8 := 59
def optEnd : UInt8 := 255

/-- `dmdhcp_msg_type_t`. -/
inductive MsgType
  | discover
  | offer
  | request
  | decline
  | ack
  | nak
  | release
  | inform
  deriving DecidableEq, Repr

def MsgType.toByte : MsgType → UInt8
  | .discover => 1
  | .offer => 2
  | .request => 3
  | .decline => 4
  | .ack => 5
  | .nak => 6
  | .release => 7
  | .inform => 8

/-- `dmdhcp_option_t`: the bytes `data` points to, as many as the one-byte `length` says. -/
structure DhcpOption where
  code : UInt8
  data : List UInt8
  fits : data.length ≤ 255
  deriving DecidableEq, Repr

def DhcpOption.length (opt : DhcpOption) : UInt8 := UInt8.ofNat opt.data.length

/-- The writer's loop, at position `pos` of the options area. -/
def optionsWriteFrom (buffer : List UInt8) (pos : Nat) :
    List DhcpOption → Except Errno (List UInt8 × Nat)
  | [] =>
    if pos + 1 > buffer.length then .error .enospc
    else .ok (writeAt buffer pos [optEnd], pos + 1)
  | opt :: rest =>
    if pos + 2 + opt.data.length > buffer.length then .error .enospc
    else
      optionsWriteFrom (writeAt buffer pos (opt.code :: opt.length :: opt.data))
        (pos + 2 + opt.data.length) rest

/-- The filled options area and the number of bytes written, END included. -/
def optionsWrite (buffer : List UInt8) (options : List DhcpOption) :
    Except Errno (List UInt8 × Nat) :=
  optionsWriteFrom buffer 0 options

/-- The `length` bytes at `pos + 2`. -/
def entryAt (options : List UInt8) (pos : Nat) (code length : UInt8) : DhcpOption where
  code
  data := (options.drop (pos + 2)).take length.toNat
  fits := by
    have hlen := length.toNat_lt
    rw [List.length_take]
    omega

/-- The scan of `dmdhcp_options_find` from `pos`.  Every turn of the loop moves `pos` forward, so
`options.length` turns are always enough. -/
def optionsFindFrom (options : List UInt8) (code : UInt8) : Nat → Nat → Except Errno DhcpOption
  | 0, _ => .error .enoent
  | fuel + 1, pos =>
    if hpos : pos < options.length then
      let entryCode := options[pos]
      -- PAD and END have no length byte.
      if entryCode = optPad then optionsFindFrom options code fuel (pos + 1)
      else if entryCode = optEnd then .error .enoent
      else if hlen : pos + 1 < options.length then
        let entryLen := options[pos + 1]
        if pos + 2 + entryLen.toNat > options.length then .error .eproto -- truncated data
        else if entryCode = code then .ok (entryAt options pos entryCode entryLen)
        else optionsFindFrom options code fuel (pos + 2 + entryLen.toNat)
      else .error .eproto -- truncated length byte
    else .error .enoent

def optionsFind (options : List UInt8) (code : UInt8) : Except Errno DhcpOption :=
  optionsFindFrom options code options.length 0

/-- `dmdhcp_option_get_u32`. -/
def DhcpOption.getU32 (opt : DhcpOption) : Except Errno UInt32 :=
  match opt.data with
  | [b0, b1, b2, b3] => .ok (ofU32Be b0 b1 b2 b3)
  | _ => .error .einval

/-- `dmdhcp_option_get_addr`. -/
def DhcpOption.getAddr (opt : DhcpOption) : Except Errno Addr :=
  match opt.data with
  | [b0, b1, b2, b3] => .ok (.v4 ⟨b0, b1, b2, b3⟩)
  | _ => .error .einval

/-- `dmdhcp_option_addr_count`. -/
def DhcpOption.addrCount (opt : DhcpOption) : Nat := opt.data.length / 4

/-- `dmdhcp_option_get_addr_at`. -/
def DhcpOption.getAddrAt (opt : DhcpOption) (index : Nat) : Except Errno Addr :=
  if h : index < opt.addrCount then
    .ok (readAddr opt.data (index * 4) (by unfold DhcpOption.addrCount at h; omega))
  else .error .einval

-- Both decode four bytes and nothing else.
theorem DhcpOption.getU32_eq (opt : DhcpOption) : opt.getU32 =
    if h : opt.data.length = 4 then .ok (readU32Be opt.data 0 (Nat.le_of_eq h.symm))
    else .error .einval := by
  unfold DhcpOption.getU32
  split
  next b0 b1 b2 b3 hdata =>
    rw [dif_pos (by rw [hdata]; rfl)]
    simp only [hdata]
    rfl
  next hother =>
    rw [dif_neg fun h => ?_]
    obtain ⟨b0, b1, b2, b3, hdata⟩ := List.length_eq_four.mp h
    exact hother b0 b1 b2 b3 hdata

theorem DhcpOption.getAddr_eq (opt : DhcpOption) : opt.getAddr =
    if h : opt.data.length = 4 then .ok (readAddr opt.data 0 (Nat.le_of_eq h.symm))
    else .error .einval := by
  unfold DhcpOption.getAddr
  split
  next b0 b1 b2 b3 hdata =>
    rw [dif_pos (by rw [hdata]; rfl)]
    simp only [hdata]
    rfl
  next hother =>
    rw [dif_neg fun h => ?_]
    obtain ⟨b0, b1, b2, b3, hdata⟩ := List.length_eq_four.mp h
    exact hother b0 b1 b2 b3 hdata

theorem DhcpOption.getAddr_isV4 {opt : DhcpOption} {a : Addr} (h : opt.getAddr = .ok a) :
    a.isV4 = true := by
  unfold DhcpOption.getAddr at h
  split at h
  · cases h
    rfl
  · cases h

end Dmdhcp
