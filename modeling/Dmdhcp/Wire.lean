import Dmdhcp.Address

/-!
# The fixed BOOTP/DHCP header

`dmdhcp_build_message` and `dmdhcp_parse_message` (`dmdhcp_wire.c`): 236 bytes of header at
hand-written offsets, followed by the four-byte magic cookie.  Buffers are byte lists; a read
carries the proof that its offset is inside the buffer.
-/

namespace Dmdhcp

def magicCookie : UInt32 := 0x63825363

/-- `op` through `file`, before the magic cookie. -/
def fixedHeaderLen : Nat := 236

def macAddrLen : Nat := 6

/-- The BROADCAST bit of `flags`, set on every message dmdhcp sends. -/
def flagBroadcast : UInt16 := 0x8000

/-- `dmdhcp_op_t`. -/
inductive Op
  | bootrequest
  | bootreply
  deriving DecidableEq, Repr

def Op.toByte : Op → UInt8
  | .bootrequest => 1
  | .bootreply => 2

/-- `dmdhcp_message_t`. -/
structure Message where
  op : Op
  htype : UInt8
  hlen : UInt8
  hops : UInt8
  xid : UInt32
  secs : UInt16
  flags : UInt16
  ciaddr : Addr
  yiaddr : Addr
  siaddr : Addr
  giaddr : Addr
  chaddr : Vector UInt8 16
  deriving DecidableEq, Repr

def u16Be (value : UInt16) : List UInt8 := [(value >>> 8).toUInt8, (value &&& 0xFF).toUInt8]

def u32Be (value : UInt32) : List UInt8 :=
  [(value >>> 24).toUInt8, (value >>> 16).toUInt8, (value >>> 8).toUInt8, (value &&& 0xFF).toUInt8]

def ofU16Be (b0 b1 : UInt8) : UInt16 := (b0.toUInt16 <<< 8) ||| b1.toUInt16

def ofU32Be (b0 b1 b2 b3 : UInt8) : UInt32 :=
  (b0.toUInt32 <<< 24) ||| (b1.toUInt32 <<< 16) ||| (b2.toUInt32 <<< 8) ||| b3.toUInt32

def readU16Be (p : List UInt8) (off : Nat) (h : off + 2 ≤ p.length) : UInt16 :=
  ofU16Be p[off] p[off + 1]

def readU32Be (p : List UInt8) (off : Nat) (h : off + 4 ≤ p.length) : UInt32 :=
  ofU32Be p[off] p[off + 1] p[off + 2] p[off + 3]

/-- The four bytes `memcpy` moves out of `p + off`. -/
def readIpv4 (p : List UInt8) (off : Nat) (h : off + 4 ≤ p.length) : Ipv4 :=
  ⟨p[off], p[off + 1], p[off + 2], p[off + 3]⟩

/-- Always parsed as IPv4: the wire cannot tell an unset field from `0.0.0.0`. -/
def readAddr (p : List UInt8) (off : Nat) (h : off + 4 ≤ p.length) : Addr := .v4 (readIpv4 p off h)

/-- The bytes `write_addr` stores; an IPv6 address is refused. -/
def addrBytes : Addr → Except Errno (List UInt8)
  | .v4 a => .ok a.bytes
  | .none => .ok Ipv4.zero.bytes
  | .v6 _ => .error .einval

/-- `memcpy(&buffer[off], bytes, ...)`: overwrite in place. -/
def writeAt (buffer : List UInt8) (off : Nat) (bytes : List UInt8) : List UInt8 :=
  buffer.take off ++ bytes ++ buffer.drop (off + bytes.length)

def buildMessage (buffer : List UInt8) (message : Message) : Except Errno (List UInt8) :=
  if buffer.length < fixedHeaderLen + 4 then .error .einval
  else do
    -- `memset` of the header and cookie; the rest of the buffer is left to the options.
    let b := writeAt buffer 0 (List.replicate (fixedHeaderLen + 4) 0)
    let b := writeAt b 0 [message.op.toByte, message.htype, message.hlen, message.hops]
    let b := writeAt b 4 (u32Be message.xid)
    let b := writeAt b 8 (u16Be message.secs)
    let b := writeAt b 10 (u16Be message.flags)
    let b := writeAt b 12 (← addrBytes message.ciaddr)
    let b := writeAt b 16 (← addrBytes message.yiaddr)
    let b := writeAt b 20 (← addrBytes message.siaddr)
    let b := writeAt b 24 (← addrBytes message.giaddr)
    let b := writeAt b 28 message.chaddr.toList
    -- bytes 44..235 (sname, file) keep the zeroes written first
    pure (writeAt b fixedHeaderLen (u32Be magicCookie))

/-- The accepted values of the `op` byte. -/
def Op.ofByte (b : UInt8) : Option Op :=
  if b = 1 then some .bootrequest else if b = 2 then some .bootreply else none

/-- The header fields of a buffer that is long enough, read at their offsets. -/
def headerFields (b : List UInt8) (op : Op) (h : fixedHeaderLen + 4 ≤ b.length) : Message :=
  have hlen : 240 ≤ b.length := h
  { op
    htype := b[1]
    hlen := b[2]
    hops := b[3]
    xid := readU32Be b 4 (by omega)
    secs := readU16Be b 8 (by omega)
    flags := readU16Be b 10 (by omega)
    ciaddr := readAddr b 12 (by omega)
    yiaddr := readAddr b 16 (by omega)
    siaddr := readAddr b 20 (by omega)
    giaddr := readAddr b 24 (by omega)
    chaddr := Vector.ofFn fun i => b[28 + i.val] }

/-- The parsed header and the offset of the options area. -/
def parseMessage (buffer : List UInt8) : Except Errno (Message × Nat) :=
  if h : buffer.length < fixedHeaderLen + 4 then .error .einval
  else if readU32Be buffer fixedHeaderLen (Nat.le_of_not_lt h) ≠ magicCookie then .error .eproto
  else
    match Op.ofByte (buffer.get ⟨0, Nat.lt_of_lt_of_le (by decide) (Nat.le_of_not_lt h)⟩) with
    | none => .error .eproto
    | some op => .ok (headerFields buffer op (Nat.le_of_not_lt h), fixedHeaderLen + 4)

-- What acceptance means: long enough, the cookie in its place and a known `op`.
theorem parseMessage_ok {buffer : List UInt8} {m : Message} {off : Nat}
    (h : parseMessage buffer = .ok (m, off)) : ∃ (hlen : fixedHeaderLen + 4 ≤ buffer.length) (op : Op),
      readU32Be buffer fixedHeaderLen hlen = magicCookie ∧ Op.ofByte <$> buffer[0]? = some (some op) ∧
        m = headerFields buffer op hlen ∧ off = fixedHeaderLen + 4 := by
  unfold parseMessage at h
  split at h
  · cases h
  next hshort =>
    have hlen : fixedHeaderLen + 4 ≤ buffer.length := Nat.le_of_not_lt hshort
    split at h
    · cases h
    next hcookie =>
      split at h
      · cases h
      next op hop =>
        cases h
        have h0 : 0 < buffer.length := Nat.lt_of_lt_of_le (by decide) hlen
        refine ⟨hlen, op, not_not.mp hcookie, ?_, rfl, rfl⟩
        rw [List.getElem?_eq_getElem h0]
        exact congrArg some hop

-- The four address fields of a parsed header are IPv4.
theorem parseMessage_yiaddr {buffer : List UInt8} {m : Message} {off : Nat}
    (h : parseMessage buffer = .ok (m, off)) : m.yiaddr.isV4 = true := by
  obtain ⟨hlen, op, -, -, rfl, -⟩ := parseMessage_ok h
  rfl

end Dmdhcp
