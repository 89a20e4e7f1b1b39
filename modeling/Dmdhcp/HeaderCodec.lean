import Dmdhcp.Wire

/-!
# The layout of the fixed header

`dmdhcp_build_message` clears 240 bytes and overwrites them field by field.  Each field starts where
the one before it ends, so the result is the concatenation of the fields, with zeroes for `sname`
and `file`, and the rest of the buffer behind it.
-/

namespace Dmdhcp

/-- DHCP is IPv4 only: everything else but an unset address is refused. -/
def Addr.isV6 : Addr → Bool
  | .v6 _ => true
  | _ => false

theorem addrBytes_eq {a : Addr} (h : a.isV6 = false) : addrBytes a = .ok a.raw.bytes := by
  cases a with
  | none => rfl
  | v4 a => rfl
  | v6 a => cases h

/-- The fields in wire order, cookie included. -/
def headerBytes (m : Message) : List UInt8 :=
  [m.op.toByte, m.htype, m.hlen, m.hops] ++ u32Be m.xid ++ u16Be m.secs ++ u16Be m.flags ++
    m.ciaddr.raw.bytes ++ m.yiaddr.raw.bytes ++ m.siaddr.raw.bytes ++ m.giaddr.raw.bytes ++
    m.chaddr.toList ++ List.replicate 192 0 ++ u32Be magicCookie

@[simp] theorem u16Be_length (value : UInt16) : (u16Be value).length = 2 := rfl
@[simp] theorem u32Be_length (value : UInt32) : (u32Be value).length = 4 := rfl
@[simp] theorem Ipv4.bytes_length (a : Ipv4) : a.bytes.length = 4 := rfl

@[simp] theorem headerBytes_length (m : Message) : (headerBytes m).length = 240 := by
  simp only [headerBytes, List.length_append, List.length_cons, List.length_nil, u16Be_length,
    u32Be_length, Ipv4.bytes_length, Vector.length_toList, List.length_replicate]

-- A write right behind what is already written eats into the zeroes that follow.
theorem writeAt_zeroes (written tail bytes : List UInt8) (n off : Nat) (hoff : written.length = off)
    (hn : bytes.length ≤ n) : writeAt (written ++ (List.replicate n 0 ++ tail)) off bytes =
      written ++ bytes ++ (List.replicate (n - bytes.length) 0 ++ tail) := by
  subst hoff
  have hdrop : (written ++ (List.replicate n 0 ++ tail)).drop (written.length + bytes.length) =
      List.replicate (n - bytes.length) 0 ++ tail := by
    rw [List.drop_append, List.drop_eq_nil_of_le (by omega), List.nil_append,
      Nat.add_sub_cancel_left, List.drop_append_of_le_length (by rw [List.length_replicate]; exact hn),
      List.drop_replicate]
  rw [writeAt, List.take_left, hdrop]

-- The same where the write skips `skipped` bytes first.
theorem writeAt_zeroes_skip (written tail bytes : List UInt8) (n skipped off : Nat)
    (hoff : written.length + skipped = off) (hn : skipped + bytes.length = n) :
    writeAt (written ++ (List.replicate n 0 ++ tail)) off bytes =
      written ++ List.replicate skipped 0 ++ bytes ++ tail := by
  have hsplit : written ++ (List.replicate n 0 ++ tail) =
      written ++ List.replicate skipped 0 ++ (List.replicate bytes.length 0 ++ tail) := by
    rw [← hn, List.replicate_add, List.append_assoc, List.append_assoc]
  rw [hsplit, writeAt_zeroes _ _ _ _ off (by rw [List.length_append, List.length_replicate]; exact hoff)
    (Nat.le_refl _), Nat.sub_self, List.replicate_zero, List.nil_append]

/-- **What `dmdhcp_build_message` leaves in a buffer of at least 240 bytes.** -/
theorem buildMessage_eq {buffer : List UInt8} {m : Message} (hlen : 240 ≤ buffer.length)
    (hci : m.ciaddr.isV6 = false) (hyi : m.yiaddr.isV6 = false) (hsi : m.siaddr.isV6 = false)
    (hgi : m.giaddr.isV6 = false) :
    buildMessage buffer m = .ok (headerBytes m ++ buffer.drop 240) := by
  have hclear : writeAt buffer 0 (List.replicate (fixedHeaderLen + 4) 0) =
      [] ++ (List.replicate 240 0 ++ buffer.drop 240) := by
    rw [writeAt, List.length_replicate, List.take_zero, List.append_assoc]
    rfl
  unfold buildMessage
  rw [if_neg (by show ¬buffer.length < 240; omega), addrBytes_eq hci, addrBytes_eq hyi,
    addrBytes_eq hsi, addrBytes_eq hgi, hclear]
  simp only [bind, Except.bind, pure, Except.pure]
  -- Every field but the cookie starts right behind the one before it.
  rw [writeAt_zeroes [] _ _ 240 0 rfl (by simp),
    writeAt_zeroes _ _ _ _ 4 (by simp) (by simp),
    writeAt_zeroes _ _ _ _ 8 (by simp) (by simp),
    writeAt_zeroes _ _ _ _ 10 (by simp) (by simp),
    writeAt_zeroes _ _ _ _ 12 (by simp) (by simp),
    writeAt_zeroes _ _ _ _ 16 (by simp) (by simp),
    writeAt_zeroes _ _ _ _ 20 (by simp) (by simp),
    writeAt_zeroes _ _ _ _ 24 (by simp) (by simp),
    writeAt_zeroes _ _ _ _ 28 (by simp) (by simp),
    writeAt_zeroes_skip _ _ _ _ 192 fixedHeaderLen (by simp [fixedHeaderLen]) (by simp)]
  rw [headerBytes, List.nil_append]

/-! ### Reading it back -/

theorem readU32Be_eq {p : List UInt8} {off : Nat} {h : off + 4 ≤ p.length} {b0 b1 b2 b3 : UInt8}
    (h0 : p[off]? = some b0) (h1 : p[off + 1]? = some b1) (h2 : p[off + 2]? = some b2)
    (h3 : p[off + 3]? = some b3) : readU32Be p off h = ofU32Be b0 b1 b2 b3 := by
  unfold readU32Be
  rw [(List.getElem?_eq_some_iff.mp h0).2, (List.getElem?_eq_some_iff.mp h1).2, (List.getElem?_eq_some_iff.mp h2).2,
    (List.getElem?_eq_some_iff.mp h3).2]

theorem readIpv4_eq {p : List UInt8} {off : Nat} {h : off + 4 ≤ p.length} {a : Ipv4}
    (h0 : p[off]? = some a.b0) (h1 : p[off + 1]? = some a.b1) (h2 : p[off + 2]? = some a.b2)
    (h3 : p[off + 3]? = some a.b3) : readIpv4 p off h = a := by
  unfold readIpv4
  rw [(List.getElem?_eq_some_iff.mp h0).2, (List.getElem?_eq_some_iff.mp h1).2, (List.getElem?_eq_some_iff.mp h2).2,
    (List.getElem?_eq_some_iff.mp h3).2]

theorem Op.toByte_ofByte {b : UInt8} {op : Op} (h : Op.ofByte b = some op) : op.toByte = b := by
  unfold Op.ofByte at h
  split at h
  next h1 => cases h; exact h1.symm
  next =>
    split at h
    next h2 => cases h; exact h2.symm
    next => cases h

theorem Op.ofByte_toByte (op : Op) : Op.ofByte op.toByte = some op := by
  cases op <;> rfl

theorem u32Be_magicCookie : u32Be magicCookie = [0x63, 0x82, 0x53, 0x63] := by decide

-- The cookie is read back, whatever stands before and behind it.
theorem readU32Be_cookie (before after : List UInt8) (off : Nat) (hoff : before.length = off)
    (h : off + 4 ≤ (before ++ u32Be magicCookie ++ after).length) :
    readU32Be (before ++ u32Be magicCookie ++ after) off h = magicCookie := by
  subst hoff
  have hat (n : Nat) : (before ++ u32Be magicCookie ++ after)[before.length + n]? =
      ([0x63, 0x82, 0x53, 0x63] ++ after)[n]? := by
    rw [List.append_assoc, List.getElem?_append_right (by omega), Nat.add_sub_cancel_left,
      u32Be_magicCookie]
  have hread : readU32Be (before ++ u32Be magicCookie ++ after) before.length h =
      ofU32Be 0x63 0x82 0x53 0x63 := readU32Be_eq (hat 0) (hat 1) (hat 2) (hat 3)
  rw [hread]
  decide

-- The two byte orders are inverse to each other: both sides are base-256 digits.
theorem ofU16Be_toNat (b0 b1 : UInt8) : (ofU16Be b0 b1).toNat = b0.toNat * 2 ^ 8 + b1.toNat := by
  have h0 := b0.toNat_lt
  have h1 := b1.toNat_lt
  have hshift : (b0.toUInt16 <<< 8).toNat = b0.toNat <<< 8 := by
    rw [UInt16.toNat_shiftLeft]
    show b0.toNat <<< 8 % 2 ^ 16 = _
    rw [Nat.shiftLeft_eq]
    omega
  rw [ofU16Be, UInt16.toNat_or, hshift, UInt8.toNat_toUInt16,
    ← Nat.shiftLeft_add_eq_or_of_lt h1, Nat.shiftLeft_eq]

-- The digits are written from the left, so each `|||` adds a value below the ones before it.
theorem ofU32Be_toNat (b0 b1 b2 b3 : UInt8) : (ofU32Be b0 b1 b2 b3).toNat =
    b0.toNat * 2 ^ 24 + b1.toNat * 2 ^ 16 + b2.toNat * 2 ^ 8 + b3.toNat := by
  have h0 := b0.toNat_lt
  have h1 := b1.toNat_lt
  have h2 := b2.toNat_lt
  have h3 := b3.toNat_lt
  have hshift (b : UInt8) (k : UInt32) (hk : k.toNat ≤ 24) :
      (b.toUInt32 <<< k).toNat = b.toNat * 2 ^ k.toNat := by
    have hb := b.toNat_lt
    have hfits : b.toNat * 2 ^ k.toNat < 2 ^ 32 := calc
      b.toNat * 2 ^ k.toNat < 2 ^ 8 * 2 ^ k.toNat := 
        Nat.mul_lt_mul_of_pos_right hb (Nat.two_pow_pos _)
      _ = 2 ^ (8 + k.toNat) := (Nat.pow_add 2 8 k.toNat).symm
      _ ≤ 2 ^ 32 := Nat.pow_le_pow_right (by decide) (by omega)
    rw [UInt32.toNat_shiftLeft, UInt8.toNat_toUInt32,
      Nat.mod_eq_of_lt (show k.toNat < 32 by omega), Nat.shiftLeft_eq, Nat.mod_eq_of_lt hfits]
  have hor (a b i : Nat) (hb : b < 2 ^ i) : a * 2 ^ i ||| b = a * 2 ^ i + b := by
    rw [← Nat.shiftLeft_eq, ← Nat.shiftLeft_add_eq_or_of_lt hb]
  rw [ofU32Be, UInt32.toNat_or, UInt32.toNat_or, UInt32.toNat_or, hshift b0 24 (by decide),
    hshift b1 16 (by decide), hshift b2 8 (by decide), UInt8.toNat_toUInt32]
  show b0.toNat * 2 ^ 24 ||| b1.toNat * 2 ^ 16 ||| b2.toNat * 2 ^ 8 ||| b3.toNat = _
  rw [hor b0.toNat _ 24 (by omega),
    show b0.toNat * 2 ^ 24 + b1.toNat * 2 ^ 16 = (b0.toNat * 2 ^ 8 + b1.toNat) * 2 ^ 16 by omega,
    hor _ _ 16 (by omega),
    show (b0.toNat * 2 ^ 8 + b1.toNat) * 2 ^ 16 + b2.toNat * 2 ^ 8 =
      (b0.toNat * 2 ^ 16 + b1.toNat * 2 ^ 8 + b2.toNat) * 2 ^ 8 by omega,
    hor _ _ 8 h3]

-- The bytes that are written, as digits.
theorem u16Be_digits (value : UInt16) :
    (value >>> 8).toUInt8.toNat = value.toNat / 2 ^ 8 % 2 ^ 8 ∧
      (value &&& 0xFF).toUInt8.toNat = value.toNat % 2 ^ 8 := by
  constructor
  · rw [UInt16.toNat_toUInt8, UInt16.toNat_shiftRight, Nat.shiftRight_eq_div_pow]
    rfl
  · rw [UInt16.toNat_toUInt8, UInt16.toNat_and]
    show (value.toNat &&& (2 ^ 8 - 1)) % 2 ^ 8 = _
    rw [Nat.and_two_pow_sub_one_eq_mod, Nat.mod_mod]

theorem u32Be_digits (value : UInt32) :
    (value >>> 24).toUInt8.toNat = value.toNat / 2 ^ 24 % 2 ^ 8 ∧
      (value >>> 16).toUInt8.toNat = value.toNat / 2 ^ 16 % 2 ^ 8 ∧
      (value >>> 8).toUInt8.toNat = value.toNat / 2 ^ 8 % 2 ^ 8 ∧
      (value &&& 0xFF).toUInt8.toNat = value.toNat % 2 ^ 8 := by
  have hshift (k : UInt32) :
      (value >>> k).toUInt8.toNat = value.toNat / 2 ^ (k.toNat % 32) % 2 ^ 8 := by
    rw [UInt32.toNat_toUInt8, UInt32.toNat_shiftRight, Nat.shiftRight_eq_div_pow]
  refine ⟨hshift 24, hshift 16, hshift 8, ?_⟩
  rw [UInt32.toNat_toUInt8, UInt32.toNat_and]
  show (value.toNat &&& (2 ^ 8 - 1)) % 2 ^ 8 = _
  rw [Nat.and_two_pow_sub_one_eq_mod, Nat.mod_mod]

theorem ofU16Be_u16Be (value : UInt16) :
    ofU16Be (value >>> 8).toUInt8 (value &&& 0xFF).toUInt8 = value := by
  obtain ⟨h1, h0⟩ := u16Be_digits value
  have hlt := value.toNat_lt
  apply UInt16.toNat_inj.mp
  rw [ofU16Be_toNat, h1, h0]
  omega

theorem u16Be_ofU16Be (b0 b1 : UInt8) : u16Be (ofU16Be b0 b1) = [b0, b1] := by
  obtain ⟨h1, h0⟩ := u16Be_digits (ofU16Be b0 b1)
  have hvalue := ofU16Be_toNat b0 b1
  have hb0 := b0.toNat_lt
  have hb1 := b1.toNat_lt
  rw [u16Be]
  refine congrArg₂ List.cons (UInt8.toNat_inj.mp ?_)
    (congrArg₂ List.cons (UInt8.toNat_inj.mp ?_) rfl)
  · rw [h1]
    omega
  · rw [h0]
    omega

theorem ofU32Be_u32Be (value : UInt32) :
    ofU32Be (value >>> 24).toUInt8 (value >>> 16).toUInt8 (value >>> 8).toUInt8
      (value &&& 0xFF).toUInt8 = value := by
  obtain ⟨h3, h2, h1, h0⟩ := u32Be_digits value
  have hlt := value.toNat_lt
  apply UInt32.toNat_inj.mp
  rw [ofU32Be_toNat, h3, h2, h1, h0]
  omega

theorem u32Be_ofU32Be (b0 b1 b2 b3 : UInt8) : u32Be (ofU32Be b0 b1 b2 b3) = [b0, b1, b2, b3] := by
  obtain ⟨h3, h2, h1, h0⟩ := u32Be_digits (ofU32Be b0 b1 b2 b3)
  have hvalue := ofU32Be_toNat b0 b1 b2 b3
  have hb0 := b0.toNat_lt
  have hb1 := b1.toNat_lt
  have hb2 := b2.toNat_lt
  have hb3 := b3.toNat_lt
  rw [u32Be]
  refine congrArg₂ List.cons (UInt8.toNat_inj.mp ?_) (congrArg₂ List.cons (UInt8.toNat_inj.mp ?_)
    (congrArg₂ List.cons (UInt8.toNat_inj.mp ?_) (congrArg₂ List.cons (UInt8.toNat_inj.mp ?_) rfl)))
  · rw [h3]
    omega
  · rw [h2]
    omega
  · rw [h1]
    omega
  · rw [h0]
    omega

/-! ## 2. The whole header, both ways -/

/-- An unset address, as a receiver sees it. -/
def Addr.orZero : Addr → Addr
  | .none => .v4 .zero
  | a => a

theorem Addr.orZero_eq {a : Addr} (h : a.isV6 = false) : a.orZero = .v4 a.raw := by
  cases a with
  | none => rfl
  | v4 a => rfl
  | v6 a => cases h

/-- None of the four address fields is an IPv6 address. -/
def Message.NoV6 (m : Message) : Prop :=
  m.ciaddr.isV6 = false ∧ m.yiaddr.isV6 = false ∧ m.siaddr.isV6 = false ∧ m.giaddr.isV6 = false

instance (m : Message) : Decidable m.NoV6 :=
  inferInstanceAs (Decidable (_ ∧ _ ∧ _ ∧ _))

/-- The message with every unset address replaced by `0.0.0.0`. -/
def Message.orZero (m : Message) : Message :=
  { m with
    ciaddr := m.ciaddr.orZero
    yiaddr := m.yiaddr.orZero
    siaddr := m.siaddr.orZero
    giaddr := m.giaddr.orZero }

-- The bytes before `chaddr` one by one, so that a read among them computes.
theorem headerBytes_cons (m : Message) (rest : List UInt8) : headerBytes m ++ rest =
    m.op.toByte :: m.htype :: m.hlen :: m.hops ::
    (m.xid >>> 24).toUInt8 :: (m.xid >>> 16).toUInt8 :: (m.xid >>> 8).toUInt8 ::
    (m.xid &&& 0xFF).toUInt8 ::
    (m.secs >>> 8).toUInt8 :: (m.secs &&& 0xFF).toUInt8 ::
    (m.flags >>> 8).toUInt8 :: (m.flags &&& 0xFF).toUInt8 ::
    m.ciaddr.raw.b0 :: m.ciaddr.raw.b1 :: m.ciaddr.raw.b2 :: m.ciaddr.raw.b3 ::
    m.yiaddr.raw.b0 :: m.yiaddr.raw.b1 :: m.yiaddr.raw.b2 :: m.yiaddr.raw.b3 ::
    m.siaddr.raw.b0 :: m.siaddr.raw.b1 :: m.siaddr.raw.b2 :: m.siaddr.raw.b3 ::
    m.giaddr.raw.b0 :: m.giaddr.raw.b1 :: m.giaddr.raw.b2 :: m.giaddr.raw.b3 ::
    (m.chaddr.toList ++ (List.replicate 192 0 ++ (u32Be magicCookie ++ rest))) := by
  simp only [headerBytes, u32Be, u16Be, Ipv4.bytes, List.cons_append, List.nil_append,
    List.append_assoc]

theorem headerFields_headerBytes {m : Message} {rest b : List UInt8} (hb : headerBytes m ++ rest = b)
    (h : fixedHeaderLen + 4 ≤ b.length) : headerFields b m.op h =
      { m with
        ciaddr := .v4 m.ciaddr.raw
        yiaddr := .v4 m.yiaddr.raw
        siaddr := .v4 m.siaddr.raw
        giaddr := .v4 m.giaddr.raw } := by
  have hlen : 240 ≤ b.length := h
  rw [headerBytes_cons] at hb
  have hchaddr (i : Nat) (hi : i < 16) : b[28 + i]? = some m.chaddr[i] := by
    have hi' : i < m.chaddr.toList.length := by rw [Vector.length_toList]; exact hi
    rw [← List.getElem?_drop, ← hb]
    show (m.chaddr.toList ++ _)[i]? = _
    rw [List.getElem?_append_left hi', List.getElem?_eq_getElem hi', Vector.getElem_toList]
  have hvector : (Vector.ofFn fun i : Fin 16 => b.get ⟨28 + i.val, by omega⟩) = m.chaddr := by
    refine Vector.ext fun i hi => ?_
    rw [Vector.getElem_ofFn]
    exact (List.getElem?_eq_some_iff.mp (hchaddr i hi)).2
  subst hb
  refine Message.mk.injEq .. |>.mpr ⟨rfl, rfl, rfl, rfl, ofU32Be_u32Be m.xid,
    ofU16Be_u16Be m.secs, ofU16Be_u16Be m.flags, rfl, rfl, rfl, rfl, hvector⟩

-- A built header is accepted, and every field comes back.
theorem parseMessage_headerBytes (m : Message) (rest : List UInt8) :
    parseMessage (headerBytes m ++ rest) = .ok
      ({ m with
        ciaddr := .v4 m.ciaddr.raw
        yiaddr := .v4 m.yiaddr.raw
        siaddr := .v4 m.siaddr.raw
        giaddr := .v4 m.giaddr.raw }, 240) := by
  have hlen : 240 ≤ (headerBytes m ++ rest).length := by
    rw [List.length_append, headerBytes_length]
    omega
  have hcookie : readU32Be (headerBytes m ++ rest) fixedHeaderLen hlen = magicCookie :=
    readU32Be_cookie _ rest _ (by
      simp only [List.length_append, List.length_cons, List.length_nil, u16Be_length, u32Be_length,
        Ipv4.bytes_length, Vector.length_toList, List.length_replicate]) hlen
  have hop : (headerBytes m ++ rest).get ⟨0, by omega⟩ = m.op.toByte := rfl
  unfold parseMessage
  rw [dif_neg (by show ¬(headerBytes m ++ rest).length < 240; omega), if_neg (not_not.mpr hcookie)]
  simp only [hop, Op.ofByte_toByte]
  rw [headerFields_headerBytes rfl]
  rfl

-- What a read at `off` takes out of a buffer, put back into bytes.
theorem u16Be_readU16Be (p : List UInt8) (off : Nat) (h : off + 2 ≤ p.length) :
    u16Be (readU16Be p off h) = (p.drop off).take 2 := by
  rw [readU16Be, u16Be_ofU16Be, List.drop_eq_getElem_cons (by omega),
    List.drop_eq_getElem_cons (by omega)]
  rfl

theorem readIpv4_bytes (p : List UInt8) (off : Nat) (h : off + 4 ≤ p.length) :
    (readIpv4 p off h).bytes = (p.drop off).take 4 := by
  rw [List.drop_eq_getElem_cons (by omega), List.drop_eq_getElem_cons (by omega),
    List.drop_eq_getElem_cons (by omega), List.drop_eq_getElem_cons (by omega)]
  rfl

theorem u32Be_readU32Be (p : List UInt8) (off : Nat) (h : off + 4 ≤ p.length) :
    u32Be (readU32Be p off h) = (p.drop off).take 4 := by
  rw [readU32Be, u32Be_ofU32Be]
  exact readIpv4_bytes p off h

theorem readAddr_bytes (p : List UInt8) (off : Nat) (h : off + 4 ≤ p.length) :
    (readAddr p off h).raw.bytes = (p.drop off).take 4 :=
  readIpv4_bytes p off h

theorem ofFn_bytes (p : List UInt8) (off n : Nat) (h : off + n ≤ p.length) :
    (Vector.ofFn fun i : Fin n => p[off + i.val]).toList = (p.drop off).take n := by
  apply List.ext_getElem
  · rw [Vector.length_toList, List.length_take, List.length_drop]
    omega
  · intro i hi hi'
    rw [Vector.getElem_toList, Vector.getElem_ofFn, List.getElem_take, List.getElem_drop]

-- The fields of a buffer in wire order are its first 44 bytes.
theorem headerBytes_headerFields (b : List UInt8) (op : Op) (h : fixedHeaderLen + 4 ≤ b.length)
    (hop : Op.ofByte <$> b[0]? = some (some op)) : headerBytes (headerFields b op h) =
      b.take 44 ++ List.replicate 192 0 ++ u32Be magicCookie := by
  have hlen : 240 ≤ b.length := h
  have hfirst : [op.toByte, b[1], b[2], b[3]] = b.take 4 := by
    have hbyte : op.toByte = b[0] := by
      rw [List.getElem?_eq_getElem (by omega)] at hop
      exact Op.toByte_ofByte (Option.some.inj hop)
    rw [hbyte]
    exact readIpv4_bytes b 0 (by omega)
  have htake : b.take 44 = b.take 4 ++ (b.drop 4).take 4 ++ (b.drop 8).take 2 ++ (b.drop 10).take 2 ++
      (b.drop 12).take 4 ++ (b.drop 16).take 4 ++ (b.drop 20).take 4 ++ (b.drop 24).take 4 ++
      (b.drop 28).take 16 := by
    simp only [← List.take_add]
  rw [htake, headerBytes, ← hfirst, ← u32Be_readU32Be b 4 (by omega),
    ← u16Be_readU16Be b 8 (by omega), ← u16Be_readU16Be b 10 (by omega),
    ← readAddr_bytes b 12 (by omega), ← readAddr_bytes b 16 (by omega),
    ← readAddr_bytes b 20 (by omega), ← readAddr_bytes b 24 (by omega),
    ← ofFn_bytes b 28 16 (by omega)]
  rfl

-- Building a parsed message gives the accepted header back, less `sname` and `file`.
theorem buildMessage_parsed {b buffer : List UInt8} {m : Message} {off : Nat}
    (h : parseMessage b = .ok (m, off)) (hlen : 240 ≤ buffer.length) : buildMessage buffer m =
      .ok (b.take 44 ++ List.replicate 192 0 ++ (b.drop 236).take 4 ++ buffer.drop 240) := by
  obtain ⟨hb, op, hcookie, hop, rfl, -⟩ := parseMessage_ok h
  have hcookie' : (b.drop 236).take 4 = u32Be magicCookie := by
    rw [← hcookie]
    exact (u32Be_readU32Be b 236 hb).symm
  rw [buildMessage_eq hlen rfl rfl rfl rfl, headerBytes_headerFields b op hb hop, hcookie']

-- A built message parses to itself, whatever follows the header.
theorem parseMessage_built {m : Message} (h : m.NoV6) (rest : List UInt8) :
    parseMessage (headerBytes m ++ rest) = .ok (m.orZero, 240) := by
  obtain ⟨hci, hyi, hsi, hgi⟩ := h
  rw [parseMessage_headerBytes, ← Addr.orZero_eq hci, ← Addr.orZero_eq hyi, ← Addr.orZero_eq hsi,
    ← Addr.orZero_eq hgi]
  rfl

/-- **The header codec is a bijection on its image.**  Building a message into any buffer that has
room succeeds, touches the first 240 bytes only, and parses back to the message with its unset
addresses read as `0.0.0.0`; and building what was parsed out of `b` gives the header of `b` with
`sname` and `file` cleared. -/
theorem header_codec :
    (∀ (m : Message) (buffer : List UInt8), m.NoV6 → 240 ≤ buffer.length →
      ∃ out, buildMessage buffer m = .ok out ∧ out.length = buffer.length ∧
        out.drop 240 = buffer.drop 240 ∧
        ∀ rest, parseMessage (out ++ rest) = .ok (m.orZero, 240) ∧
          parseMessage (out.take 240 ++ rest) = .ok (m.orZero, 240)) ∧
    ∀ (b : List UInt8) (m : Message) (off : Nat), parseMessage b = .ok (m, off) →
      m.NoV6 ∧ ∀ buffer : List UInt8, 240 ≤ buffer.length → buildMessage buffer m =
        .ok (b.take 44 ++ List.replicate 192 0 ++ (b.drop 236).take 4 ++ buffer.drop 240) := by
  constructor
  · intro m buffer hm hlen
    have htake : (headerBytes m ++ buffer.drop 240).take 240 = headerBytes m :=
      List.take_left' (headerBytes_length m)
    refine ⟨headerBytes m ++ buffer.drop 240, buildMessage_eq hlen hm.1 hm.2.1 hm.2.2.1 hm.2.2.2,
      ?_, List.drop_left' (headerBytes_length m), fun rest => ⟨?_, ?_⟩⟩
    · rw [List.length_append, headerBytes_length, List.length_drop]
      omega
    · rw [List.append_assoc, parseMessage_built hm]
    · rw [htake, parseMessage_built hm]
  · intro b m off hparse
    refine ⟨?_, fun buffer hlen => buildMessage_parsed hparse hlen⟩
    obtain ⟨hb, op, -, -, rfl, -⟩ := parseMessage_ok hparse
    exact ⟨rfl, rfl, rfl, rfl⟩

/-- A request on Ethernet whose `siaddr` is set and whose other addresses are not. -/
def sampleRequest : Message where
  op := .bootrequest
  htype := 1
  hlen := 6
  hops := 0
  xid := 0xDEADBEEF
  secs := 0x0102
  flags := flagBroadcast
  ciaddr := .none
  yiaddr := .none
  siaddr := .v4 ⟨10, 0, 0, 1⟩
  giaddr := .none
  chaddr := #v[2, 0, 0, 0, 0, 1, 0, 0, 0, 0, 0, 0, 0, 0, 0, 0]

theorem header_codec_sampleRequest :
    (∃ out, buildMessage (List.replicate 250 0xAA) sampleRequest = .ok out ∧ out.length = 250 ∧
      parseMessage (out ++ [255]) = .ok (sampleRequest.orZero, 240)) ∧
    buildMessage (List.replicate 240 0xAA) sampleRequest.orZero =
      .ok ((headerBytes sampleRequest).take 44 ++ List.replicate 192 0 ++
        ((headerBytes sampleRequest).drop 236).take 4) := by
  have hparse : parseMessage (headerBytes sampleRequest) = .ok (sampleRequest.orZero, 240) := by
    have h := parseMessage_built (show sampleRequest.NoV6 by decide) []
    rwa [List.append_nil] at h
  have hlong : (List.replicate 250 (0xAA : UInt8)).length = 250 := List.length_replicate
  have hexact : (List.replicate 240 (0xAA : UInt8)).length = 240 := List.length_replicate
  obtain ⟨out, hout, hlen, -, hback⟩ :=
    header_codec.1 sampleRequest (List.replicate 250 0xAA) (by decide) (by omega)
  have hbuilt := (header_codec.2 _ _ _ hparse).2 (List.replicate 240 0xAA) (by omega)
  rw [List.drop_eq_nil_of_le (Nat.le_of_eq hexact), List.append_nil] at hbuilt
  exact ⟨⟨out, hout, hlen.trans hlong, (hback [255]).1⟩, hbuilt⟩

end Dmdhcp
