import Dmdhcp.Options

/-!
# The options codec round trip

`dmdhcp_options_write` and `dmdhcp_options_find` walk the same bytes, the one by the options it is
given, the other by the length bytes it reads.  Both are compared with the plain concatenation of
the entries; data bytes that look like codes, PAD or END never come to stand where the reader
expects a code.
-/

namespace Dmdhcp

/-! ## 1. The plain encoding -/

/-- The bytes of one entry. -/
def DhcpOption.encode (opt : DhcpOption) : List UInt8 := opt.code :: opt.length :: opt.data

/-- The entries in order, then END. -/
def encodeOptions (options : List DhcpOption) : List UInt8 :=
  options.flatMap DhcpOption.encode ++ [optEnd]

/-- The room the options need: code, length and data of each, and END. -/
def optionsSize (options : List DhcpOption) : Nat :=
  (options.map fun opt => 2 + opt.data.length).sum + 1

/-- A code with a length byte: neither PAD nor END. -/
def IsEntryCode (code : UInt8) : Prop := code ≠ optPad ∧ code ≠ optEnd

instance (code : UInt8) : Decidable (IsEntryCode code) := inferInstanceAs (Decidable (_ ∧ _))

theorem DhcpOption.length_toNat (opt : DhcpOption) : opt.length.toNat = opt.data.length := by
  have hfits := opt.fits
  unfold DhcpOption.length
  exact UInt8.toNat_ofNat_of_lt' (by show opt.data.length < 256; omega)

@[simp] theorem DhcpOption.encode_length (opt : DhcpOption) :
    opt.encode.length = 2 + opt.data.length := by
  simp only [DhcpOption.encode, List.length_cons]
  omega

theorem optionsSize_nil : optionsSize [] = 1 := rfl

theorem optionsSize_cons (opt : DhcpOption) (options : List DhcpOption) :
    optionsSize (opt :: options) = 2 + opt.data.length + optionsSize options := by
  simp only [optionsSize, List.map_cons, List.sum_cons]
  omega

theorem encodeOptions_cons (opt : DhcpOption) (options : List DhcpOption) :
    encodeOptions (opt :: options) = opt.encode ++ encodeOptions options := by
  simp only [encodeOptions, List.flatMap_cons, List.append_assoc]

@[simp] theorem encodeOptions_length (options : List DhcpOption) :
    (encodeOptions options).length = optionsSize options := by
  induction options with
  | nil => rfl
  | cons opt options ih =>
    rw [encodeOptions_cons, List.length_append, DhcpOption.encode_length, ih, optionsSize_cons]

-- Every option takes at least one byte, and so does END.
theorem length_lt_optionsSize (options : List DhcpOption) :
    options.length < optionsSize options := by
  induction options with
  | nil => decide
  | cons opt options ih =>
    rw [optionsSize_cons, List.length_cons]
    omega

/-! ## 2. The writer -/

theorem writeAt_length {buffer bytes : List UInt8} {off : Nat}
    (h : off + bytes.length ≤ buffer.length) : (writeAt buffer off bytes).length = buffer.length := by
  simp only [writeAt, List.length_append, List.length_take, List.length_drop]
  omega

theorem writeAt_take {buffer bytes : List UInt8} {off : Nat} (h : off ≤ buffer.length) :
    (writeAt buffer off bytes).take (off + bytes.length) = buffer.take off ++ bytes := by
  have hlen : (buffer.take off ++ bytes).length = off + bytes.length := by
    rw [List.length_append, List.length_take, Nat.min_eq_left h]
  rw [writeAt, ← hlen, List.take_left]

theorem writeAt_drop {buffer bytes : List UInt8} {off n : Nat} (h : off ≤ buffer.length)
    (hn : off + bytes.length ≤ n) : (writeAt buffer off bytes).drop n = buffer.drop n := by
  have hlen : (buffer.take off ++ bytes).length = off + bytes.length := by
    rw [List.length_append, List.length_take, Nat.min_eq_left h]
  rw [writeAt, List.drop_append, List.drop_eq_nil_of_le (by omega), hlen, List.nil_append,
    List.drop_drop]
  congr 1
  omega

-- The loop from `pos`: the entries and END are laid down one after the other if they fit, and
-- nothing behind them is touched.
theorem optionsWriteFrom_eq (options : List DhcpOption) (buffer : List UInt8) (pos : Nat)
    (hpos : pos ≤ buffer.length) : optionsWriteFrom buffer pos options =
      if pos + optionsSize options ≤ buffer.length then
        .ok (buffer.take pos ++ encodeOptions options ++ buffer.drop (pos + optionsSize options),
          pos + optionsSize options)
      else .error .enospc := by
  induction options generalizing buffer pos with
  | nil =>
    rw [optionsWriteFrom, optionsSize_nil]
    by_cases hfit : pos + 1 ≤ buffer.length
    · rw [if_neg (by omega), if_pos hfit]
      rfl
    · rw [if_pos (by omega), if_neg hfit]
  | cons opt options ih =>
    rw [optionsWriteFrom, optionsSize_cons]
    by_cases hfit : pos + 2 + opt.data.length ≤ buffer.length
    · have hroom : pos + opt.encode.length ≤ buffer.length := by
        rw [DhcpOption.encode_length]
        omega
      have hlen := writeAt_length hroom
      have hnext : pos + 2 + opt.data.length = pos + opt.encode.length := by
        rw [DhcpOption.encode_length]
        omega
      rw [if_neg (by omega)]
      change optionsWriteFrom (writeAt buffer pos opt.encode) _ options = _
      rw [ih (writeAt buffer pos opt.encode) _ (by rw [hlen]; exact hfit), hlen,
        show pos + 2 + opt.data.length + optionsSize options =
          pos + (2 + opt.data.length + optionsSize options) from by omega]
      -- What the rest of the loop keeps of the buffer is what this turn has written.
      rw [hnext, writeAt_take hpos, writeAt_drop hpos (by rw [DhcpOption.encode_length]; omega),
        encodeOptions_cons, List.append_assoc (buffer.take pos)]
    · rw [if_pos (by omega), if_neg (by omega)]

/-- **What the writer does.**  It fails exactly for lack of room; else the area is the encoding
followed by the bytes the buffer had there. -/
theorem optionsWrite_eq (buffer : List UInt8) (options : List DhcpOption) :
    optionsWrite buffer options =
      if optionsSize options ≤ buffer.length then
        .ok (encodeOptions options ++ buffer.drop (optionsSize options), optionsSize options)
      else .error .enospc := by
  rw [optionsWrite, optionsWriteFrom_eq options buffer 0 (Nat.zero_le _), Nat.zero_add,
    List.take_zero, List.nil_append]

/-! ## 3. The reader on what the writer wrote -/

/-- What is found in a list of options: the first one with the code. -/
def firstOption (options : List DhcpOption) (code : UInt8) : Except Errno DhcpOption :=
  match options.find? fun opt => opt.code == code with
  | some opt => .ok opt
  | none => .error .enoent

theorem getElem_append_length (before after : List UInt8) (b : UInt8) (n : Nat)
    (h : before.length + n < (before ++ after).length) (hb : after[n]? = some b) :
    (before ++ after)[before.length + n] = b := by
  rw [List.getElem_append_right (by omega)]
  simp only [Nat.add_sub_cancel_left]
  exact (List.getElem?_eq_some_iff.mp hb).2

-- The entry that starts behind `before`.
theorem entryAt_encode (before after : List UInt8) (opt : DhcpOption) :
    entryAt (before ++ (opt.encode ++ after)) before.length opt.code opt.length = opt := by
  have hdata : ((before ++ (opt.encode ++ after)).drop (before.length + 2)).take
      opt.length.toNat = opt.data := by
    rw [List.drop_append, List.drop_eq_nil_of_le (by omega), List.nil_append,
      show before.length + 2 - before.length = 2 from by omega, DhcpOption.length_toNat]
    show (opt.data ++ after).take opt.data.length = opt.data
    exact List.take_left
  obtain ⟨code, data, fits⟩ := opt
  simp only [entryAt, DhcpOption.mk.injEq, true_and]
  exact hdata

-- One turn of the reader's loop on an entry: it is the one looked for, or it is skipped whole.
theorem optionsFindFrom_entry (before after : List UInt8) (opt : DhcpOption)
    (hcode : IsEntryCode opt.code) (code : UInt8) (fuel : Nat) :
    optionsFindFrom (before ++ (opt.encode ++ after)) code (fuel + 1) before.length =
      if opt.code = code then .ok opt
      else optionsFindFrom (before ++ (opt.encode ++ after)) code fuel
        (before ++ opt.encode).length := by
  have htotal : (before ++ (opt.encode ++ after)).length =
      before.length + (2 + opt.data.length + after.length) := by
    simp only [List.length_append, DhcpOption.encode_length]
  have hcodeAt := getElem_append_length before (opt.encode ++ after) opt.code 0
    (by rw [htotal]; omega) rfl
  have hlenAt := getElem_append_length before (opt.encode ++ after) opt.length 1
    (by rw [htotal]; omega) rfl
  rw [optionsFindFrom, dif_pos (by rw [htotal]; omega)]
  simp only [Nat.add_zero] at hcodeAt
  simp only [hcodeAt, hlenAt, if_neg hcode.1, if_neg hcode.2, DhcpOption.length_toNat]
  rw [dif_pos (by rw [htotal]; omega), if_neg (by rw [htotal]; omega), entryAt_encode,
    List.length_append, DhcpOption.encode_length,
    show before.length + 2 + opt.data.length = before.length + (2 + opt.data.length) from by omega]

-- The scan stops at END, whatever follows.
theorem optionsFindFrom_end (before after : List UInt8) (code : UInt8) (fuel : Nat) :
    optionsFindFrom (before ++ optEnd :: after) code (fuel + 1) before.length = .error .enoent := by
  have htotal : (before ++ optEnd :: after).length = before.length + (1 + after.length) := by
    simp only [List.length_append, List.length_cons]
    omega
  have hend := getElem_append_length before (optEnd :: after) optEnd 0 (by rw [htotal]; omega) rfl
  simp only [Nat.add_zero] at hend
  rw [optionsFindFrom, dif_pos (by rw [htotal]; omega)]
  simp only [hend]
  rw [if_neg (by decide), if_pos trivial]

-- The scan over the encoding, from its start behind `before`.
theorem optionsFindFrom_encodeOptions (options : List DhcpOption)
    (hcodes : ∀ opt ∈ options, IsEntryCode opt.code) (code : UInt8) (rest : List UInt8) :
    ∀ (before : List UInt8) (fuel : Nat), options.length < fuel →
      optionsFindFrom (before ++ (encodeOptions options ++ rest)) code fuel before.length =
        firstOption options code := by
  induction options with
  | nil =>
    intro before fuel hfuel
    obtain ⟨fuel, rfl⟩ := Nat.exists_eq_succ_of_ne_zero (by omega : fuel ≠ 0)
    exact optionsFindFrom_end before rest code fuel
  | cons opt options ih =>
    intro before fuel hfuel
    obtain ⟨fuel, rfl⟩ := Nat.exists_eq_succ_of_ne_zero (by omega : fuel ≠ 0)
    rw [List.length_cons] at hfuel
    rw [encodeOptions_cons, List.append_assoc,
      optionsFindFrom_entry _ _ opt (hcodes opt List.mem_cons_self)]
    by_cases hcode : opt.code = code
    · rw [if_pos hcode, firstOption, List.find?_cons_of_pos (by simpa using hcode)]
    · rw [if_neg hcode, firstOption, List.find?_cons_of_neg (by simpa using hcode)]
      have hrest := ih (fun opt hopt => hcodes opt (List.mem_cons_of_mem _ hopt))
        (before ++ opt.encode) fuel (by omega)
      rw [List.append_assoc] at hrest
      exact hrest

/-- **What the reader finds in an encoding**, with anything behind it. -/
theorem optionsFind_encodeOptions (options : List DhcpOption)
    (hcodes : ∀ opt ∈ options, IsEntryCode opt.code) (code : UInt8) (rest : List UInt8) :
    optionsFind (encodeOptions options ++ rest) code = firstOption options code := by
  have hfuel : options.length < (encodeOptions options ++ rest).length := by
    have hsize := length_lt_optionsSize options
    rw [List.length_append, encodeOptions_length]
    omega
  exact optionsFindFrom_encodeOptions options hcodes code rest [] _ hfuel

/-! ## 4. The round trip -/

/-- **Options round trip.**  Writing succeeds exactly if the options and END fit; it then reports
their size and leaves every byte behind them as it was, and a reader finds the first option of each
code, whatever bytes follow. -/
theorem options_round_trip (options : List DhcpOption)
    (hcodes : ∀ opt ∈ options, IsEntryCode opt.code) (buffer : List UInt8) :
    (optionsSize options ≤ buffer.length ↔ ∃ area len, optionsWrite buffer options = .ok (area, len)) ∧
    (buffer.length < optionsSize options → optionsWrite buffer options = .error .enospc) ∧
    ∀ area len, optionsWrite buffer options = .ok (area, len) →
      len = optionsSize options ∧ area.length = buffer.length ∧ area.drop len = buffer.drop len ∧
      ∀ code, IsEntryCode code → ∀ rest,
        optionsFind (area.take len ++ rest) code = firstOption options code := by
  have hwrite := optionsWrite_eq buffer options
  refine ⟨⟨fun hfit => ?_, fun ⟨area, len, hok⟩ => ?_⟩, fun hshort => ?_, fun area len hok => ?_⟩
  · rw [hwrite, if_pos hfit]
    exact ⟨_, _, rfl⟩
  · by_contra hshort
    rw [hwrite, if_neg hshort] at hok
    cases hok
  · rw [hwrite, if_neg (by omega)]
  · by_cases hfit : optionsSize options ≤ buffer.length
    · rw [hwrite, if_pos hfit] at hok
      obtain ⟨rfl, rfl⟩ := Prod.mk.inj (Except.ok.inj hok)
      refine ⟨rfl, ?_, ?_, fun code _ rest => ?_⟩
      · rw [List.length_append, encodeOptions_length, List.length_drop]
        omega
      · rw [← encodeOptions_length, List.drop_left]
      · rw [show (encodeOptions options ++ buffer.drop (optionsSize options)).take
            (optionsSize options) = encodeOptions options from by
          rw [← encodeOptions_length, List.take_left]]
        exact optionsFind_encodeOptions options hcodes code rest
    · rw [hwrite, if_neg hfit] at hok
      cases hok

/-- Options with data bytes that look like END, a code and PAD, one of them empty and one code
twice, in a buffer they fill exactly. -/
def lookalikeOptions : List DhcpOption :=
  [⟨53, [255], by decide⟩, ⟨50, [54, 4, 0, 255], by decide⟩, ⟨12, [], by decide⟩,
    ⟨53, [2], by decide⟩]

/-- The round trip on that buffer, with bytes of another option behind it. -/
theorem options_round_trip_lookalike :
    (∀ opt ∈ lookalikeOptions, IsEntryCode opt.code) ∧
      ∃ area, optionsWrite (List.replicate 15 7) lookalikeOptions = .ok (area, 15) ∧
        optionsFind (area.take 15 ++ [54, 1, 9]) 53 = .ok ⟨53, [255], by decide⟩ ∧
        optionsFind (area.take 15 ++ [54, 1, 9]) 54 = .error .enoent := by
  have hcodes : ∀ opt ∈ lookalikeOptions, IsEntryCode opt.code := by decide
  have h := options_round_trip lookalikeOptions hcodes (List.replicate 15 7)
  obtain ⟨area, len, hok⟩ := h.1.mp (by decide)
  obtain ⟨hlen, -, -, hfind⟩ := h.2.2 area len hok
  have hfifteen : len = 15 := hlen
  rw [hfifteen] at hok hfind
  refine ⟨hcodes, area, hok, ?_, ?_⟩
  · rw [hfind 53 (by decide)]
    rfl
  · rw [hfind 54 (by decide)]
    rfl

end Dmdhcp
