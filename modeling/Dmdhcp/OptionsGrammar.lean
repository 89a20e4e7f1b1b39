import Dmdhcp.Lib.Loop
import Dmdhcp.OptionsCodec

/-!
# The grammar of an options area

A reading of the options area by recursion on its bytes, and the index loop of
`dmdhcp_options_find` against it.  The loop never runs past the area, always comes to an end, and
finds what the reading lists.
-/

namespace Dmdhcp

/-! ## 1. The reference reading -/

/-- What an options area says: its entries up to the place where it stops, and whether it stops
there because an entry is truncated. -/
structure Reading where
  entries : List DhcpOption
  malformed : Bool
  deriving DecidableEq, Repr

/-- The entry with the first `length` bytes of `tail` as its data. -/
def leadingEntry (code length : UInt8) (tail : List UInt8) : DhcpOption where
  code
  data := tail.take length.toNat
  fits := by
    have hlen := length.toNat_lt
    rw [List.length_take]
    omega

/-- PAD is skipped, END ends the area, and everything else is an entry with a length byte. -/
def reading (bytes : List UInt8) : Reading :=
  match bytes with
  | [] => ⟨[], false⟩
  | code :: rest =>
    if code = optPad then reading rest
    else if code = optEnd then ⟨[], false⟩
    else
      match rest with
      | [] => ⟨[], true⟩
      | length :: tail =>
        if tail.length < length.toNat then ⟨[], true⟩
        else
          ⟨leadingEntry code length tail :: (reading (tail.drop length.toNat)).entries,
            (reading (tail.drop length.toNat)).malformed⟩
termination_by bytes.length
decreasing_by
  · exact Nat.lt_succ_self rest.length
  · rw [List.length_drop, List.length_cons, List.length_cons]
    omega

/-- What a search is to find: the first entry of the code, or why there is none. -/
def Reading.find (r : Reading) (code : UInt8) : Except Errno DhcpOption :=
  match r.entries.find? fun opt => opt.code == code with
  | some opt => .ok opt
  | none => if r.malformed then .error .eproto else .error .enoent

section
variable (rest tail : List UInt8) {code length : UInt8}

theorem reading_nil : reading [] = ⟨[], false⟩ := by
  rw [reading]

theorem reading_pad : reading (optPad :: rest) = reading rest := by
  rw [reading.eq_def]
  exact if_pos rfl

theorem reading_end : reading (optEnd :: rest) = ⟨[], false⟩ := by
  rw [reading.eq_def]
  exact (if_neg (by decide)).trans (if_pos rfl)

theorem reading_noLength (h : IsEntryCode code) : reading [code] = ⟨[], true⟩ := by
  rw [reading, if_neg h.1, if_neg h.2]

theorem reading_truncated (h : IsEntryCode code) (hlen : tail.length < length.toNat) :
    reading (code :: length :: tail) = ⟨[], true⟩ := by
  rw [reading, if_neg h.1, if_neg h.2]
  exact if_pos hlen

theorem reading_entry (h : IsEntryCode code) (hlen : length.toNat ≤ tail.length) :
    reading (code :: length :: tail) =
      ⟨leadingEntry code length tail :: (reading (tail.drop length.toNat)).entries,
        (reading (tail.drop length.toNat)).malformed⟩ := by
  rw [reading, if_neg h.1, if_neg h.2]
  exact if_neg (by omega)

end

/-! ## 2. The loop, turn by turn -/

/-- `dmdhcp_option_t` as `dmdhcp_options_find` fills it in; `data` is an index into the area. -/
structure OptionRef where
  code : UInt8
  length : UInt8
  data : Nat
  deriving DecidableEq, Repr

/-- The option with the bytes that `data` points to. -/
def OptionRef.read (options : List UInt8) (ref : OptionRef) : DhcpOption :=
  leadingEntry ref.code ref.length (options.drop ref.data)

/-- One turn of the loop of `dmdhcp_options_find`: the next `pos`, or what is returned. -/
def findTurn (options : List UInt8) (code : UInt8) (pos : Nat) : Nat ⊕ Except Errno OptionRef :=
  if hpos : pos < options.length then
    let entryCode := options[pos]
    if entryCode = optPad then .inl (pos + 1)
    else if entryCode = optEnd then .inr (.error .enoent)
    else if hlen : pos + 1 < options.length then
      let entryLen := options[pos + 1]
      if pos + 2 + entryLen.toNat > options.length then .inr (.error .eproto)
      else if entryCode = code then .inr (.ok ⟨entryCode, entryLen, pos + 2⟩)
      else .inl (pos + 2 + entryLen.toNat)
    else .inr (.error .eproto)
  else .inr (.error .enoent)

section
variable (options : List UInt8) (code : UInt8)

-- The turn says what the scan does next.
theorem optionsFindFrom_succ (fuel pos : Nat) : optionsFindFrom options code (fuel + 1) pos =
    match findTurn options code pos with
    | .inl next => optionsFindFrom options code fuel next
    | .inr result => result.map (OptionRef.read options) := by
  rw [optionsFindFrom, findTurn]
  dsimp only
  split_ifs <;> rfl

/-- A turn as a step of the reading: what stands at `pos`, and what the loop does about it. -/
inductive Turn (options : List UInt8) (code : UInt8) (pos : Nat) :
    Nat ⊕ Except Errno OptionRef → Prop
  | done : options.drop pos = [] → Turn options code pos (.inr (.error .enoent))
  | pad {rest : List UInt8} : options.drop pos = optPad :: rest →
      Turn options code pos (.inl (pos + 1))
  | stop {rest : List UInt8} : options.drop pos = optEnd :: rest →
      Turn options code pos (.inr (.error .enoent))
  | noLength {c : UInt8} : IsEntryCode c → options.drop pos = [c] →
      Turn options code pos (.inr (.error .eproto))
  | truncated {c n : UInt8} {tail : List UInt8} : IsEntryCode c →
      options.drop pos = c :: n :: tail → tail.length < n.toNat →
      Turn options code pos (.inr (.error .eproto))
  | found {n : UInt8} {tail : List UInt8} : IsEntryCode code →
      options.drop pos = code :: n :: tail → n.toNat ≤ tail.length →
      Turn options code pos (.inr (.ok ⟨code, n, pos + 2⟩))
  | skipped {c n : UInt8} {tail : List UInt8} : IsEntryCode c → c ≠ code →
      options.drop pos = c :: n :: tail → n.toNat ≤ tail.length →
      Turn options code pos (.inl (pos + 2 + n.toNat))

theorem findTurn_cases (pos : Nat) : Turn options code pos (findTurn options code pos) := by
  unfold findTurn
  split
  next hpos =>
    have hdrop := List.drop_eq_getElem_cons hpos
    dsimp only
    split
    next hpad => exact .pad (hdrop.trans (by rw [hpad]))
    next hpad =>
      split
      next hend => exact .stop (hdrop.trans (by rw [hend]))
      next hend =>
        have hcode : IsEntryCode options[pos] := ⟨hpad, hend⟩
        split
        next hlen =>
          have hdrop' := hdrop.trans (congrArg _ (List.drop_eq_getElem_cons hlen))
          have htail : (options.drop (pos + 1 + 1)).length = options.length - (pos + 2) :=
            List.length_drop
          split
          next hshort => exact .truncated hcode hdrop' (by omega)
          next hfits =>
            split
            next hfound =>
              rw [hfound] at hcode hdrop' ⊢
              exact .found hcode hdrop' (by omega)
            next hother => exact .skipped hcode hother hdrop' (by omega)
        next hlen =>
          exact .noLength hcode (hdrop.trans (by rw [List.drop_eq_nil_of_le (by omega)]))
  next hpos => exact .done (List.drop_eq_nil_of_le (by omega))

/-! ## 3. The loop decides the grammar -/

-- What stands behind the length byte at `pos + 1`.
theorem drop_entry {options tail : List UInt8} {c n : UInt8} {pos : Nat}
    (h : options.drop pos = c :: n :: tail) :
    options.drop (pos + 2) = tail ∧ options.length = pos + 2 + tail.length := by
  have hlength := congrArg List.length h
  rw [List.length_drop, List.length_cons, List.length_cons] at hlength
  refine ⟨?_, by omega⟩
  rw [← List.drop_drop, h]
  rfl

/-- The result agrees with the reading from `pos` on, and an option that it hands out lies inside
the area. -/
def Answers (pos : Nat) (r : Except Errno OptionRef) : Prop :=
  r.map (OptionRef.read options) = (reading (options.drop pos)).find code ∧
    ∀ ref, r = .ok ref → ref.data + ref.length.toNat ≤ options.length

-- Where the loop stops, it returns what the reading from there on has to say.
theorem answers_of_stop {pos : Nat} {r : Except Errno OptionRef}
    (h : Turn options code pos (.inr r)) : Answers options code pos r := by
  unfold Answers
  cases h with
  | done hdrop =>
    rw [hdrop, reading_nil]
    exact ⟨rfl, by rintro ref ⟨⟩⟩
  | stop hdrop =>
    rw [hdrop, reading_end]
    exact ⟨rfl, by rintro ref ⟨⟩⟩
  | noLength hc hdrop =>
    rw [hdrop, reading_noLength hc]
    exact ⟨rfl, by rintro ref ⟨⟩⟩
  | truncated hc hdrop hlen =>
    rw [hdrop, reading_truncated _ hc hlen]
    exact ⟨rfl, by rintro ref ⟨⟩⟩
  | @found n tail hc hdrop hlen =>
    obtain ⟨htail, hlength⟩ := drop_entry hdrop
    rw [hdrop, reading_entry _ hc hlen]
    constructor
    · rw [Reading.find, List.find?_cons_of_pos (by exact beq_self_eq_true code)]
      show Except.ok (leadingEntry code n (options.drop (pos + 2))) = _
      rw [htail]
    · rintro ref ⟨⟩
      show pos + 2 + n.toNat ≤ options.length
      omega

-- Where it goes on, the reading from the next `pos` has the same to say, and some bytes are behind.
theorem find_of_again {pos next : Nat} (h : Turn options code pos (.inl next)) :
    (reading (options.drop next)).find code = (reading (options.drop pos)).find code ∧
      options.length - next < options.length - pos := by
  cases h with
  | @pad rest hdrop =>
    have htail : options.drop (pos + 1) = rest := by
      rw [← List.drop_drop, hdrop]
      rfl
    have hlength := congrArg List.length hdrop
    rw [List.length_drop, List.length_cons] at hlength
    rw [htail, hdrop, reading_pad]
    exact ⟨rfl, by omega⟩
  | @skipped c n tail hc hother hdrop hlen =>
    obtain ⟨htail, hlength⟩ := drop_entry hdrop
    constructor
    · rw [← List.drop_drop, htail, hdrop, reading_entry _ hc hlen, Reading.find, Reading.find,
        List.find?_cons_of_neg (by simpa [leadingEntry] using hother)]
    · omega

-- The loop ends from everywhere in the area, with what the reading lists.
theorem findTurn_returns (pos : Nat) :
    ∃ r, Loop.Returns (findTurn options code) pos r ∧ Answers options code pos r := by
  refine Loop.exists_returns (fun pos => options.length - pos) (Answers options code)
    (fun pos r hturn => ?_) (fun pos next hturn => ?_) pos
  · have hcases := findTurn_cases options code pos
    rw [hturn] at hcases
    exact answers_of_stop options code hcases
  · have hcases := findTurn_cases options code pos
    rw [hturn] at hcases
    obtain ⟨hsame, hless⟩ := find_of_again options code hcases
    exact ⟨hless, fun r hr => ⟨hr.1.trans hsame, hr.2⟩⟩

-- As many turns as there are bytes left are enough.
theorem optionsFindFrom_of_returns {pos : Nat} {r : Except Errno OptionRef}
    (h : Loop.Returns (findTurn options code) pos r) (fuel : Nat)
    (hfuel : options.length - pos ≤ fuel) :
    optionsFindFrom options code fuel pos = r.map (OptionRef.read options) := by
  induction h generalizing fuel with
  | @stop pos r hturn =>
    cases fuel with
    | zero =>
      -- No bytes are left, so the loop condition fails as well.
      rw [findTurn, dif_neg (by omega)] at hturn
      cases hturn
      rfl
    | succ fuel => rw [optionsFindFrom_succ, hturn]
  | @again pos next r hturn hreturns ih =>
    have hcases := findTurn_cases options code pos
    rw [hturn] at hcases
    have hless := (find_of_again options code hcases).2
    cases fuel with
    | zero => omega
    | succ fuel =>
      rw [optionsFindFrom_succ, hturn]
      exact ih fuel (by omega)

/-- **The search follows the reading.** -/
theorem optionsFind_eq : optionsFind options code = (reading options).find code := by
  obtain ⟨r, hreturns, hread, -⟩ := findTurn_returns options code 0
  rw [optionsFind, optionsFindFrom_of_returns options code hreturns _ (Nat.sub_le _ _), hread,
    List.drop_zero]

end

-- A longer area lists at least the same entries.
theorem reading_append (options rest : List UInt8) :
    (reading options).entries <+: (reading (options ++ rest)).entries := by
  induction options using reading.induct with
  | case1 =>
    rw [reading_nil]
    exact List.nil_prefix
  | case2 tail ih =>
    rw [List.cons_append, reading_pad, reading_pad]
    exact ih
  | case3 tail =>
    rw [reading_end]
    exact List.nil_prefix
  | case4 code hpad hend =>
    rw [reading_noLength ⟨hpad, hend⟩]
    exact List.nil_prefix
  | case5 code hpad hend length tail hlen =>
    rw [reading_truncated _ ⟨hpad, hend⟩ hlen]
    exact List.nil_prefix
  | case6 code hpad hend length tail hlen ih =>
    have hfits : length.toNat ≤ tail.length := by omega
    have hentry : leadingEntry code length (tail ++ rest) = leadingEntry code length tail := by
      simp only [leadingEntry, List.take_append_of_le_length hfits]
    rw [List.cons_append, List.cons_append, reading_entry _ ⟨hpad, hend⟩ hfits,
      reading_entry _ ⟨hpad, hend⟩ (by rw [List.length_append]; omega), hentry,
      List.drop_append_of_le_length hfits]
    exact List.prefix_cons_inj _ |>.mpr ih

-- PAD and END are no entries.
theorem reading_codes (options : List UInt8) :
    ∀ opt ∈ (reading options).entries, IsEntryCode opt.code := by
  induction options using reading.induct with
  | case1 => simp [reading_nil]
  | case2 tail ih => rwa [reading_pad]
  | case3 tail => simp [reading_end]
  | case4 code hpad hend => simp [reading_noLength ⟨hpad, hend⟩]
  | case5 code hpad hend length tail hlen => simp [reading_truncated _ ⟨hpad, hend⟩ hlen]
  | case6 code hpad hend length tail hlen ih =>
    rw [reading_entry _ ⟨hpad, hend⟩ (by omega)]
    exact List.forall_mem_cons.mpr ⟨⟨hpad, hend⟩, ih⟩

-- What is found is an entry of the reading.
theorem optionsFind_ok {options : List UInt8} {code : UInt8} {opt : DhcpOption} :
    optionsFind options code = .ok opt ↔
      ((reading options).entries.find? fun opt => opt.code == code) = some opt := by
  rw [optionsFind_eq, Reading.find]
  split
  next found hfound => rw [hfound, Except.ok.injEq, Option.some.injEq]
  next hnone =>
    rw [hnone]
    split <;> simp

/-- **`dmdhcp_options_find` decides the grammar.**  Its loop ends; the result is the first entry of
the code in the reading, or says why there is none; the data it points to lies inside the area; it
never finds PAD or END; and what it finds it also finds in any longer area. -/
theorem options_find_decides (options : List UInt8) (code : UInt8) :
    (∃ r, Loop.Returns (findTurn options code) 0 r ∧
      optionsFind options code = r.map (OptionRef.read options) ∧
      ∀ ref, r = .ok ref → ref.data + ref.length.toNat ≤ options.length) ∧
    optionsFind options code = (reading options).find code ∧
    (code = optPad ∨ code = optEnd → ∀ opt, optionsFind options code ≠ .ok opt) ∧
    ∀ opt, optionsFind options code = .ok opt →
      ∀ rest, optionsFind (options ++ rest) code = .ok opt := by
  refine ⟨?_, optionsFind_eq options code, fun hcode opt hfound => ?_, fun opt hfound rest => ?_⟩
  · obtain ⟨r, hreturns, -, hinside⟩ := findTurn_returns options code 0
    exact ⟨r, hreturns, optionsFindFrom_of_returns options code hreturns _ (Nat.sub_le _ _), hinside⟩
  · have hfind := optionsFind_ok.mp hfound
    have hentry := reading_codes options opt (List.mem_of_find?_eq_some hfind)
    have hsame : opt.code = code := by simpa using List.find?_some hfind
    rw [hsame] at hentry
    exact hcode.elim hentry.1 hentry.2
  · rw [optionsFind_ok] at hfound ⊢
    exact (reading_append options rest).find?_eq_some hfound

/-- PADs before an entry, and an entry of another code behind END. -/
theorem options_find_decides_padded :
    optionsFind [0, 0, 53, 1, 5, 255, 99, 1, 1] 53 = .ok ⟨53, [5], by decide⟩ ∧
      optionsFind ([0, 0, 53, 1, 5, 255, 99, 1, 1] ++ [53, 1, 2]) 53 = .ok ⟨53, [5], by decide⟩ ∧
      optionsFind [0, 0, 53, 1, 5, 255, 99, 1, 1] 255 ≠ .ok ⟨255, [], by decide⟩ := by
  have hfound : optionsFind [0, 0, 53, 1, 5, 255, 99, 1, 1] 53 = .ok ⟨53, [5], by decide⟩ := by
    decide
  exact ⟨hfound, (options_find_decides _ 53).2.2.2 _ hfound [53, 1, 2],
    (options_find_decides _ 255).2.2.1 (.inr rfl) _⟩

end Dmdhcp
