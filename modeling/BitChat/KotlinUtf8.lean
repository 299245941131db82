import BitChat.KotlinText
import Mathlib.Data.List.DropRight

/-!
# Decoding UTF-8 on the Kotlin side

`String(bytes, Charsets.UTF_8)` reads one byte at a time and puts a
replacement character for every maximal piece of a sequence that cannot be
completed. Texts that were encoded with `utf8` come back as they were, except
that a surrogate without its partner has become a question mark.
-/

namespace BitChat.KotlinUtf8

open BitChat.KotlinText

set_option autoImplicit false

/-- The sequence under way: its code point so far, how many bytes it still
needs, and the range of the next one. -/
structure Decoder where
  code : Nat
  needed : Nat
  lower : Nat
  upper : Nat
deriving DecidableEq

def between : Decoder := ⟨0, 0, 0x80, 0xBF⟩

def replacement : UInt16 := 0xFFFD

def unitsOf (code : Nat) : KotlinString :=
  if code < 0x10000 then [UInt16.ofNat code]
  else
    [UInt16.ofNat (0xD800 + (code - 0x10000) / 0x400),
      UInt16.ofNat (0xDC00 + (code - 0x10000) % 0x400)]

def lead (byte : Nat) : KotlinString × Decoder :=
  if byte < 0x80 then ([UInt16.ofNat byte], between)
  else if byte < 0xC2 then ([replacement], between)
  else if byte < 0xE0 then ([], ⟨byte - 0xC0, 1, 0x80, 0xBF⟩)
  else if byte < 0xF0 then
    ([], ⟨byte - 0xE0, 2, if byte = 0xE0 then 0xA0 else 0x80, if byte = 0xED then 0x9F else 0xBF⟩)
  else if byte < 0xF5 then
    ([], ⟨byte - 0xF0, 3, if byte = 0xF0 then 0x90 else 0x80, if byte = 0xF4 then 0x8F else 0xBF⟩)
  else ([replacement], between)

def feed (decoder : Decoder) (byte : Nat) : KotlinString × Decoder :=
  match decoder.needed with
  | 0 => lead byte
  | more + 1 =>
      if decoder.lower ≤ byte ∧ byte ≤ decoder.upper then
        let code := decoder.code * 64 + (byte - 0x80)
        match more with
        | 0 => (unitsOf code, between)
        | _ => ([], ⟨code, more, 0x80, 0xBF⟩)
      else
        -- The piece read so far is replaced, and the byte starts anew.
        (replacement :: (lead byte).1, (lead byte).2)

def decodeFrom : Decoder → List UInt8 → KotlinString
  | decoder, [] => if decoder.needed = 0 then [] else [replacement]
  | decoder, byte :: rest =>
      (feed decoder byte.toNat).1 ++ decodeFrom (feed decoder byte.toNat).2 rest

/-- `String(bytes, Charsets.UTF_8)`. -/
def stringOf (bytes : List UInt8) : KotlinString := decodeFrom between bytes

/-- `String.trim()`. -/
def trim (s : KotlinString) : KotlinString := (s.dropWhile isWhitespace).rdropWhile isWhitespace

def isSurrogate (c : UInt16) : Bool := isHighSurrogate c || isLowSurrogate c

def unpaired (c : UInt16) : UInt16 := if isSurrogate c then 0x3F else c

/-- The text with a question mark for every lone surrogate. -/
def sanitize : KotlinString → KotlinString
  | [] => []
  | [c] => [unpaired c]
  | c :: next :: rest =>
      if isHighSurrogate c && isLowSurrogate next then c :: next :: sanitize rest
      else unpaired c :: sanitize (next :: rest)

def WellFormed (s : KotlinString) : Prop := sanitize s = s

section Sequences

theorem decode_step (decoder : Decoder) {value : Nat} (small : value < 256) (rest : List UInt8) :
    decodeFrom decoder (UInt8.ofNat value :: rest) =
      (feed decoder value).1 ++ decodeFrom (feed decoder value).2 rest := by
  rw [decodeFrom, UInt8.toNat_ofNat_of_lt' small]

theorem decode_more {code more lower upper value : Nat} (low : lower ≤ 0x80 + value)
    (high : 0x80 + value ≤ upper) (small : value < 64) (rest : List UInt8) :
    decodeFrom ⟨code, more + 2, lower, upper⟩ (UInt8.ofNat (0x80 + value) :: rest) =
      decodeFrom ⟨code * 64 + value, more + 1, 0x80, 0xBF⟩ rest := by
  rw [decode_step _ (by omega)]
  simp only [feed, low, high, and_self, if_true, List.nil_append, Nat.add_sub_cancel_left]

theorem decode_last {code lower upper value : Nat} (low : lower ≤ 0x80 + value)
    (high : 0x80 + value ≤ upper) (small : value < 64) (rest : List UInt8) :
    decodeFrom ⟨code, 1, lower, upper⟩ (UInt8.ofNat (0x80 + value) :: rest) =
      unitsOf (code * 64 + value) ++ decodeFrom between rest := by
  rw [decode_step _ (by omega)]
  simp only [feed, low, high, and_self, if_true, Nat.add_sub_cancel_left]

theorem decode_ascii {c : UInt16} (ascii : c < 0x80) (rest : List UInt8) :
    decodeFrom between (c.toUInt8 :: rest) = c :: decodeFrom between rest := by
  have bound : c.toNat < 0x80 := UInt16.lt_iff_toNat_lt.mp ascii
  have value : c.toUInt8.toNat = c.toNat := by
    rw [UInt16.toNat_toUInt8]
    omega
  rw [decodeFrom, value]
  simp [feed, between, lead, bound]

theorem decode_two {c : UInt16} (lower : 0x80 ≤ c.toNat) (upper : c.toNat < 0x800)
    (rest : List UInt8) :
    decodeFrom between
        ([UInt8.ofNat (0xC0 + c.toNat / 64), UInt8.ofNat (0x80 + c.toNat % 64)] ++ rest) =
      c :: decodeFrom between rest := by
  have first : feed between (0xC0 + c.toNat / 64) = ([], ⟨c.toNat / 64, 1, 0x80, 0xBF⟩) := by
    simp only [feed, between, lead]
    rw [if_neg (by omega), if_neg (by omega), if_pos (by omega), Nat.add_sub_cancel_left]
  have whole : c.toNat / 64 * 64 + c.toNat % 64 = c.toNat := by omega
  rw [List.cons_append, List.cons_append, List.nil_append, decode_step _ (by omega), first,
    List.nil_append, decode_last (by omega) (by omega) (by omega), whole, unitsOf,
    if_pos (by omega)]
  simp

/-- Three bytes stand for a unit of the basic plane that is no surrogate: the
range of the second byte leaves the surrogates out. -/
theorem decode_three {c : UInt16} (lower : 0x800 ≤ c.toNat)
    (plain : c.toNat < 0xD800 ∨ 0xE000 ≤ c.toNat) (rest : List UInt8) :
    decodeFrom between
        ([UInt8.ofNat (0xE0 + c.toNat / 2 ^ 12), UInt8.ofNat (0x80 + c.toNat / 64 % 64),
          UInt8.ofNat (0x80 + c.toNat % 64)] ++ rest) =
      c :: decodeFrom between rest := by
  have bound := c.toNat_lt
  have high : c.toNat / 2 ^ 12 < 16 := by omega
  have first : feed between (0xE0 + c.toNat / 2 ^ 12) =
      ([], ⟨c.toNat / 2 ^ 12, 2, if 0xE0 + c.toNat / 2 ^ 12 = 0xE0 then 0xA0 else 0x80,
        if 0xE0 + c.toNat / 2 ^ 12 = 0xED then 0x9F else 0xBF⟩) := by
    simp only [feed, between, lead]
    rw [if_neg (by omega), if_neg (by omega), if_neg (by omega), if_pos (by omega),
      Nat.add_sub_cancel_left]
  have whole : (c.toNat / 2 ^ 12 * 64 + c.toNat / 64 % 64) * 64 + c.toNat % 64 = c.toNat := by
    omega
  rw [List.cons_append, List.cons_append, List.cons_append, List.nil_append,
    decode_step _ (by omega), first, List.nil_append,
    decode_more (by split_ifs <;> omega) (by split_ifs <;> omega) (by omega),
    decode_last (by omega) (by omega) (by omega), whole, unitsOf, if_pos (by omega)]
  simp

theorem decode_pair {high low : UInt16} (isHigh : isHighSurrogate high = true)
    (isLow : isLowSurrogate low = true) (rest : List UInt8) :
    decodeFrom between (utf8Pair high low ++ rest) =
      high :: low :: decodeFrom between rest := by
  simp only [isHighSurrogate, isLowSurrogate, Bool.and_eq_true, decide_eq_true_eq,
    UInt16.le_iff_toNat_le, UInt16.lt_iff_toNat_lt] at isHigh isLow
  have highLower : 0xD800 ≤ high.toNat := isHigh.1
  have highUpper : high.toNat < 0xDC00 := isHigh.2
  have lowLower : 0xDC00 ≤ low.toNat := isLow.1
  have lowUpper : low.toNat < 0xE000 := isLow.2
  obtain ⟨code, isCode⟩ :
      ∃ code, code = 0x10000 + (high.toNat - 0xD800) * 0x400 + (low.toNat - 0xDC00) := ⟨_, rfl⟩
  have first : feed between (0xF0 + code / 2 ^ 18) =
      ([], ⟨code / 2 ^ 18, 3, if 0xF0 + code / 2 ^ 18 = 0xF0 then 0x90 else 0x80,
        if 0xF0 + code / 2 ^ 18 = 0xF4 then 0x8F else 0xBF⟩) := by
    simp only [feed, between, lead]
    rw [if_neg (by omega), if_neg (by omega), if_neg (by omega), if_neg (by omega),
      if_pos (by omega), Nat.add_sub_cancel_left]
  have whole : ((code / 2 ^ 18 * 64 + code / 2 ^ 12 % 64) * 64 + code / 64 % 64) * 64 + code % 64 =
      code := by
    omega
  have highUnit : 0xD800 + (code - 0x10000) / 0x400 = high.toNat := by omega
  have lowUnit : 0xDC00 + (code - 0x10000) % 0x400 = low.toNat := by omega
  simp only [utf8Pair, ← isCode]
  rw [List.cons_append, List.cons_append, List.cons_append, List.cons_append, List.nil_append,
    decode_step _ (by omega), first, List.nil_append,
    decode_more (by split_ifs <;> omega) (by split_ifs <;> omega) (by omega),
    decode_more (by omega) (by omega) (by omega),
    decode_last (by omega) (by omega) (by omega), whole, unitsOf, if_neg (by omega), highUnit,
    lowUnit]
  simp

theorem decode_unit (c : UInt16) (rest : List UInt8) :
    decodeFrom between (utf8Unit c ++ rest) = unpaired c :: decodeFrom between rest := by
  have surrogate : isSurrogate c = true ↔ 0xD800 ≤ c.toNat ∧ c.toNat < 0xE000 := by
    simp only [isSurrogate, isHighSurrogate, isLowSurrogate, Bool.or_eq_true, Bool.and_eq_true,
      decide_eq_true_eq, UInt16.le_iff_toNat_le, UInt16.lt_iff_toNat_lt]
    show (0xD800 ≤ c.toNat ∧ c.toNat < 0xDC00) ∨ (0xDC00 ≤ c.toNat ∧ c.toNat < 0xE000) ↔ _
    omega
  by_cases ascii : c < 0x80
  · have bound : c.toNat < 0x80 := UInt16.lt_iff_toNat_lt.mp ascii
    have plain : ¬ isSurrogate c = true := by
      rw [surrogate]
      omega
    rw [utf8Unit, if_pos ascii, unpaired, if_neg plain]
    exact decode_ascii ascii rest
  · have above : 0x80 ≤ c.toNat :=
      Nat.le_of_not_lt fun small => ascii (UInt16.lt_iff_toNat_lt.mpr small)
    rw [utf8Unit, if_neg ascii]
    split_ifs with two lone
    · have bound : c.toNat < 0x800 := UInt16.lt_iff_toNat_lt.mp two
      have plain : ¬ isSurrogate c = true := by
        rw [surrogate]
        omega
      rw [unpaired, if_neg plain]
      exact decode_two above bound rest
    · rw [unpaired, isSurrogate, if_pos lone]
      rfl
    · have large : 0x800 ≤ c.toNat :=
        Nat.le_of_not_lt fun small => two (UInt16.lt_iff_toNat_lt.mpr small)
      have plain : ¬ isSurrogate c = true := lone
      rw [unpaired, if_neg plain]
      rw [surrogate] at plain
      exact decode_three large (by omega) rest

theorem string_of_utf8 (s : KotlinString) : stringOf (utf8 s) = sanitize s := by
  unfold stringOf
  induction s using sanitize.induct with
  | case1 => rfl
  | case2 c =>
      have unit := decode_unit c []
      rw [List.append_nil] at unit
      rw [utf8, sanitize, unit]
      rfl
  | case3 c next rest paired ih =>
      rw [Bool.and_eq_true] at paired
      rw [utf8, sanitize, if_pos (by rw [Bool.and_eq_true]; exact paired),
        if_pos (by rw [Bool.and_eq_true]; exact paired), decode_pair paired.1 paired.2, ih]
  | case4 c next rest alone ih =>
      rw [utf8, sanitize, if_neg alone, if_neg alone, decode_unit, ih]

end Sequences

section Trimming

theorem plain_of_whitespace {c : UInt16} (white : isWhitespace c = true) :
    isHighSurrogate c = false ∧ isLowSurrogate c = false := by
  simp only [isWhitespace, Bool.or_eq_true, Bool.and_eq_true, decide_eq_true_eq, beq_iff_eq,
    UInt16.le_iff_toNat_le, ← UInt16.toNat_inj] at white
  simp only [isHighSurrogate, isLowSurrogate, Bool.and_eq_false_iff, decide_eq_false_iff_not,
    UInt16.le_iff_toNat_le, UInt16.lt_iff_toNat_lt]
  have below : c.toNat < 0xD800 := by
    simp at white
    omega
  exact ⟨.inl (Nat.not_le.mpr below), .inl (Nat.not_le.mpr (Nat.lt_trans below (by decide)))⟩

theorem unpaired_whitespace {c : UInt16} (white : isWhitespace c = true) : unpaired c = c := by
  obtain ⟨notHigh, notLow⟩ := plain_of_whitespace white
  rw [unpaired, isSurrogate, notHigh, notLow]
  rfl

theorem sanitize_whitespace_cons {c : UInt16} (white : isWhitespace c = true)
    (rest : KotlinString) : sanitize (c :: rest) = c :: sanitize rest := by
  cases rest with
  | nil => simp only [sanitize, unpaired_whitespace white]
  | cons next rest =>
      rw [sanitize, (plain_of_whitespace white).1, Bool.false_and, if_neg Bool.false_ne_true,
        unpaired_whitespace white]

theorem sanitize_whitespace_snoc {c : UInt16} (white : isWhitespace c = true) (s : KotlinString) :
    sanitize (s ++ [c]) = sanitize s ++ [c] := by
  induction s using sanitize.induct with
  | case1 => exact sanitize_whitespace_cons white []
  | case2 first =>
      simp only [List.cons_append, List.nil_append, sanitize, (plain_of_whitespace white).2,
        Bool.and_false, Bool.false_eq_true, if_false, unpaired_whitespace white]
  | case3 first next rest paired ih =>
      rw [List.cons_append, List.cons_append, sanitize, sanitize, if_pos paired, if_pos paired, ih]
      rfl
  | case4 first next rest alone ih =>
      rw [List.cons_append] at ih
      rw [List.cons_append, List.cons_append, sanitize, sanitize, if_neg alone, if_neg alone, ih]
      rfl

theorem WellFormed.drop_white {s : KotlinString} (formed : WellFormed s) :
    WellFormed (s.dropWhile isWhitespace) := by
  induction s with
  | nil => exact formed
  | cons c rest ih =>
      rw [List.dropWhile_cons]
      split_ifs with white
      · rw [WellFormed, sanitize_whitespace_cons white] at formed
        exact ih (List.cons.inj formed).2
      · exact formed

theorem WellFormed.rdrop_white {s : KotlinString} (formed : WellFormed s) :
    WellFormed (s.rdropWhile isWhitespace) := by
  induction s using List.reverseRecOn with
  | nil => exact formed
  | append_singleton rest c ih =>
      rw [List.rdropWhile_concat]
      split_ifs with white
      · rw [WellFormed, sanitize_whitespace_snoc white] at formed
        exact ih (List.append_cancel_right formed)
      · exact formed

theorem WellFormed.trim {s : KotlinString} (formed : WellFormed s) : WellFormed (trim s) :=
  formed.drop_white.rdrop_white

theorem trim_ne_nil {s : KotlinString} (notBlank : isNotBlank s = true) : trim s ≠ [] := by
  intro empty
  have allWhite : ∀ c ∈ s.dropWhile isWhitespace, isWhitespace c = true :=
    List.rdropWhile_eq_nil_iff.mp empty
  have blank : s.all isWhitespace = true := by
    cases dropped : s.dropWhile isWhitespace with
    | nil => exact List.all_eq_true.mpr (List.dropWhile_eq_nil_iff.mp dropped)
    | cons c rest =>
        have stays := List.head_dropWhile_not isWhitespace (by rw [dropped]; nofun)
        rw [allWhite _ (List.head_mem _)] at stays
        cases stays
  rw [isNotBlank, blank] at notBlank
  cases notBlank

theorem utf8_ne_nil {s : KotlinString} (nonempty : s ≠ []) : utf8 s ≠ [] := by
  intro empty
  have back := string_of_utf8 s
  rw [empty] at back
  cases s with
  | nil => exact nonempty rfl
  | cons c rest =>
      cases rest with
      | nil => cases back
      | cons next rest =>
          rw [sanitize] at back
          split_ifs at back <;> cases back

end Trimming

end BitChat.KotlinUtf8
