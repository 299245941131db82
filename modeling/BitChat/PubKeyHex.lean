import BitChat.KotlinText

/-!
# The two readers of a public key in hexadecimal

Transcription of `PubKeyUtils.fromHex` and `toHex`, of their callers in the
view models, and of `hex_to_bytes` of the command line. The command line
checks every character. The app hands each pair of units to
`Integer.parseInt`, which also takes a sign in front of one digit and digits
of other scripts.
-/

namespace BitChat.PubKeyHex

open BitChat.KotlinText

set_option autoImplicit false

/-! ### The app -/

/-- The loop over the pairs; `toByte` keeps the low eight bits. -/
def fromHexLoop : KotlinString → Option (List UInt8)
  | a :: b :: rest =>
      (toInt16 [a, b]).bind fun value =>
        (fromHexLoop rest).map fun bytes => UInt8.ofInt value :: bytes
  | _ => some []

/-- `none` where the source throws. -/
def fromHex (hex : KotlinString) : Option (List UInt8) :=
  if hex.length % 2 ≠ 0 then none else fromHexLoop hex

def hexUnit (value : Nat) : UInt16 :=
  if value < 10 then 0x30 + UInt16.ofNat value else 0x57 + UInt16.ofNat value

/-- Each byte formatted with `%02x`. -/
def toHex (pubKey : List UInt8) : KotlinString :=
  pubKey.flatMap fun byte => [hexUnit (byte.toNat / 16), hexUnit (byte.toNat % 16)]

def qrScheme : KotlinString := [0x62, 0x69, 0x74, 0x63, 0x68, 0x61, 0x74, 0x3A]

def removePrefix (s start : KotlinString) : KotlinString :=
  if start.isPrefixOf s then s.drop start.length else s

def parseQrContent (rawValue : KotlinString) : Option KotlinString :=
  let hex := removePrefix rawValue qrScheme
  if hex.length ≠ 64 then none
  else
    match fromHex hex with
    | some _ => some hex
    | none => none

/-- `ContactsViewModel.addContact`: the key it adds, `none` for `false`. -/
def addContact (pubKeyHex : KotlinString) : Option (List UInt8) :=
  if pubKeyHex.length ≠ 64 then none else fromHex pubKeyHex

def lowerUnit (c : UInt16) : UInt16 := if 0x41 ≤ c && c ≤ 0x5A then c + 0x20 else c

def lowercase (s : KotlinString) : KotlinString := s.map lowerUnit

/-! ### The command line -/

def isHexChar (c : UInt8) : Bool :=
  (0x30 ≤ c && c ≤ 0x39) || (0x61 ≤ c && c ≤ 0x66) || (0x41 ≤ c && c ≤ 0x46)

def hexCharValue (c : UInt8) : Nat :=
  if c ≤ 0x39 then c.toNat - 0x30 else if 0x61 ≤ c then c.toNat - 0x57 else c.toNat - 0x37

/-- The loop of `hex_to_bytes`. On two validated characters `sscanf` with
`%02x` reads both. -/
def hexLoop : List UInt8 → Nat → Option (List UInt8)
  | _, 0 => some []
  | a :: b :: rest, count + 1 =>
      if isHexChar a && isHexChar b then
        (hexLoop rest count).map fun bytes =>
          UInt8.ofNat (16 * hexCharValue a + hexCharValue b) :: bytes
      else none
  | _, _ + 1 => none

/-- `strlen` and the loop stop at the first zero byte. -/
def hexToBytes (hex : List UInt8) (outLen : Nat) : Option (List UInt8) :=
  let text := hex.takeWhile fun byte => byte ≠ 0
  if text.length ≠ outLen * 2 then none else hexLoop text outLen

/-! ### What each of them reads -/

def AsciiHex (c : UInt16) : Prop := c < 0x80 ∧ isHexChar c.toUInt8 = true

instance (c : UInt16) : Decidable (AsciiHex c) := inferInstanceAs (Decidable (_ ∧ _))

theorem ascii_forall {P : UInt16 → Prop} (each : ∀ n < 0x80, P (UInt16.ofNat n)) {c : UInt16}
    (ascii : c < 0x80) : P c := by
  have bound : c.toNat < 0x80 := UInt16.lt_iff_toNat_lt.mp ascii
  have result := each c.toNat bound
  rwa [UInt16.ofNat_toNat] at result

theorem ascii_hex_digit {c : UInt16} (hex : AsciiHex c) :
    digit c = some (hexCharValue c.toUInt8) ∧ ¬ c < 0x30 ∧ hexCharValue c.toUInt8 < 16 ∧
      hexUnit (hexCharValue c.toUInt8) = lowerUnit c ∧ c.toUInt8 ≠ 0 := by
  obtain ⟨ascii, isHex⟩ := hex
  revert isHex
  apply ascii_forall _ ascii
  decide +kernel

theorem digit_bound {c : UInt16} {value : Nat} (read : digit c = some value) : value < 16 := by
  unfold digit at read
  split at read
  · rename_i zero found
    have near := List.find?_some found
    simp only [Bool.and_eq_true, decide_eq_true_eq, UInt16.lt_iff_toNat_lt] at near
    have small : (c - zero).toNat < 10 := near.2
    rw [← Option.some.inj read]
    omega
  · split at read
    · rename_i letter found
      have near := List.find?_some found
      simp only [Bool.and_eq_true, decide_eq_true_eq, UInt16.lt_iff_toNat_lt] at near
      have small : (c - letter).toNat < 6 := near.2
      rw [← Option.some.inj read]
      omega
    · cases read

theorem digit_below {c : UInt16} (below : c < 0x30) : digit c = none := by
  have ascii : c < 0x80 := UInt16.lt_trans below (by decide)
  revert below
  apply ascii_forall _ ascii
  decide +kernel

theorem parse_loop_digit {limit result : Int} {c : UInt16} {value : Nat} (rest : KotlinString)
    (read : digit c = some value) (range : -16 < result ∧ result ≤ 0)
    (quotient : limit.tdiv 16 ≤ -16) (low : limit ≤ -512) :
    parseLoop limit (c :: rest) result = parseLoop limit rest (result * 16 - value) := by
  have small := digit_bound read
  have room : ¬ result < limit.tdiv 16 := by omega
  have fits : ¬ result * 16 < limit + value := by omega
  simp only [parseLoop, read, if_neg room, if_neg fits]

def ReadablePair (a b : UInt16) : Prop :=
  ((digit a).isSome = true ∨ a = 0x2B ∨ a = 0x2D) ∧ (digit b).isSome = true

theorem parse_one {limit : Int} {b : UInt16} (quotient : limit.tdiv 16 ≤ -16)
    (low : limit ≤ -512) :
    parseLoop limit [b] 0 = (digit b).map fun value : Nat => -(value : Int) := by
  cases read : digit b with
  | none => simp [parseLoop, read]
  | some value =>
      rw [parse_loop_digit [] read ⟨by decide, by decide⟩ quotient low]
      simp [parseLoop]

theorem to_int_pair_iff (a b : UInt16) :
    (toInt16 [a, b]).isSome = true ↔ ReadablePair a b := by
  unfold ReadablePair
  by_cases below : a < 0x30
  · -- The first unit is no digit, so it has to be a sign.
    simp only [toInt16, if_pos below, digit_below below]
    by_cases minus : a = 0x2D
    · rw [if_pos minus, if_neg (List.cons_ne_nil b []), parse_one (by decide) (by decide)]
      simp [minus]
    · rw [if_neg minus]
      by_cases plus : a = 0x2B
      · rw [if_pos plus, if_neg (List.cons_ne_nil b []), parse_one (by decide) (by decide)]
        simp [plus]
      · rw [if_neg plus]
        simp [minus, plus]
  · simp only [toInt16, if_neg below]
    have unsigned : ¬ (a = 0x2B ∨ a = 0x2D) := by
      rintro (plus | minus)
      · rw [plus] at below
        exact below (by decide)
      · rw [minus] at below
        exact below (by decide)
    cases first : digit a with
    | none => simp [parseLoop, first, unsigned]
    | some high =>
        have small := digit_bound first
        rw [parse_loop_digit [b] first ⟨by decide, by decide⟩ (by decide) (by decide)]
        cases second : digit b with
        | none => simp [parseLoop, second]
        | some low =>
            rw [parse_loop_digit [] second (by omega) (by decide) (by decide)]
            simp [parseLoop]

theorem to_int_hex {a b : UInt16} (first : AsciiHex a) (second : AsciiHex b) :
    toInt16 [a, b] = some ((16 * hexCharValue a.toUInt8 + hexCharValue b.toUInt8 : Nat) : Int) := by
  obtain ⟨readA, notBelow, smallA, -⟩ := ascii_hex_digit first
  obtain ⟨readB, -, -⟩ := ascii_hex_digit second
  simp only [toInt16, if_neg notBelow]
  rw [parse_loop_digit [b] readA ⟨by decide, by decide⟩ (by decide) (by decide),
    parse_loop_digit [] readB (by omega) (by decide) (by decide)]
  simp only [parseLoop, Option.map_some, Option.some.injEq]
  omega

def ReadablePairs : KotlinString → Prop
  | a :: b :: rest => ReadablePair a b ∧ ReadablePairs rest
  | _ => True

theorem from_hex_loop_iff (s : KotlinString) :
    (fromHexLoop s).isSome = true ↔ ReadablePairs s := by
  induction s using fromHexLoop.induct with
  | case1 a b rest ih =>
      rw [fromHexLoop, ReadablePairs, ← to_int_pair_iff, ← ih]
      cases toInt16 [a, b] <;> simp
  | case2 s short =>
      rw [fromHexLoop.eq_def, ReadablePairs.eq_def]
      split
      · rename_i a b rest
        exact absurd rfl (short a b rest)
      · simp

theorem byte_of_halves {high low : Nat} (highBound : high < 16) (lowBound : low < 16) :
    UInt8.ofInt ((16 * high + low : Nat) : Int) = UInt8.ofNat (16 * high + low) ∧
      toHex [UInt8.ofNat (16 * high + low)] = [hexUnit high, hexUnit low] := by
  have reduced : (((16 * high + low : Nat) : Int) % 2 ^ 8).toNat = 16 * high + low := by omega
  have value : (UInt8.ofNat (16 * high + low)).toNat = 16 * high + low :=
    UInt8.toNat_ofNat_of_lt' (show _ < 256 by omega)
  have upper : (16 * high + low) / 16 = high := by omega
  have lower : (16 * high + low) % 16 = low := by omega
  constructor
  · rw [UInt8.ofInt, reduced]
  · simp only [toHex, List.flatMap_cons, List.flatMap_nil, List.append_nil, value, upper, lower]

theorem to_hex_cons (byte : UInt8) (key : List UInt8) :
    toHex (byte :: key) = toHex [byte] ++ toHex key := by
  simp [toHex]

theorem loops_agree (digits : KotlinString) (hex : ∀ c ∈ digits, AsciiHex c) :
    ∀ count, digits.length = count * 2 → ∃ key, fromHexLoop digits = some key ∧
      hexLoop (digits.map UInt16.toUInt8) count = some key ∧ key.length = count ∧
      toHex key = lowercase digits := by
  induction digits using fromHexLoop.induct with
  | case1 a b rest ih =>
      intro count size
      rw [List.length_cons, List.length_cons] at size
      obtain ⟨less, rfl⟩ : ∃ less, count = less + 1 := ⟨count - 1, by omega⟩
      have first := hex a List.mem_cons_self
      have second := hex b (List.mem_cons_of_mem _ List.mem_cons_self)
      obtain ⟨-, -, smallA, lowerA, -⟩ := ascii_hex_digit first
      obtain ⟨-, -, smallB, lowerB, -⟩ := ascii_hex_digit second
      obtain ⟨narrow, written⟩ := byte_of_halves smallA smallB
      obtain ⟨key, read, scanned, length, others⟩ := ih
        (fun c member => hex c (List.mem_cons_of_mem _ (List.mem_cons_of_mem _ member)))
        less (by omega)
      refine ⟨UInt8.ofNat (16 * hexCharValue a.toUInt8 + hexCharValue b.toUInt8) :: key, ?_, ?_,
        by rw [List.length_cons, length], ?_⟩
      · rw [fromHexLoop, to_int_hex first second, Option.bind_some, read, Option.map_some, narrow]
      · rw [List.map_cons, List.map_cons, hexLoop, first.2, second.2, scanned]
        rfl
      · rw [to_hex_cons, written, others, lowerA, lowerB]
        rfl
  | case2 s short =>
      intro count size
      have empty : s = [] := by
        rcases s with _ | ⟨a, _ | ⟨b, rest⟩⟩
        · rfl
        · simp only [List.length_cons, List.length_nil] at size
          omega
        · exact absurd rfl (short a b rest)
      subst empty
      have none : count = 0 := by
        simp only [List.length_nil] at size
        omega
      rw [none]
      exact ⟨[], rfl, rfl, rfl, rfl⟩

/-! ### The text the command line sees -/

theorem foreign_not_hex {byte : UInt8} (foreign : Foreign byte) :
    byte ≠ 0 ∧ isHexChar byte = false := by
  have each : ∀ n < 256, Foreign (UInt8.ofNat n) →
      UInt8.ofNat n ≠ 0 ∧ isHexChar (UInt8.ofNat n) = false := by
    unfold Foreign
    decide +kernel
  have result := each byte.toNat byte.toNat_lt
  rw [UInt8.ofNat_toNat] at result
  exact result foreign

def cText (s : KotlinString) : List UInt8 := (utf8 s).takeWhile fun byte => byte ≠ 0

def Digits (s digits : KotlinString) : Prop :=
  (∀ c ∈ digits, AsciiHex c) ∧ (s = digits ∨ ∃ rest, s = digits ++ 0 :: rest)

theorem c_text_digits {digits : KotlinString} :
    ∀ {s : KotlinString}, Digits s digits → cText s = digits.map UInt16.toUInt8 := by
  induction digits with
  | nil =>
      rintro s ⟨-, rfl | ⟨rest, rfl⟩⟩
      · rfl
      · rw [cText, List.nil_append, utf8_ascii rest (by decide)]
        rfl
  | cons c digits ih =>
      rintro s ⟨hex, split⟩
      have here := hex c List.mem_cons_self
      have nonzero := (ascii_hex_digit here).2.2.2.2
      have tail : ∃ rest, s = c :: rest ∧ Digits rest digits := by
        have others : ∀ d ∈ digits, AsciiHex d :=
          fun d member => hex d (List.mem_cons_of_mem _ member)
        rcases split with rfl | ⟨rest, rfl⟩
        · exact ⟨digits, rfl, others, .inl rfl⟩
        · exact ⟨digits ++ 0 :: rest, rfl, others, .inr ⟨rest, rfl⟩⟩
      obtain ⟨rest, rfl, remaining⟩ := tail
      have later := ih remaining
      rw [cText] at later ⊢
      rw [utf8_ascii rest here.1, List.takeWhile_cons_of_pos (by simpa using nonzero), later,
        List.map_cons]

theorem digits_of_c_text (s : KotlinString) (hex : ∀ byte ∈ cText s, isHexChar byte = true) :
    ∃ digits, Digits s digits := by
  induction s with
  | nil => exact ⟨[], fun _ none => (nomatch none), .inl rfl⟩
  | cons c rest ih =>
      by_cases ascii : c < 0x80
      · by_cases zero : c = 0
        · exact ⟨[], fun _ none => (nomatch none), .inr ⟨rest, by rw [zero]; rfl⟩⟩
        · have nonzero : c.toUInt8 ≠ 0 := by
            revert zero
            apply ascii_forall _ ascii
            decide +kernel
          rw [cText, utf8_ascii rest ascii,
            List.takeWhile_cons_of_pos (by simpa using nonzero)] at hex
          obtain ⟨digits, others, split⟩ :=
            ih fun byte member => hex byte (List.mem_cons_of_mem _ member)
          have here : AsciiHex c := ⟨ascii, hex c.toUInt8 List.mem_cons_self⟩
          refine ⟨c :: digits, List.forall_mem_cons.mpr ⟨here, others⟩, ?_⟩
          rcases split with rfl | ⟨more, rfl⟩
          · exact .inl rfl
          · exact .inr ⟨more, rfl⟩
      · obtain ⟨byte, more, encoded, foreign⟩ := utf8_other rest ascii
        obtain ⟨nonzero, notHex⟩ := foreign_not_hex foreign
        rw [cText, encoded, List.takeWhile_cons_of_pos (by simpa using nonzero)] at hex
        rw [hex byte List.mem_cons_self] at notHex
        cases notHex

theorem hex_loop_chars (text : List UInt8) (count : Nat) :
    ∀ {key : List UInt8}, text.length = count * 2 → hexLoop text count = some key →
      ∀ byte ∈ text, isHexChar byte = true := by
  induction text, count using hexLoop.induct with
  | case1 text =>
      intro key size read byte member
      rw [List.eq_nil_of_length_eq_zero (size.trans (Nat.zero_mul 2))] at member
      cases member
  | case2 a b rest count valid ih =>
      intro key size read
      rw [hexLoop, if_pos valid] at read
      obtain ⟨others, readRest, -⟩ := Option.map_eq_some_iff.mp read
      rw [Bool.and_eq_true] at valid
      have left : rest.length = count * 2 := by
        simp only [List.length_cons] at size
        omega
      exact List.forall_mem_cons.mpr
        ⟨valid.1, List.forall_mem_cons.mpr ⟨valid.2, ih left readRest⟩⟩
  | case3 a b rest count invalid =>
      intro key size read
      rw [hexLoop, if_neg invalid] at read
      cases read
  | case4 text count short =>
      intro key size read
      exfalso
      rcases text with _ | ⟨a, _ | ⟨b, rest⟩⟩
      · simp only [List.length_nil] at size
        omega
      · simp only [List.length_cons, List.length_nil] at size
        omega
      · exact short a b rest rfl

/-- The command line reads exactly the texts that start with 64 ASCII digits
and end there, for a C program. -/
theorem hex_to_bytes_iff (s : KotlinString) :
    (hexToBytes (utf8 s) 32).isSome = true ↔ ∃ digits, Digits s digits ∧ digits.length = 64 := by
  have unfolded : hexToBytes (utf8 s) 32 =
      if (cText s).length ≠ 64 then none else hexLoop (cText s) 32 := rfl
  constructor
  · intro accepted
    obtain ⟨key, read⟩ := Option.isSome_iff_exists.mp accepted
    rw [unfolded] at read
    split_ifs at read with size
    have length : (cText s).length = 32 * 2 := not_not.mp size
    obtain ⟨digits, isDigits⟩ := digits_of_c_text s (hex_loop_chars _ _ length read)
    refine ⟨digits, isDigits, ?_⟩
    rw [c_text_digits isDigits, List.length_map] at length
    exact length
  · rintro ⟨digits, isDigits, size⟩
    obtain ⟨key, -, scanned, -, -⟩ := loops_agree digits isDigits.1 32 size
    rw [unfolded, c_text_digits isDigits, List.length_map, if_neg (not_not.mpr size), scanned]
    rfl

theorem from_hex_iff {s : KotlinString} (size : s.length = 64) :
    (fromHex s).isSome = true ↔ ReadablePairs s := by
  have even : ¬ s.length % 2 ≠ 0 := by omega
  rw [fromHex, if_neg even, from_hex_loop_iff]

theorem add_contact_iff (s : KotlinString) :
    (addContact s).isSome = true ↔ s.length = 64 ∧ ReadablePairs s := by
  unfold addContact
  by_cases size : s.length = 64
  · rw [if_neg (not_not.mpr size), from_hex_iff size]
    simp [size]
  · simp [size]

theorem remove_scheme (s : KotlinString) : removePrefix (qrScheme ++ s) qrScheme = s := by
  rw [removePrefix, if_pos (by simp)]
  exact List.drop_left

theorem parse_qr_content_eq (s : KotlinString) :
    parseQrContent (qrScheme ++ s) = (addContact s).map fun _ => s := by
  simp only [parseQrContent, remove_scheme, addContact]
  split_ifs
  · rfl
  · cases fromHex s <;> rfl

/-! ### Where the two agree -/

/-- Both sides accept the same texts and read the same key from them, and the
key is written as the text in lower case. -/
structure ParsersAgree (s : KotlinString) : Prop where
  scanned : (parseQrContent (qrScheme ++ s)).isSome = true ↔
    (hexToBytes (utf8 s) 32).isSome = true
  typed : (addContact s).isSome = true ↔ (hexToBytes (utf8 s) 32).isSome = true
  sameKey : ∀ key, hexToBytes (utf8 s) 32 = some key →
    parseQrContent (qrScheme ++ s) = some s ∧ fromHex s = some key ∧ addContact s = some key ∧
      key.length = 32 ∧ toHex key = lowercase s

/-- A text of 64 units that `Integer.parseInt` reads pair by pair although not
all of them are ASCII digits. -/
def Lenient (s : KotlinString) : Prop :=
  s.length = 64 ∧ ReadablePairs s ∧ ∃ c ∈ s, ¬ AsciiHex c

/-- 64 ASCII digits and more behind a zero, which ends the text for C. -/
def CutShort (s : KotlinString) : Prop :=
  ∃ digits rest, s = digits ++ 0 :: rest ∧ digits.length = 64 ∧ ∀ c ∈ digits, AsciiHex c

theorem same_key_of_digits {s : KotlinString} (size : s.length = 64) (hex : ∀ c ∈ s, AsciiHex c)
    (key : List UInt8) (read : hexToBytes (utf8 s) 32 = some key) :
    parseQrContent (qrScheme ++ s) = some s ∧ fromHex s = some key ∧ addContact s = some key ∧
      key.length = 32 ∧ toHex key = lowercase s := by
  obtain ⟨same, parsed, scanned, length, written⟩ := loops_agree s hex 32 size
  have text : cText s = s.map UInt16.toUInt8 := c_text_digits ⟨hex, .inl rfl⟩
  have command : hexToBytes (utf8 s) 32 = some same := by
    show (if (cText s).length ≠ 64 then none else hexLoop (cText s) 32) = some same
    rw [text, List.length_map, if_neg (not_not.mpr size), scanned]
  cases command.symm.trans read
  have even : ¬ s.length % 2 ≠ 0 := by omega
  have app : fromHex s = some key := by rw [fromHex, if_neg even, parsed]
  have added : addContact s = some key := by rw [addContact, if_neg (not_not.mpr size), app]
  refine ⟨?_, app, added, length, written⟩
  rw [parse_qr_content_eq, added]
  rfl

/-- The two readers agree on a text exactly when it is neither read too
leniently by the app nor cut short for the command line. -/
theorem parsers_agree_iff (s : KotlinString) : ParsersAgree s ↔ ¬ Lenient s ∧ ¬ CutShort s := by
  constructor
  · intro agree
    constructor
    · rintro ⟨size, readable, c, member, notHex⟩
      have accepted := agree.typed.mp ((add_contact_iff s).mpr ⟨size, readable⟩)
      obtain ⟨digits, ⟨hex, same | ⟨rest, longer⟩⟩, count⟩ := (hex_to_bytes_iff s).mp accepted
      · rw [same] at member
        exact notHex (hex c member)
      · rw [longer, List.length_append, List.length_cons, count] at size
        omega
    · rintro ⟨digits, rest, longer, count, hex⟩
      have accepted := (hex_to_bytes_iff s).mpr ⟨digits, ⟨hex, .inr ⟨rest, longer⟩⟩, count⟩
      obtain ⟨size, -⟩ := (add_contact_iff s).mp (agree.typed.mpr accepted)
      rw [longer, List.length_append, List.length_cons, count] at size
      omega
  · rintro ⟨notLenient, notCut⟩
    -- Without the two exceptions each side accepts 64 ASCII digits only.
    have app : (addContact s).isSome = true → s.length = 64 ∧ ∀ c ∈ s, AsciiHex c := by
      intro accepted
      obtain ⟨size, readable⟩ := (add_contact_iff s).mp accepted
      refine ⟨size, ?_⟩
      by_contra other
      push Not at other
      exact notLenient ⟨size, readable, other⟩
    have command : (hexToBytes (utf8 s) 32).isSome = true →
        s.length = 64 ∧ ∀ c ∈ s, AsciiHex c := by
      intro accepted
      obtain ⟨digits, ⟨hex, same | ⟨rest, longer⟩⟩, count⟩ := (hex_to_bytes_iff s).mp accepted
      · rw [same]
        exact ⟨count, hex⟩
      · exact absurd ⟨digits, rest, longer, count, hex⟩ notCut
    have typed : (addContact s).isSome = true ↔ (hexToBytes (utf8 s) 32).isSome = true := by
      constructor
      · intro accepted
        obtain ⟨size, hex⟩ := app accepted
        exact (hex_to_bytes_iff s).mpr ⟨s, ⟨hex, .inl rfl⟩, size⟩
      · intro accepted
        obtain ⟨key, read⟩ := Option.isSome_iff_exists.mp accepted
        obtain ⟨size, hex⟩ := command accepted
        rw [(same_key_of_digits size hex key read).2.2.1]
        rfl
    refine ⟨?_, typed, ?_⟩
    · rw [parse_qr_content_eq, Option.isSome_map]
      exact typed
    · intro key read
      obtain ⟨size, hex⟩ := command (Option.isSome_iff_exists.mpr ⟨key, read⟩)
      exact same_key_of_digits size hex key read

def signedText : KotlinString := (List.replicate 32 [0x2B, 0x66]).flatten

/-- The app reads a signed digit in each pair; the command line refuses. -/
theorem signed_text_disagrees : ¬ ParsersAgree signedText := by
  intro agree
  have accepted : (addContact signedText).isSome = true := by decide +kernel
  have refused : (hexToBytes (utf8 signedText) 32).isSome = false := by decide +kernel
  rw [agree.typed.mp accepted] at refused
  cases refused

/-! ### What a key of the app is -/

theorem from_hex_loop_length (hex : KotlinString) :
    ∀ {key : List UInt8}, fromHexLoop hex = some key → key.length = hex.length / 2 := by
  induction hex using fromHexLoop.induct with
  | case1 a b rest ih =>
      intro key read
      rw [fromHexLoop] at read
      obtain ⟨value, -, others⟩ := Option.bind_eq_some_iff.mp read
      obtain ⟨bytes, readRest, isKey⟩ := Option.map_eq_some_iff.mp others
      rw [← isKey, List.length_cons, ih readRest]
      simp only [List.length_cons]
      omega
  | case2 hex short =>
      intro key read
      rcases hex with _ | ⟨a, _ | ⟨b, rest⟩⟩
      · cases read
        rfl
      · cases read
        simp
      · exact absurd rfl (short a b rest)

theorem from_hex_length {hex : KotlinString} {key : List UInt8} (size : hex.length = 64)
    (read : fromHex hex = some key) : key.length = 32 := by
  unfold fromHex at read
  split_ifs at read
  rw [from_hex_loop_length hex read, size]

theorem add_contact_length {hex : KotlinString} {key : List UInt8}
    (read : addContact hex = some key) : key.length = 32 := by
  unfold addContact at read
  split_ifs at read with size
  exact from_hex_length (not_not.mp size) read

theorem scanned_length {rawValue : KotlinString} {key : List UInt8}
    (read : (parseQrContent rawValue).bind fromHex = some key) :
    key.length = 32 := by
  obtain ⟨hex, scanned, read⟩ := Option.bind_eq_some_iff.mp read
  unfold parseQrContent at scanned
  simp only at scanned
  split_ifs at scanned with size
  split at scanned
  · cases scanned
    exact from_hex_length (not_not.mp size) read
  · cases scanned

theorem digits_injective {unit : Nat → UInt16}
    (distinct : ∀ a < 16, ∀ b < 16, unit a = unit b → a = b) {first second : List UInt8}
    (same : (first.flatMap fun byte => [unit (byte.toNat / 16), unit (byte.toNat % 16)]) =
      second.flatMap fun byte => [unit (byte.toNat / 16), unit (byte.toNat % 16)]) :
    first = second := by
  induction first generalizing second with
  | nil =>
      cases second with
      | nil => rfl
      | cons byte rest => simp at same
  | cons byte rest ih =>
      cases second with
      | nil => simp at same
      | cons other others =>
          simp only [List.flatMap_cons, List.cons_append, List.nil_append,
            List.cons.injEq] at same
          obtain ⟨high, low, later⟩ := same
          have byteBound := byte.toNat_lt
          have otherBound := other.toNat_lt
          have highs := distinct _ (by omega) _ (by omega) high
          have lows := distinct _ (by omega) _ (by omega) low
          rw [ih later, UInt8.toNat_inj.mp (show byte.toNat = other.toNat by omega)]

theorem to_hex_injective {first second : List UInt8} (same : toHex first = toHex second) :
    first = second := by
  have distinct : ∀ a < 16, ∀ b < 16, hexUnit a = hexUnit b → a = b := by decide
  exact digits_injective distinct same

end BitChat.PubKeyHex
