import Mathlib.Algebra.Group.Nat.Defs
import Mathlib.Data.List.Basic
import Mathlib.Tactic.SplitIfs

/-!
# Text on the Kotlin side

A Kotlin string is a list of UTF-16 units. This is what the app uses of the
standard library: the blank test, and `String.toInt(16)`, which is
`Integer.parseInt` with radix 16. It takes a sign and the digits of every
script, a unit at a time; `utf8` is what the same text is to a C program.
-/

namespace BitChat.KotlinText

set_option autoImplicit false

abbrev KotlinString := List UInt16

/-- `Char.isWhitespace` on the JVM. -/
def isWhitespace (c : UInt16) : Bool :=
  (9 ≤ c && c ≤ 13) || (28 ≤ c && c ≤ 32) || c == 0xA0 || c == 0x1680 ||
    (0x2000 ≤ c && c ≤ 0x200A) || c == 0x2028 || c == 0x2029 || c == 0x202F || c == 0x205F ||
    c == 0x3000

def isNotBlank (s : KotlinString) : Bool := !s.all isWhitespace

/-- The zeros of the decimal digits in the basic multilingual plane. -/
def digitZeros : List UInt16 :=
  [0x30, 0x660, 0x6F0, 0x7C0, 0x966, 0x9E6, 0xA66, 0xAE6, 0xB66, 0xBE6, 0xC66, 0xCE6, 0xD66, 0xDE6,
    0xE50, 0xED0, 0xF20, 0x1040, 0x1090, 0x17E0, 0x1810, 0x1946, 0x19D0, 0x1A80, 0x1A90, 0x1B50,
    0x1BB0, 0x1C40, 0x1C50, 0xA620, 0xA8D0, 0xA900, 0xA9D0, 0xA9F0, 0xAA50, 0xABF0, 0xFF10]

/-- The first letters of the alphabets that count as digits above nine: Latin
and fullwidth Latin, both cases. -/
def letterStarts : List UInt16 := [0x41, 0x61, 0xFF21, 0xFF41]

/-- `Character.digit(c, 16)`, `none` for -1. -/
def digit (c : UInt16) : Option Nat :=
  match digitZeros.find? fun zero => zero ≤ c && c - zero < 10 with
  | some zero => some (c - zero).toNat
  | none =>
      match letterStarts.find? fun letter => letter ≤ c && c - letter < 6 with
      | some letter => some (10 + (c - letter).toNat)
      | none => none

/-- The loop of `Integer.parseInt`, which accumulates the negated value. -/
def parseLoop (limit : Int) : KotlinString → Int → Option Int
  | [], result => some result
  | c :: rest, result =>
      match digit c with
      | none => none
      | some value =>
          if result < limit.tdiv 16 then none
          else if result * 16 < limit + value then none
          else parseLoop limit rest (result * 16 - value)

/-- `Integer.parseInt(s, 16)`, `none` where it throws. -/
def toInt16 : KotlinString → Option Int
  | [] => none
  | first :: rest =>
      if first < 0x30 then
        if first = 0x2D then
          if rest = [] then none else parseLoop (-2147483648) rest 0
        else if first = 0x2B then
          if rest = [] then none else (parseLoop (-2147483647) rest 0).map fun value => -value
        else none
      else (parseLoop (-2147483647) (first :: rest) 0).map fun value => -value

def isHighSurrogate (c : UInt16) : Bool := 0xD800 ≤ c && c < 0xDC00

def isLowSurrogate (c : UInt16) : Bool := 0xDC00 ≤ c && c < 0xE000

def utf8Pair (high low : UInt16) : List UInt8 :=
  let code := 0x10000 + (high.toNat - 0xD800) * 0x400 + (low.toNat - 0xDC00)
  [UInt8.ofNat (0xF0 + code / 2 ^ 18), UInt8.ofNat (0x80 + code / 2 ^ 12 % 64),
    UInt8.ofNat (0x80 + code / 64 % 64), UInt8.ofNat (0x80 + code % 64)]

/-- The bytes of a unit that is not half of a pair; a lone surrogate becomes
a question mark. -/
def utf8Unit (c : UInt16) : List UInt8 :=
  if c < 0x80 then [c.toUInt8]
  else if c < 0x800 then [UInt8.ofNat (0xC0 + c.toNat / 64), UInt8.ofNat (0x80 + c.toNat % 64)]
  else if isHighSurrogate c || isLowSurrogate c then [0x3F]
  else
    [UInt8.ofNat (0xE0 + c.toNat / 2 ^ 12), UInt8.ofNat (0x80 + c.toNat / 64 % 64),
      UInt8.ofNat (0x80 + c.toNat % 64)]

def utf8 : KotlinString → List UInt8
  | [] => []
  | [c] => utf8Unit c
  | c :: next :: rest =>
      if isHighSurrogate c && isLowSurrogate next then utf8Pair c next ++ utf8 rest
      else utf8Unit c ++ utf8 (next :: rest)

theorem utf8_ascii {c : UInt16} (rest : KotlinString) (ascii : c < 0x80) :
    utf8 (c :: rest) = c.toUInt8 :: utf8 rest := by
  have single : utf8Unit c = [c.toUInt8] := if_pos ascii
  cases rest with
  | nil => exact single
  | cons next rest =>
      have bound : c.toNat < 0x80 := UInt16.lt_iff_toNat_lt.mp ascii
      have unpaired : isHighSurrogate c = false := by
        rw [isHighSurrogate, Bool.and_eq_false_iff, decide_eq_false_iff_not,
          UInt16.le_iff_toNat_le]
        apply Or.inl
        show ¬ 0xD800 ≤ c.toNat
        omega
      rw [utf8, unpaired, Bool.false_and, if_neg Bool.false_ne_true, single]
      rfl

def Foreign (byte : UInt8) : Prop := 0x80 ≤ byte ∨ byte = 0x3F

theorem foreign_of_nat {value : Nat} (lower : 0x80 ≤ value) (upper : value < 0x100) :
    Foreign (UInt8.ofNat value) := by
  apply Or.inl
  rw [UInt8.le_iff_toNat_le, UInt8.toNat_ofNat_of_lt' upper]
  exact lower

theorem utf8_unit_other {c : UInt16} (other : ¬ c < 0x80) :
    ∃ byte more, utf8Unit c = byte :: more ∧ Foreign byte := by
  have bound := c.toNat_lt
  rw [utf8Unit, if_neg other]
  split_ifs with two
  · have small : c.toNat < 0x800 := UInt16.lt_iff_toNat_lt.mp two
    exact ⟨_, _, rfl, foreign_of_nat (by omega) (by omega)⟩
  · exact ⟨_, _, rfl, .inr rfl⟩
  · exact ⟨_, _, rfl, foreign_of_nat (by omega) (by omega)⟩

theorem utf8_pair_foreign {high low : UInt16} (first : isHighSurrogate high = true)
    (second : isLowSurrogate low = true) :
    ∃ byte more, utf8Pair high low = byte :: more ∧ Foreign byte := by
  simp only [isHighSurrogate, isLowSurrogate, Bool.and_eq_true, decide_eq_true_eq,
    UInt16.le_iff_toNat_le, UInt16.lt_iff_toNat_lt] at first second
  have highUpper : high.toNat < 0xDC00 := first.2
  have lowUpper : low.toNat < 0xE000 := second.2
  refine ⟨_, _, rfl, foreign_of_nat (by omega) ?_⟩
  omega

theorem utf8_other {c : UInt16} (rest : KotlinString) (other : ¬ c < 0x80) :
    ∃ byte more, utf8 (c :: rest) = byte :: more ∧ Foreign byte := by
  obtain ⟨byte, more, unit, foreign⟩ := utf8_unit_other other
  cases rest with
  | nil => exact ⟨byte, more, by rw [utf8, unit], foreign⟩
  | cons next rest =>
      rw [utf8]
      split_ifs with paired
      · rw [Bool.and_eq_true] at paired
        obtain ⟨first, others, pair, isForeign⟩ := utf8_pair_foreign paired.1 paired.2
        exact ⟨first, others ++ utf8 rest, by rw [pair]; rfl, isForeign⟩
      · exact ⟨byte, more ++ utf8 (next :: rest), by rw [unit]; rfl, foreign⟩

end BitChat.KotlinText
