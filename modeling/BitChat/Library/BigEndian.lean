import Mathlib.Data.Nat.ModEq
import Mathlib.Tactic.Ring

/-!
# Fixed-width big-endian byte strings

The value of a byte string read most significant byte first, and the string of
a given width that carries a value. A word assembled by shifts and bitwise or,
the way C code reads it, has the value of its bytes because the shifted bytes
never overlap.
-/

namespace BigEndian

set_option autoImplicit false

def decode : List UInt8 → Nat
  | [] => 0
  | byte :: rest => byte.toNat * 256 ^ rest.length + decode rest

def encode : Nat → Nat → List UInt8
  | 0, _ => []
  | width + 1, value => UInt8.ofNat (value / 256 ^ width) :: encode width value

theorem encode_length (width value : Nat) : (encode width value).length = width := by
  induction width with
  | zero => rfl
  | succ width ih => simp [encode, ih]

theorem decode_lt (bytes : List UInt8) : decode bytes < 256 ^ bytes.length := by
  induction bytes with
  | nil => simp [decode]
  | cons byte rest ih =>
      have byteBound : byte.toNat + 1 ≤ 256 := byte.toNat_lt
      calc
        decode (byte :: rest)
            < byte.toNat * 256 ^ rest.length + 256 ^ rest.length :=
          Nat.add_lt_add_left ih _
        _ = (byte.toNat + 1) * 256 ^ rest.length := by ring
        _ ≤ 256 * 256 ^ rest.length := Nat.mul_le_mul_right _ byteBound
        _ = 256 ^ (byte :: rest).length := by
          rw [List.length_cons, pow_succ, Nat.mul_comm]

theorem decode_encode (width value : Nat) :
    decode (encode width value) = value % 256 ^ width := by
  induction width with
  | zero => simp [encode, decode, Nat.mod_one]
  | succ width ih =>
      have digit : (UInt8.ofNat (value / 256 ^ width)).toNat =
          value / 256 ^ width % 256 := UInt8.toNat_ofNat'
      rw [encode, decode, encode_length, ih, digit, pow_succ, Nat.mod_mul]
      ring

theorem encode_add_mul (width value k : Nat) :
    encode width (value + k * 256 ^ width) = encode width value := by
  induction width generalizing k with
  | zero => rfl
  | succ width ih =>
      have carry : value + k * 256 ^ (width + 1) = value + k * 256 * 256 ^ width := by ring
      have digit : (value + k * 256 * 256 ^ width) / 256 ^ width =
          value / 256 ^ width + k * 256 := Nat.add_mul_div_right _ _ (Nat.pow_pos (by decide))
      have byte : UInt8.ofNat (value / 256 ^ width + k * 256) = UInt8.ofNat (value / 256 ^ width) := by
        apply UInt8.toNat_inj.mp
        simp
      rw [encode, carry, digit, byte, ih, encode]

theorem encode_decode (bytes : List UInt8) : encode bytes.length (decode bytes) = bytes := by
  induction bytes with
  | nil => rfl
  | cons byte rest ih =>
      have split : decode (byte :: rest) = decode rest + byte.toNat * 256 ^ rest.length :=
        Nat.add_comm _ _
      have high : (decode rest + byte.toNat * 256 ^ rest.length) / 256 ^ rest.length =
          byte.toNat := by
        rw [Nat.add_mul_div_right _ _ (Nat.pow_pos (by decide)),
          Nat.div_eq_of_lt (decode_lt rest), Nat.zero_add]
      rw [List.length_cons, split, encode, high, encode_add_mul, ih, UInt8.ofNat_toNat]

/-- One Horner step of a shift-and-or word: the low byte fills exactly the
eight bits that the shift of the accumulated high part leaves free. -/
theorem shift_or_byte (high shift : Nat) (byte : UInt8) :
    high <<< (shift + 8) ||| byte.toNat <<< shift =
      (high * 256 + byte.toNat) <<< shift := by
  have bound : byte.toNat < 2 ^ 8 := byte.toNat_lt
  have low : high <<< 8 ||| byte.toNat = high * 256 + byte.toNat := by
    rw [← Nat.shiftLeft_add_eq_or_of_lt bound, Nat.shiftLeft_eq]
  rw [← low, Nat.shiftLeft_or_distrib, ← Nat.shiftLeft_add, Nat.add_comm 8 shift]

theorem shifted_byte_fits (byte : UInt8) (shift width : Nat) (fits : shift + 8 ≤ width) :
    byte.toNat <<< shift % 2 ^ width = byte.toNat <<< shift := by
  apply Nat.mod_eq_of_lt
  calc
    byte.toNat <<< shift = byte.toNat * 2 ^ shift := Nat.shiftLeft_eq _ _
    _ < 2 ^ 8 * 2 ^ shift := Nat.mul_lt_mul_of_pos_right byte.toNat_lt (Nat.two_pow_pos shift)
    _ = 2 ^ (shift + 8) := by rw [← pow_add, Nat.add_comm]
    _ ≤ 2 ^ width := Nat.pow_le_pow_right (by decide) fits

theorem or_of_four_bytes (a b c d : UInt8) :
    a.toNat <<< 24 ||| b.toNat <<< 16 ||| c.toNat <<< 8 ||| d.toNat = decode [a, b, c, d] := by
  rw [show a.toNat <<< 24 ||| b.toNat <<< 16 = _ from shift_or_byte _ 16 b,
    show _ <<< 16 ||| c.toNat <<< 8 = _ from shift_or_byte _ 8 c,
    show _ <<< 8 ||| d.toNat = _ from shift_or_byte _ 0 d]
  simp only [decode, List.length_cons, List.length_nil, Nat.shiftLeft_zero]
  ring

theorem or_of_eight_bytes (a b c d e f g h : UInt8) :
    a.toNat <<< 56 ||| b.toNat <<< 48 ||| c.toNat <<< 40 ||| d.toNat <<< 32 |||
        e.toNat <<< 24 ||| f.toNat <<< 16 ||| g.toNat <<< 8 ||| h.toNat =
      decode [a, b, c, d, e, f, g, h] := by
  rw [show a.toNat <<< 56 ||| b.toNat <<< 48 = _ from shift_or_byte _ 48 b,
    show _ <<< 48 ||| c.toNat <<< 40 = _ from shift_or_byte _ 40 c,
    show _ <<< 40 ||| d.toNat <<< 32 = _ from shift_or_byte _ 32 d,
    show _ <<< 32 ||| e.toNat <<< 24 = _ from shift_or_byte _ 24 e,
    show _ <<< 24 ||| f.toNat <<< 16 = _ from shift_or_byte _ 16 f,
    show _ <<< 16 ||| g.toNat <<< 8 = _ from shift_or_byte _ 8 g,
    show _ <<< 8 ||| h.toNat = _ from shift_or_byte _ 0 h]
  simp only [decode, List.length_cons, List.length_nil, Nat.shiftLeft_zero]
  ring

end BigEndian
