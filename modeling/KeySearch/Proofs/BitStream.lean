import KeySearch.Bytes
import Mathlib.Data.List.Induction
import Mathlib.Tactic.Ring

/-!
# Bytes as one stream of bits

`Bytes.bits` and `Bytes.toNat` read the same list of bytes, once as bits and once as a number. They
meet in `msbBits width value`, the lowest `width` bits of a number with the most significant one
first: the bits of a list of bytes are those of its number, and bytes written from a number have the
bits of the number. `zeroRun` counts the zero bits that a stream begins with.
-/

set_option autoImplicit false

namespace KeySearch

/-! ## Numbers as streams of bits -/

/-- The lowest `width` bits of a number, the most significant one first. -/
def msbBits : Nat → Nat → List Bool
  | 0, _ => []
  | width + 1, value => value.testBit width :: msbBits width value

@[simp] theorem length_msbBits (width value : Nat) : (msbBits width value).length = width := by
  induction width with
  | zero => rfl
  | succ width ih => simp [msbBits, ih]

theorem getElem?_msbBits {width i : Nat} (value : Nat) (h : i < width) :
    (msbBits width value)[i]? = some (value.testBit (width - 1 - i)) := by
  induction width generalizing i with
  | zero => omega
  | succ width ih =>
      cases i with
      | zero => simp [msbBits]
      | succ i =>
          have hlt : i < width := by omega
          have hpos : width + 1 - 1 - (i + 1) = width - 1 - i := by omega
          rw [msbBits, List.getElem?_cons_succ, ih hlt, hpos]

/-- The upper bits of a number are the bits of its quotient. -/
theorem msbBits_add (upper lower value : Nat) :
    msbBits (upper + lower) value
      = msbBits upper (value / 2 ^ lower) ++ msbBits lower value := by
  induction upper with
  | zero => simp [msbBits]
  | succ upper ih =>
      have hwidth : upper + 1 + lower = upper + lower + 1 := by omega
      rw [hwidth, msbBits, ih, msbBits, Nat.testBit_div_two_pow, List.cons_append]

/-- Bits do not see what is above them. -/
theorem msbBits_mod (width value : Nat) : msbBits width (value % 2 ^ width) = msbBits width value := by
  apply List.ext_getElem?
  intro i
  by_cases h : i < width
  · rw [getElem?_msbBits _ h, getElem?_msbBits _ h, Nat.testBit_mod_two_pow]
    simp [show width - 1 - i < width by omega]
  · rw [List.getElem?_eq_none (by simp; omega), List.getElem?_eq_none (by simp; omega)]

/-- Numbers that fit a width and have the same bits there are equal. -/
theorem msbBits_injective {width x y : Nat} (hx : x < 2 ^ width) (hy : y < 2 ^ width)
    (h : msbBits width x = msbBits width y) : x = y := by
  apply Nat.eq_of_testBit_eq
  intro i
  by_cases hi : i < width
  -- bit `i` of the number stands at place `width - 1 - i` of the stream
  · have hpos : width - 1 - (width - 1 - i) = i := by omega
    have hbit := congrArg (·[width - 1 - i]?) h
    simp only [getElem?_msbBits _ (show width - 1 - i < width by omega), hpos] at hbit
    exact Option.some.inj hbit
  · have hle : 2 ^ width ≤ 2 ^ i := Nat.pow_le_pow_right (by decide) (by omega)
    rw [Nat.testBit_lt_two_pow (by omega), Nat.testBit_lt_two_pow (by omega)]

/-! ## Bytes as numbers -/

namespace Bytes

@[simp] theorem toNat_nil : toNat [] = 0 := rfl

theorem toNat_concat (bytes : List UInt8) (byte : UInt8) :
    toNat (bytes ++ [byte]) = toNat bytes * 256 + byte.toNat := by
  simp [toNat]

theorem toNat_cons (byte : UInt8) (rest : List UInt8) :
    toNat (byte :: rest) = byte.toNat * 256 ^ rest.length + toNat rest := by
  induction rest using List.reverseRecOn with
  | nil => simp [toNat]
  | append_singleton rest last ih =>
      rw [← List.cons_append, toNat_concat, ih, toNat_concat, List.length_append,
        List.length_singleton]
      ring

theorem toNat_lt (bytes : List UInt8) : toNat bytes < 256 ^ bytes.length := by
  induction bytes using List.reverseRecOn with
  | nil => simp
  | append_singleton bytes byte ih =>
      have hbyte := byte.toNat_lt
      rw [toNat_concat, List.length_append, List.length_singleton, Nat.pow_succ]
      omega

theorem toNat_ofNat (width value : Nat) : toNat (ofNat width value) = value % 256 ^ width := by
  induction width generalizing value with
  | zero => simp [ofNat, Nat.mod_one]
  | succ width ih =>
      have hlast : (UInt8.ofNat value).toNat = value % 256 := by simp
      rw [ofNat, toNat_concat, ih, hlast, Nat.pow_succ, Nat.mul_comm (256 ^ width), Nat.mod_mul]
      omega

theorem ofNat_toNat (bytes : List UInt8) : ofNat bytes.length (toNat bytes) = bytes := by
  induction bytes using List.reverseRecOn with
  | nil => rfl
  | append_singleton bytes byte ih =>
      have hbyte := byte.toNat_lt
      have hupper : (toNat bytes * 256 + byte.toNat) / 256 = toNat bytes := by omega
      have hlast : UInt8.ofNat (toNat bytes * 256 + byte.toNat) = byte := by
        apply UInt8.toNat_inj.mp
        simp only [UInt8.toNat_ofNat']
        omega
      rw [toNat_concat, List.length_append, List.length_singleton, ofNat, hupper, ih, hlast]

/-! ## Bytes as bits -/

theorem byteBits_eq (byte : UInt8) : byteBits byte = msbBits 8 byte.toNat := rfl

theorem bits_append (front back : List UInt8) : bits (front ++ back) = bits front ++ bits back :=
  List.flatMap_append

/-- Bytes written from a number have the bits of the number. -/
theorem bits_ofNat (width value : Nat) : bits (ofNat width value) = msbBits (8 * width) value := by
  induction width generalizing value with
  | zero => rfl
  | succ width ih =>
      have hlast : (UInt8.ofNat value).toNat = value % 2 ^ 8 := by simp
      have hbits : bits [UInt8.ofNat value] = msbBits 8 value := by
        rw [← msbBits_mod 8 value, ← hlast, ← byteBits_eq]
        simp [bits]
      rw [ofNat, bits_append, ih, hbits, Nat.mul_succ, msbBits_add, show 2 ^ 8 = 256 from rfl]

/-- The bits of a list of bytes are the bits of its number. -/
theorem bits_eq_msbBits (bytes : List UInt8) :
    bits bytes = msbBits (8 * bytes.length) (toNat bytes) := by
  rw [← bits_ofNat, ofNat_toNat]

@[simp] theorem length_bits (bytes : List UInt8) : (bits bytes).length = 8 * bytes.length := by
  rw [bits_eq_msbBits, length_msbBits]

theorem getElem?_bits {bytes : List UInt8} {i : Nat} (h : i < 8 * bytes.length) :
    (bits bytes)[i]? = some ((toNat bytes).testBit (8 * bytes.length - 1 - i)) := by
  rw [bits_eq_msbBits, getElem?_msbBits _ h]

theorem toNat_lt_two_pow (bytes : List UInt8) : toNat bytes < 2 ^ (8 * bytes.length) := by
  have h := toNat_lt bytes
  rwa [Nat.pow_mul]

/-- Bytes with the same bits are the same. -/
theorem bits_injective {x y : List UInt8} (h : bits x = bits y) : x = y := by
  have hlen : x.length = y.length := by
    have := congrArg List.length h
    simp only [length_bits] at this
    omega
  have hx := toNat_lt_two_pow x
  have hy := toNat_lt_two_pow y
  rw [bits_eq_msbBits, bits_eq_msbBits, hlen] at h
  rw [hlen] at hx
  rw [← ofNat_toNat x, ← ofNat_toNat y, hlen, msbBits_injective hx hy h]

/-- Taking bytes takes eight bits for each. -/
theorem bits_take (bytes : List UInt8) (count : Nat) :
    bits (bytes.take count) = (bits bytes).take (8 * count) := by
  by_cases h : count ≤ bytes.length
  · have hsplit : bits bytes = bits (bytes.take count) ++ bits (bytes.drop count) := by
      rw [← bits_append, List.take_append_drop]
    have hlen : (bits (bytes.take count)).length = 8 * count := by
      rw [length_bits, List.length_take, Nat.min_eq_left h]
    rw [hsplit, List.take_left' hlen]
  · rw [List.take_of_length_le (by omega), List.take_of_length_le (by rw [length_bits]; omega)]

end Bytes

/-! ## Runs of zero bits -/

/-- The number of zero bits before the first one bit: all of them, when there is none. -/
def zeroRun : List Bool → Nat
  | [] => 0
  | true :: _ => 0
  | false :: rest => zeroRun rest + 1

theorem bitLength_le_iff {value width : Nat} : bitLength value ≤ width ↔ value < 2 ^ width := by
  unfold bitLength
  by_cases h : value = 0
  · simp [h]
  · rw [if_neg h, Nat.add_one_le_iff, Nat.log2_lt h]

/-- The zero bits in front of a number are those that its binary digits leave of the width. -/
theorem zeroRun_msbBits {width value : Nat} (h : value < 2 ^ width) :
    zeroRun (msbBits width value) = width - bitLength value := by
  induction width with
  | zero => simp [msbBits, zeroRun]
  | succ width ih =>
      by_cases hlow : value < 2 ^ width
      -- the top bit is zero exactly if the number fits a width of one less
      · have hfit := bitLength_le_iff.mpr hlow
        rw [msbBits, Nat.testBit_lt_two_pow hlow, zeroRun, ih hlow]
        omega
      · have htop : value.testBit width = true :=
          Nat.testBit_of_two_pow_le_and_two_pow_add_one_gt (Nat.le_of_not_lt hlow) h
        have hfit := bitLength_le_iff.mpr h
        have hlong := mt bitLength_le_iff.mp hlow
        rw [msbBits, htop, zeroRun]
        omega

/-- A number of whole bytes has as many zero bits in front as its bytes have. -/
theorem zeroRun_bits (bytes : List UInt8) :
    zeroRun (Bytes.bits bytes) = 8 * bytes.length - bitLength (Bytes.toNat bytes) := by
  rw [Bytes.bits_eq_msbBits, zeroRun_msbBits (Bytes.toNat_lt_two_pow bytes)]

/-- A run that ends inside the front of a stream does not depend on the rest. -/
theorem zeroRun_append_of_lt {front : List Bool} (h : zeroRun front < front.length)
    (back : List Bool) : zeroRun (front ++ back) = zeroRun front := by
  induction front with
  | nil => exact absurd h (Nat.not_lt_zero _)
  | cons bit front ih =>
      cases bit with
      | true => rfl
      | false =>
          have hrest : zeroRun front < front.length := Nat.lt_of_succ_lt_succ h
          rw [List.cons_append, zeroRun, zeroRun, ih hrest]

theorem zeroRun_replicate_append (n : Nat) (back : List Bool) :
    zeroRun (List.replicate n false ++ back) = n + zeroRun back := by
  induction n with
  | zero => simp
  | succ n ih =>
      rw [List.replicate_succ, List.cons_append, zeroRun, ih]
      omega

/-- Counting byte by byte gives the run of zero bits in front of all the bits. -/
theorem Bytes.leadingZeroBits_eq_zeroRun (bytes : List UInt8) :
    leadingZeroBits bytes = zeroRun (bits bytes) := by
  induction bytes with
  | nil => rfl
  | cons byte rest ih =>
      have hbits : bits (byte :: rest) = byteBits byte ++ bits rest := List.flatMap_cons
      rw [leadingZeroBits, hbits]
      split
      · next hzero =>
        have hbyte : byteBits 0 = List.replicate 8 false := by decide
        rw [hzero, hbyte, zeroRun_replicate_append, ih]
      · next hne =>
        have hrun : zeroRun (byteBits byte) = 8 - bitLength byte.toNat := by
          rw [byteBits_eq, zeroRun_msbBits byte.toNat_lt]
        -- a byte that is not zero has a one bit, at which the run ends
        have hpos : 0 < bitLength byte.toNat := by
          have hnat : byte.toNat ≠ 0 := fun h => hne (UInt8.toNat_inj.mp h)
          unfold bitLength
          rw [if_neg hnat]
          omega
        have hlt : zeroRun (byteBits byte) < (byteBits byte).length := by
          rw [hrun, byteBits_eq, length_msbBits]
          omega
        rw [zeroRun_append_of_lt hlt, hrun]

end KeySearch
