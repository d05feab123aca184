/-!
# Bytes as numbers and as bits

A list of bytes is read most significant byte first: `Bytes.toNat` as one number, `Bytes.ofNat` back
into a given number of bytes, and `Bytes.bits` as one stream of bits. `Bytes.leadingZeroBits` is the
length of the zero run at the front of that stream.
-/

set_option autoImplicit false

namespace KeySearch

/-- The number of binary digits of `n`, which is `0` for `0`. -/
def bitLength (n : Nat) : Nat := if n = 0 then 0 else n.log2 + 1

namespace Bytes

/-- The number whose base-256 digits are the bytes, most significant first. -/
def toNat (bytes : List UInt8) : Nat :=
  bytes.foldl (fun value byte => value * 256 + byte.toNat) 0

/-- The last `width` base-256 digits of a number, most significant first. -/
def ofNat : Nat → Nat → List UInt8
  | 0, _ => []
  | width + 1, value => ofNat width (value / 256) ++ [UInt8.ofNat value]

@[simp] theorem length_ofNat (width value : Nat) : (ofNat width value).length = width := by
  induction width generalizing value with
  | zero => rfl
  | succ width ih => simp [ofNat, ih]

/-- The eight bits of a byte, most significant first. -/
def byteBits (byte : UInt8) : List Bool :=
  (List.range 8).map fun i => byte.toNat.testBit (7 - i)

/-- All the bits of a list of bytes, in order. -/
def bits (bytes : List UInt8) : List Bool := bytes.flatMap byteBits

/-- The number of zero bits before the first one bit: every bit, when there is none. -/
def leadingZeroBits : List UInt8 → Nat
  | [] => 0
  | byte :: rest => if byte = 0 then 8 + leadingZeroBits rest else 8 - bitLength byte.toNat

end Bytes

end KeySearch
