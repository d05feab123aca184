import KeySearch.Bytes
import KeySearch.Hex

/-!
# Seeds

A seed is 32 bytes that count upward as one big-endian number. A search draws one seed at random and
takes every later key from the seed before it plus one, so `Seed.increment` is all that moves it.
-/

set_option autoImplicit false

namespace KeySearch

/-- A 32-byte counter. -/
structure Seed where
  bytes : List UInt8
  size : bytes.length = 32
  deriving DecidableEq

/-- The increment of a big-endian counter of any length, with the carry that leaves its top. -/
def addOne : List UInt8 → List UInt8 × Bool
  | [] => ([], true)
  | byte :: rest =>
    match addOne rest with
    | (rest, false) => (byte :: rest, false)
    | (rest, true) => if byte = 0xff then (0 :: rest, true) else ((byte + 1) :: rest, false)

@[simp] theorem length_addOne (bytes : List UInt8) : (addOne bytes).1.length = bytes.length := by
  induction bytes with
  | nil => rfl
  | cons byte rest ih =>
    simp only [addOne]
    split
    · next h => rw [h] at ih; simpa using ih
    · next h =>
      rw [h] at ih
      split <;> simpa using ih

namespace Seed

/-- Why bytes are no seed. -/
inductive Error
  /-- A text that is to spell a seed does not spell 32 bytes. -/
  | hex (e : Hex.Error)
  /-- There are more or fewer than 32 bytes. -/
  | wrongSize (actual : Nat)
  deriving Repr, DecidableEq

/-- The message of an error. -/
def Error.message : Error → String
  | .hex e => e.message
  | .wrongSize actual => "Seed must be 32 bytes, got " ++ toString actual

/-- The seed of 32 zero bytes. -/
def zero : Seed := ⟨List.replicate 32 0, by simp⟩

/-- The seed made of the given bytes. -/
def ofBytes (bytes : List UInt8) : Except Error Seed :=
  if h : bytes.length = 32 then .ok ⟨bytes, h⟩ else .error (.wrongSize bytes.length)

/-- The seed that a text spells in hexadecimal. -/
def ofHex (text : List Nat) : Except Error Seed :=
  match Hex.decodeSized 32 text with
  | .ok bytes => ofBytes bytes
  | .error e => .error (.hex e)

/-- The seed as a number. -/
def toNat (s : Seed) : Nat := Bytes.toNat s.bytes

/-- The next seed. After the last one comes zero. -/
def increment (s : Seed) : Seed := ⟨(addOne s.bytes).1, by rw [length_addOne, s.size]⟩

/-- The seed in hexadecimal. -/
def hex (s : Seed) : String := Hex.encode s.bytes

/-- How a seed shows itself. -/
def display (s : Seed) : String := "Seed(" ++ s.hex ++ ")"

end Seed

end KeySearch
