import KeySearch.Text.Blank
import KeySearch.Text.Quoted

/-!
# Hexadecimal bytes

`Hex.encode` writes two lower-case digits per byte. `Hex.decode` reads them back in either case,
with white space of any kind around the whole and ASCII white space between bytes, but not between
the two digits of one byte.
-/

set_option autoImplicit false

namespace KeySearch.Hex

/-- Why a text gives no bytes. -/
inductive Error
  /-- The text is not a sequence of digit pairs. -/
  | malformed (text : List Nat)
  /-- The number of bytes is not the one asked for. -/
  | wrongSize (expected actual : Nat)
  deriving Repr, DecidableEq

/-- The message of an error. -/
def Error.message : Error → String
  | .malformed text => "Invalid hex string: " ++ Text.quoted text
  | .wrongSize expected actual =>
    "Expected " ++ toString expected ++ " bytes, got " ++ toString actual

/-- The two digits of a byte. -/
def encodeByte (byte : UInt8) : List Char :=
  [Text.hexDigit (byte.toNat / 16), Text.hexDigit (byte.toNat % 16)]

/-- The digits of a list of bytes. -/
def encodeChars (bytes : List UInt8) : List Char := bytes.flatMap encodeByte

/-- The digits of a list of bytes, as a text. -/
def encode (bytes : List UInt8) : String := String.ofList (encodeChars bytes)

/-- The value of a hexadecimal digit, in either case. -/
def digitValue? (c : Nat) : Option Nat :=
  if 0x30 ≤ c && c ≤ 0x39 then some (c - 0x30)
  else if 0x61 ≤ c && c ≤ 0x66 then some (c - 0x61 + 10)
  else if 0x41 ≤ c && c ≤ 0x46 then some (c - 0x41 + 10)
  else none

/-- The bytes of a text that is a sequence of digit pairs and ASCII white space between them. -/
def pairs : List Nat → Option (List UInt8)
  | [] => some []
  | c :: rest =>
    if Text.isAsciiBlank c then pairs rest
    else
      match rest with
      | [] => none
      | d :: rest =>
        match digitValue? c, digitValue? d with
        | some high, some low => (pairs rest).map (UInt8.ofNat (high * 16 + low) :: ·)
        | _, _ => none

/-- The bytes that a text spells. -/
def decode (text : List Nat) : Except Error (List UInt8) :=
  match pairs (Text.strip text) with
  | some bytes => .ok bytes
  | none => .error (.malformed text)

/-- The bytes that a text spells, when there are as many of them as asked for. -/
def decodeSized (size : Nat) (text : List Nat) : Except Error (List UInt8) :=
  match decode text with
  | .ok bytes => if bytes.length = size then .ok bytes else .error (.wrongSize size bytes.length)
  | .error e => .error e

end KeySearch.Hex
