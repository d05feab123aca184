import KeySearch.Bytes
import KeySearch.Text.Quoted

/-!
# Addresses

A public key has one address of 16 bytes. Invert the bits of the key: the address is the byte `02`,
the number of one bits that the inverted key starts with, and the first 14 whole bytes of what
follows the zero bit that ends them. So every zero bit at the front of a key raises its address.

`Address.ofPublicKey` computes this on numbers, `Address.groups` reads an address as eight groups of
16 bits and `Address.text` prints them.
-/

set_option autoImplicit false

namespace KeySearch

/-- Sixteen bytes. -/
structure Address where
  bytes : List UInt8
  size : bytes.length = 16
  deriving DecidableEq

namespace Address

/-- The bytes are not as many as an address has. -/
structure SizeError where
  actual : Nat
  deriving Repr, DecidableEq

/-- The message of an error. -/
def SizeError.message (e : SizeError) : String :=
  "Address must be 16 bytes, got " ++ toString e.actual

/-- The address made of the given bytes. -/
def ofBytes (bytes : List UInt8) : Except SizeError Address :=
  if h : bytes.length = 16 then .ok ⟨bytes, h⟩ else .error ⟨bytes.length⟩

/-- Why a public key has no address. -/
inductive KeyError
  /-- A public key has 32 bytes. -/
  | wrongSize (actual : Nat)
  /-- The inverted key starts with more one bits than an address counts. -/
  | tooManyOnes (ones : Nat)
  deriving Repr, DecidableEq

/-- The message of an error. -/
def KeyError.message : KeyError → String
  | .wrongSize actual => "Public key must be 32 bytes, got " ++ toString actual
  | .tooManyOnes ones => "ones count " ++ toString ones ++ " exceeds 127"

/-- The most one bits that an address counts. -/
def maxOnes : Nat := 127

/-- The number of one bits at the front of an inverted key: the zero bits at the front of the key,
which is given as a number of 256 bits. -/
def onesOfKey (key : Nat) : Nat := 256 - bitLength key

/-- The number of bits that follow the first zero bit of the inverted key. -/
def tailBits (key : Nat) : Nat := 255 - onesOfKey key

/-- The whole bytes among the bits that follow the first zero bit of the inverted key, as one
number. What is left of the key after the last whole byte is dropped. -/
def tailValue (key : Nat) : Nat :=
  let inverted := key ^^^ (Nat.pow 2 256 - 1)
  inverted % Nat.pow 2 (tailBits key) / Nat.pow 2 (tailBits key % 8)

/-- The whole bytes that follow the first zero bit of the inverted key. -/
def tailOfKey (key : Nat) : List UInt8 := Bytes.ofNat (tailBits key / 8) (tailValue key)

theorem length_tailOfKey {key : Nat} (h : onesOfKey key ≤ maxOnes) :
    14 ≤ (tailOfKey key).length := by
  simp only [tailOfKey, tailBits, Bytes.length_ofNat, maxOnes] at *
  omega

/-- The address of a public key. -/
def ofPublicKey (publicKey : List UInt8) : Except KeyError Address :=
  if publicKey.length ≠ 32 then .error (.wrongSize publicKey.length)
  else
    let key := Bytes.toNat publicKey
    if h : maxOnes < onesOfKey key then .error (.tooManyOnes (onesOfKey key))
    else
      .ok ⟨0x02 :: UInt8.ofNat (onesOfKey key) :: (tailOfKey key).take 14, by
        have := length_tailOfKey (Nat.le_of_not_lt h)
        simp [List.length_take, Nat.min_eq_left this]⟩

/-- The first `count` groups of two bytes, `none` when the bytes end before. -/
def readGroups : Nat → List UInt8 → Option (List Nat)
  | 0, _ => some []
  | count + 1, high :: low :: rest =>
    (readGroups count rest).map ((high.toNat * 256 + low.toNat) :: ·)
  | _ + 1, _ => none

/-- The pairs of bytes as numbers. A byte without a partner is left out. -/
def pairs : List UInt8 → List Nat
  | high :: low :: rest => (high.toNat * 256 + low.toNat) :: pairs rest
  | _ => []

/-- The eight groups of an address. -/
def groups (a : Address) : List Nat := pairs a.bytes

/-- The digits of a group, without leading zeros. -/
def groupChars (group : Nat) : List Char := Nat.toDigits 16 group

/-- The groups of an address between colons. Groups that are zero are written like the others. -/
def text (a : Address) : String :=
  ":".intercalate (a.groups.map fun group => String.ofList (groupChars group))

/-- The longest run of zeros in a list, given the longest run so far and the run that leads up to
the list. -/
def longestZeroRun (longest run : Nat) : List Nat → Nat
  | [] => longest
  | group :: rest =>
    if group = 0 then longestZeroRun (max longest (run + 1)) (run + 1) rest
    else longestZeroRun longest 0 rest

/-- The longest run of zero groups, not counting the first group, which holds no bit of the key. -/
def zeroBlocks (a : Address) : Nat := longestZeroRun 0 0 (a.groups.drop 1)

end Address

end KeySearch
