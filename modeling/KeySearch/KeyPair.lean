import KeySearch.Ed25519
import KeySearch.Hex

/-!
# Key pairs

A key pair is a seed and the public key derived from it. Its secret key is the seed followed by the
public key, 64 bytes in all, so a secret key vouches for the public key that it ends with:
`KeyPair.ofSecret` accepts one only if deriving the public key again gives the same bytes.
-/

set_option autoImplicit false

namespace KeySearch

/-- A way to derive a public key from the bytes of a seed. A failure is a text. -/
abbrev KeyPrimitive := List UInt8 → Except String (List UInt8)

/-- Ed25519, which accepts seeds of 32 bytes only. -/
def KeyPrimitive.ed25519 : KeyPrimitive := fun seed =>
  if seed.length = 32 then .ok (Ed25519.publicKey seed) else .error "Invalid seed"

/-- A seed and its public key. -/
structure KeyPair where
  seed : List UInt8
  publicKey : List UInt8
  deriving Repr, DecidableEq

namespace KeyPair

/-- The secret key: the seed, then the public key. -/
def secretKey (keys : KeyPair) : List UInt8 := keys.seed ++ keys.publicKey

/-- The public key in hexadecimal. -/
def publicHex (keys : KeyPair) : String := Hex.encode keys.publicKey

/-- The secret key in hexadecimal. -/
def secretHex (keys : KeyPair) : String := Hex.encode keys.secretKey

/-- The seed in hexadecimal. -/
def seedHex (keys : KeyPair) : String := Hex.encode keys.seed

/-- The failure of the key primitive, with the text it gave. -/
structure DerivationError where
  detail : String
  deriving Repr, DecidableEq

/-- The message of a failed derivation. -/
def DerivationError.message (e : DerivationError) : String :=
  "Keypair derivation failed: " ++ e.detail

/-- The key pair of a seed. -/
def derive (primitive : KeyPrimitive) (seed : List UInt8) : Except DerivationError KeyPair :=
  match primitive seed with
  | .ok publicKey => .ok ⟨seed, publicKey⟩
  | .error detail => .error ⟨detail⟩

/-- Why a text is no secret key. -/
inductive SecretError
  /-- The text is not hexadecimal. -/
  | hex (e : Hex.Error)
  /-- The text spells neither a seed nor a secret key. -/
  | wrongSize (actual : Nat)
  /-- The public key at the end is not the one that the seed gives. -/
  | mismatch
  /-- The seed gives no public key. -/
  | derivation (e : DerivationError)
  deriving Repr, DecidableEq

/-- The message of an error. -/
def SecretError.message : SecretError → String
  | .hex e => e.message
  | .wrongSize actual => "Secret key must be 32 or 64 bytes, got " ++ toString actual
  | .mismatch => "Secret key does not match the public key derived from its seed"
  | .derivation e => e.message

/-- The key pair of a text that spells a 32-byte seed or a whole secret key. -/
def ofSecret (primitive : KeyPrimitive) (text : List Nat) : Except SecretError KeyPair :=
  match Hex.decode text with
  | .error e => .error (.hex e)
  | .ok bytes =>
    if bytes.length ≠ 32 ∧ bytes.length ≠ 64 then .error (.wrongSize bytes.length)
    else
      match derive primitive (bytes.take 32) with
      | .error e => .error (.derivation e)
      | .ok keys =>
        if bytes.length = 64 ∧ bytes ≠ keys.secretKey then .error .mismatch else .ok keys

end KeyPair

end KeySearch
