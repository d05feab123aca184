import KeySearch.Address
import KeySearch.KeyPair
import KeySearch.Score

/-!
# Candidates

A candidate is a key pair together with what makes it worth keeping: its address, the zero bits at
the front of its public key and the zero blocks of its address. `Candidate.ofKeys` is the only way
from keys to a candidate, so the three always belong to the keys.
-/

set_option autoImplicit false

namespace KeySearch

/-- A key pair with its address and scores. -/
structure Candidate where
  keys : KeyPair
  address : Address
  zeroBits : Nat
  zeroBlocks : Nat
  deriving DecidableEq

namespace Candidate

/-- Why a seed gives no candidate. -/
inductive Error
  /-- The seed gives no public key. -/
  | derivation (e : KeyPair.DerivationError)
  /-- The public key has no address. -/
  | address (e : Address.KeyError)
  deriving Repr, DecidableEq

/-- The message of an error. -/
def Error.message : Error → String
  | .derivation e => e.message
  | .address e => e.message

/-- The candidate of a key pair. -/
def ofKeys (keys : KeyPair) : Except Address.KeyError Candidate :=
  match Address.ofPublicKey keys.publicKey with
  | .error e => .error e
  | .ok address =>
    .ok { keys := keys
          address := address
          zeroBits := Bytes.leadingZeroBits keys.publicKey
          zeroBlocks := address.zeroBlocks }

/-- The candidate of a seed. -/
def ofSeed (primitive : KeyPrimitive) (seed : List UInt8) : Except Error Candidate :=
  match KeyPair.derive primitive seed with
  | .error e => .error (.derivation e)
  | .ok keys =>
    match ofKeys keys with
    | .error e => .error (.address e)
    | .ok candidate => .ok candidate

/-- The two numbers that a candidate is ranked by. -/
def score (c : Candidate) : Score := ⟨c.zeroBits, c.zeroBlocks⟩

instance : Scored Candidate := ⟨score⟩

end Candidate

end KeySearch
