import KeySearch.Number.Decimal
import KeySearch.Number.Literal

/-!
# Quantities

Measured values are integers or floating-point numbers. A quantity keeps the two apart, since an
integer stays exact until something divides it.
-/

set_option autoImplicit false

namespace KeySearch

/-- An integer or a floating-point number. -/
inductive Quantity
  | whole (n : Int)
  | real (x : Binary64)
  deriving Repr, DecidableEq

namespace Quantity

/-- Why arithmetic on a quantity has no result. -/
inductive Error
  /-- The floating-point number has no integer part. -/
  | noInteger (e : Binary64.NoInteger)
  /-- The integer lies beyond the largest floating-point number. -/
  | integerTooLarge
  /-- The quotient of two integers lies beyond the largest floating-point number. -/
  | quotientTooLarge
  /-- The integer has more digits than are written. -/
  | unwritable
  deriving Repr, DecidableEq

/-- The message of an error. -/
def Error.message : Error → String
  | .noInteger .nan => "cannot convert float NaN to integer"
  | .noInteger .infinite => "cannot convert float infinity to integer"
  | .integerTooLarge => "int too large to convert to float"
  | .quotientTooLarge => "integer division result too large for a float"
  | .unwritable => Literal.unwritableText

/-- The nearest floating-point number. -/
def toBinary64 : Quantity → Except Error Binary64
  | .real x => .ok x
  | .whole n =>
    let x := Binary64.ofInt n
    if x.isInfinite then .error .integerTooLarge else .ok x

/-- The integer part. -/
def truncate : Quantity → Except Error Int
  | .whole n => .ok n
  | .real x =>
    match x.truncate with
    | .ok n => .ok n
    | .error e => .error (.noInteger e)

/-- Whether the quantity lies above an integer. -/
def exceeds : Quantity → Int → Bool
  | .whole n, m => m < n
  | .real x, m => x.exceeds m

/-- A quotient of an integer by a positive one, as a floating-point number. -/
def ratio (num : Int) (den : Nat) : Except Error Binary64 :=
  let x := Binary64.ofRatio num den
  if x.isInfinite then .error .quotientTooLarge else .ok x

/-- A positive quantity as the divisor of an integer. -/
def divide (den : Quantity) (num : Int) : Except Error Binary64 :=
  match den with
  | .whole den => ratio num den.toNat
  | .real x =>
    match toBinary64 (.whole num) with
    | .ok y => .ok (y.div x)
    | .error e => .error e

/-- The quantity with a fixed number of places. -/
def fixed (places : Nat) (q : Quantity) : Except Error String :=
  match q.toBinary64 with
  | .ok x => .ok (Decimal.fixed places false x)
  | .error e => .error e

end Quantity

end KeySearch
