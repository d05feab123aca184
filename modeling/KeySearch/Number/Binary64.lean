/-!
# Binary floating-point numbers

The 64-bit numbers of IEEE 754 as exact values: a finite one is a sign and `mantissa * 2 ^
exponent`. Every operation works out the exact quotient of two integers and then rounds once, by
`Binary64.ofQuotient`, to the nearest representable number, a tie going to the even mantissa.
-/

set_option autoImplicit false

namespace KeySearch

/-- The quotient of two natural numbers rounded to the nearest one, a tie going to the even one. -/
def roundQuotient (num den : Nat) : Nat :=
  let q := num / den
  let twice := 2 * (num % den)
  if twice < den then q
  else if den < twice then q + 1
  else q + q % 2

/-- A 64-bit binary floating-point number. -/
inductive Binary64
  | finite (negative : Bool) (mantissa : Nat) (exponent : Int)
  | infinite (negative : Bool)
  | nan
  deriving Repr, DecidableEq

namespace Binary64

/-- The smallest exponent, which all numbers below `2 ^ -1022` share. -/
def minExponent : Int := -1074

/-- The largest exponent of a full mantissa. -/
def maxExponent : Int := 971

/-- Zero. -/
def zero : Binary64 := .finite false 0 minExponent

/-- The number with the given bit pattern. -/
def ofBits (bits : Nat) : Binary64 :=
  let negative := bits.testBit 63
  let biased := bits / Nat.pow 2 52 % Nat.pow 2 11
  let fraction := bits % Nat.pow 2 52
  if biased = 2047 then (if fraction = 0 then .infinite negative else .nan)
  else if biased = 0 then .finite negative fraction minExponent
  else .finite negative (Nat.pow 2 52 + fraction) (Int.ofNat biased - 1075)

/-- The bit pattern of a number. All that is not a number has one pattern. -/
def toBits : Binary64 → Nat
  | .nan => 2047 * Nat.pow 2 52 + Nat.pow 2 51
  | .infinite negative => (if negative then Nat.pow 2 63 else 0) + 2047 * Nat.pow 2 52
  | .finite negative mantissa exponent =>
    (if negative then Nat.pow 2 63 else 0) +
      (if mantissa < Nat.pow 2 52 then mantissa
       else (exponent + 1075).toNat * Nat.pow 2 52 + (mantissa - Nat.pow 2 52))

/-- `num / den * 2 ^ -shift` as a quotient of natural numbers. -/
def scaleQuotient (num den : Nat) (shift : Int) : Nat × Nat :=
  if 0 ≤ shift then (num, den * Nat.pow 2 shift.toNat) else (num * Nat.pow 2 (-shift).toNat, den)

/-- The largest `k` with `2 ^ k ≤ num / den`, for positive numbers. -/
def floorLog (num den : Nat) : Int :=
  let guess : Int := Int.ofNat num.log2 - Int.ofNat den.log2
  let (n, d) := scaleQuotient num den guess
  if d ≤ n then guess else guess - 1

/-- The number nearest to `num / den`, with the given sign. A tie goes to the even mantissa, and
what rounds beyond the largest number is infinite. -/
def ofQuotient (negative : Bool) (num den : Nat) : Binary64 :=
  if num = 0 then .finite negative 0 minExponent
  else
    let exponent := max (floorLog num den - 52) minExponent
    let (n, d) := scaleQuotient num den exponent
    let mantissa := roundQuotient n d
    if mantissa = Nat.pow 2 53 then
      (if maxExponent ≤ exponent then .infinite negative
       else .finite negative (Nat.pow 2 52) (exponent + 1))
    else if maxExponent < exponent then .infinite negative
    else .finite negative mantissa exponent

/-- The number nearest to an integer. -/
def ofInt (n : Int) : Binary64 := ofQuotient (n < 0) n.natAbs 1

/-- The number nearest to a quotient of an integer by a positive number. -/
def ofRatio (num : Int) (den : Nat) : Binary64 := ofQuotient (num < 0) num.natAbs den

/-- A magnitude `mantissa * 2 ^ exponent` as a quotient of natural numbers. -/
def magnitude (mantissa : Nat) (exponent : Int) : Nat × Nat :=
  if 0 ≤ exponent then (mantissa * Nat.pow 2 exponent.toNat, 1)
  else (mantissa, Nat.pow 2 (-exponent).toNat)

/-- Whether the number is infinite. -/
def isInfinite : Binary64 → Bool
  | .infinite _ => true
  | _ => false

/-- The product. -/
def mul : Binary64 → Binary64 → Binary64
  | .nan, _ | _, .nan => .nan
  | .infinite s, .infinite t => .infinite (s != t)
  | .infinite s, .finite t m _ | .finite t m _, .infinite s =>
    if m = 0 then .nan else .infinite (s != t)
  | .finite s m e, .finite t n f =>
    let (num, den) := magnitude (m * n) (e + f)
    ofQuotient (s != t) num den

/-- The quotient. -/
def div : Binary64 → Binary64 → Binary64
  | .nan, _ | _, .nan => .nan
  | .infinite _, .infinite _ => .nan
  | .infinite s, .finite t _ _ => .infinite (s != t)
  | .finite s _ _, .infinite t => .finite (s != t) 0 minExponent
  | .finite s m e, .finite t n f =>
    if n = 0 then (if m = 0 then .nan else .infinite (s != t))
    else
      let (num, den) := magnitude m (e - f)
      ofQuotient (s != t) num (den * n)

/-- A finite number as an integer over a positive number. -/
def signedMagnitude (negative : Bool) (mantissa : Nat) (exponent : Int) : Int × Nat :=
  let (num, den) := magnitude mantissa exponent
  (if negative then -Int.ofNat num else Int.ofNat num, den)

/-- The difference. -/
def sub : Binary64 → Binary64 → Binary64
  | .nan, _ | _, .nan => .nan
  | .infinite s, .infinite t => if s = t then .nan else .infinite s
  | .infinite s, .finite .. => .infinite s
  | .finite .., .infinite t => .infinite !t
  | .finite s m e, .finite t n f =>
    let (num, den) := signedMagnitude s m e
    let (num', den') := signedMagnitude t n f
    let difference := num * den' - num' * den
    ofQuotient (if difference = 0 then s && !t else difference < 0) difference.natAbs (den * den')

/-- Whether the number lies above an integer, both taken exactly. -/
def exceeds : Binary64 → Int → Bool
  | .nan, _ => false
  | .infinite negative, _ => !negative
  | .finite s m e, n =>
    let (num, den) := signedMagnitude s m e
    n * den < num

/-- Why a number has no integer part. -/
inductive NoInteger
  | infinite
  | nan
  deriving Repr, DecidableEq

/-- An integer with the given sign. -/
def signedNat (negative : Bool) (n : Nat) : Int := if negative then -Int.ofNat n else Int.ofNat n

/-- The integer part. -/
def truncate : Binary64 → Except NoInteger Int
  | .nan => .error .nan
  | .infinite _ => .error .infinite
  | .finite s m e =>
    let (num, den) := magnitude m e
    .ok (signedNat s (num / den))

/-- The nearest integer, a tie going to the even one. -/
def nearestInteger : Binary64 → Except NoInteger Int
  | .nan => .error .nan
  | .infinite _ => .error .infinite
  | .finite s m e =>
    let (num, den) := magnitude m e
    .ok (signedNat s (roundQuotient num den))

end Binary64

end KeySearch
