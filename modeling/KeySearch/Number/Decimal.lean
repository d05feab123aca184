import KeySearch.Number.Binary64

/-!
# Decimal texts

Numbers as reports print them: integers with commas between groups of three digits, and
floating-point numbers with a fixed number of places, rounded from their exact value.
-/

set_option autoImplicit false

namespace KeySearch.Decimal

/-- Puts a comma before every third digit from the end; the digits come last one first. -/
def groupReversed : List Char → List Char
  | a :: b :: c :: d :: rest => a :: b :: c :: ',' :: groupReversed (d :: rest)
  | digits => digits

/-- Digits with a comma between groups of three. -/
def group (digits : List Char) : List Char := (groupReversed digits.reverse).reverse

/-- The digits of a number. -/
def digits (n : Nat) : List Char := Nat.toDigits 10 n

/-- The last `width` digits of a number. -/
def lastDigits : Nat → Nat → List Char
  | 0, _ => []
  | width + 1, n => lastDigits width (n / 10) ++ [Nat.digitChar (n % 10)]

/-- An integer with a comma between groups of three digits. -/
def grouped (n : Int) : String :=
  String.ofList ((if n < 0 then ['-'] else []) ++ group (digits n.natAbs))

/-- A floating-point number with a fixed number of places. The exact value is rounded, a tie goes to
the even digit, and a minus sign stays even if nothing but zeros follows it. -/
def fixed (places : Nat) (commas : Bool) : Binary64 → String
  | .nan => "nan"
  | .infinite negative => if negative then "-inf" else "inf"
  | .finite negative mantissa exponent =>
    let (num, den) := Binary64.magnitude mantissa exponent
    let scaled := roundQuotient (num * Nat.pow 10 places) den
    let whole := digits (scaled / Nat.pow 10 places)
    let fraction := if places = 0 then [] else '.' :: lastDigits places scaled
    String.ofList ((if negative then ['-'] else []) ++ (if commas then group whole else whole)
      ++ fraction)

end KeySearch.Decimal
