import KeySearch.Number.Decimal

/-!
# Timestamps

The time at which a key was saved, and its text: date and time of day with a `T` between them, and
six digits of a fraction unless the fraction is zero.
-/

set_option autoImplicit false

namespace KeySearch

/-- A date and a time of day. -/
structure Timestamp where
  year : Nat
  month : Nat
  day : Nat
  hour : Nat
  minute : Nat
  second : Nat
  microsecond : Nat
  deriving Repr, DecidableEq

/-- The characters of a timestamp. -/
def Timestamp.chars (t : Timestamp) : List Char :=
  Decimal.lastDigits 4 t.year ++ ['-'] ++ Decimal.lastDigits 2 t.month ++ ['-']
    ++ Decimal.lastDigits 2 t.day ++ ['T'] ++ Decimal.lastDigits 2 t.hour ++ [':']
    ++ Decimal.lastDigits 2 t.minute ++ [':'] ++ Decimal.lastDigits 2 t.second
    ++ (if t.microsecond = 0 then [] else '.' :: Decimal.lastDigits 6 t.microsecond)

/-- The text of a timestamp. -/
def Timestamp.text (t : Timestamp) : String := String.ofList t.chars

end KeySearch
