import KeySearch.Number.Quantity

/-!
# Durations

A duration is printed in the largest unit that it fills, with the digits that remain as a fraction:
nanoseconds, microseconds, milliseconds or seconds below a minute, and from there on minutes and
seconds, with hours in front when there are any.
-/

set_option autoImplicit false

namespace KeySearch.Duration

/-- Nanoseconds in a second. -/
def second : Nat := 1000000000

/-- Nanoseconds in a minute. -/
def minute : Nat := 60 * second

/-- Nanoseconds in an hour. -/
def hour : Nat := 60 * minute

/-- Seconds as a whole number of nanoseconds. A floating-point number is multiplied as one, and the
product is rounded with ties to even. -/
def nanoseconds : Quantity → Except Quantity.Error Int
  | .whole n => .ok (n * second)
  | .real x =>
    match (x.mul (Binary64.ofInt second)).nearestInteger with
    | .ok n => .ok n
    | .error e => .error (.noInteger e)

/-- A fraction with the given number of digits as a point and the digits up to the last one that is
not zero, or nothing at all. -/
def fraction (digits value : Nat) : List Char :=
  match ((Decimal.lastDigits digits value).reverse.dropWhile (· == '0')).reverse with
  | [] => []
  | ds => '.' :: ds

/-- Seconds below a minute, given in nanoseconds. -/
def secondsChars (ns : Nat) : List Char :=
  Decimal.digits (ns / second) ++ fraction 9 (ns % second) ++ ['s']

/-- A positive number of nanoseconds. Of milliseconds the first three digits of the fraction are
kept, of every other unit all of them. -/
def positiveChars (ns : Nat) : List Char :=
  if ns < 1000 then Decimal.digits ns ++ ['n', 's']
  else if ns < 1000000 then Decimal.digits (ns / 1000) ++ fraction 3 (ns % 1000) ++ ['µ', 's']
  else if ns < second then
    Decimal.digits (ns / 1000000) ++ fraction 3 (ns % 1000000 / 1000) ++ ['m', 's']
  else if ns < minute then secondsChars ns
  else
    (if hour ≤ ns then Decimal.digits (ns / hour) ++ ['h'] else [])
      ++ Decimal.digits (ns % hour / minute) ++ ['m'] ++ secondsChars (ns % minute)

/-- A number of nanoseconds. -/
def chars (ns : Int) : List Char :=
  if ns = 0 then ['0', 's']
  else (if ns < 0 then ['-'] else []) ++ positiveChars ns.natAbs

/-- A number of seconds as a duration. Its hours are the only number in it that may be too long to be
written. -/
def text (seconds : Quantity) : Except Quantity.Error String :=
  match nanoseconds seconds with
  | .ok ns =>
    if Literal.isWritable (ns.natAbs / hour) then .ok (String.ofList (chars ns))
    else .error .unwritable
  | .error e => .error e

end KeySearch.Duration
