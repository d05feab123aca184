import KeySearch.Number.Quantity

/-!
# Counts

Large numbers of keys are shortened to thousands, millions or billions.
-/

set_option autoImplicit false

namespace KeySearch.Count

/-- A count divided by a unit, with a fixed number of places. -/
def inUnits (count : Int) (unit places : Nat) : Except Quantity.Error String :=
  match Quantity.ratio count unit with
  | .ok x => .ok (Decimal.fixed places false x)
  | .error e => .error e

/-- A count, shortened from a thousand on. -/
def text (count : Int) : Except Quantity.Error String :=
  if 1000000000 ≤ count then (inUnits count 1000000000 2).map (· ++ "B")
  else if 1000000 ≤ count then (inUnits count 1000000 2).map (· ++ "M")
  else if 1000 ≤ count then (inUnits count 1000 0).map (· ++ "k")
  else .ok (Decimal.grouped count)

end KeySearch.Count
