import KeySearch.Number.Quantity
import KeySearch.Score

/-!
# Snapshots

A snapshot is what a search looks like at one moment: the best find so far, the number of keys tried
and the seconds gone by.
-/

set_option autoImplicit false

namespace KeySearch

/-- A search at one moment. -/
structure Snapshot (α : Type) where
  best : Option α
  generated : Int
  elapsed : Quantity
  deriving Repr, DecidableEq

/-- The keys tried per second, zero before any time has gone by. -/
def Snapshot.rate {α : Type} (s : Snapshot α) : Except Quantity.Error Binary64 :=
  if s.elapsed.exceeds 0 then s.elapsed.divide s.generated else .ok Binary64.zero

end KeySearch
