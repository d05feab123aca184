/-!
# JSON values

A JSON text holds one value. Strings are lists of code points, since an escape can name half of a
surrogate pair, and the fields of an object stay in the order of the text.
-/

set_option autoImplicit false

namespace KeySearch

/-- A value of a JSON text. -/
inductive Json
  | null
  | bool (value : Bool)
  | int (value : Int)
  /-- A number with a fraction or an exponent, or one that is infinite or not a number at all. Its
  value is never asked for. -/
  | float
  | str (text : List Nat)
  | arr (items : List Json)
  | obj (fields : List (List Nat × Json))
  deriving Repr

namespace Json

/-- The value of a field: of several with one name the last one counts. -/
def field? (fields : List (List Nat × Json)) (name : List Nat) : Option Json :=
  fields.foldl (fun found field => if field.1 = name then some field.2 else found) none

end Json

end KeySearch
