import KeySearch.Number.Literal

/-!
# Time limits

A time limit is a number of seconds, or hours and minutes with a colon between them. Both parts are
integers of any size and sign.
-/

set_option autoImplicit false

namespace KeySearch.CommandLine.Timeout

/-- The parts of a text between colons. -/
def splitColons : List Nat → List (List Nat)
  | [] => [[]]
  | c :: rest =>
    match splitColons rest with
    | [] => [[]]
    | part :: parts => if c = 0x3a then [] :: part :: parts else (c :: part) :: parts

/-- An integer, or nothing if the text spells none. -/
def readPart (text : List Nat) : Option Int := (Literal.read text).toOption

/-- The seconds of a time limit. -/
def read (text : List Nat) : Option Int :=
  match splitColons text with
  | [seconds] => readPart seconds
  | [hours, minutes] =>
    match readPart hours, readPart minutes with
    | some h, some m => some (h * 3600 + m * 60)
    | _, _ => none
  | _ => none

/-- The message for a text that is no time limit. -/
def malformed : String := "Invalid timeout format"

end KeySearch.CommandLine.Timeout
