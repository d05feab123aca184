import KeySearch.Text.Digit
import KeySearch.Text.Quoted

/-!
# Integer literals

How integers are read from options and configuration values: white space around, one sign, decimal
digits of any script, single underscores between digits, and at most 4300 digits.
-/

set_option autoImplicit false

namespace KeySearch.Literal

/-- Why a text is no integer. -/
inductive Error
  /-- The text is not of the form of a literal. -/
  | malformed (text : List Nat)
  /-- The literal is longer than is accepted. -/
  | tooLong (digits : Nat)
  deriving Repr, DecidableEq

/-- The most digits of a literal. -/
def maxDigits : Nat := 4300

/-- The message of an error. A malformed text is quoted up to 200 characters. -/
def Error.message : Error → String
  | .malformed text =>
    "invalid literal for int() with base 10: " ++ String.ofList ((Text.quotedChars text).take 200)
  | .tooLong digits =>
    "Exceeds the limit (" ++ toString maxDigits
      ++ " digits) for integer string conversion: value has " ++ toString digits
      ++ " digits; use sys.set_int_max_str_digits() to increase the limit"

/-- Whether an integer can be written: it has no more digits than a literal may have. -/
def isWritable (n : Int) : Bool := n.natAbs < Nat.pow 10 maxDigits

/-- What is wrong with an integer that cannot be written. -/
def unwritableText : String :=
  "Exceeds the limit (" ++ toString maxDigits ++ " digits) for integer string conversion; "
    ++ "use sys.set_int_max_str_digits() to increase the limit"

/-- The white space that may stand around a literal: all but the information separators. -/
def isMargin (c : Nat) : Bool := Text.isBlank c && !(0x1c ≤ c && c ≤ 0x1f)

/-- Reads digits up to the first code point that is neither a digit nor an underscore, and gives
their values and the rest. An underscore must have a digit on either side; `atEdge` says that the
code point before is none. -/
def readDigits (atEdge : Bool) : List Nat → Option (List Nat × List Nat)
  | [] => if atEdge then none else some ([], [])
  | c :: rest =>
    if c = 0x5f then (if atEdge then none else readDigits true rest)
    else
      match Text.digitValue? c with
      | some d => (readDigits false rest).map fun (ds, rest) => (d :: ds, rest)
      | none => if atEdge then none else some ([], c :: rest)

/-- The number with the given digits, most significant first. -/
def ofDigits (digits : List Nat) : Nat := digits.foldl (fun value d => value * 10 + d) 0

/-- Takes the sign off the front of a text. -/
def readSign : List Nat → Bool × List Nat
  | 0x2b :: rest => (false, rest)
  | 0x2d :: rest => (true, rest)
  | text => (false, text)

/-- The integer that a text spells. -/
def read (text : List Nat) : Except Error Int :=
  let (negative, body) := readSign (text.dropWhile isMargin)
  match readDigits true body with
  | none => .error (.malformed text)
  | some (digits, rest) =>
    if maxDigits < digits.length then .error (.tooLong digits.length)
    else if !(rest.dropWhile isMargin).isEmpty then .error (.malformed text)
    else .ok (if negative then -Int.ofNat (ofDigits digits) else Int.ofNat (ofDigits digits))

/-- The integer that a character text spells. -/
def readString (text : String) : Except Error Int := read (Text.codePoints text)

end KeySearch.Literal
