import KeySearch.Json.Value
import KeySearch.Number.Literal

/-!
# Reading JSON

`Json.read` turns a text into a value, or says what was expected and where: an error carries the
rest of the text from the place of the fault, and `Json.ReadError.message` turns that into a line, a
column and an offset. Beyond the standard, `NaN`, `Infinity` and `-Infinity` are numbers. Arrays and
objects stand in one another up to a certain depth.
-/

set_option autoImplicit false

namespace KeySearch.Json

/-- What is wrong at a place of a text. -/
inductive Fault
  | expectedValue
  | expectedName
  | expectedColon
  | expectedComma
  | extraData
  | byteOrderMark
  | badEscape
  | badUnicodeEscape
  | controlCharacter
  | unterminatedString
  /-- An integer has more digits than are accepted. -/
  | tooLong (digits : Nat)
  /-- An array stands in too many arrays and objects. -/
  | arrayTooDeep
  /-- An object stands in too many arrays and objects. -/
  | objectTooDeep
  deriving Repr, DecidableEq

/-- The wording of a fault. -/
def Fault.text : Fault → String
  | .expectedValue => "Expecting value"
  | .expectedName => "Expecting property name enclosed in double quotes"
  | .expectedColon => "Expecting ':' delimiter"
  | .expectedComma => "Expecting ',' delimiter"
  | .extraData => "Extra data"
  | .byteOrderMark => "Unexpected UTF-8 BOM (decode using utf-8-sig)"
  | .badEscape => "Invalid \\escape"
  | .badUnicodeEscape => "Invalid \\uXXXX escape"
  | .controlCharacter => "Invalid control character at"
  | .unterminatedString => "Unterminated string starting at"
  | .tooLong digits => (Literal.Error.tooLong digits).message
  | .arrayTooDeep =>
    "maximum recursion depth exceeded while decoding a JSON array from a unicode string"
  | .objectTooDeep =>
    "maximum recursion depth exceeded while decoding a JSON object from a unicode string"

/-- Whether the fault is the depth of the text rather than its form. -/
def Fault.isDepth : Fault → Bool
  | .arrayTooDeep | .objectTooDeep => true
  | _ => false

/-- A fault and the text from its place on. -/
structure Failure where
  fault : Fault
  rest : List Nat
  deriving Repr, DecidableEq

/-- The result of reading something off the front of a text: it and the rest, or a failure. -/
abbrev Step (α : Type) := Except Failure (α × List Nat)

/-- The white space of JSON. -/
def isSpace (c : Nat) : Bool := c == 0x20 || c == 0x09 || c == 0x0a || c == 0x0d

/-- A text without the white space at its front. -/
def skip (text : List Nat) : List Nat := text.dropWhile isSpace

/-- The value of a hexadecimal digit. -/
def hexValue? (c : Nat) : Option Nat :=
  if 0x30 ≤ c && c ≤ 0x39 then some (c - 0x30)
  else if 0x61 ≤ c && c ≤ 0x66 then some (c - 0x61 + 10)
  else if 0x41 ≤ c && c ≤ 0x46 then some (c - 0x41 + 10)
  else none

/-- The number that four hexadecimal digits spell. -/
def hexUnit? (a b c d : Nat) : Option Nat :=
  match hexValue? a, hexValue? b, hexValue? c, hexValue? d with
  | some a, some b, some c, some d => some (((a * 16 + b) * 16 + c) * 16 + d)
  | _, _, _, _ => none

/-- Reads four hexadecimal digits after `u`, the first element of the text. At least one more code
point has to follow them. -/
def readUnit : List Nat → Step Nat
  | u :: a :: b :: c :: d :: next :: rest =>
    match hexUnit? a b c d with
    | some unit => .ok (unit, next :: rest)
    | none => .error ⟨.badUnicodeEscape, u :: a :: b :: c :: d :: next :: rest⟩
  | text => .error ⟨.badUnicodeEscape, text⟩

/-- Whether a code unit opens a surrogate pair. -/
def isHighSurrogate (c : Nat) : Bool := 0xd800 ≤ c && c ≤ 0xdbff

/-- Whether a code unit closes a surrogate pair. -/
def isLowSurrogate (c : Nat) : Bool := 0xdc00 ≤ c && c ≤ 0xdfff

/-- Reads the escape that follows a backslash and starts with `u`. Two escapes that are the halves
of a surrogate pair give one code point. -/
def readUnicodeEscape (text : List Nat) : Step Nat :=
  match readUnit text with
  | .error e => .error e
  | .ok (unit, rest) =>
    match rest with
    | 0x5c :: 0x75 :: more =>
      if isHighSurrogate unit && 5 ≤ more.length then
        match readUnit (0x75 :: more) with
        | .error e => .error e
        | .ok (low, after) =>
          if isLowSurrogate low then
            .ok (0x10000 + (unit - 0xd800) * 0x400 + (low - 0xdc00), after)
          else .ok (unit, rest)
      else .ok (unit, rest)
    | _ => .ok (unit, rest)

/-- The code point that a letter behind a backslash stands for. -/
def simpleEscape? (c : Nat) : Option Nat :=
  if c = 0x22 || c = 0x5c || c = 0x2f then some c
  else if c = 0x62 then some 0x08
  else if c = 0x66 then some 0x0c
  else if c = 0x6e then some 0x0a
  else if c = 0x72 then some 0x0d
  else if c = 0x74 then some 0x09
  else none

/-- Reads a string from behind its opening quote; `opening` is the text from that quote on. -/
def readString (opening : List Nat) : Nat → List Nat → Step (List Nat)
  | 0, _ => .error ⟨.unterminatedString, opening⟩
  | fuel + 1, text =>
    match text with
    | [] => .error ⟨.unterminatedString, opening⟩
    | c :: rest =>
      if c = 0x22 then .ok ([], rest)
      else if c = 0x5c then
        match rest with
        | [] => .error ⟨.unterminatedString, opening⟩
        | e :: after =>
          let escape : Step Nat :=
            if e = 0x75 then readUnicodeEscape rest
            else
              match simpleEscape? e with
              | some value => .ok (value, after)
              | none => .error ⟨.badEscape, text⟩
          match escape with
          | .error e => .error e
          | .ok (value, rest) =>
            match readString opening fuel rest with
            | .error e => .error e
            | .ok (tail, rest) => .ok (value :: tail, rest)
      else if c ≤ 0x1f then .error ⟨.controlCharacter, text⟩
      else
        match readString opening fuel rest with
        | .error e => .error e
        | .ok (tail, rest) => .ok (c :: tail, rest)

/-- Whether a code point is an ASCII digit. -/
def isDigit (c : Nat) : Bool := 0x30 ≤ c && c ≤ 0x39

/-- Takes a fraction off the front of a text: a point with at least one digit behind it. -/
def readFraction : List Nat → Bool × List Nat
  | 0x2e :: d :: rest =>
    if isDigit d then (true, rest.dropWhile isDigit) else (false, 0x2e :: d :: rest)
  | text => (false, text)

/-- Takes the sign of an exponent off the front of a text. -/
def dropSign : List Nat → List Nat
  | 0x2b :: rest => rest
  | 0x2d :: rest => rest
  | text => text

/-- Takes an exponent off the front of a text: a letter `e`, a sign or none, at least one digit. -/
def readExponent (text : List Nat) : Bool × List Nat :=
  match text with
  | [] => (false, [])
  | e :: rest =>
    if e = 0x65 || e = 0x45 then
      match dropSign rest with
      | d :: more => if isDigit d then (true, more.dropWhile isDigit) else (false, text)
      | [] => (false, text)
    else (false, text)

/-- Takes a minus sign off the front of a text. -/
def readMinus : List Nat → Bool × List Nat
  | 0x2d :: rest => (true, rest)
  | text => (false, text)

/-- Takes the digits before the point off the front of a text: a single zero, or digits that do not
start with one. -/
def readWhole : List Nat → List Nat × List Nat
  | [] => ([], [])
  | c :: rest =>
    if c = 0x30 then ([c], rest)
    else ((c :: rest).takeWhile isDigit, (c :: rest).dropWhile isDigit)

/-- Reads a number. -/
def readNumber (text : List Nat) : Step Json :=
  let (negative, body) := readMinus text
  let (whole, rest) := readWhole body
  if whole.isEmpty then .error ⟨.expectedValue, text⟩
  else
    let (hasFraction, rest) := readFraction rest
    let (hasExponent, rest) := readExponent rest
    if hasFraction || hasExponent then .ok (.float, rest)
    else if Literal.maxDigits < whole.length then .error ⟨.tooLong whole.length, text⟩
    else
      let value := Int.ofNat (Literal.ofDigits (whole.map (· - 0x30)))
      .ok (.int (if negative then -value else value), rest)

/-- The words that stand for a value. -/
def wordValues : List (String × Json) :=
  [("null", .null), ("true", .bool true), ("false", .bool false), ("NaN", .float),
   ("Infinity", .float), ("-Infinity", .float)]

/-- Takes a word off the front of a text. -/
def dropWord? (word : List Nat) (text : List Nat) : Option (List Nat) :=
  if word.isPrefixOf text then some (text.drop word.length) else none

/-- Reads a word or a number. -/
def readAtom (text : List Nat) : Step Json :=
  match wordValues.findSome? fun (word, value) =>
      (dropWord? (Text.codePoints word) text).map fun rest => (value, rest) with
  | some result => .ok result
  | none => readNumber text

/-- How many arrays and objects may stand in one another. Each of them takes a call while it is read,
and of the thousand calls that may be under way at a time twelve are: six are those of loading a saved
key, and six those of whoever asks for it. -/
def maxDepth : Nat := 988

mutual

/-- Reads a value that starts at the front of the text. It may hold arrays and objects in one
another to the given depth. -/
def readValue (depth : Nat) : Nat → List Nat → Step Json
  | 0, text => .error ⟨.expectedValue, text⟩
  | fuel + 1, text =>
    match text with
    | [] => .error ⟨.expectedValue, text⟩
    | c :: rest =>
      if c = 0x22 then
        match readString text (rest.length + 1) rest with
        | .error e => .error e
        | .ok (value, rest) => .ok (.str value, rest)
      else if c = 0x7b then
        match depth, skip rest with
        | 0, _ => .error ⟨.objectTooDeep, text⟩
        | _ + 1, 0x7d :: rest => .ok (.obj [], rest)
        | depth + 1, rest =>
          match readFields depth fuel rest with
          | .error e => .error e
          | .ok (fields, rest) => .ok (.obj fields, rest)
      else if c = 0x5b then
        match depth, skip rest with
        | 0, _ => .error ⟨.arrayTooDeep, text⟩
        | _ + 1, 0x5d :: rest => .ok (.arr [], rest)
        | depth + 1, rest =>
          match readItems depth fuel rest with
          | .error e => .error e
          | .ok (items, rest) => .ok (.arr items, rest)
      else readAtom text

/-- Reads the items of an array up to its closing bracket. -/
def readItems (depth : Nat) : Nat → List Nat → Step (List Json)
  | 0, text => .error ⟨.expectedValue, text⟩
  | fuel + 1, text =>
    match readValue depth fuel text with
    | .error e => .error e
    | .ok (value, rest) =>
      match skip rest with
      | 0x5d :: rest => .ok ([value], rest)
      | 0x2c :: rest =>
        match readItems depth fuel (skip rest) with
        | .error e => .error e
        | .ok (items, rest) => .ok (value :: items, rest)
      | rest => .error ⟨.expectedComma, rest⟩

/-- Reads the fields of an object up to its closing brace. -/
def readFields (depth : Nat) : Nat → List Nat → Step (List (List Nat × Json))
  | 0, text => .error ⟨.expectedName, text⟩
  | fuel + 1, text =>
    match text with
    | 0x22 :: rest =>
      match readString text (rest.length + 1) rest with
      | .error e => .error e
      | .ok (name, rest) =>
        match skip rest with
        | 0x3a :: rest =>
          match readValue depth fuel (skip rest) with
          | .error e => .error e
          | .ok (value, rest) =>
            match skip rest with
            | 0x7d :: rest => .ok ([(name, value)], rest)
            | 0x2c :: rest =>
              match readFields depth fuel (skip rest) with
              | .error e => .error e
              | .ok (fields, rest) => .ok ((name, value) :: fields, rest)
            | rest => .error ⟨.expectedComma, rest⟩
        | rest => .error ⟨.expectedColon, rest⟩
    | _ => .error ⟨.expectedName, text⟩

end

/-- Why a text is no JSON value: a fault, and the offset and the text that place it. -/
structure ReadError where
  failure : Failure
  text : List Nat
  deriving Repr, DecidableEq

/-- Reads a text that holds one value and white space around it. -/
def read (text : List Nat) : Except ReadError Json :=
  if text.head? = some 0xfeff then .error ⟨⟨.byteOrderMark, text⟩, text⟩
  else
    match readValue maxDepth (2 * text.length + 2) (skip text) with
    | .error e => .error ⟨e, text⟩
    | .ok (value, rest) =>
      match skip rest with
      | [] => .ok value
      | rest => .error ⟨⟨.extraData, rest⟩, text⟩

/-- The number of line feeds in a text. -/
def lineFeeds (text : List Nat) : Nat := text.countP (· == 0x0a)

/-- The message of an error: the fault with its line, its column and its offset. What is too long or
too deep is not placed. -/
def ReadError.message (e : ReadError) : String :=
  match e.failure.fault with
  | .tooLong digits => (Fault.tooLong digits).text
  | .arrayTooDeep => Fault.text .arrayTooDeep
  | .objectTooDeep => Fault.text .objectTooDeep
  | fault =>
    let offset := e.text.length - e.failure.rest.length
    let before := e.text.take offset
    let column := (before.reverse.takeWhile (· != 0x0a)).length + 1
    fault.text ++ ": line " ++ toString (lineFeeds before + 1) ++ " column " ++ toString column
      ++ " (char " ++ toString offset ++ ")"

end KeySearch.Json
