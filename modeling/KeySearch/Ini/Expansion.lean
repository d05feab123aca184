import KeySearch.Ini.Document
import KeySearch.Number.Literal
import KeySearch.Text.Lowercase

/-!
# Values of options

The raw value of an option may refer to other options: `%(name)s` stands for the value of `name`,
`%%` for a percent sign, and a percent sign may not stand for itself. References are followed when a
value is asked for, ten levels deep at most. `Document.get?` is the value of an option, and
`Document.getInt` and `Document.getBool` read it as an integer or as a yes or no.
-/

set_option autoImplicit false

namespace KeySearch.Ini

/-- What keeps a raw value from being expanded. -/
inductive ExpansionFault
  /-- A reference names no option. -/
  | missing (key : String)
  /-- A reference does not end. -/
  | badReference (rest : List Char)
  /-- A percent sign stands before something else. -/
  | strayPercent (rest : List Char)
  /-- References are nested too deep. -/
  | tooDeep
  deriving Repr, DecidableEq

/-- A fault in the value of an option, with the option and its raw value. -/
structure ExpansionError where
  fault : ExpansionFault
  option : String
  sectionName : String
  raw : String
  deriving Repr, DecidableEq

/-- The most levels of references. -/
def maxLevels : Nat := 10

/-- The message of an error. -/
def ExpansionError.message (e : ExpansionError) : String :=
  let place := "option " ++ Text.quotedString e.option ++ " in section "
    ++ Text.quotedString e.sectionName
  match e.fault with
  | .missing key =>
    "Bad value substitution: " ++ place ++ " contains an interpolation key "
      ++ Text.quotedString key ++ " which is not a valid option name. Raw value: "
      ++ Text.quotedString e.raw
  | .badReference rest =>
    "bad interpolation variable reference " ++ Text.quoted (rest.map Char.toNat)
  | .strayPercent rest =>
    "'%' must be followed by '%' or '(', found: " ++ Text.quoted (rest.map Char.toNat)
  | .tooDeep =>
    "Recursion limit exceeded in value substitution: " ++ place
      ++ " contains an interpolation key which cannot be substituted in " ++ toString maxLevels
      ++ " steps. Raw value: " ++ Text.quotedString e.raw

/-- A piece of a raw value. -/
inductive Piece
  | plain (c : Char)
  | reference (key : String)
  | fault (f : ExpansionFault)
  deriving Repr, DecidableEq

/-- Takes the name of a reference and its end off a text that follows `%(`. -/
def takeReference? (text : List Char) : Option (List Char × List Char) :=
  match text.takeWhile (· != ')'), text.dropWhile (· != ')') with
  | c :: key, ')' :: 's' :: rest => some (c :: key, rest)
  | _, _ => none

/-- The pieces of a raw value up to its first fault. The first argument bounds their number. -/
def pieces : Nat → List Char → List Piece
  | 0, _ => []
  | fuel + 1, text =>
    match text with
    | [] => []
    | '%' :: '%' :: rest => .plain '%' :: pieces fuel rest
    | '%' :: '(' :: rest =>
      match takeReference? rest with
      | some (key, rest) =>
        .reference (Text.lowercaseString (String.ofList key)) :: pieces fuel rest
      | none => [.fault (.badReference text)]
    | '%' :: _ => [.fault (.strayPercent text)]
    | c :: rest => .plain c :: pieces fuel rest

/-- Puts pieces together. A reference whose value holds a percent sign is expanded in its turn. -/
def expandPieces (expand : List Char → Except ExpansionFault (List Char))
    (value? : String → Option String) : List Piece → Except ExpansionFault (List Char)
  | [] => .ok []
  | .plain c :: rest =>
    match expandPieces expand value? rest with
    | .ok text => .ok (c :: text)
    | .error f => .error f
  | .fault f :: _ => .error f
  | .reference key :: rest =>
    match value? key with
    | none => .error (.missing key)
    | some raw =>
      match (if raw.toList.contains '%' then expand raw.toList else .ok raw.toList) with
      | .error f => .error f
      | .ok value =>
        match expandPieces expand value? rest with
        | .ok text => .ok (value ++ text)
        | .error f => .error f

/-- Expands a raw value with references at most so many levels deep. -/
def expandWithin (value? : String → Option String) :
    Nat → List Char → Except ExpansionFault (List Char)
  | 0, _ => .error .tooDeep
  | levels + 1, text =>
    expandPieces (expandWithin value? levels) value? (pieces text.length text)

namespace Document

/-- The expanded form of a raw value that belongs to an option of a section. -/
def expand (d : Document) (sectionName : String) (options : Options) (option raw : String) :
    Except ExpansionError String :=
  match expandWithin (d.lookup? options) maxLevels raw.toList with
  | .ok text => .ok (String.ofList text)
  | .error fault => .error ⟨fault, option, sectionName, raw⟩

/-- The value of an option, `none` when the section or the option does not exist. -/
def get? (d : Document) (sectionName option : String) : Except ExpansionError (Option String) :=
  match d.section? sectionName with
  | none => .ok none
  | some options =>
    match d.lookup? options option with
    | none => .ok none
    | some raw =>
      match d.expand sectionName options option raw with
      | .ok value => .ok (some value)
      | .error e => .error e

/-- Why the value of an option is not of the kind that is asked for. -/
inductive ValueError
  | expansion (e : ExpansionError)
  | integer (e : Literal.Error)
  | boolean (text : String)
  deriving Repr, DecidableEq

/-- The value of an option as an integer, or the given one when there is none. -/
def getInt (d : Document) (sectionName option : String) (default : Int) :
    Except ValueError Int :=
  match d.get? sectionName option with
  | .error e => .error (.expansion e)
  | .ok none => .ok default
  | .ok (some text) =>
    match Literal.readString text with
    | .ok n => .ok n
    | .error e => .error (.integer e)

/-- The words for yes and no, in lower case. -/
def booleanWords : List (String × Bool) :=
  [("1", true), ("yes", true), ("true", true), ("on", true),
   ("0", false), ("no", false), ("false", false), ("off", false)]

/-- The value of an option as a yes or no, or the given one when there is none. -/
def getBool (d : Document) (sectionName option : String) (default : Bool) :
    Except ValueError Bool :=
  match d.get? sectionName option with
  | .error e => .error (.expansion e)
  | .ok none => .ok default
  | .ok (some text) =>
    match booleanWords.find? fun word => word.1 == Text.lowercaseString text with
    | some word => .ok word.2
    | none => .error (.boolean text)

/-- The expanded options of a section, defaults included, or the first fault among them. -/
def expandedOptions (d : Document) (s : Section) : Except ExpansionError Options :=
  (d.allOptions s.options).mapM fun option =>
    match d.expand s.name s.options option.1 option.2 with
    | .ok value => .ok (option.1, value)
    | .error e => .error e

end Document

end KeySearch.Ini
