import KeySearch.CommandLine.Usage

/-!
# Words of a command line

Every word is told apart on its own: it names an option, perhaps with a value attached to it, or it
looks like an option but is none, or it is plain and may be the value of the option before it. A
long spelling may be abbreviated as long as it stays unique. Behind the word `--` all words are
plain.
-/

set_option autoImplicit false

namespace KeySearch.CommandLine

/-- What a word is. -/
inductive Word
  | plain (text : List Nat)
  /-- An option, whether in its short spelling, and what is attached to it. -/
  | named (flag : Flag) (short : Bool) (attached : Option (List Nat))
  /-- A word that is neither an option nor a value. -/
  | stray (text : List Nat)
  deriving Repr, DecidableEq

namespace Word

/-- Whether a spelling is short. -/
def isShort : List Nat → Bool
  | 0x2d :: 0x2d :: _ => false
  | _ => true

/-- A word at its first equals sign. -/
def splitEquals (text : List Nat) : List Nat × Option (List Nat) :=
  match text.dropWhile (· != 0x3d) with
  | [] => (text, none)
  | _ :: value => (text.takeWhile (· != 0x3d), some value)

/-- The spellings that a word may stand for, each with its option and what is attached to it: a long
one of which the word up to the equals sign is a beginning, or a short one that begins the word. -/
def readings (text : List Nat) : List (List Nat × Flag × Option (List Nat)) :=
  match text with
  | 0x2d :: 0x2d :: _ =>
    let (beginning, attached) := splitEquals text
    (Flag.allSpellings.filter fun entry => beginning.isPrefixOf entry.1).map fun entry =>
      (entry.1, entry.2, attached)
  | _ =>
    (Flag.allSpellings.filter fun entry => entry.1 == text.take 2).map fun entry =>
      (entry.1, entry.2, some (text.drop 2))

/-- Whether a code point is a decimal digit of any script. -/
def isDigit (c : Nat) : Bool := (Text.digitValue? c).isSome

/-- A text without one line feed at its end. -/
def dropLineEnd (text : List Nat) : List Nat :=
  if text.getLast? = some 0x0a then text.dropLast else text

/-- Whether a word is a minus sign with digits behind it, among which one point may stand that is
not the last. -/
def looksNegative (text : List Nat) : Bool :=
  match dropLineEnd text with
  | 0x2d :: number =>
    match number.dropWhile isDigit with
    | [] => !number.isEmpty
    | 0x2e :: fraction => !fraction.isEmpty && fraction.all isDigit
    | _ => false
  | _ => false

/-- A word that is no spelling and no abbreviation of an option. -/
def leftOver (text : List Nat) : Word :=
  if looksNegative text || text.contains 0x20 then .plain text else .stray text

/-- A word that is no option in its exact spelling, with or without a value attached to it. -/
def abbreviated (text : List Nat) : Except UsageError Word :=
  match readings text with
  | [] => .ok (leftOver text)
  | [(spelling, flag, attached)] => .ok (.named flag (isShort spelling) attached)
  | several => .error (.ambiguous text (several.map Prod.fst))

/-- What an option word is that may have a value behind an equals sign. -/
def assigned (text : List Nat) : Except UsageError Word :=
  match splitEquals text with
  | (spelling, some value) =>
    match Flag.ofSpelling? spelling with
    | some flag => .ok (.named flag (isShort spelling) (some value))
    | none => abbreviated text
  | _ => abbreviated text

/-- What a word is that stands before any `--`. -/
def ofText (text : List Nat) : Except UsageError Word :=
  match text with
  | 0x2d :: rest =>
    match Flag.ofSpelling? text with
    | some flag => .ok (.named flag (isShort text) none)
    | none => if rest.isEmpty then .ok (.plain text) else assigned text
  | _ => .ok (.plain text)

/-- What the words of a command line are. -/
def ofTexts : List (List Nat) → Except UsageError (List Word)
  | [] => .ok []
  | text :: rest =>
    if text = Text.codePoints "--" then .ok (.stray text :: rest.map .plain)
    else
      match ofText text with
      | .error e => .error e
      | .ok word => (ofTexts rest).map (word :: ·)

end Word

end KeySearch.CommandLine
