import KeySearch.Ini.Document
import KeySearch.Text.Blank
import KeySearch.Text.Lines
import KeySearch.Text.Lowercase
import KeySearch.Text.Quoted
import KeySearch.Text.Utf8

/-!
# Reading configurations

A configuration is read line by line. A line is a comment, blank, a section header in brackets, an
option with `=` or `:` between its name and its value, or the continuation of the option above it,
which is a line that is indented deeper. `Ini.read` gives the document or the error that ends the
reading: lines that are none of these are collected and reported together at the end.
-/

set_option autoImplicit false

namespace KeySearch.Ini

/-- Why a text is no configuration. Every error names the source and the lines at fault. -/
inductive ReadError
  /-- Something stands before the first section header. -/
  | missingHeader (source : List Nat) (line : Nat) (text : List Char)
  /-- A section has two headers. -/
  | duplicateSection (source : List Nat) (line : Nat) (name : String)
  /-- An option has two lines in one section. -/
  | duplicateOption (source : List Nat) (line : Nat) (sectionName option : String)
  /-- Some lines are neither headers nor options. -/
  | badLines (source : List Nat) (lines : List (Nat × List Char))
  deriving Repr, DecidableEq

/-- The literal of a line. -/
def quotedLine (text : List Char) : String := Text.quoted (text.map Char.toNat)

/-- A line number, two characters wide at least. -/
def paddedNumber (n : Nat) : String := (if n < 10 then " " else "") ++ toString n

/-- The message of an error. -/
def ReadError.message : ReadError → String
  | .missingHeader source line text =>
    "File contains no section headers.\nfile: " ++ Text.quoted source ++ ", line: "
      ++ toString line ++ "\n" ++ quotedLine text
  | .duplicateSection source line name =>
    "While reading from " ++ Text.quoted source ++ " [line " ++ paddedNumber line
      ++ "]: section " ++ Text.quotedString name ++ " already exists"
  | .duplicateOption source line sectionName option =>
    "While reading from " ++ Text.quoted source ++ " [line " ++ paddedNumber line
      ++ "]: option " ++ Text.quotedString option ++ " in section "
      ++ Text.quotedString sectionName ++ " already exists"
  | .badLines source lines =>
    "Source contains parsing errors: " ++ Text.quoted source
      ++ String.join (lines.map fun (number, text) =>
          "\n\t[line " ++ paddedNumber number ++ "]: " ++ quotedLine text)

/-- The name of the section whose options are defaults. -/
def defaultSection : String := "DEFAULT"

/-- What a line that is not a continuation says. -/
inductive Statement
  | header (name : String)
  | option (name value : String)
  | other
  deriving Repr, DecidableEq

/-- The name in a section header: all between the bracket that opens the line and the last bracket
that closes one, at least one character. -/
def headerName? : List Char → Option (List Char)
  | '[' :: rest =>
    match rest.reverse.dropWhile (· != ']') with
    | _ :: name => if name.isEmpty then none else some name.reverse
    | [] => none
  | _ => none

/-- Whether a character separates the name of an option from its value. -/
def isDelimiter (c : Char) : Bool := c == '=' || c == ':'

/-- Takes a line without white space around it apart. -/
def Statement.ofLine (line : List Char) : Statement :=
  match headerName? line with
  | some name => .header (String.ofList name)
  | none =>
    match line.dropWhile (fun c => !isDelimiter c) with
    | [] => .other
    | _ :: value =>
      let name := Text.trimEnd Text.isBlankChar (line.takeWhile fun c => !isDelimiter c)
      .option (Text.lowercaseString (String.ofList name)) (String.ofList (Text.stripChars value))

/-- An option and the lines of its value so far, the last one first. -/
structure OpenOption where
  name : String
  lines : List (List Char)

/-- A section whose lines are being read, its options last one first. -/
structure OpenSection where
  name : String
  options : List OpenOption

/-- How far the reading has come: the sections before the current one, last one first, the current
one, whether its last option can be continued, the indentation of the last statement, and the lines
at fault, last one first. -/
structure Progress where
  closed : List OpenSection
  current : Option OpenSection
  continuable : Bool
  indent : Nat
  faults : List (Nat × List Char)

/-- Nothing has been read yet. -/
def Progress.start : Progress := ⟨[], none, false, 0, []⟩

/-- Adds a line to the value of the last option. -/
def OpenSection.extend (s : OpenSection) (line : List Char) : OpenSection :=
  match s.options with
  | [] => s
  | o :: rest => { s with options := { o with lines := line :: o.lines } :: rest }

/-- Makes a section current. The default section may come back; its options are then continued. -/
def Progress.enter (p : Progress) (name : String) : Progress :=
  let closed :=
    match p.current with
    | none => p.closed
    | some s => s :: p.closed
  if name = defaultSection then
    match closed.find? fun s => s.name == name with
    | some s =>
      { p with
        closed := closed.filter fun s => s.name != name
        current := some s
        continuable := false }
    | none => { p with closed := closed, current := some ⟨name, []⟩, continuable := false }
  else { p with closed := closed, current := some ⟨name, []⟩, continuable := false }

/-- Whether a section of that name has been entered before. -/
def Progress.knows (p : Progress) (name : String) : Bool :=
  p.closed.any (fun s => s.name == name) ||
    (match p.current with
     | some s => s.name == name
     | none => false)

/-- Reads one line, which is given with its line end. -/
def Progress.readLine (source : List Nat) (p : Progress) (number : Nat) (line : List Char) :
    Except ReadError Progress :=
  let body := Text.stripChars line
  match body with
  | [] =>
    match p.current with
    | some s => .ok (if p.continuable then { p with current := some (s.extend []) } else p)
    | none => .ok p
  | first :: _ =>
    if first == '#' || first == ';' then .ok p
    else
      let indent := (line.takeWhile Text.isBlankChar).length
      match p.current with
      | none =>
        match Statement.ofLine body with
        | .header name => .ok { p.enter name with indent := indent }
        | _ => .error (.missingHeader source number line)
      | some s =>
        if p.continuable && p.indent < indent then
          .ok { p with current := some (s.extend body) }
        else
          match Statement.ofLine body with
          | .header name =>
            if name != defaultSection && p.knows name then
              .error (.duplicateSection source number name)
            else .ok { p.enter name with indent := indent }
          | .option name value =>
            if s.options.any fun o => o.name == name then
              .error (.duplicateOption source number s.name name)
            else
              .ok { p with
                    current := some { s with options := ⟨name, [value.toList]⟩ :: s.options }
                    continuable := name != ""
                    indent := indent
                    faults := if name = "" then (number, line) :: p.faults else p.faults }
          | .other => .ok { p with indent := indent, faults := (number, line) :: p.faults }

/-- The value that the lines of an option make: lines joined, without white space at the end. -/
def OpenOption.close (o : OpenOption) : String × String :=
  let text := List.intercalate ['\n'] o.lines.reverse
  (o.name, String.ofList (Text.trimEnd Text.isBlankChar text))

/-- A section with all its lines read. -/
def OpenSection.close (s : OpenSection) : Section :=
  ⟨s.name, s.options.reverse.map OpenOption.close⟩

/-- The document that all lines make. -/
def Progress.document (p : Progress) : Document :=
  let all := (match p.current with
    | some s => s :: p.closed
    | none => p.closed).reverse.map OpenSection.close
  { defaults := (all.filter fun s => s.name == defaultSection).flatMap Section.options
    sections := all.filter fun s => s.name != defaultSection }

/-- Reads lines, numbered from the given one on. -/
def readLines (source : List Nat) : Progress → Nat → List (List Char) → Except ReadError Progress
  | p, _, [] => .ok p
  | p, number, line :: lines =>
    match p.readLine source number line with
    | .error e => .error e
    | .ok p => readLines source p (number + 1) lines

/-- The document, unless some lines were at fault. -/
def Progress.finish (source : List Nat) (p : Progress) : Except ReadError Document :=
  if p.faults.isEmpty then .ok p.document else .error (.badLines source p.faults.reverse)

/-- Reads a configuration from a text whose lines end in line feeds. -/
def read (source : List Nat) (text : List Char) : Except ReadError Document :=
  match readLines source Progress.start 1 (Text.splitLines text) with
  | .error e => .error e
  | .ok p => p.finish source

/-- Why the bytes of a file are no configuration. -/
inductive FileError
  /-- The text has a fault. -/
  | text (e : ReadError)
  /-- The bytes are no text. -/
  | undecodable (e : Utf8.Error)
  deriving Repr, DecidableEq

/-- Reads a configuration from the bytes of a file. The lines that are complete before a block with
a fault are read first, so that a fault of the text there is the one that counts. -/
def readFile (source : List Nat) (bytes : List UInt8) : Except FileError Document :=
  match Utf8.decodeBlocks (Utf8.blockCount bytes) [] bytes with
  | (text, none) =>
    match read source (Text.unifyLineEnds text) with
    | .ok d => .ok d
    | .error e => .error (.text e)
  | (text, some e) =>
    match readLines source Progress.start 1 (Text.completeLines text) with
    | .error e => .error (.text e)
    | .ok _ => .error (.undecodable e)

end KeySearch.Ini
