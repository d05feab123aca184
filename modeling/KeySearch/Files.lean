import KeySearch.Text.Surrogate

/-!
# Files

A file system as far as a program meets it: the working directory, and files and directories under
paths, which are lists of names from the root on. Texts name places in it in the usual way.
`Files.locate` follows such a text name by name, `Files.makeDirectory` makes a directory with all
that leads to it, and `Files.write` writes a file; both take a `Location`, which also says how the
root is written. Names and texts have a largest size, and neither a null character nor a surrogate
that stands for no byte is in them.

All that is ever asked of a file system goes through `Files.node?`.
-/

set_option autoImplicit false

namespace KeySearch

/-- Names from the root on. A name need not be one of characters. -/
abbrev Path := List (List Nat)

/-- What can stand at a path. -/
inductive FileNode
  | file (bytes : List UInt8)
  | directory
  /-- Something else, and what is read from it. -/
  | device (bytes : List UInt8)
  deriving Repr, DecidableEq

/-- What there is to read, unless it is a directory. -/
def FileNode.content? : FileNode → Option (List UInt8)
  | .file bytes | .device bytes => some bytes
  | .directory => none

/-- A file system. -/
structure Files where
  /-- The working directory. -/
  here : Path
  nodes : List (Path × FileNode)
  deriving Repr, DecidableEq

namespace Files

/-- Why a file operation fails. An error names the place as a text. -/
inductive Error
  | fileExists (place : List Nat)
  | notADirectory (place : List Nat)
  | isADirectory (place : List Nat)
  | nameTooLong (place : List Nat)
  /-- A text was to name a place that is no name in bytes. -/
  | unencodable (e : Text.EncodingError)
  /-- A text with a null character in it was to name a place. -/
  | nullCharacter
  /-- Too many directories are missing on the way to one that was to be made. -/
  | tooDeep
  deriving Repr, DecidableEq

/-- The message of an error. -/
def Error.message : Error → String
  | .fileExists place => "[Errno 17] File exists: " ++ Text.quoted place
  | .notADirectory place => "[Errno 20] Not a directory: " ++ Text.quoted place
  | .isADirectory place => "[Errno 21] Is a directory: " ++ Text.quoted place
  | .nameTooLong place => "[Errno 36] File name too long: " ++ Text.quoted place
  | .unencodable e => e.message
  | .nullCharacter => "embedded null byte"
  | .tooDeep => "maximum recursion depth exceeded"

/-- How many bytes a name may have. -/
def maxNameSize : Nat := 255

/-- How many bytes the text of a place may have. -/
def maxPlaceSize : Nat := 4095

/-- Why a text cannot name a place at all, if so. -/
def placeFault? (place : List Nat) : Option Error :=
  match Text.nameError? place with
  | some e => some (.unencodable e)
  | none =>
    if place.contains 0 then some .nullCharacter
    else if maxPlaceSize < Text.byteSize place then some (.nameTooLong place)
    else none

/-- What stands at a path. The working directory and all above it are always there. -/
def node? (f : Files) (path : Path) : Option FileNode :=
  if path.isPrefixOf f.here then some .directory
  else (f.nodes.find? fun entry => entry.1 == path).map Prod.snd

/-- Puts something at a path, in place of what stood there. -/
def put (f : Files) (path : Path) (node : FileNode) : Files :=
  { f with nodes := f.nodes.filter (fun entry => entry.1 != path) ++ [(path, node)] }

@[simp] theorem here_put (f : Files) (path : Path) (node : FileNode) :
    (f.put path node).here = f.here := rfl

theorem node?_put_self {f : Files} {path : Path} (node : FileNode)
    (h : path.isPrefixOf f.here = false) : (f.put path node).node? path = some node := by
  have hnone : (f.nodes.filter fun entry => entry.1 != path).find?
      (fun entry => entry.1 == path) = none := by
    rw [List.find?_eq_none]
    intro entry hentry
    simpa using (List.mem_filter.1 hentry).2
  simp [node?, put, h, List.find?_append, hnone]

theorem node?_put_of_ne {f : Files} {path other : Path} (node : FileNode) (h : other ≠ path) :
    (f.put path node).node? other = f.node? other := by
  have hsame : (f.nodes.filter fun entry => entry.1 != path).find?
      (fun entry => entry.1 == other) = f.nodes.find? fun entry => entry.1 == other := by
    rw [List.find?_filter]
    congr 1
    funext entry
    by_cases ho : entry.1 = other <;> simp [ho, h]
  have hlast : (path == other) = false := by simpa using Ne.symm h
  simp [node?, put, List.find?_append, hsame, hlast]

/-- The names in a text, which stand between slashes. -/
def names (place : List Nat) : List (List Nat) := place.splitOn 0x2f

/-- Where a text starts: at the root when a slash comes first, else in the working directory. -/
def origin (f : Files) (place : List Nat) : Path :=
  if place.head? = some 0x2f then [] else f.here

/-- The name by which a directory names itself. -/
def dot : List Nat := [0x2e]

/-- The name by which a directory names the one above it. -/
def dots : List Nat := [0x2e, 0x2e]

/-- Follows names from a path on. Every name but the last must lead to a directory, `.` and an empty
name stay there, and `..` leads back. -/
def walk (f : Files) : Path → List (List Nat) → Option (Path × FileNode)
  | path, [] => (f.node? path).map fun node => (path, node)
  | path, name :: rest =>
    match f.node? path with
    | some .directory =>
      if name.isEmpty || name = dot then f.walk path rest
      else if name = dots then f.walk path.dropLast rest
      else f.walk (path ++ [name]) rest
    | _ => none

/-- What a text names, if there is anything. An empty text names nothing. -/
def locate (f : Files) (place : List Nat) : Option (Path × FileNode) :=
  if place.isEmpty || (placeFault? place).isSome then none
  else f.walk (f.origin place) (names place)

/-- Whether a text names a file. A device is none. -/
def isFile (f : Files) (place : List Nat) : Bool :=
  match f.locate place with
  | some (_, .file _) => true
  | _ => false

/-- The path that names lead to without a look at the files: `..` takes back the name before it. -/
def lexicalPath : Path → List (List Nat) → Path
  | path, [] => path
  | path, name :: rest =>
    if name.isEmpty || name = dot then lexicalPath path rest
    else if name = dots then lexicalPath path.dropLast rest
    else lexicalPath (path ++ [name]) rest

/-- A path as a text. -/
def absolute (path : Path) : List Nat := 0x2f :: [0x2f].intercalate path

/-- A path, and whether its root is written with two slashes. -/
structure Location where
  path : Path
  doubled : Bool
  deriving Repr, DecidableEq

/-- A location as a text. -/
def Location.text (l : Location) : List Nat := (if l.doubled then [0x2f] else []) ++ absolute l.path

/-- What has the given name at a location. -/
def Location.child (l : Location) (name : List Nat) : Location := { l with path := l.path ++ [name] }

/-- Whether a text keeps two slashes for its root. One slash or more than two are one root. -/
def doublesRoot (place : List Nat) : Bool := (place.takeWhile (· == 0x2f)).length == 2

/-- The location that a text spells. -/
def resolve (f : Files) (place : List Nat) : Location :=
  ⟨lexicalPath (f.origin place) (names place), doublesRoot place⟩

/-- Makes a directory of the given name at a location that does not have it. -/
def makeIn (f : Files) (l : Location) (name : List Nat) : Except Error Files :=
  let next := l.child name
  match placeFault? next.text with
  | some e => .error e
  | none =>
    if maxNameSize < Text.byteSize name then .error (.nameTooLong next.text)
    else .ok (f.put next.path .directory)

/-- Why a directory of the given name cannot be made at a location that is no directory. -/
def beneathFile (l : Location) (name : List Nat) : Error :=
  let place := (l.child name).text
  (placeFault? place).getD (.notADirectory place)

/-- Makes the directories that are missing, from the given location on. -/
def makeFrom (f : Files) : Location → List (List Nat) → Except Error Files
  | _, [] => .ok f
  | l, name :: rest =>
    let next := l.child name
    match f.node? next.path with
    | some .directory => f.makeFrom next rest
    | none =>
      match f.makeIn l name with
      | .ok f => f.makeFrom next rest
      | .error e => .error e
    | some _ =>
      match rest with
      | [] => .error (.fileExists next.text)
      | below :: _ => .error (beneathFile next below)

/-- How many directories may be missing on the way to one that is made. Each of them takes a call, and
of the thousand calls that may be under way at a time eleven are: five are those of saving a key, and
six those of whoever asks for it. -/
def maxMissing : Nat := 989

/-- How many directories are missing on the way to a path. -/
def missingBefore (f : Files) (path : Path) : Nat :=
  (List.range path.length).countP fun n => (f.node? (path.take n)).isNone

/-- Makes a directory and all that leads to it, where they do not exist. -/
def makeDirectory (f : Files) (l : Location) : Except Error Files :=
  if maxMissing < f.missingBefore l.path then .error .tooDeep
  else f.makeFrom { l with path := [] } l.path

/-- Writes a file into a directory that exists. What is written to a device is gone. -/
def write (f : Files) (l : Location) (bytes : List UInt8) : Except Error Files :=
  match placeFault? l.text, f.node? l.path with
  | some e, _ => .error e
  | none, some .directory => .error (.isADirectory l.text)
  | none, some (.device _) => .ok f
  | none, _ => .ok (f.put l.path (.file bytes))

end Files

end KeySearch
