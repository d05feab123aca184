import KeySearch.Candidate
import KeySearch.Files
import KeySearch.Json.Reader
import KeySearch.Log
import KeySearch.Text.Lines
import KeySearch.Text.Utf8
import KeySearch.Timestamp

/-!
# Saved keys

A key is saved as a JSON object with a timestamp and the data of its candidate. Loading it trusts
nothing but the private key: the candidate is made again from that, and the public key in the file
has to be the one that comes out. All other fields are there for the reader.
-/

set_option autoImplicit false

namespace KeySearch.SavedKey

/-- A text as a JSON string. It must need no escapes. -/
def jsonString (text : String) : String := "\"" ++ text ++ "\""

/-- The names and the JSON texts of the data that is saved of a candidate. -/
def fields (c : Candidate) : List (String × String) :=
  [("PublicKey", jsonString c.keys.publicHex),
   ("PrivateKey", jsonString c.keys.secretHex),
   ("Seed", jsonString c.keys.seedHex),
   ("Address", jsonString c.address.text),
   ("LeadingZeroBits", toString c.zeroBits),
   ("ZeroBlocks", toString c.zeroBlocks)]

/-- The lines of the fields of a JSON object, all at one indentation. -/
def fieldLines (indent : String) (all : List (String × String)) : String :=
  ",\n".intercalate (all.map fun field => indent ++ jsonString field.1 ++ ": " ++ field.2)

/-- A JSON object over several lines; `indent` stands before its closing brace. -/
def jsonObject (indent : String) (all : List (String × String)) : String :=
  "\x7b\n" ++ fieldLines (indent ++ "  ") all ++ "\n" ++ indent ++ "\x7d"

/-- The text of the file for a candidate. -/
def render (time : Timestamp) (c : Candidate) : String :=
  jsonObject "" [("timestamp", jsonString time.text), ("data", jsonObject "  " (fields c))]

/-- The name of the file for a candidate, made of the first four bytes of its public key. -/
def fileName (c : Candidate) : List Nat :=
  Text.codePoints ("ygg_" ++ String.ofList ((Hex.encodeChars c.keys.publicKey).take 8) ++ ".json")

/-- The directory that is named by a text. An empty text or none is the working directory. -/
def directory (f : Files) (dir : Option (List Nat)) : Files.Location :=
  match dir with
  | none => ⟨f.here, false⟩
  | some text => if text.isEmpty then ⟨f.here, false⟩ else f.resolve text

/-- The file for a candidate in a directory. -/
def file (f : Files) (dir : Option (List Nat)) (c : Candidate) : Files.Location :=
  (directory f dir).child (fileName c)

/-- Saves a candidate in a directory, which is made if need be. -/
def save (f : Files) (dir : Option (List Nat)) (time : Timestamp) (c : Candidate) :
    Except Files.Error Files :=
  match f.makeDirectory (directory f dir) with
  | .error e => .error e
  | .ok made => made.write (file f dir c) (render time c).toUTF8.toList

/-- The record of a candidate that was saved. -/
def saveLog (l : Files.Location) : List Log.Record :=
  [Log.info ("Key saved to " ++ Text.shown l.text)]

/-- Why the text of a file is no saved key. -/
inductive Rejection
  | undecodable (e : Utf8.Error)
  | json (e : Json.ReadError)
  | missingField (name : String)
  | secret (e : KeyPair.SecretError)
  | publicKey (e : Hex.Error)
  | address (e : Address.KeyError)
  deriving Repr, DecidableEq

/-- The message of a rejection. -/
def Rejection.message : Rejection → String
  | .undecodable e => e.message
  | .json e => e.message
  | .missingField name => "'" ++ name ++ "'"
  | .secret e => e.message
  | .publicKey e => e.message
  | .address e => e.message

/-- A value that is not of the kind that its place asks for. Each names the kind that is there. -/
inductive WrongKind
  /-- The whole is no object. -/
  | noObject (kind : String)
  /-- The data is an array. -/
  | dataArray
  /-- The data is a string. -/
  | dataString
  /-- The data is of another kind that has no fields. -/
  | noData (kind : String)
  /-- A key is no string. -/
  | noString (kind : String)
  deriving Repr, DecidableEq

/-- The message of a value of the wrong kind. -/
def WrongKind.message : WrongKind → String
  | .noObject kind => "'" ++ kind ++ "' object has no attribute 'get'"
  | .dataArray => "list indices must be integers or slices, not str"
  | .dataString => "string indices must be integers, not 'str'"
  | .noData kind => "'" ++ kind ++ "' object is not subscriptable"
  | .noString kind => "'" ++ kind ++ "' object has no attribute 'strip'"

/-- Whether the fault is that something is missing from the value, rather than that the value cannot
hold it. -/
def WrongKind.lacksAttribute : WrongKind → Bool
  | .noObject _ | .noString _ => true
  | _ => false

/-- Why a file gives no candidate. -/
inductive LoadError
  /-- The file is rejected. -/
  | rejected (r : Rejection)
  /-- The public key is not the one of the private key. -/
  | mismatch
  /-- A value is of the wrong kind. -/
  | wrongKind (w : WrongKind)
  /-- The values of the file stand too deep in one another. -/
  | tooDeep (e : Json.ReadError)
  deriving Repr, DecidableEq

/-- The name of the kind of a value. -/
def kindName : Json → String
  | .null => "NoneType"
  | .bool _ => "bool"
  | .int _ => "int"
  | .float => "float"
  | .str _ => "str"
  | .arr _ => "list"
  | .obj _ => "dict"

/-- The data of a saved key, which is empty when it is left out. -/
def dataOf : Json → Except LoadError Json
  | .obj all => .ok ((Json.field? all (Text.codePoints "data")).getD (.obj []))
  | value => .error (.wrongKind (.noObject (kindName value)))

/-- A field of the data. -/
def fieldOf (data : Json) (name : String) : Except LoadError Json :=
  match data with
  | .obj all =>
    match Json.field? all (Text.codePoints name) with
    | some value => .ok value
    | none => .error (.rejected (.missingField name))
  | .arr _ => .error (.wrongKind .dataArray)
  | .str _ => .error (.wrongKind .dataString)
  | value => .error (.wrongKind (.noData (kindName value)))

/-- A value as a text. -/
def textOf : Json → Except LoadError (List Nat)
  | .str text => .ok text
  | value => .error (.wrongKind (.noString (kindName value)))

/-- The key pair that the private key of a saved key gives. -/
def keysOf (primitive : KeyPrimitive) (data : Json) : Except LoadError KeyPair := do
  let secret ← textOf (← fieldOf data "PrivateKey")
  match KeyPair.ofSecret primitive secret with
  | .ok keys => .ok keys
  | .error e => .error (.rejected (.secret e))

/-- The public key that a saved key claims to have. -/
def publicKeyOf (data : Json) : Except LoadError (List UInt8) := do
  let text ← textOf (← fieldOf data "PublicKey")
  match Hex.decode text with
  | .ok bytes => .ok bytes
  | .error e => .error (.rejected (.publicKey e))

/-- The candidate of a saved key. -/
def ofJson (primitive : KeyPrimitive) (value : Json) : Except LoadError Candidate := do
  let data ← dataOf value
  let keys ← keysOf primitive data
  let publicKey ← publicKeyOf data
  if keys.publicKey ≠ publicKey then .error .mismatch
  else
    match Candidate.ofKeys keys with
    | .ok c => .ok c
    | .error e => .error (.rejected (.address e))

/-- The candidate of the bytes of a file. -/
def ofBytes (primitive : KeyPrimitive) (bytes : List UInt8) : Except LoadError Candidate :=
  match Utf8.decode bytes with
  | .error e => .error (.rejected (.undecodable e))
  | .ok text =>
    match Json.read ((Text.unifyLineEnds text).map Char.toNat) with
    | .error e =>
      .error (if e.failure.fault.isDepth then .tooDeep e else .rejected (.json e))
    | .ok value => ofJson primitive value

/-- Why loading a saved key ends without an answer. -/
inductive Crash
  | files (e : Files.Error)
  | wrongKind (w : WrongKind)
  | tooDeep (e : Json.ReadError)
  deriving Repr, DecidableEq

/-- The message of a crash. -/
def Crash.message : Crash → String
  | .files e => e.message
  | .wrongKind w => w.message
  | .tooDeep e => e.message

/-- What loading a saved key gives: a candidate, or none if the file is missing or not in order, and
the records that say why; or a crash. -/
def load (primitive : KeyPrimitive) (f : Files) (place : List Nat) :
    Except Crash (Option Candidate × List Log.Record) :=
  match (f.locate place).map fun found => found.2.content? with
  | none => .ok (none, [Log.warning ("No key file found: " ++ Text.shown place)])
  | some none => .error (.files (.isADirectory place))
  | some (some bytes) =>
    match ofBytes primitive bytes with
    | .ok c => .ok (some c, [])
    | .error (.rejected r) =>
      .ok (none, [Log.failure ("Error loading key from JSON: " ++ r.message)])
    | .error .mismatch =>
      .ok (none,
        [Log.failure ("Public key in " ++ Text.shown place ++ " does not match its private key")])
    | .error (.wrongKind w) => .error (.wrongKind w)
    | .error (.tooDeep e) => .error (.tooDeep e)

end KeySearch.SavedKey
