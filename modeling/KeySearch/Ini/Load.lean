import KeySearch.Files
import KeySearch.Ini.Reader
import KeySearch.Log

/-!
# Loading the configuration

A configuration file that does not exist is an empty configuration. One that exists has to be in
order, or the program ends.
-/

set_option autoImplicit false

namespace KeySearch.Ini

/-- What loading a configuration gives. -/
inductive Loaded
  | document (d : Document)
  /-- The file is not in order, and the program is to end. -/
  | refused
  /-- The bytes of the file are no text. -/
  | undecodable (e : Utf8.Error)
  deriving Repr, DecidableEq

/-- Loads the configuration that a text names, and reports how that went. A directory counts as a
configuration without anything in it. -/
def load (f : Files) (place : List Nat) : Loaded × List Log.Record :=
  let success := Log.info "Configuration loaded successfully"
  match (f.locate place).map fun found => found.2.content? with
  | none =>
    (.document .empty,
      [Log.debug ("Configuration file " ++ Text.shown place ++ " not found, using defaults")])
  | some none => (.document .empty, [success])
  | some (some bytes) =>
    match readFile place bytes with
    | .ok d => (.document d, [success])
    | .error (.text e) => (.refused, [Log.failure ("Failed to load configuration: " ++ e.message)])
    | .error (.undecodable e) => (.undecodable e, [])

end KeySearch.Ini
