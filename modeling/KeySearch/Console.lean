import KeySearch.Log
import KeySearch.Text.Surrogate

/-!
# The console

What a program has written so far: the lines it printed, the text of its usage errors, and those log
records that the level of the moment lets through.
-/

set_option autoImplicit false

namespace KeySearch

/-- What has been written. -/
structure Console where
  output : String
  errors : String
  level : Log.Level
  log : List Log.Record
  deriving Repr, DecidableEq

namespace Console

/-- Nothing has been written, and only warnings and failures will be reported. -/
def start : Console := ⟨"", "", .warning, []⟩

/-- Prints a line. -/
def printLine (c : Console) (line : String) : Console :=
  { c with output := c.output ++ line ++ "\n" }

/-- Prints lines. -/
def printLines (c : Console) (lines : List String) : Console := lines.foldl printLine c

/-- Each line is printed with its end. -/
theorem printLines_eq (c : Console) (lines : List String) :
    c.printLines lines = { c with output := c.output ++ String.join (lines.map (· ++ "\n")) } := by
  induction lines generalizing c with
  | nil => simp [printLines]
  | cons line rest ih =>
      have hrest : c.printLines (line :: rest) = (c.printLine line).printLines rest := rfl
      rw [hrest, ih]
      simp [printLine, String.append_assoc]

/-- Prints texts as lines, up to the first one that cannot be printed. -/
def printTexts (c : Console) : List (List Nat) → Console × Option Text.EncodingError
  | [] => (c, none)
  | text :: rest =>
    match Text.printed text with
    | .error e => (c, some e)
    | .ok line => (c.printLine line).printTexts rest

/-- Lines of characters are printed as they are. -/
theorem printTexts_codePoints (c : Console) (lines : List String) :
    c.printTexts (lines.map Text.codePoints) = (c.printLines lines, none) := by
  induction lines generalizing c with
  | nil => rfl
  | cons line rest ih =>
      rw [List.map_cons, printTexts, Text.printed_codePoints]
      exact ih _

/-- Reports records, as far as the level lets them through. -/
def report (c : Console) (records : List Log.Record) : Console :=
  { c with log := c.log ++ Log.atLeast c.level records }

/-- Lets everything through when `verbose` is set, and else all but the least records. -/
def setVerbose (c : Console) (verbose : Bool) : Console :=
  { c with level := if verbose then .debug else .info }

end Console

end KeySearch
