import KeySearch.CommandLine.Flag
import KeySearch.Settings

/-!
# What the options of a command line say

`Options` holds what a command line says about each option. Its numbers are checked by
`Options.check`, and replace those of the configuration in `Options.settings`.
-/

set_option autoImplicit false

namespace KeySearch.CommandLine

/-- The value that was given for an option. -/
inductive Argument (α : Type)
  | absent
  /-- The value was `--`, which stands for no value at all. -/
  | blank
  | value (a : α)
  deriving Repr, DecidableEq

/-- The value itself, where there is one. -/
def Argument.value? {α : Type} : Argument α → Option α
  | .value a => some a
  | .absent | .blank => none

/-- A text that is there and not empty. -/
def Argument.text? : Argument (List Nat) → Option (List Nat)
  | .value text => if text.isEmpty then none else some text
  | .absent | .blank => none

/-- What a command line says. -/
structure Options where
  threads : Argument Int
  /-- The longest duration in seconds. -/
  timeout : Argument Int
  targetZeros : Argument Int
  byBlocks : Bool
  verbose : Bool
  /-- The file that holds the configuration. -/
  config : Argument (List Nat)
  noProgress : Bool
  /-- Whether to save the best key. -/
  json : Bool
  /-- The directory to save it in. -/
  outputDir : Argument (List Nat)
  /-- A key, or the file of a saved one, that is to be checked instead of a search. -/
  checkKey : Argument (List Nat)
  deriving Repr, DecidableEq

namespace Options

/-- What an empty command line says. -/
def defaults : Options :=
  { threads := .absent, timeout := .absent, targetZeros := .absent, byBlocks := false,
    verbose := false, config := .value (Text.codePoints "config.ini"), noProgress := false, json := false,
    outputDir := .absent, checkKey := .absent }

/-- Why the numbers of a command line cannot be used. -/
inductive Refusal
  | outOfRange (flag : Flag)
  /-- The number was left out by giving `--` in its place. -/
  | blank (flag : Flag)
  deriving Repr, DecidableEq

/-- What is wrong with a number that is out of range. -/
def rangeText (flag : Flag) : String :=
  if flag = .targetZeros then
    "--target-zeros must be between 0 and " ++ toString Settings.maxTarget ++ "."
  else (flag.spellings.getLast?.getD "") ++ " must be 0 or more."

/-- What is wrong with a number that was left out: it cannot be compared with the ends of its
range. -/
def blankText (flag : Flag) : String :=
  if flag = .targetZeros then "'<=' not supported between instances of 'int' and 'list'"
  else "'<' not supported between instances of 'list' and 'int'"

/-- The message of a refusal. -/
def Refusal.message : Refusal → String
  | .outOfRange flag => rangeText flag
  | .blank flag => blankText flag

/-- Checks one number. -/
def checkNumber (flag : Flag) (inRange : Int → Bool) : Argument Int → Except Refusal Unit
  | .absent => .ok ()
  | .blank => .error (.blank flag)
  | .value n => if inRange n then .ok () else .error (.outOfRange flag)

/-- Checks the numbers one after another, whatever the configuration says. -/
def check (o : Options) : Except Refusal Unit := do
  checkNumber .threads (fun n => 0 ≤ n) o.threads
  checkNumber .timeout (fun n => 0 ≤ n) o.timeout
  checkNumber .targetZeros (fun n => 0 ≤ n && n ≤ Settings.maxTarget) o.targetZeros

/-- A switch replaces a value of the configuration only when it is on. -/
def switched (on : Bool) : Option Bool := if on then some true else none

/-- What the command line replaces. -/
def overrides (o : Options) : Settings.Overrides :=
  { workers := o.threads.value?
    maxDuration := o.timeout.value?
    verbose := switched o.verbose
    byBlocks := switched o.byBlocks
    targetZeroBits := o.targetZeros.value? }

/-- Why a command line and a configuration give no settings. -/
inductive SettingsError
  | config (e : Settings.ConfigError)
  /-- A number was left out by giving `--` in its place. -/
  | blank (flag : Flag)
  /-- A number is out of range, and too long for the message that would say so. -/
  | unwritable
  deriving Repr, DecidableEq

/-- The message of an error. -/
def SettingsError.message : SettingsError → String
  | .config e => e.message
  | .blank flag => blankText flag
  | .unwritable => Literal.unwritableText

/-- The error for settings that are not usable. Its message holds the number that is out of range,
which has to be writable for that. -/
def SettingsError.ofSettings (e : Settings.Error) : SettingsError :=
  match e with
  | .negativeWorkers n | .negativeDuration n | .targetOutOfRange n =>
    if Literal.isWritable n then .config (.settings e) else .unwritable
  | .badInteger .. | .badBoolean .. => .config (.settings e)

/-- The settings of a search: those of the configuration, with what the command line replaces. A
number that was left out is a fault, unless one before it is out of range. -/
def settings (o : Options) (d : Ini.Document) : Except SettingsError Settings :=
  match Settings.ofConfig d Settings.sectionName with
  | .error e => .error (.config e)
  | .ok base =>
    match o.check with
    | .error (.blank flag) => .error (.blank flag)
    | _ =>
      match base.withOverrides o.overrides with
      | .ok s => .ok s
      | .error e => .error (.ofSettings e)

end Options

end KeySearch.CommandLine
