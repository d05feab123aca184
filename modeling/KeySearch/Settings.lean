import KeySearch.Ini.Expansion
import KeySearch.Log

/-!
# Search settings

Settings come from a section of the configuration, with the defaults for what it leaves out, and
values given on the command line replace them one by one. However they are put together they are
checked once, by `Settings.check`, so settings are always in range.
-/

set_option autoImplicit false

namespace KeySearch

/-- What a search is to do. -/
structure Settings where
  /-- The number of workers, `0` for one per processor. -/
  workers : Nat
  /-- The longest duration in seconds, `0` for no limit. -/
  maxDuration : Nat
  verbose : Bool
  /-- Rank by zero blocks of the address rather than by zero bits of the key. -/
  byBlocks : Bool
  /-- The zero bits that end the search, `0` for no target. -/
  targetZeroBits : Nat
  deriving Repr, DecidableEq

namespace Settings

/-- Settings as somebody gave them, before they are checked. -/
structure Draft where
  workers : Int
  maxDuration : Int
  verbose : Bool
  byBlocks : Bool
  targetZeroBits : Int
  deriving Repr, DecidableEq

/-- The settings that hold when nothing is said. -/
def defaults : Settings := ⟨0, 0, false, false, 0⟩

/-- Settings as a draft. -/
def draft (s : Settings) : Draft :=
  ⟨s.workers, s.maxDuration, s.verbose, s.byBlocks, s.targetZeroBits⟩

/-- The most zero bits that a target may ask for: all bits of a public key. -/
def maxTarget : Int := 256

/-- Why settings are not usable. -/
inductive Error
  | negativeWorkers (value : Int)
  | negativeDuration (value : Int)
  | targetOutOfRange (value : Int)
  /-- An option of the configuration holds no integer. -/
  | badInteger (sectionName : String) (e : Literal.Error)
  /-- An option of the configuration holds neither yes nor no. -/
  | badBoolean (sectionName : String) (text : String)
  deriving Repr, DecidableEq

/-- The message of an error. -/
def Error.message : Error → String
  | .negativeWorkers value => "workers must be >= 0, got " ++ toString value
  | .negativeDuration value => "max_duration must be >= 0, got " ++ toString value
  | .targetOutOfRange value =>
    "target_leading_zeros must be between 0 and " ++ toString maxTarget ++ ", got "
      ++ toString value
  | .badInteger sectionName e => "Invalid value in [" ++ sectionName ++ "]: " ++ e.message
  | .badBoolean sectionName text =>
    "Invalid value in [" ++ sectionName ++ "]: Not a boolean: " ++ text

/-- The settings of a draft that is in range. -/
def check (d : Draft) : Except Error Settings :=
  if d.workers < 0 then .error (.negativeWorkers d.workers)
  else if d.maxDuration < 0 then .error (.negativeDuration d.maxDuration)
  else if d.targetZeroBits < 0 ∨ maxTarget < d.targetZeroBits then
    .error (.targetOutOfRange d.targetZeroBits)
  else
    .ok ⟨d.workers.toNat, d.maxDuration.toNat, d.verbose, d.byBlocks, d.targetZeroBits.toNat⟩

/-- Values that replace those of settings, where there are any. -/
structure Overrides where
  workers : Option Int
  maxDuration : Option Int
  verbose : Option Bool
  byBlocks : Option Bool
  targetZeroBits : Option Int
  deriving Repr, DecidableEq

/-- A draft with values replaced. -/
def Draft.override (d : Draft) (o : Overrides) : Draft :=
  { workers := o.workers.getD d.workers
    maxDuration := o.maxDuration.getD d.maxDuration
    verbose := o.verbose.getD d.verbose
    byBlocks := o.byBlocks.getD d.byBlocks
    targetZeroBits := o.targetZeroBits.getD d.targetZeroBits }

/-- Settings with values replaced, checked again. -/
def withOverrides (s : Settings) (o : Overrides) : Except Error Settings :=
  check (s.draft.override o)

/-- The number of workers, given the number of processors if that is known. At least one worker
runs. -/
def workerCount (s : Settings) (processors : Option Nat) : Nat :=
  if s.workers ≠ 0 then s.workers else max 1 (processors.getD 0)

/-- Why a configuration gives no settings. -/
inductive ConfigError
  /-- The settings are not usable. -/
  | settings (e : Error)
  /-- A raw value cannot be expanded. -/
  | expansion (e : Ini.ExpansionError)
  deriving Repr, DecidableEq

/-- The message of an error. -/
def ConfigError.message : ConfigError → String
  | .settings e => e.message
  | .expansion e => e.message

/-- The error of the settings for a value of the wrong kind in a section. -/
def ConfigError.ofValue (sectionName : String) : Ini.Document.ValueError → ConfigError
  | .expansion e => .expansion e
  | .integer e => .settings (.badInteger sectionName e)
  | .boolean text => .settings (.badBoolean sectionName text)

/-- The section that settings are kept in. -/
def sectionName : String := "genkeys"

/-- The values of a section, or the defaults where it has none, before they are checked. -/
def draftOfSection (d : Ini.Document) (name : String) :
    Except Ini.Document.ValueError Draft := do
  let workers ← d.getInt name "threads" 0
  let maxDuration ← d.getInt name "timeout" 0
  let verbose ← d.getBool name "verbose" false
  let byBlocks ← d.getBool name "ipv6_nice" false
  let targetZeroBits ← d.getInt name "target_zeros" 0
  return ⟨workers, maxDuration, verbose, byBlocks, targetZeroBits⟩

/-- The settings of a section. Without the section they are the defaults. -/
def ofConfig (d : Ini.Document) (name : String) : Except ConfigError Settings :=
  if !d.hasSection name then .ok defaults
  else
    match draftOfSection d name with
    | .error e => .error (.ofValue name e)
    | .ok draft =>
      match check draft with
      | .ok s => .ok s
      | .error e => .error (.settings e)

/-- What reading the settings of a section reports: that there is no such section. -/
def configLog (d : Ini.Document) (name : String) : List Log.Record :=
  if d.hasSection name then []
  else [Log.debug ("No [" ++ name ++ "] section in config, using defaults")]

end Settings

end KeySearch
