import KeySearch.Log
import KeySearch.Number.Quantity
import KeySearch.Report.Best

/-!
# System resources

The processors and the memory of the machine, as a verbose search prints them before it starts.
-/

set_option autoImplicit false

namespace KeySearch

/-- What is known of the machine. Percentages and the free memory in bytes are zero unless something
else is said; `none` is a measurement that failed. -/
structure Resources where
  logicalProcessors : Option Int := none
  physicalProcessors : Option Int := none
  processorPercent : Option Quantity := some (.whole 0)
  memoryPercent : Option Quantity := some (.whole 0)
  memoryAvailable : Option Quantity := some (.whole 0)
  deriving Repr, DecidableEq

namespace Resources

/-- Why resources cannot be printed. -/
inductive Error
  | number (e : Quantity.Error)
  /-- A percentage has not been measured. -/
  | missingPercent
  /-- The free memory has not been measured. -/
  | missingMemory
  deriving Repr, DecidableEq

/-- The message of an error. -/
def Error.message : Error → String
  | .number e => e.message
  | .missingPercent => "unsupported format string passed to NoneType.__format__"
  | .missingMemory => "unsupported operand type(s) for /: 'NoneType' and 'int'"

/-- A number of processors, if it is known and not zero. -/
def countText (count : Option Int) : String :=
  match count with
  | none => "?"
  | some n => if n = 0 then "?" else toString n

/-- A quantity with one place, or the error that holds when there is none. -/
def tenths (missing : Error) : Option Quantity → Except Error String
  | none => .error missing
  | some q =>
    match q.fixed 1 with
    | .ok text => .ok text
    | .error e => .error (.number e)

/-- Bytes in units of 1024 to the third power. -/
def gigabytes : Quantity → Except Quantity.Error Quantity
  | .whole n =>
    match Quantity.ratio n 1024 with
    | .ok x => .ok (.real ((x.div (Binary64.ofInt 1024)).div (Binary64.ofInt 1024)))
    | .error e => .error e
  | .real x =>
    .ok (.real (((x.div (Binary64.ofInt 1024)).div (Binary64.ofInt 1024)).div
      (Binary64.ofInt 1024)))

/-- The line that sets the summary apart. -/
def ruler : String := String.ofList (List.replicate 60 '=')

/-- The free memory with one place. -/
def memoryText : Option Quantity → Except Error String
  | none => .error .missingMemory
  | some q =>
    match gigabytes q with
    | .error e => .error (.number e)
    | .ok q => tenths .missingMemory (some q)

/-- The summary of the resources. -/
def summary (r : Resources) : Except Error String := do
  let usage ← tenths .missingPercent r.processorPercent
  let memory ← tenths .missingPercent r.memoryPercent
  let available ← memoryText r.memoryAvailable
  return Report.joinLines
    [ruler, "SYSTEM RESOURCE STATUS", ruler,
     "CPU Cores:     " ++ countText r.logicalProcessors ++ " logical / "
       ++ countText r.physicalProcessors ++ " physical",
     "CPU Usage:     " ++ usage ++ "%",
     "Memory Usage:  " ++ memory ++ "% (" ++ available ++ "GB available)",
     ruler]

end Resources

namespace Report

/-- The summary of the resources, if they are known. -/
def resourceText : Option Resources → Except Resources.Error String
  | none => .ok "System resources unavailable"
  | some r => r.summary

/-- The machine that a search runs on: its logical processors, if they can be counted, and its
resources, or the text of the failure to measure them. -/
structure Machine where
  processors : Option Nat
  resources : Except String Resources

/-- The resources of a machine, and what measuring them reports. -/
def Machine.measure (m : Machine) : Option Resources × List Log.Record :=
  match m.resources with
  | .ok r => (some r, [])
  | .error text => (none, [Log.warning ("Could not get system resources: " ++ text)])

end Report

end KeySearch
