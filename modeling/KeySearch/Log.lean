/-!
# Log records

What a search and its helpers report while they work: a level and a line of text, in order.
-/

set_option autoImplicit false

namespace KeySearch.Log

/-- How much a record matters, least first. -/
inductive Level
  | debug
  | info
  | warning
  | error
  deriving Repr, DecidableEq

/-- The rank of a level. -/
def Level.rank : Level → Nat
  | .debug => 10
  | .info => 20
  | .warning => 30
  | .error => 40

/-- The name of a level. -/
def Level.name : Level → String
  | .debug => "DEBUG"
  | .info => "INFO"
  | .warning => "WARNING"
  | .error => "ERROR"

/-- One record, with its text as it is written. -/
structure Record where
  level : Level
  text : String
  deriving Repr, DecidableEq

/-- A record of the least level. -/
def debug (text : String) : Record := ⟨.debug, text⟩

/-- A record of the ordinary level. -/
def info (text : String) : Record := ⟨.info, text⟩

/-- A record that warns. -/
def warning (text : String) : Record := ⟨.warning, text⟩

/-- A record of a failure. -/
def failure (text : String) : Record := ⟨.error, text⟩

/-- The records of at least the given level. -/
def atLeast (level : Level) (records : List Record) : List Record :=
  records.filter fun record => level.rank ≤ record.level.rank

end KeySearch.Log
