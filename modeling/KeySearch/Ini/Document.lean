/-!
# Configuration documents

A configuration has named sections, each a list of options with their raw values, and default
options that every section shares. Names of options are in lower case.
-/

set_option autoImplicit false

namespace KeySearch.Ini

/-- Options and their raw values, in the order in which they appeared. -/
abbrev Options := List (String × String)

/-- The value of an option. -/
def Options.value? (options : Options) (name : String) : Option String :=
  (options.find? fun option => option.1 == name).map Prod.snd

/-- Sets an option, in place when it is there already, else at the end. -/
def Options.put (options : Options) (name value : String) : Options :=
  if options.any fun option => option.1 == name then
    options.map fun option => if option.1 == name then (name, value) else option
  else options ++ [(name, value)]

/-- A named list of options. -/
structure Section where
  name : String
  options : Options
  deriving Repr, DecidableEq

/-- A parsed configuration. -/
structure Document where
  defaults : Options
  sections : List Section
  deriving Repr, DecidableEq

namespace Document

/-- The configuration without anything in it. -/
def empty : Document := ⟨[], []⟩

/-- The options of a section, defaults not counted. -/
def section? (d : Document) (name : String) : Option Options :=
  (d.sections.find? fun s => s.name == name).map Section.options

/-- Whether there is a section of that name. -/
def hasSection (d : Document) (name : String) : Bool := (d.section? name).isSome

/-- The raw value of an option in a section with the given options: its own, or else the default. -/
def lookup? (d : Document) (options : Options) (name : String) : Option String :=
  match options.value? name with
  | some value => some value
  | none => d.defaults.value? name

/-- All options that can be asked for in a section, defaults first. -/
def allOptions (d : Document) (options : Options) : Options :=
  options.foldl (fun all option => all.put option.1 option.2) d.defaults

end Document

end KeySearch.Ini
