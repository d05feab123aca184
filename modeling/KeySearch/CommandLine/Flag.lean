import KeySearch.Text.Blank

/-!
# Options of the command line

The options that a command line may hold, with their spellings and whether a value belongs to them.
The order of `Flag.all` is the order in which help and messages name them.
-/

set_option autoImplicit false

namespace KeySearch.CommandLine

/-- An option of the command line. -/
inductive Flag
  | help
  | threads
  | timeout
  | targetZeros
  | ipv6Nice
  | verbose
  | config
  | noProgress
  | json
  | outputDir
  | checkKey
  deriving Repr, DecidableEq

namespace Flag

/-- All options. -/
def all : List Flag :=
  [.help, .threads, .timeout, .targetZeros, .ipv6Nice, .verbose, .config, .noProgress, .json,
   .outputDir, .checkKey]

/-- The ways to write an option, the short one first. -/
def spellings : Flag → List String
  | .help => ["-h", "--help"]
  | .threads => ["-t", "--threads"]
  | .timeout => ["-T", "--timeout"]
  | .targetZeros => ["-z", "--target-zeros"]
  | .ipv6Nice => ["--ipv6-nice"]
  | .verbose => ["-v", "--verbose"]
  | .config => ["--config"]
  | .noProgress => ["--no-progress"]
  | .json => ["--json"]
  | .outputDir => ["--output-dir"]
  | .checkKey => ["--check-key"]

/-- Whether a value belongs to the option. -/
def takesValue : Flag → Bool
  | .threads | .timeout | .targetZeros | .config | .outputDir | .checkKey => true
  | .help | .ipv6Nice | .verbose | .noProgress | .json => false

/-- How messages name the option. -/
def display (flag : Flag) : String := "/".intercalate flag.spellings

/-- Every spelling with its option. -/
def allSpellings : List (List Nat × Flag) :=
  all.flatMap fun flag => flag.spellings.map fun spelling => (Text.codePoints spelling, flag)

/-- The option that is written in exactly this way. -/
def ofSpelling? (spelling : List Nat) : Option Flag :=
  (allSpellings.find? fun entry => entry.1 == spelling).map Prod.snd

end Flag

end KeySearch.CommandLine
