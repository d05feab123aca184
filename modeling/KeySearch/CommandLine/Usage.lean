import KeySearch.CommandLine.Flag
import KeySearch.CommandLine.Timeout
import KeySearch.Text.Surrogate

/-!
# Usage of the command line

The usage lines, the help text and the messages for command lines that cannot be understood.
-/

set_option autoImplicit false

namespace KeySearch.CommandLine

/-- The name that the program goes by. -/
def programName : String := "ygg_keygen.py"

/-- How the program is called. -/
def usageLines : List String :=
  ["usage: ygg_keygen.py [-h] [-t THREADS] [-T TIMEOUT] [-z TARGET_ZEROS]",
   "                     [--ipv6-nice] [-v] [--config CONFIG] [--no-progress]",
   "                     [--json] [--output-dir OUTPUT_DIR] [--check-key HEX|FILE]"]

/-- What every option means. -/
def optionLines : List String :=
  ["options:",
   "  -h, --help            show this help message and exit",
   "  -t THREADS, --threads THREADS",
   "                        Number of worker threads (default: 0 - one per logical",
   "                        CPU)",
   "  -T TIMEOUT, --timeout TIMEOUT",
   "                        Maximum execution time in seconds, or H:MM (default: 0",
   "                        - no limit)",
   "  -z TARGET_ZEROS, --target-zeros TARGET_ZEROS",
   "                        Stop once the best key has this many leading zero bits",
   "                        (default: 0 - no target)",
   "  --ipv6-nice           Search for zero blocks in the IPv6 address",
   "  -v, --verbose         Enable verbose output with additional statistics",
   "  --config CONFIG       Path to config file with a [genkeys] section (default:",
   "                        config.ini)",
   "  --no-progress         Disable the progress bar",
   "  --json                Save the best key in JSON format when the search ends",
   "  --output-dir OUTPUT_DIR",
   "                        Directory for --json output (default: current",
   "                        directory)",
   "  --check-key HEX|FILE  Verify a 64-byte private key, a 32-byte seed or a",
   "                        saved ygg_*.json file and print its address"]

/-- Command lines to learn from, and the options of the configuration. -/
def exampleLines : List String :=
  ["Examples:",
   "  python ygg_keygen.py --timeout 600       # Search for 10 minutes",
   "  python ygg_keygen.py --timeout 2:30      # Search for 2 hours 30 minutes",
   "  python ygg_keygen.py --target-zeros 32   # Stop at 32 leading zero bits",
   "  python ygg_keygen.py --ipv6-nice         # Prefer addresses with zero groups",
   "  python ygg_keygen.py --threads 4 -v      # 4 worker threads, verbose",
   "  python ygg_keygen.py --json --output-dir keys  # Save best key to keys/ygg_<id>.json",
   "  python ygg_keygen.py --check-key <hex>   # Show address for an existing key",
   "  python ygg_keygen.py --check-key keys/ygg_000005a1.json  # Verify a saved key file",
   "",
   "Config file ([genkeys] section of config.ini, overridden by flags):",
   "  threads, timeout, verbose, ipv6_nice, target_zeros, output_dir",
   "        "]

/-- Lines as a text in which every line ends. -/
def textOfLines (lines : List String) : String := String.join (lines.map (· ++ "\n"))

/-- The help text. -/
def helpText : String :=
  textOfLines (usageLines ++ ["", "Yggdrasil Ed25519 Key Generator", ""] ++ optionLines ++ [""]
    ++ exampleLines)

/-- Why a command line cannot be understood. -/
inductive UsageError
  /-- An abbreviation stands for several spellings. -/
  | ambiguous (word : List Nat) (spellings : List (List Nat))
  /-- The value of an option is missing. -/
  | missingValue (flag : Flag)
  /-- A value is attached to an option that has none. -/
  | unexpectedValue (flag : Flag) (value : List Nat)
  /-- The value of an option is no integer. -/
  | badInteger (flag : Flag) (value : List Nat)
  /-- The value of an option is no time limit. -/
  | badTimeout (flag : Flag)
  /-- Words are left over. -/
  | unrecognized (words : List (List Nat))
  deriving Repr, DecidableEq

/-- A message about one option. -/
def aboutFlag (flag : Flag) (text : String) : String :=
  "argument " ++ flag.display ++ ": " ++ text

/-- The message of an error. -/
def UsageError.message : UsageError → String
  | .ambiguous word spellings =>
    "ambiguous option: " ++ Text.shown word ++ " could match "
      ++ ", ".intercalate (spellings.map Text.shown)
  | .missingValue flag => aboutFlag flag "expected one argument"
  | .unexpectedValue flag value =>
    aboutFlag flag ("ignored explicit argument " ++ Text.quoted value)
  | .badInteger flag value => aboutFlag flag ("invalid int value: " ++ Text.quoted value)
  | .badTimeout flag => aboutFlag flag Timeout.malformed
  | .unrecognized words => "unrecognized arguments: " ++ " ".intercalate (words.map Text.shown)

/-- What is printed for an error. -/
def UsageError.text (e : UsageError) : String :=
  textOfLines (usageLines ++ [programName ++ ": error: " ++ e.message])

end KeySearch.CommandLine
