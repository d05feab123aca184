import KeySearch.CommandLine.Options
import KeySearch.CommandLine.Word

/-!
# Reading a command line

Words become steps: an option is used, with or without a value, or a word is left over. The steps
are then carried out in order, up to the first fault or the first request for help. `read` does it
all.
-/

set_option autoImplicit false

namespace KeySearch.CommandLine

/-- What the words of a command line ask for, one thing at a time. -/
inductive Step
  /-- An option without a value is used. -/
  | switch (flag : Flag)
  /-- An option gets a value. -/
  | assign (flag : Flag) (value : List Nat)
  /-- A word is left over. -/
  | extra (word : List Nat)
  /-- The command line cannot be understood from here on. -/
  | fault (e : UsageError)
  deriving Repr, DecidableEq

/-- The options of one word: those without a value, and the last one if it has a value, with what is
attached to it. -/
structure Cluster where
  switches : List Flag
  valued : Option (Flag × Option (List Nat))
  deriving Repr, DecidableEq

/-- Puts an option in front of a cluster. -/
def Cluster.cons (flag : Flag) (c : Cluster) : Cluster := { c with switches := flag :: c.switches }

/-- The options of a word that begins with a short option and goes on with the given code points,
each of which is the next short option until one takes the rest as its value. -/
def shortCluster (flag : Flag) : List Nat → Except UsageError Cluster
  | [] => if flag.takesValue then .ok ⟨[], some (flag, none)⟩ else .ok ⟨[flag], none⟩
  | c :: rest =>
    if flag.takesValue then .ok ⟨[], some (flag, some (c :: rest))⟩
    else
      match Flag.ofSpelling? [0x2d, c] with
      | some next => (shortCluster next rest).map (Cluster.cons flag)
      | none => .error (.unexpectedValue flag (c :: rest))

/-- The options of a word that names an option. -/
def cluster (flag : Flag) (short : Bool) : Option (List Nat) → Except UsageError Cluster
  | none => shortCluster flag []
  | some attached =>
    if flag.takesValue then .ok ⟨[], some (flag, some attached)⟩
    else if short && !attached.isEmpty then shortCluster flag attached
    else .error (.unexpectedValue flag attached)

/-- The steps that words ask for. A value that is not attached is the next word, which has to be
plain. -/
def steps : List Word → List Step
  | [] => []
  | .plain text :: rest => .extra text :: steps rest
  | .stray text :: rest => .extra text :: steps rest
  | .named flag short attached :: rest =>
    match cluster flag short attached with
    | .error e => [.fault e]
    | .ok ⟨switches, none⟩ => switches.map .switch ++ steps rest
    | .ok ⟨switches, some (flag, some value)⟩ =>
      switches.map .switch ++ .assign flag value :: steps rest
    | .ok ⟨switches, some (flag, none)⟩ =>
      match rest with
      | .plain text :: rest => switches.map .switch ++ .assign flag text :: steps rest
      | _ => [.fault (.missingValue flag)]

/-- What a command line asks the program to do. -/
inductive Request
  | help
  | options (o : Options)
  deriving Repr, DecidableEq

namespace Options

/-- Uses an option without a value. -/
def switchOn (o : Options) : Flag → Options
  | .ipv6Nice => { o with byBlocks := true }
  | .verbose => { o with verbose := true }
  | .noProgress => { o with noProgress := true }
  | .json => { o with json := true }
  | _ => o

/-- The argument that a value of an option is, unless it cannot be read. -/
def argument {α : Type} (read : List Nat → Except UsageError α) (value : List Nat) :
    Except UsageError (Argument α) :=
  if value = Text.codePoints "--" then .ok .blank else (read value).map .value

/-- A value as a number. -/
def readNumber (flag : Flag) (value : List Nat) : Except UsageError Int :=
  match Literal.read value with
  | .ok n => .ok n
  | .error _ => .error (.badInteger flag value)

/-- A value as a time limit. -/
def readTimeout (flag : Flag) (value : List Nat) : Except UsageError Int :=
  match Timeout.read value with
  | some seconds => .ok seconds
  | none => .error (.badTimeout flag)

/-- Gives an option a value. -/
def assign (o : Options) (flag : Flag) (value : List Nat) : Except UsageError Options :=
  match flag with
  | .threads => (argument (readNumber flag) value).map fun a => { o with threads := a }
  | .timeout => (argument (readTimeout flag) value).map fun a => { o with timeout := a }
  | .targetZeros => (argument (readNumber flag) value).map fun a => { o with targetZeros := a }
  | .config => (argument .ok value).map fun a => { o with config := a }
  | .outputDir => (argument .ok value).map fun a => { o with outputDir := a }
  | .checkKey => (argument .ok value).map fun a => { o with checkKey := a }
  | .help | .ipv6Nice | .verbose | .noProgress | .json => .ok o

end Options

/-- Carries out steps. Words that are left over are collected, and are a fault at the end. -/
def carryOut : List Step → List (List Nat) → Options → Except UsageError Request
  | [], [], o => .ok (.options o)
  | [], extras, _ => .error (.unrecognized extras)
  | .switch .help :: _, _, _ => .ok .help
  | .switch flag :: rest, extras, o => carryOut rest extras (o.switchOn flag)
  | .assign flag value :: rest, extras, o =>
    match o.assign flag value with
    | .error e => .error e
    | .ok o => carryOut rest extras o
  | .extra word :: rest, extras, o => carryOut rest (extras ++ [word]) o
  | .fault e :: _, _, _ => .error e

/-- What a command line asks for. -/
def read (texts : List (List Nat)) : Except UsageError Request :=
  match Word.ofTexts texts with
  | .error e => .error e
  | .ok words => carryOut (steps words) [] .defaults

end KeySearch.CommandLine
