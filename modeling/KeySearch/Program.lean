import KeySearch.CommandLine.Reader
import KeySearch.Console
import KeySearch.Ini.Load
import KeySearch.KeyCheck
import KeySearch.Report.Progress
import KeySearch.Report.Resources
import KeySearch.Search.Run

/-!
# The program

The program reads its command line, then checks a key or searches for one. `Program.run` is one
whole run in a given world: the files, the machine, the time, the key primitive and what happens
while the search waits. What comes before the search is `prepare`, what comes after it `conclude`.
-/

set_option autoImplicit false

namespace KeySearch.Program

/-- What a run of the program meets. -/
structure World where
  files : Files
  machine : Report.Machine
  /-- The time at which a key is saved. -/
  time : Timestamp
  primitive : KeyPrimitive
  /-- What happens during the waits of a search with so many workers. -/
  waits : Nat → List (List (Search.Event Candidate))
  /-- What happens in the time that so many workers have to end. -/
  grace : Nat → List (Search.Event Candidate)

/-- A fault that nothing in the program handles. -/
inductive Crash
  | savedKey (e : SavedKey.Crash)
  | blankNumber (flag : CommandLine.Flag)
  /-- The name of the configuration file was left out by giving `--` in its place. -/
  | blankConfig
  /-- The longest duration has more digits than are printed. -/
  | durationTooLong
  | undecodable (e : Utf8.Error)
  | expansion (e : Ini.ExpansionError)
  | resources (e : Resources.Error)
  | quantity (e : Quantity.Error)
  | files (e : Files.Error)
  /-- A text cannot be printed. -/
  | unprintable (e : Text.EncodingError)
  deriving Repr, DecidableEq

/-- The message of a crash. -/
def Crash.message : Crash → String
  | .savedKey e => e.message
  | .blankNumber flag => CommandLine.Options.blankText flag
  | .blankConfig => "stat: path should be string, bytes, os.PathLike or integer, not list"
  | .durationTooLong => Literal.unwritableText
  | .undecodable e => e.message
  | .expansion e => e.message
  | .resources e => e.message
  | .quantity e => e.message
  | .files e => e.message
  | .unprintable e => e.message

/-- How a run ends. -/
inductive Ending
  /-- The program comes to its end and has a status. -/
  | finished (status : Nat)
  /-- The program is left early, with a status. -/
  | left (status : Nat)
  | crashed (c : Crash)
  /-- The search goes on beyond what is known of the world. -/
  | unfinished
  deriving Repr, DecidableEq

/-- One run: how it ends, what it wrote and the files it leaves. -/
structure Outcome where
  ending : Ending
  console : Console
  files : Files
  deriving Repr, DecidableEq

/-- A run that ends here. -/
def stop (w : World) (console : Console) (ending : Ending) : Outcome := ⟨ending, console, w.files⟩

/-- A run that prints an error and ends here. -/
def refuse (w : World) (console : Console) (message : String) : Outcome :=
  stop w (console.printLine ("Error: " ++ message)) (.finished 1)

/-- A line of one character, as wide as all the others. -/
def ruler (c : Char) : String := String.ofList (List.replicate 60 c)

/-- A run that checks a key. -/
def checkKey (w : World) (console : Console) (key : List Nat) : Outcome :=
  match KeyCheck.run w.primitive w.files key with
  | .error e => stop w console (.crashed (.savedKey e))
  | .ok verdict =>
    match (console.report verdict.log).printTexts verdict.lines with
    | (console, some e) => stop w console (.crashed (.unprintable e))
    | (console, none) => stop w console (.finished (if verdict.accepted then 0 else 1))

/-- The first thing that is said before a search: how many workers there are. -/
def workersLine (workers : Nat) : String := "Threads: " ++ toString workers

/-- What else is said before a search: how long it may take and what it searches for. -/
def announcement (s : Settings) : List String :=
  (if s.maxDuration = 0 then [] else ["Max runtime: " ++ toString s.maxDuration ++ "s"])
    ++ (if s.targetZeroBits = 0 then []
        else ["Target: " ++ toString s.targetZeroBits ++ " leading zero bits"])
    ++ ["Ranking: " ++ (if s.byBlocks then "address zero blocks" else "leading zero bits"),
        ruler '-']

/-- What a verbose search says about the machine beforehand. -/
def describeMachine (w : World) (console : Console) (s : Settings) : Except Crash Console :=
  let console := console.setVerbose true
  let (resources, records) := w.machine.measure
  let console := console.report records
  match Report.resourceText resources with
  | .error e => .error (.resources e)
  | .ok text =>
    let console := console.printLine text
    let workers := s.workerCount w.machine.processors
    let processors := Settings.defaults.workerCount w.machine.processors
    .ok (if processors < workers then
        console.printLine ("Warning: " ++ toString workers ++ " threads on " ++ toString processors
          ++ " logical CPUs")
      else console)

/-- Why the progress bar of a search cannot be drawn, if it has one. -/
def barFault? (s : Settings) (o : CommandLine.Options) : Option Quantity.Error :=
  (Report.Monitor.start s !o.noProgress).bar.bind ProgressBar.drawingFault?

/-- A search that is ready to begin. -/
structure Plan where
  options : CommandLine.Options
  document : Ini.Document
  settings : Settings
  workers : Nat
  console : Console

/-- The settings of a search and all that is written before it begins, or the run that ends
without one. -/
def prepareSearch (w : World) (o : CommandLine.Options) (d : Ini.Document) (console : Console) :
    Except Outcome Plan :=
  let console := console.report (Settings.configLog d Settings.sectionName)
  match o.settings d with
  | .error (.config (.settings e)) => .error (refuse w console e.message)
  | .error (.config (.expansion e)) => .error (stop w console (.crashed (.expansion e)))
  | .error (.blank flag) => .error (stop w console (.crashed (.blankNumber flag)))
  | .error .unwritable => .error (stop w console (.crashed .durationTooLong))
  | .ok s =>
    match (if s.verbose then describeMachine w console s else .ok console) with
    | .error c => .error (stop w (console.setVerbose true) (.crashed c))
    | .ok console =>
      let workers := s.workerCount w.machine.processors
      let console := console.printLine (workersLine workers)
      if Nat.pow 10 Literal.maxDigits ≤ s.maxDuration then
        .error (stop w console (.crashed .durationTooLong))
      else
        let console := console.printLines (announcement s)
        match barFault? s o with
        | some e => .error (stop w console (.crashed (.quantity e)))
        | none => .ok ⟨o, d, s, workers, console⟩

/-- Loads the configuration and prepares a search. -/
def prepareFromConfig (w : World) (o : CommandLine.Options) (console : Console) :
    Except Outcome Plan :=
  match o.config with
  | .absent | .blank => .error (stop w console (.crashed .blankConfig))
  | .value place =>
    let (loaded, records) := Ini.load w.files place
    let console := console.report records
    match loaded with
    | .refused => .error (stop w console (.left 1))
    | .undecodable e => .error (stop w console (.crashed (.undecodable e)))
    | .document d => prepareSearch w o d console

/-- All that comes before a search, or the run that has none. -/
def prepare (w : World) (arguments : List (List Nat)) : Except Outcome Plan :=
  match CommandLine.read arguments with
  | .error e => .error (stop w { Console.start with errors := e.text } (.left 2))
  | .ok .help => .error (stop w { Console.start with output := CommandLine.helpText } (.left 0))
  | .ok (.options o) =>
    let console := Console.start.setVerbose o.verbose
    match o.checkKey.text? with
    | some key => .error (checkKey w console key)
    | none =>
      match o.check with
      | .error (.outOfRange flag) =>
        .error (refuse w console (CommandLine.Options.rangeText flag))
      | .error (.blank flag) => .error (stop w console (.crashed (.blankNumber flag)))
      | .ok () => prepareFromConfig w o console

/-- Prints the best find of a snapshot. -/
def printBest (console : Console) (verbose : Bool) (s : Snapshot Candidate) :
    Except Crash Console :=
  match Report.bestText s verbose with
  | .error e => .error (.quantity e)
  | .ok text => .ok (console.printLine text)

/-- Prints every better find of a search as it came. -/
def printReports (verbose : Bool) : List (Snapshot Candidate) → Console → Except Crash Console
  | [], console => .ok console
  | s :: rest, console =>
    match printBest console verbose s with
    | .error c => .error c
    | .ok console => printReports verbose rest console

/-- The directory to save the best key in: the one of the command line, else the one of the
configuration. -/
def outputDirectory (p : Plan) : Except Ini.ExpansionError (Option (List Nat)) :=
  match p.options.outputDir.text? with
  | some dir => .ok (some dir)
  | none =>
    (p.document.get? Settings.sectionName "output_dir").map fun dir => dir.map Text.codePoints

/-- What is said of the file that a key was saved in. -/
def savedText (l : Files.Location) : List Nat :=
  Text.codePoints "\nKey saved to JSON file:\n  " ++ l.text

/-- Says in which file a key was saved, if that can be printed. -/
def announceFile (console : Console) (files : Files) (l : Files.Location) : Outcome :=
  match console.printTexts [savedText l] with
  | (console, some e) => ⟨.crashed (.unprintable e), console, files⟩
  | (console, none) => ⟨.finished 0, console, files⟩

/-- Saves the best key, and says where. -/
def saveBest (w : World) (p : Plan) (best : Candidate) (console : Console) : Outcome :=
  match outputDirectory p with
  | .error e => stop w console (.crashed (.expansion e))
  | .ok dir =>
    match SavedKey.save w.files dir w.time best with
    | .error e => stop w console (.crashed (.files e))
    | .ok files =>
      let file := SavedKey.file w.files dir best
      announceFile (console.report (SavedKey.saveLog file)) files file

/-- What a run says last when it found a key. -/
def farewell (o : Outcome) : Outcome :=
  match o.ending with
  | .finished 0 =>
    { o with
      console := o.console.printLines
        ["", "Keep your private key secure and never share it!"] }
  | _ => o

/-- All that comes after a search. -/
def conclude (w : World) (p : Plan) (final : Search Candidate) : Outcome :=
  let console := p.console.report final.log
  match printReports p.settings.verbose final.reports console with
  | .error c => stop w console (.crashed c)
  | .ok console =>
    match printBest (console.printLine (ruler '=')) true final.snapshot with
    | .error c => stop w console (.crashed c)
    | .ok console =>
      let console := console.printLine (ruler '=')
      match final.best with
      | none =>
        stop w (console.printLine "No key was generated before the search stopped.")
          (.finished 1)
      | some best =>
        farewell (if p.options.json then saveBest w p best console
          else stop w console (.finished 0))

/-- One run of the program. -/
def run (w : World) (arguments : List (List Nat)) : Outcome :=
  match prepare w arguments with
  | .error outcome => outcome
  | .ok p =>
    match (Search.new p.settings).run p.workers (w.waits p.workers) (w.grace p.workers) with
    | none => stop w p.console .unfinished
    | some (_, final) => conclude w p final

end KeySearch.Program
