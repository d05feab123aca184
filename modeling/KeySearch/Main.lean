import KeySearch.Program
import Std.Async.Signal
import Std.Async.System
import Std.Time

/-!
# The command line program

This is the outer layer: it looks at the files that the command line names, lets the workers of a
search make their keys at the same time, prints what is new on the console and writes the files that
a run leaves. All else is done by `Program.prepare`, `Search` and `Program.conclude`.
-/

set_option autoImplicit false

namespace KeySearch.Live

/-! ## The machine -/

/-- The date and the time of day. -/
def now : IO Timestamp := do
  let t ← Std.Time.PlainDateTime.now
  return ⟨t.year.toInt.toNat, t.month.val.toNat, t.day.val.toNat, t.hour.val.toNat,
    t.minute.val.toNat, t.second.val.toNat, t.nanosecond.val.toNat / 1000⟩

/-- The milliseconds that all processors were idle, and those that went by for them. -/
def processorTimes : IO (Nat × Nat) := do
  let all ← Std.Async.System.getCPUInfo
  let idle := all.foldl (fun sum one => sum + one.times.idleTime.val.toNat) 0
  let busy := all.foldl (fun sum one => sum + one.times.userTime.val.toNat
    + one.times.niceTime.val.toNat + one.times.systemTime.val.toNat
    + one.times.interruptTime.val.toNat) 0
  return (idle, idle + busy)

/-- A share of a whole in percent, to one place. -/
def percent (share whole : Nat) : Quantity :=
  .real (Binary64.ofRatio (if whole = 0 then 0 else roundQuotient (share * 1000) whole) 10)

/-- The percentage of a tenth of a second for which the processors were busy. -/
def processorPercent : IO Quantity := do
  let (idle, whole) ← processorTimes
  IO.sleep 100
  let (idleAfter, wholeAfter) ← processorTimes
  let passed := wholeAfter - whole
  return percent (passed - (idleAfter - idle)) passed

/-- The number of processor cores, if the system tells it. -/
def coreCount : IO (Option Int) := do
  try
    let text ← IO.FS.readFile "/proc/cpuinfo"
    let lines := text.splitOn "\n"
    let chips := lines.filter fun line => line.startsWith "physical id"
    let cores := lines.filter fun line => line.startsWith "core id"
    let count := (chips.zip cores).eraseDups.length
    return if count = 0 then none else some (Int.ofNat count)
  catch _ => return none

/-- What the machine is like. -/
def machine : IO Report.Machine := do
  let logical := (← Std.Async.System.getCPUInfo).size
  let total := (← Std.Internal.UV.System.totalMemory).toNat
  let available := (← Std.Internal.UV.System.availableMemory).toNat
  let resources : Resources :=
    { logicalProcessors := some (Int.ofNat logical)
      physicalProcessors := ← coreCount
      processorPercent := some (← processorPercent)
      memoryPercent := some (percent (total - available) total)
      memoryAvailable := some (.whole (Int.ofNat available)) }
  return ⟨some logical, .ok resources⟩

/-! ## Files -/

/-- What really stands at a path. -/
def nodeAt? (path : Path) : IO (Option FileNode) := do
  try
    let .ok name := Text.printed (Files.absolute path) | return none
    let place ← IO.FS.realPath name
    match (← place.metadata).type with
    | .dir => return some .directory
    | .file => return some (.file (← IO.FS.readBinFile place).toList)
    | _ => return some (.device (← IO.FS.readBinFile place).toList)
  catch _ => return none

/-- Looks at a path and at all that leads to it. -/
def lookAt (f : Files) (path : Path) : IO Files :=
  (List.range path.length).foldlM (fun (f : Files) n => do
    let part := path.take (n + 1)
    match ← nodeAt? part with
    | some node => return f.put part node
    | none => return f) f

/-- The file system, as far as the command line names files in it. -/
def filesFor (o : CommandLine.Options) : IO Files := do
  let here := (Files.names (Text.codePoints (← IO.currentDir).toString)).filter fun name =>
    !name.isEmpty
  let places := [o.config.text?, o.checkKey.text?].filterMap id
  let start : Files := ⟨here, []⟩
  places.foldlM (fun f place => lookAt f (f.resolve place).path) start

/-- Writes what is new in a file system. -/
def writeChanges (before after : Files) : IO Unit :=
  after.nodes.forM fun (path, node) => do
    if before.node? path ≠ some node then
      let name := Text.ofCodePoints (Files.absolute path)
      match node with
      | .directory => IO.FS.createDirAll name
      | .file bytes => IO.FS.writeBinFile name ⟨bytes.toArray⟩
      | .device _ => pure ()

/-! ## The console -/

/-- A log record with the time of day. -/
def recordLine (time : Timestamp) (record : Log.Record) : String :=
  time.text.replace "T" " " ++ " - " ++ record.level.name ++ " - " ++ record.text

/-- Shows what has been written since an earlier console. -/
def display (before after : Console) : IO Unit := do
  let time ← now
  IO.print (String.ofList (after.output.toList.drop before.output.length))
  (← IO.getStdout).flush
  IO.eprint (String.ofList (after.errors.toList.drop before.errors.length))
  (after.log.drop before.log.length).forM fun record => IO.eprintln (recordLine time record)

/-- Draws a progress bar. -/
def draw (bar : ProgressBar) : IO Unit :=
  IO.eprint ("\r" ++ bar.description.getD "Searching keys" ++ ": " ++ toString bar.position ++ " "
    ++ bar.suffix.getD "")

/-! ## The search -/

/-- What a running search has beside its state. -/
structure Session where
  plan : Program.Plan
  /-- A random seed for every worker. -/
  draws : List Seed
  /-- Whether a stop was asked for. -/
  interrupted : BaseIO Bool

/-- A random seed. -/
def randomSeed : IO Seed := do
  match Seed.ofBytes (← IO.getRandomBytes 32).toList with
  | .ok seed => return seed
  | .error _ => return Seed.zero

/-- One turn of every worker. The keys are made at the same time. -/
def turns (session : Session) (s : Search Candidate) : List (Search.Event Candidate) :=
  let keys := (s.workers.zip session.draws).map fun (w, draw) =>
    (draw, Task.spawn fun _ =>
      Candidate.ofSeed KeyPrimitive.ed25519 (w.nextSeed draw).bytes)
  keys.mapIdx fun i (draw, key) => .turn i ⟨draw, fun _ => key.get⟩ none

/-- Lets the workers take turns until it is time, or until a stop is asked for. -/
partial def turnUntil (session : Session) (deadline : Nat) (s : Search Candidate) :
    IO (Search Candidate) := do
  if deadline ≤ (← IO.monoMsNow) || (← session.interrupted) then return s
  turnUntil session deadline (s.afterAll (turns session s))

/-- The console with all that a search has found and reported so far. -/
def consoleOf (session : Session) (s : Search Candidate) : Console :=
  let console := session.plan.console.report s.log
  (Program.printReports session.plan.settings.verbose s.reports console).toOption.getD console

/-- One look of the monitor at the search. -/
def monitorTick (session : Session) (m : Report.Monitor) (s : Search Candidate) :
    IO Report.Monitor := do
  match m.tick session.plan.settings s.snapshot with
  | .error _ => return m
  | .ok next =>
    next.bar.forM draw
    let time ← now
    (next.log.drop m.log.length).forM fun record => IO.eprintln (recordLine time record)
    return next

/-- The waits of a search, up to a reason to stop. -/
partial def rounds (session : Session) (m : Report.Monitor) (s : Search Candidate) :
    IO (StopReason × Search Candidate) := do
  let start ← IO.monoMsNow
  let next ← turnUntil session (start + 100) s
  let passed := (← IO.monoMsNow) - start
  let stop := if ← session.interrupted then [Search.Event.cancel] else []
  let next := (next.afterAll (.idle passed :: stop)).poll.2
  display (consoleOf session s) (consoleOf session next)
  let m ← if s.clock / 1000 < next.clock / 1000 then monitorTick session m next else pure m
  match next.checkStop with
  | some reason => return (reason, next)
  | none => rounds session m next

/-- A whole search. -/
def search (session : Session) : IO (Search Candidate) := do
  let plan := session.plan
  let s := (Search.new plan.settings).begin plan.workers
  let s := s.afterAll ((List.range plan.workers).map .launch)
  display plan.console (consoleOf session s)
  let monitor := Report.Monitor.start plan.settings !plan.options.noProgress
  let (reason, s) ← rounds session monitor s
  let start ← IO.monoMsNow
  if monitor.bar.isSome then IO.eprintln ""
  let passed := (← IO.monoMsNow) - start
  let final := s.close reason (turns session s.requestStops ++ [.idle passed])
  display (consoleOf session s) (consoleOf session final)
  return final

/-! ## The program -/

/-- Ends a run: shows the rest, writes the files and gives the status. -/
def finish (shown : Console) (before : Files) (o : Program.Outcome) : IO UInt32 := do
  writeChanges before o.files
  display shown o.console
  match o.ending with
  | .finished status | .left status => return status.toUInt32
  | .crashed c =>
    IO.eprintln c.message
    return 1
  | .unfinished => return 1

/-- The world, as far as a command line needs it. -/
def worldFor (arguments : List (List Nat)) : IO Program.World := do
  let o := match CommandLine.read arguments with
    | .ok (.options o) => o
    | _ => .defaults
  return { files := ← filesFor o, machine := ← machine, time := ← now,
           primitive := KeyPrimitive.ed25519, waits := fun _ => [], grace := fun _ => [] }

/-- The world after a search, with the place where its best key is to be saved. -/
def worldAfter (w : Program.World) (p : Program.Plan) (s : Search Candidate) :
    IO Program.World := do
  let files ← match Program.outputDirectory p, s.best with
    | .ok dir, some best => lookAt w.files (SavedKey.file w.files dir best).path
    | _, _ => pure w.files
  return { w with files := files, time := ← now }

/-- Whether somebody wants to stop the program. -/
def interruption : IO (BaseIO Bool) := do
  let key ← (← Std.Async.Signal.Waiter.mk .sigint false).wait
  let term ← (← Std.Async.Signal.Waiter.mk .sigterm false).wait
  return do return (← IO.hasFinished key) || (← IO.hasFinished term)

end KeySearch.Live

open KeySearch in
/-- Runs the program. -/
def main (words : List String) : IO UInt32 := do
  let arguments := words.map Text.codePoints
  let world ← Live.worldFor arguments
  match Program.prepare world arguments with
  | .error outcome => Live.finish Console.start world.files outcome
  | .ok plan =>
    Live.display Console.start plan.console
    let draws ← (List.range plan.workers).mapM fun _ => Live.randomSeed
    let session : Live.Session := ⟨plan, draws, ← Live.interruption⟩
    let s ← Live.search session
    let after ← Live.worldAfter world plan s
    let outcome := Program.conclude after plan s
    Live.finish (Live.consoleOf session s) after.files outcome
