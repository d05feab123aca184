import KeySearch.Search.State

/-!
# Running a search

A run is a sequence of waits. During a wait the workers take their turns, the clock moves and stops
are asked for; after it the search takes one item off its channel and checks whether to go on.
`Search.run` is a whole run, from the workers' start to the final report.
-/

set_option autoImplicit false

namespace KeySearch.Search

variable {α : Type}

/-- Something that happens while a search waits, or while its workers end. -/
inductive Event (α : Type)
  /-- The loop of a worker begins. -/
  | launch (worker : Nat)
  /-- The loop of a worker goes round once, and a stop may be asked for meanwhile. -/
  | turn (worker : Nat) (source : KeySource α) (arrival : Option Signal)
  /-- A worker makes the step that it was about to make before the latest stop was asked for, and
  another stop may be asked for meanwhile. -/
  | step (worker : Nat) (source : KeySource α) (arrival : Option Signal)
  /-- A worker is asked to stop. -/
  | request (worker : Nat)
  /-- The whole search is asked to stop. -/
  | cancel
  /-- Milliseconds go by, in a wait or in the time that the workers have to end. -/
  | idle (ms : Nat)

/-- The search after an event. -/
def after [Scored α] (s : Search α) : Event α → Search α
  | .launch i => s.launch i
  | .turn i source arrival => (s.turn i source arrival).2
  | .step i source arrival => (s.advance i source arrival).2
  | .request i => s.requestStop i
  | .cancel => { s with cancelled := true }
  | .idle ms => { s with clock := s.clock + ms }

/-- The search after several events. -/
def afterAll [Scored α] (s : Search α) (events : List (Event α)) : Search α :=
  events.foldl after s

/-- The search begins, with so many workers. -/
def begin (s : Search α) (count : Nat) : Search α :=
  { s with
    workers := (List.range count).map fun i => Worker.start (Int.ofNat i) none
    startedAt := some s.clock
    endedAt := none
    log := s.log ++ [Log.info ("Starting key search with " ++ toString count ++ " workers")] }

/-- The waits of a search, up to the one after which there is a reason to stop. Without such a wait
the search is not over. -/
def rounds [Scored α] : List (List (Event α)) → Search α → Option (StopReason × Search α)
  | [], _ => none
  | events :: rest, s =>
    let s := (s.afterAll events).poll.2
    match s.checkStop with
    | some reason => some (reason, s)
    | none => rounds rest s

/-- Asks everything to stop. -/
def requestStops (s : Search α) : Search α :=
  { s with cancelled := true, workers := s.workers.map Worker.requestStop }

/-- Offers the items of the channel up to a blank one, and counts those that became the best
find. -/
def drainItems [Scored α] : List (Option α) → Search α → Nat × Search α
  | [], s => (0, { s with channel := .empty })
  | none :: rest, s => (0, { s with channel := ⟨rest⟩ })
  | some find :: rest, s =>
    let (kept, s) := s.offer find
    let (count, s) := drainItems rest s
    (if kept then count + 1 else count, s)

/-- Takes what is left on the channel. -/
def drain [Scored α] (s : Search α) : Nat × Search α := drainItems s.channel.items s

/-- A record about a number of things, if there are any. -/
def recordIfAny (count : Nat) (record : Log.Record) : List Log.Record :=
  if count = 0 then [] else [record]

/-- The search after the workers had time to end: what they published last is taken in, and workers
that still run or that failed are reported. -/
def settle [Scored α] (s : Search α) : Search α :=
  let busy := s.workers.countP fun w => !w.exited
  let s := s.report (recordIfAny busy (Log.warning
    (toString busy ++ " worker(s) still running after 0.5s grace period")))
  let (merged, s) := s.drain
  let s := s.report (recordIfAny merged (Log.debug
    ("Merged " ++ toString merged ++ " late candidate(s) after shutdown")))
  let failed := s.workers.countP fun w => w.failure.isSome
  s.report (recordIfAny failed (Log.failure
    (toString failed ++ " worker(s) exited with errors")))

/-- Asks everything to stop and takes in what is left. -/
def stopWorkers [Scored α] (s : Search α) : Search α := s.requestStops.settle

/-- The search ends and reports why. -/
def finish (s : Search α) (reason : StopReason) : Search α :=
  let s := { s with endedAt := some s.clock }
  s.report [Log.info ("Key search stopped (" ++ reason.text ++ "): " ++ Decimal.grouped s.generated
    ++ " keys in " ++ Decimal.fixed 1 false s.elapsed ++ "s")]

/-- All that follows a reason to stop: the workers are asked to stop, have time to end, and what
they leave is taken in. -/
def close [Scored α] (s : Search α) (reason : StopReason) (grace : List (Event α)) : Search α :=
  (s.requestStops.afterAll grace).settle.finish reason

/-- A whole run with so many workers: waits until there is a reason to stop, and then what happens
in the time that the workers have to end. -/
def run [Scored α] (s : Search α) (count : Nat) (waits : List (List (Event α)))
    (grace : List (Event α)) : Option (StopReason × Search α) :=
  match rounds waits (s.begin count) with
  | none => none
  | some (reason, s) => some (reason, s.close reason grace)

end KeySearch.Search
