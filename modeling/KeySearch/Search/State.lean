import KeySearch.Channel
import KeySearch.Settings
import KeySearch.Snapshot
import KeySearch.Worker

/-!
# The state of a search

A search has its workers, the channel through which they publish, the best find so far and a clock.
It takes finds off the channel one at a time with `Search.poll`, keeps a find that ranks above the
best one and reports it, and ends for the first of the reasons that `Search.checkStop` finds.
-/

set_option autoImplicit false

namespace KeySearch

/-- Why a search ended. -/
inductive StopReason
  | cancelled
  | allFailed
  | timeLimit
  | target
  deriving Repr, DecidableEq

/-- The wording of a reason. -/
def StopReason.text : StopReason → String
  | .cancelled => "cancelled"
  | .allFailed => "all workers failed"
  | .timeLimit => "time limit reached"
  | .target => "target reached"

/-- A search. An item of its channel may be blank, and a blank item looks like none at all. -/
structure Search (α : Type) where
  settings : Settings
  workers : List (Worker α)
  channel : Channel (Option α)
  best : Option α
  /-- Whether a stop was asked for. -/
  cancelled : Bool
  /-- The time in milliseconds. -/
  clock : Nat
  startedAt : Option Nat
  endedAt : Option Nat
  log : List Log.Record
  /-- What the search looked like whenever a better find was made, the earliest first. -/
  reports : List (Snapshot α)

namespace Search

variable {α : Type}

/-- A search that has not begun. -/
def new (settings : Settings) : Search α :=
  { settings := settings, workers := [], channel := .empty, best := none, cancelled := false,
    clock := 0, startedAt := none, endedAt := none, log := [], reports := [] }

/-- Milliseconds as seconds. -/
def seconds (ms : Nat) : Binary64 := Binary64.ofRatio ms 1000

/-- The seconds between the start and the end of the search, or until now while it has no end. -/
def elapsed (s : Search α) : Binary64 :=
  match s.startedAt with
  | none => Binary64.zero
  | some start => (seconds (s.endedAt.getD s.clock)).sub (seconds start)

/-- The number of keys that all workers have tried. -/
def generated (s : Search α) : Nat := (s.workers.map Worker.generated).foldr (· + ·) 0

/-- What the search looks like now. -/
def snapshot (s : Search α) : Snapshot α := ⟨s.best, s.generated, .real s.elapsed⟩

/-- Adds records to the log. -/
def report (s : Search α) (records : List Log.Record) : Search α :=
  { s with log := s.log ++ records }

/-- Keeps a find if it ranks above the best one, and says whether it did. -/
def offer [Scored α] (s : Search α) (find : α) : Bool × Search α :=
  if (Scored.score find).improves s.settings.byBlocks (s.best.map Scored.score) then
    let s := { s with best := some find }
    (true, { s with reports := s.reports ++ [s.snapshot] })
  else (false, s)

/-- Takes at most one item off the channel, and says whether it became the best find. -/
def poll [Scored α] (s : Search α) : Bool × Search α :=
  match s.channel.pop? with
  | none => (false, s)
  | some (none, channel) => (false, { s with channel := channel })
  | some (some find, channel) => { s with channel := channel }.offer find

/-- Whether there are workers and every one of them ended in a failure. -/
def allFailed (s : Search α) : Bool :=
  !s.workers.isEmpty && s.workers.all fun w => w.exited && w.failure.isSome

/-- Whether the search has taken longer than it may. -/
def overTime (s : Search α) : Bool :=
  s.settings.maxDuration != 0 && s.elapsed.exceeds s.settings.maxDuration

/-- Whether the best find has the zero bits that were asked for. -/
def targetReached [Scored α] (s : Search α) : Bool :=
  s.settings.targetZeroBits != 0 &&
    match s.best with
    | none => false
    | some best => (s.settings.targetZeroBits : Int) ≤ (Scored.score best).zeroBits

/-- The first reason to stop, if there is one. -/
def checkStop [Scored α] (s : Search α) : Option StopReason :=
  if s.cancelled then some .cancelled
  else if s.allFailed then some .allFailed
  else if s.overTime then some .timeLimit
  else if s.targetReached then some .target
  else none

/-- The search with one of its workers replaced and what that worker left behind. -/
def absorb (s : Search α) (i : Nat) (effect : Worker.Effect α) : Search α :=
  { s with
    workers := s.workers.set i effect.worker
    channel :=
      match effect.published with
      | none => s.channel
      | some find => s.channel.push (some find)
    log := s.log ++ effect.log }

/-- A stop that is asked for: of one worker, or of the whole search. -/
inductive Signal
  | worker
  | search
  deriving Repr, DecidableEq

/-- Asks one worker to stop. -/
def requestStop (s : Search α) (i : Nat) : Search α :=
  { s with workers := s.workers.modify i Worker.requestStop }

/-- Asks for a stop, of worker `i` or of the whole search. -/
def signal (s : Search α) (i : Nat) : Signal → Search α
  | .worker => s.requestStop i
  | .search => { s with cancelled := true }

/-- Asks for the stop that arrives, if one does. -/
def arrive (s : Search α) (i : Nat) (arrival : Option Signal) : Search α :=
  match arrival with
  | none => s
  | some sig => s.signal i sig

/-- One step of worker `i`, during which a stop may be asked for. `none` is a worker that does not
exist. -/
def step [Scored α] (s : Search α) (i : Nat) (source : KeySource α) (arrival : Option Signal) :
    Option (Except Candidate.Error α) × Search α :=
  match s.workers[i]? with
  | none => (none, s)
  | some w =>
    let (result, effect) := w.step s.settings.byBlocks source
    (some result, (s.absorb i effect).arrive i arrival)

/-- The loop of worker `i` begins. -/
def launch (s : Search α) (i : Nat) : Search α :=
  match s.workers[i]? with
  | none => s
  | some w => s.absorb i w.launch

/-- Whether the loop of worker `i` is under way and would make a step. -/
def wouldStep (s : Search α) (i : Nat) : Bool :=
  match s.workers[i]? with
  | none => false
  | some w => w.active && !w.stopping s.cancelled

/-- One round of the loop of worker `i`. A stop may be asked for while it makes a step. The first
part is a failure that is passed on. -/
def turn [Scored α] (s : Search α) (i : Nat) (source : KeySource α) (arrival : Option Signal) :
    Option Candidate.Error × Search α :=
  match s.workers[i]? with
  | none => (none, s)
  | some w =>
    let (raised, effect) := w.turn s.settings.byBlocks s.cancelled source
    (raised, if s.wouldStep i then (s.absorb i effect).arrive i arrival else s.absorb i effect)

/-- The step that the loop of worker `i` is about to make, when the worker has last looked for a
stop and seen none. A stop that was asked for since then does not keep it from the step. -/
def advance [Scored α] (s : Search α) (i : Nat) (source : KeySource α) (arrival : Option Signal) :
    Option Candidate.Error × Search α :=
  match s.workers[i]? with
  | none => (none, s)
  | some w =>
    if !w.active then (none, s)
    else
      let (raised, effect) := w.advance s.settings.byBlocks source
      (raised, (s.absorb i effect).arrive i arrival)

end Search

end KeySearch
