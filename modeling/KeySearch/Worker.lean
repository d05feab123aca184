import KeySearch.Candidate
import KeySearch.Log
import KeySearch.Number.Decimal
import KeySearch.Seed

/-!
# Workers

A worker goes through the seeds that follow its first one. Each step makes a find of the next seed,
and a find that ranks above all the worker's earlier ones is published. `Worker.step` is one step;
`Worker.turn` is one round of the loop that steps until a stop is asked for or a step fails, and
that wipes the seed when it ends.

A worker only knows finds by their scores, so it works the same for whatever has a score.
-/

set_option autoImplicit false

namespace KeySearch

/-- How far a worker is from its end. -/
inductive WorkerState
  | running
  | stopRequested
  | stopped
  deriving Repr, DecidableEq

/-- The name of a state. -/
def WorkerState.name : WorkerState → String
  | .running => "running"
  | .stopRequested => "stop_requested"
  | .stopped => "stopped"

/-- Where finds come from: the seed that a random draw gives, and what is made of a seed. -/
structure KeySource (α : Type) where
  draw : Seed
  make : Seed → Except Candidate.Error α

/-- A worker. -/
structure Worker (α : Type) where
  id : Int
  state : WorkerState
  /-- Whether the worker's loop is under way. -/
  active : Bool
  generated : Nat
  published : Nat
  failure : Option Candidate.Error
  /-- The seed of the last step, or the first seed before any step, `none` until it is drawn. -/
  seed : Option Seed
  /-- Whether no step has been made yet. -/
  fresh : Bool
  /-- The last find that was published. -/
  best : Option α
  bestScore : Option Score

namespace Worker

variable {α : Type}

/-- A worker that has done nothing yet. -/
def start (id : Int) (seed : Option Seed) : Worker α :=
  { id := id, state := .running, active := false, generated := 0, published := 0, failure := none,
    seed := seed, fresh := true, best := none, bestScore := none }

/-- How the records of a worker begin. -/
def label (w : Worker α) : String := "Worker " ++ toString w.id ++ ": "

/-- The seed of the next step: the first seed, which is drawn if need be, then always the next. -/
def nextSeed (w : Worker α) (draw : Seed) : Seed :=
  match w.seed with
  | none => draw
  | some seed => if w.fresh then seed else seed.increment

/-- A worker that was asked to stop. Only a running one takes notice. -/
def requestStop (w : Worker α) : Worker α :=
  if w.state = .running then { w with state := .stopRequested } else w

/-- Whether the worker's loop is to end, given whether the whole search is cancelled. -/
def stopping (w : Worker α) (cancelled : Bool) : Bool := cancelled || w.state != .running

/-- Whether the worker has ended. -/
def exited (w : Worker α) : Bool := w.state == .stopped

/-- What a step or a turn leaves behind: the worker, what it published and what it reported. -/
structure Effect (α : Type) where
  worker : Worker α
  published : Option α
  log : List Log.Record

/-- The worker after a find. A find that ranks above the last published one is published. -/
def accept [Scored α] (w : Worker α) (byBlocks : Bool) (find : α) : Effect α :=
  let w := { w with generated := w.generated + 1 }
  let score := Scored.score find
  if score.improves byBlocks (w.best.map Scored.score) then
    { worker :=
        { w with best := some find, bestScore := some score, published := w.published + 1 }
      published := some find
      log := [Log.debug (w.label ++ "new local best (zero bits " ++ toString score.zeroBits
        ++ ", zero blocks " ++ toString score.zeroBlocks ++ ")")] }
  else { worker := w, published := none, log := [] }

/-- One step: the find that the next seed gives, or the failure to make one. -/
def step [Scored α] (w : Worker α) (byBlocks : Bool) (source : KeySource α) :
    Except Candidate.Error α × Effect α :=
  let seed := w.nextSeed source.draw
  let w := { w with seed := some seed, fresh := false }
  match source.make seed with
  | .error e => (.error e, { worker := w, published := none, log := [] })
  | .ok find => (.ok find, w.accept byBlocks find)

/-- The loop begins. -/
def launch (w : Worker α) : Effect α :=
  { worker := { w with active := true }
    published := none
    log := [Log.debug (w.label ++ "started")] }

/-- The loop ends: the seed is overwritten with zeros and the best find is let go. -/
def finish (w : Worker α) : Effect α :=
  { worker :=
      { w with
        seed := w.seed.map fun _ => Seed.zero
        best := none
        state := .stopped
        active := false }
    published := none
    log := [Log.debug (w.label ++ "stopped after " ++ Decimal.grouped w.generated ++ " keys")] }

/-- Whether a failure belongs to the search. A key of the wrong size does not: it is a defect of the
key primitive, and is passed on. -/
def isSearchFailure : Candidate.Error → Bool
  | .address (.wrongSize _) => false
  | _ => true

/-- The loop ends because a step failed. -/
def fail (w : Worker α) (e : Candidate.Error) : Effect α :=
  if isSearchFailure e then
    let effect := { w with failure := some e }.finish
    { effect with
      log := Log.failure (w.label ++ "key generation failed: " ++ e.message) :: effect.log }
  else w.finish

/-- Puts one effect after another that a step had. -/
def Effect.andThen (first : Effect α) (next : Worker α → Effect α) : Effect α :=
  let second := next first.worker
  { worker := second.worker
    published := first.published
    log := first.log ++ second.log }

/-- The step of a round. A failure ends the loop, and the first part is the failure that is passed
on, if there is one. -/
def advance [Scored α] (w : Worker α) (byBlocks : Bool) (source : KeySource α) :
    Option Candidate.Error × Effect α :=
  match w.step byBlocks source with
  | (.ok _, effect) => (none, effect)
  | (.error e, effect) =>
    (if isSearchFailure e then none else some e, effect.andThen fun w => w.fail e)

/-- One round of the loop: it ends when a stop was asked for, else it makes a step. -/
def turn [Scored α] (w : Worker α) (byBlocks cancelled : Bool) (source : KeySource α) :
    Option Candidate.Error × Effect α :=
  if !w.active then (none, { worker := w, published := none, log := [] })
  else if w.stopping cancelled then (none, w.finish)
  else w.advance byBlocks source

end Worker

end KeySearch
