import KeySearch.Log
import KeySearch.Report.Count
import KeySearch.Settings
import KeySearch.Snapshot

/-!
# Progress

While a search runs, a monitor looks at it once a second. It moves a progress bar, which counts
seconds when the search has a time limit and keys when it has none, or in a verbose search writes a
record every tenth time.
-/

set_option autoImplicit false

namespace KeySearch

/-- What a progress bar shows: a position, a text behind it and a text before it. -/
structure ProgressBar where
  /-- The seconds that the bar counts up to, `0` when it counts keys. -/
  timeLimit : Int
  position : Int
  suffix : Option String
  description : Option String
  deriving Repr, DecidableEq

namespace ProgressBar

/-- A bar that nothing has been shown on. -/
def start (timeLimit : Int) : ProgressBar := ⟨timeLimit, 0, none, none⟩

/-- Why a bar cannot be drawn, if so: its length is a time limit beyond all floating-point
numbers. -/
def drawingFault? (bar : ProgressBar) : Option Quantity.Error :=
  match (Quantity.whole bar.timeLimit).toBinary64 with
  | .ok _ => none
  | .error e => some e

/-- The number of keys and the keys per second of a snapshot. -/
def speedText {α : Type} (s : Snapshot α) : Except Quantity.Error String :=
  match Count.text s.generated with
  | .error e => .error e
  | .ok count =>
    match s.rate with
    | .error e => .error e
    | .ok rate => .ok (count ++ " keys, " ++ Decimal.fixed 0 true rate ++ "/s")

/-- Shows the zero bits of the best find, if there is one. -/
def describe {α : Type} [Scored α] (bar : ProgressBar) (s : Snapshot α) : ProgressBar :=
  match s.best with
  | none => bar
  | some best =>
    { bar with
      description := some ("Searching keys (best " ++ toString (Scored.score best).zeroBits
        ++ " bits)") }

/-- Shows a snapshot. When a number cannot be shown the bar keeps what it got before that. -/
def update {α : Type} [Scored α] (bar : ProgressBar) (s : Snapshot α) :
    ProgressBar × Option Quantity.Error :=
  if bar.timeLimit = 0 then ({ bar with position := s.generated }.describe s, none)
  else
    match s.elapsed.truncate with
    | .error e => (bar, some e)
    | .ok seconds =>
      let bar := { bar with position := min seconds bar.timeLimit }
      match speedText s with
      | .error e => (bar, some e)
      | .ok speed => ({ bar with suffix := some speed }.describe s, none)

end ProgressBar

namespace Report

/-- Whether a search shows a progress bar: when one is wanted and the search is not verbose. -/
def showsProgress (s : Settings) (wanted : Bool) : Bool := wanted && !s.verbose

/-- What a monitor has done so far. -/
structure Monitor where
  ticks : Nat
  bar : Option ProgressBar
  log : List Log.Record
  deriving Repr, DecidableEq

/-- The record of a snapshot in a verbose search. -/
def progressRecord {α : Type} (s : Snapshot α) : Except Quantity.Error Log.Record :=
  match s.rate with
  | .error e => .error e
  | .ok rate =>
    match s.elapsed.fixed 1 with
    | .error e => .error e
    | .ok elapsed =>
      .ok (Log.debug (Decimal.grouped s.generated ++ " keys | " ++ Decimal.fixed 0 true rate
        ++ " keys/sec | " ++ elapsed ++ "s"))

/-- The monitor of a search before its first look. -/
def Monitor.start (s : Settings) (wanted : Bool) : Monitor :=
  ⟨0, if showsProgress s wanted then some (ProgressBar.start s.maxDuration) else none, []⟩

/-- One look at the search. -/
def Monitor.tick {α : Type} [Scored α] (s : Settings) (m : Monitor) (now : Snapshot α) :
    Except Quantity.Error Monitor :=
  let ticks := m.ticks + 1
  match m.bar with
  | some bar =>
    match bar.update now with
    | (bar, none) => .ok { m with ticks := ticks, bar := some bar }
    | (_, some e) => .error e
  | none =>
    if s.verbose && ticks % 10 == 0 then
      match progressRecord now with
      | .ok record => .ok { m with ticks := ticks, log := m.log ++ [record] }
      | .error e => .error e
    else .ok { m with ticks := ticks }

end Report

end KeySearch
