import KeySearch.Proofs.Ranking
import KeySearch.Search.Run

/-!
# Schedules of a search

A schedule is a list of moves in any order: events of the workers and the clock, items taken off the
channel, and the call that asks everything to stop. `Search.play` carries a schedule out. Beside the
search that it leads to, a schedule has an account: the finds that the workers made
(`Search.found`), the finds they published (`Search.published`) and the finds that were offered to
the search (`Search.offered`). Every whole run of a search is a schedule followed by the shutdown.
-/

set_option autoImplicit false

namespace KeySearch.Search

variable {α : Type} [Scored α]

/-! ## Moves -/

/-- What can happen to a search while it runs. -/
inductive Move (α : Type)
  | event (e : Event α)
  /-- One item is taken off the channel. -/
  | poll
  /-- Everything is asked to stop. -/
  | stop

/-- The search after a move. -/
def move (s : Search α) : Move α → Search α
  | .event e => s.after e
  | .poll => s.poll.2
  | .stop => s.requestStops

/-- The search after a schedule. -/
def play (s : Search α) (moves : List (Move α)) : Search α := moves.foldl move s

/-! ## The account of a schedule -/

/-- The find that a step of worker `i` makes, with the number of the worker. -/
def findOf (s : Search α) (i : Nat) (source : KeySource α) : List (Nat × α) :=
  match s.workers[i]? with
  | none => []
  | some w => (w.step s.settings.byBlocks source).1.toOption.toList.map fun find => (i, find)

/-- The finds that a move makes. -/
def foundIn (s : Search α) : Move α → List (Nat × α)
  | .event (.turn i source _) => if s.wouldStep i then s.findOf i source else []
  | .event (.step i source _) => if (s.workers[i]?).any Worker.active then s.findOf i source else []
  | _ => []

/-- The finds that a move publishes. -/
def publishedIn (s : Search α) : Move α → List α
  | .event (.turn i source _) =>
    match s.workers[i]? with
    | none => []
    | some w => (w.turn s.settings.byBlocks s.cancelled source).2.published.toList
  | .event (.step i source _) =>
    match s.workers[i]? with
    | none => []
    | some w =>
      if w.active then (w.advance s.settings.byBlocks source).2.published.toList else []
  | _ => []

/-- The finds that a move offers to the search. -/
def offeredIn (s : Search α) : Move α → List α
  | .poll =>
    match s.channel.items with
    | some find :: _ => [find]
    | _ => []
  | _ => []

/-- What the moves of a schedule add up to, one after another. -/
def collect {β : Type} (added : Search α → Move α → List β) : Search α → List (Move α) → List β
  | _, [] => []
  | s, m :: rest => added s m ++ collect added (s.move m) rest

/-- The finds that the workers make in a schedule, each with the number of its worker. -/
def found (s : Search α) (moves : List (Move α)) : List (Nat × α) := collect foundIn s moves

/-- The finds that worker `i` makes in a schedule. -/
def foundBy (s : Search α) (moves : List (Move α)) (i : Nat) : List α :=
  (s.found moves).filterMap fun entry => if entry.1 = i then some entry.2 else none

/-- The finds that the workers publish in a schedule. -/
def published (s : Search α) (moves : List (Move α)) : List α := collect publishedIn s moves

/-- The finds that are offered to the search in a schedule. -/
def offered (s : Search α) (moves : List (Move α)) : List α := collect offeredIn s moves

/-- The finds that a shutdown offers: those in front of the first blank item. -/
def leftOver : List (Option α) → List α
  | some find :: rest => find :: leftOver rest
  | _ => []

/-! ## Runs as schedules -/

theorem play_append (s : Search α) (front back : List (Move α)) :
    s.play (front ++ back) = (s.play front).play back :=
  List.foldl_append

theorem play_map_event (s : Search α) (events : List (Event α)) :
    s.play (events.map .event) = s.afterAll events := by
  rw [play, afterAll, List.foldl_map]
  rfl

/-- The waits of a search are a schedule. -/
theorem exists_play_of_rounds {waits : List (List (Event α))} {s mid : Search α}
    {reason : StopReason} (h : rounds waits s = some (reason, mid)) :
    ∃ moves, mid = s.play moves := by
  induction waits generalizing s with
  | nil => cases h
  | cons events rest ih =>
      -- a wait is its events and then one poll
      have hwait : (s.afterAll events).poll.2 = s.play (events.map .event ++ [.poll]) := by
        rw [play_append, play_map_event]
        rfl
      rw [rounds] at h
      split at h
      · cases h
        exact ⟨_, hwait⟩
      · obtain ⟨moves, hmoves⟩ := ih h
        exact ⟨events.map .event ++ [.poll] ++ moves, by rw [hmoves, hwait, ← play_append]⟩

/-- Every whole run is a schedule, then the shutdown. -/
theorem exists_play_of_run {s final : Search α} {count : Nat} {waits : List (List (Event α))}
    {grace : List (Event α)} {reason : StopReason}
    (h : s.run count waits grace = some (reason, final)) :
    ∃ moves, final = ((s.begin count).play moves).settle.finish reason := by
  unfold run at h
  split at h
  · cases h
  · next mid hrounds =>
    cases h
    obtain ⟨moves, rfl⟩ := exists_play_of_rounds hrounds
    refine ⟨moves ++ .stop :: grace.map .event, ?_⟩
    rw [play_append, close, ← play_map_event]
    rfl

/-! ## What events leave alone -/

omit [Scored α] in
theorem arrive_frame (s : Search α) (i : Nat) (arrival : Option Signal) :
    (s.arrive i arrival).settings = s.settings ∧ (s.arrive i arrival).best = s.best := by
  rcases arrival with _ | _ | _ <;> exact ⟨rfl, rfl⟩

/-- In an event other than the passing of time at most one worker acts, and then a stop may be asked
for. -/
theorem after_of_not_idle {e : Event α} (h : ∀ ms, e ≠ .idle ms) (s : Search α) :
    ∃ t i arrival, (t = s ∨ ∃ effect, t = s.absorb i effect) ∧ s.after e = t.arrive i arrival := by
  cases e with
  | launch i =>
      show ∃ t i' arrival, _ ∧ s.launch i = _
      unfold launch
      split
      · exact ⟨s, i, none, .inl rfl, rfl⟩
      · exact ⟨_, i, none, .inr ⟨_, rfl⟩, rfl⟩
  | turn i source arrival =>
      show ∃ t i' arrival', _ ∧ (s.turn i source arrival).2 = _
      unfold turn
      split
      · exact ⟨s, i, none, .inl rfl, rfl⟩
      · dsimp only
        split
        · exact ⟨_, i, arrival, .inr ⟨_, rfl⟩, rfl⟩
        · exact ⟨_, i, none, .inr ⟨_, rfl⟩, rfl⟩
  | step i source arrival =>
      show ∃ t i' arrival', _ ∧ (s.advance i source arrival).2 = _
      unfold advance
      split
      · exact ⟨s, i, none, .inl rfl, rfl⟩
      · dsimp only
        split
        · exact ⟨s, i, none, .inl rfl, rfl⟩
        · exact ⟨_, i, arrival, .inr ⟨_, rfl⟩, rfl⟩
  | request i => exact ⟨s, i, some .worker, .inl rfl, rfl⟩
  | cancel => exact ⟨s, 0, some .search, .inl rfl, rfl⟩
  | idle ms => exact absurd rfl (h ms)

/-- Nothing changes the settings, and only a poll and the shutdown change the best find. -/
theorem after_frame (s : Search α) (e : Event α) :
    (s.after e).settings = s.settings ∧ (s.after e).best = s.best := by
  by_cases hidle : ∃ ms, e = .idle ms
  · obtain ⟨ms, rfl⟩ := hidle
    exact ⟨rfl, rfl⟩
  · obtain ⟨t, i, arrival, ht, hafter⟩ :=
      after_of_not_idle (fun ms he => hidle ⟨ms, he⟩) s
    rw [hafter]
    rcases ht with rfl | ⟨effect, rfl⟩
    · exact arrive_frame t i arrival
    · exact arrive_frame (s.absorb i effect) i arrival

theorem afterAll_frame (s : Search α) (events : List (Event α)) :
    (s.afterAll events).settings = s.settings ∧ (s.afterAll events).best = s.best := by
  induction events generalizing s with
  | nil => exact ⟨rfl, rfl⟩
  | cons e rest ih =>
      obtain ⟨hsettings, hbest⟩ := after_frame s e
      obtain ⟨hsettings', hbest'⟩ := ih (s.after e)
      exact ⟨hsettings'.trans hsettings, hbest'.trans hbest⟩

/-! ## The shutdown -/

/-- An offer changes nothing but the best find and the reports. -/
theorem offer_eq (s : Search α) (find : α) :
    ∃ reports, (s.offer find).2
      = { s with best := keepBetter s.settings.byBlocks s.best find, reports := reports } := by
  unfold offer keepBetter
  split <;> exact ⟨_, rfl⟩

/-- A find that ranks above the best one takes its place and is reported. -/
theorem offer_of_improves {s : Search α} {find : α}
    (h : (Scored.score find).improves s.settings.byBlocks (s.best.map Scored.score) = true) :
    s.offer find = (true, { s with
      best := some find
      reports := s.reports ++ [({ s with best := some find } : Search α).snapshot] }) := by
  rw [offer, if_pos h]

/-- Any other find is dropped. -/
theorem offer_of_not_improves {s : Search α} {find : α}
    (h : (Scored.score find).improves s.settings.byBlocks (s.best.map Scored.score) = false) :
    s.offer find = (false, s) := by
  rw [offer, h]
  rfl

/-- An offer does not look at the channel. -/
theorem offer_with_channel (s : Search α) (channel : Channel (Option α)) (find : α) :
    ({ s with channel := channel }.offer find).2 = { (s.offer find).2 with channel := channel } := by
  cases h : (Scored.score find).improves s.settings.byBlocks (s.best.map Scored.score) with
  | true => rw [offer_of_improves h, @offer_of_improves _ _ { s with channel := channel } find h]; rfl
  | false =>
      rw [offer_of_not_improves h, @offer_of_not_improves _ _ { s with channel := channel } find h]

omit [Scored α] in
theorem leftOver_map_some (finds : List α) : leftOver (finds.map some) = finds := by
  induction finds with
  | nil => rfl
  | cons find finds ih =>
      rw [List.map_cons, leftOver, ih]

theorem drainItems_cons (find : α) (rest : List (Option α)) (s : Search α) :
    (drainItems (some find :: rest) s).2 = (drainItems rest (s.offer find).2).2 := rfl

/-- A shutdown takes items off the channel by polls, until nothing more comes. -/
theorem drainItems_eq_play (items : List (Option α)) (s : Search α) :
    (drainItems items s).2 = ({ s with channel := ⟨items⟩ } : Search α).play
      (List.replicate ((leftOver items).length + 1) .poll) := by
  induction items generalizing s with
  | nil => rfl
  | cons item rest ih =>
      cases item with
      | none => rfl
      | some find =>
          have hpoll : ({ s with channel := ⟨some find :: rest⟩ } : Search α).move .poll
              = { (s.offer find).2 with channel := ⟨rest⟩ } := offer_with_channel s ⟨rest⟩ find
          rw [drainItems_cons, ih]
          exact congrArg (fun t : Search α => t.play _) hpoll.symm

/-- A shutdown takes finds off the channel, and changes nothing else but the best find and the
reports. -/
theorem drainItems_eq (items : List (Option α)) (s : Search α) :
    ∃ channel reports, (drainItems items s).2
      = { s with
          channel := channel
          best := (leftOver items).foldl (keepBetter s.settings.byBlocks) s.best
          reports := reports } := by
  induction items generalizing s with
  | nil => exact ⟨_, _, rfl⟩
  | cons item rest ih =>
      cases item with
      | none => exact ⟨_, _, rfl⟩
      | some find =>
          obtain ⟨reports, hoffer⟩ := offer_eq s find
          rw [drainItems_cons, hoffer]
          exact ih _

/-- A shutdown keeps the best of what it had and of what it finds on the channel. -/
theorem best_drainItems (items : List (Option α)) (s : Search α) :
    (drainItems items s).2.best
      = (leftOver items).foldl (keepBetter s.settings.byBlocks) s.best := by
  obtain ⟨channel, reports, hdrain⟩ := drainItems_eq items s
  rw [hdrain]

theorem workers_drainItems (items : List (Option α)) (s : Search α) :
    (drainItems items s).2.workers = s.workers := by
  obtain ⟨channel, reports, hdrain⟩ := drainItems_eq items s
  rw [hdrain]

/-- A shutdown empties a channel that has no blank item. -/
theorem items_drainItems (finds : List α) (s : Search α) :
    (drainItems (finds.map some) s).2.channel.items = [] := by
  induction finds generalizing s with
  | nil => rfl
  | cons find finds ih =>
      rw [List.map_cons, drainItems_cons, ih]

omit [Scored α] in
theorem report_report (s : Search α) (first second : List Log.Record) :
    (s.report first).report second = s.report (first ++ second) := by
  simp [report]

theorem offer_report (s : Search α) (lines : List Log.Record) (find : α) :
    ((s.report lines).offer find).2 = (s.offer find).2.report lines := by
  cases h : (Scored.score find).improves s.settings.byBlocks (s.best.map Scored.score) with
  | true => rw [offer_of_improves h, @offer_of_improves _ _ (s.report lines) find h]; rfl
  | false => rw [offer_of_not_improves h, @offer_of_not_improves _ _ (s.report lines) find h]

theorem poll_report (s : Search α) (lines : List Log.Record) :
    (s.report lines).poll.2 = s.poll.2.report lines := by
  have hchannel : (s.report lines).channel = s.channel := rfl
  rw [poll, poll, hchannel]
  rcases s.channel.pop? with _ | ⟨_ | find, channel⟩
  · rfl
  · rfl
  · exact offer_report { s with channel := channel } lines find

theorem play_polls_report (n : Nat) (s : Search α) (lines : List Log.Record) :
    (s.report lines).play (List.replicate n .poll)
      = (s.play (List.replicate n .poll)).report lines := by
  induction n generalizing s with
  | zero => rfl
  | succ n ih =>
      rw [List.replicate_succ]
      show (s.report lines).poll.2.play _ = (s.poll.2.play _).report lines
      rw [poll_report, ih]

theorem settle_eq_drain (s : Search α) :
    ∃ before after, s.settle = (s.report before).drain.2.report after := by
  unfold settle
  dsimp only
  rw [report_report]
  exact ⟨_, _, rfl⟩

/-- Beside records in the log, a shutdown is a series of polls. -/
theorem settle_eq_play (s : Search α) : ∃ lines,
    s.settle
      = (s.play (List.replicate ((leftOver s.channel.items).length + 1) .poll)).report lines := by
  obtain ⟨before, after, hsettle⟩ := settle_eq_drain s
  refine ⟨before ++ after, ?_⟩
  have hdrain := drainItems_eq_play s.channel.items (s.report before)
  rw [hsettle, ← report_report, ← play_polls_report]
  exact congrArg (fun t : Search α => t.report after) hdrain

theorem best_settle (s : Search α) :
    s.settle.best
      = (leftOver s.channel.items).foldl (keepBetter s.settings.byBlocks) s.best :=
  best_drainItems s.channel.items _

theorem workers_settle (s : Search α) : s.settle.workers = s.workers :=
  workers_drainItems s.channel.items _

theorem items_settle {s : Search α} {finds : List α} (h : s.channel.items = finds.map some) :
    s.settle.channel.items = [] := by
  have hdrain := items_drainItems finds
  rw [← h] at hdrain
  exact hdrain _

end KeySearch.Search
