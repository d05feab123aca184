import KeySearch.Proofs.Moves
import KeySearch.Proofs.QuotedTexts

/-!
# A search sees scores, not keys

A search that is run twice, with other seeds and other finds but the same scores and the same failure
texts step by step, does the same things both times: it writes the same records, counts the same
finds, keeps a find at the same polls and ends for the same reason.

The proof takes the keys away. `Search.bare` leaves of every find its score and of every seed nothing,
which is a search for scores. It makes no difference whether a search goes on first or its keys are
taken away first: the bare search does the same. Only a step looks at a seed, and the bare search is
given the outcome of the step instead (`KeySource.echo`).
-/

set_option autoImplicit false

namespace KeySearch

open Text (toString_nat_injective)

/-! ## The texts of failures -/

namespace Candidate

/-- The character that a message begins with, which tells the kinds of failures apart. -/
def Error.initial : Error → Char
  | .derivation _ => 'K'
  | .address (.wrongSize _) => 'P'
  | .address (.tooManyOnes _) => 'o'

theorem Error.head_message (e : Error) : e.message.toList.head? = some e.initial := by
  cases e with
  | derivation e =>
      show ("Keypair derivation failed: " ++ e.detail).toList.head? = _
      rw [String.toList_append]
      rfl
  | address e =>
      cases e with
      | wrongSize actual =>
          show ("Public key must be 32 bytes, got " ++ toString actual).toList.head? = _
          rw [String.toList_append]
          rfl
      | tooManyOnes ones =>
          show ("ones count " ++ toString ones ++ " exceeds 127").toList.head? = _
          rw [String.toList_append, String.toList_append]
          rfl

/-- Failures with the same text are the same. -/
theorem Error.message_injective {e f : Error} (h : e.message = f.message) : e = f := by
  have hinitial : e.initial = f.initial := by
    rw [← Option.some_inj, ← e.head_message, ← f.head_message, h]
  rcases e with ⟨⟨detail⟩⟩ | ⟨actual | ones⟩ <;> rcases f with ⟨⟨detail'⟩⟩ | ⟨actual' | ones'⟩
  case derivation.derivation =>
    have hdetail : detail = detail' := (String.append_right_inj _).mp h
    rw [hdetail]
  case address.wrongSize.address.wrongSize =>
    rw [toString_nat_injective ((String.append_right_inj _).mp h)]
  case address.tooManyOnes.address.tooManyOnes =>
    have hones := (String.append_left_inj _).mp h
    rw [toString_nat_injective ((String.append_right_inj _).mp hones)]
  -- failures of two kinds begin with different letters
  all_goals simp [initial] at hinitial

end Candidate

/-! ## Outcomes -/

variable {α β : Type} [Scored α] [Scored β] {byBlocks : Bool}

/-- What a search sees of the outcome of a step: the score of a find, or the text of a failure. -/
def seen : Except Candidate.Error α → Except String Score
  | .ok find => .ok (Scored.score find)
  | .error e => .error e.message

/-- The outcome of a step without keys. -/
def bareOutcome : Except Candidate.Error α → Except Candidate.Error Score
  | .ok find => .ok (Scored.score find)
  | .error e => .error e

theorem bareOutcome_eq_of_seen_eq {outcome : Except Candidate.Error α}
    {outcome' : Except Candidate.Error β} (h : seen outcome = seen outcome') :
    bareOutcome outcome = bareOutcome outcome' := by
  cases outcome with
  | ok find =>
      cases outcome' with
      | ok find' => exact congrArg Except.ok (Except.ok.inj h)
      | error e' => cases h
  | error e =>
      cases outcome' with
      | ok find' => cases h
      | error e' => exact congrArg Except.error (Candidate.Error.message_injective (Except.error.inj h))

/-- A score is its own score. -/
theorem map_score_map_score (best : Option α) :
    (best.map Scored.score).map Scored.score = best.map Scored.score := by
  cases best <;> rfl

/-- A source that gives the same outcome for every seed. -/
def KeySource.echo (outcome : Except Candidate.Error Score) : KeySource Score :=
  ⟨Seed.zero, fun _ => outcome⟩

/-! ## A worker without keys -/

namespace Worker

/-- What a worker shows without its keys. -/
def bare (w : Worker α) : Worker Score :=
  { w with seed := none, best := w.best.map Scored.score }

/-- What a worker leaves behind, without keys. -/
def Effect.bare (effect : Effect α) : Effect Score :=
  { worker := effect.worker.bare
    published := effect.published.map Scored.score
    log := effect.log }

theorem bare_requestStop (w : Worker α) : w.requestStop.bare = w.bare.requestStop := by
  unfold requestStop
  by_cases hrunning : w.state = .running
  · rw [if_pos hrunning, if_pos (show w.bare.state = .running from hrunning)]
    rfl
  · rw [if_neg hrunning, if_neg (show ¬ w.bare.state = .running from hrunning)]

theorem bare_finish (w : Worker α) : w.finish.bare = w.bare.finish := rfl

theorem bare_fail (w : Worker α) (e : Candidate.Error) : (w.fail e).bare = w.bare.fail e := by
  unfold fail
  split <;> rfl

theorem Effect.bare_andThen {next : Worker α → Effect α} {next' : Worker Score → Effect Score}
    (h : ∀ w, (next w).bare = next' w.bare) (first : Effect α) :
    (first.andThen next).bare = first.bare.andThen next' := by
  have hworker : (next first.worker).bare = next' first.bare.worker := h first.worker
  unfold andThen
  rw [← hworker]
  rfl

/-- A worker compares scores, so its finds may as well be scores. -/
theorem bare_accept (w : Worker α) (find : α) :
    (w.accept byBlocks find).bare = w.bare.accept byBlocks (Scored.score find) := by
  have hbest : w.bare.best.map Scored.score = w.best.map Scored.score := map_score_map_score w.best
  unfold accept
  dsimp only
  rw [hbest]
  show Effect.bare (if (Scored.score find).improves byBlocks (w.best.map Scored.score) then _ else _)
    = if (Scored.score find).improves byBlocks (w.best.map Scored.score) then _ else _
  split <;> rfl

theorem bare_bare (w : Worker α) : w.bare.bare = w.bare := by
  unfold bare
  dsimp only
  rw [map_score_map_score]

theorem bare_moveOn (w : Worker α) (draw draw' : Seed) :
    (w.bare.moveOn draw').bare = (w.moveOn draw).bare := by
  unfold bare moveOn
  dsimp only
  rw [map_score_map_score]

/-- A worker without keys makes the same step when it is told the outcome. -/
theorem bare_step (w : Worker α) (source : KeySource α) :
    (w.bare.step byBlocks (.echo (bareOutcome (w.step byBlocks source).1))).2.bare
      = (w.step byBlocks source).2.bare := by
  cases hmake : source.make (w.nextSeed source.draw) with
  | error e =>
      have htold := @step_of_error _ _ byBlocks w.bare (.echo (.error e)) e rfl
      rw [step_of_error hmake, bareOutcome, htold]
      exact congrArg (fun w => Effect.mk w none []) (bare_moveOn w _ _)
  | ok find =>
      have htold := @step_of_ok _ _ byBlocks w.bare (.echo (.ok (Scored.score find))) _ rfl
      rw [step_of_ok hmake, bareOutcome, htold, bare_accept, bare_accept, bare_moveOn w source.draw]
      rfl

/-- The failure of a step ends the loop in the same way, since its text is all that is reported. -/
theorem bare_advance (w : Worker α) (source : KeySource α) :
    (w.bare.advance byBlocks (.echo (bareOutcome (w.step byBlocks source).1))).2.bare
      = (w.advance byBlocks source).2.bare := by
  have hstep := @bare_step _ _ byBlocks w source
  have hfst : (w.bare.step byBlocks (.echo (bareOutcome (w.step byBlocks source).1))).1 = _ :=
    step_fst _ _
  unfold advance
  generalize w.step byBlocks source = original at hstep hfst ⊢
  generalize w.bare.step byBlocks (.echo (bareOutcome original.1)) = told at hstep hfst ⊢
  obtain ⟨outcome, effect⟩ := original
  obtain ⟨outcome', effect'⟩ := told
  obtain rfl : outcome' = bareOutcome outcome := hfst
  cases outcome with
  | ok find => exact hstep
  | error e =>
      have hbare : effect'.bare = effect.bare := hstep
      show (effect'.andThen fun w => w.fail e).bare = (effect.andThen fun w => w.fail e).bare
      have hfail : ∀ first : Effect α, (first.andThen fun w => w.fail e).bare
          = first.bare.andThen fun w => w.fail e := Effect.bare_andThen fun w => bare_fail w e
      have hfail' : ∀ first : Effect Score, (first.andThen fun w => w.fail e).bare
          = first.bare.andThen fun w => w.fail e := Effect.bare_andThen fun w => bare_fail w e
      rw [hfail, hfail', hbare]

/-- A round of the loop only looks at the source if it makes a step. -/
theorem bare_turn (w : Worker α) (cancelled : Bool) {source : KeySource α}
    {outcome : Except Candidate.Error Score}
    (h : (w.active && !w.stopping cancelled) = true →
      bareOutcome (w.step byBlocks source).1 = outcome) :
    (w.bare.turn byBlocks cancelled (.echo outcome)).2.bare
      = (w.turn byBlocks cancelled source).2.bare := by
  have hactive : w.bare.active = w.active := rfl
  have hstopping : w.bare.stopping cancelled = w.stopping cancelled := rfl
  unfold turn
  rw [hactive, hstopping]
  cases hidle : w.active with
  | false => exact congrArg (fun w => Effect.mk w none []) w.bare_bare
  | true =>
      cases hstop : w.stopping cancelled with
      | true =>
          show w.bare.finish.bare = w.finish.bare
          rw [bare_finish, bare_finish, bare_bare]
      | false =>
          obtain rfl := h (by rw [hidle, hstop]; rfl)
          exact bare_advance w source

end Worker

/-! ## A search without keys -/

/-- What a snapshot shows without keys. -/
def Snapshot.bare (s : Snapshot α) : Snapshot Score :=
  { s with best := s.best.map Scored.score }

namespace Search

/-- What a search shows without its keys. -/
def bare (s : Search α) : Search Score :=
  { s with
    workers := s.workers.map Worker.bare
    channel := ⟨s.channel.items.map (Option.map Scored.score)⟩
    best := s.best.map Scored.score
    reports := s.reports.map Snapshot.bare }

variable {s : Search α}

theorem getElem?_bare (s : Search α) (i : Nat) :
    s.bare.workers[i]? = (s.workers[i]?).map Worker.bare :=
  List.getElem?_map

theorem bare_absorb (s : Search α) (i : Nat) (effect : Worker.Effect α) :
    (s.absorb i effect).bare = s.bare.absorb i effect.bare := by
  unfold absorb bare
  dsimp only
  rw [List.map_set]
  cases hpublished : effect.published with
  | none => simp [Worker.Effect.bare, hpublished]
  | some find => simp [Worker.Effect.bare, hpublished, Channel.push]

theorem map_modify_comm {γ δ : Type} {f : γ → γ} {f' : δ → δ} {g : γ → δ}
    (h : ∀ x, g (f x) = f' (g x)) (l : List γ) (i : Nat) :
    (l.modify i f).map g = (l.map g).modify i f' := by
  apply List.ext_getElem?
  intro k
  simp only [List.getElem?_map, List.getElem?_modify]
  cases l[k]? with
  | none => rfl
  | some x => by_cases hik : i = k <;> simp [hik, h]

theorem bare_requestStop (s : Search α) (i : Nat) :
    (s.requestStop i).bare = s.bare.requestStop i := by
  have hmodify := map_modify_comm (fun w : Worker α => w.bare_requestStop) s.workers i
  unfold requestStop bare
  dsimp only
  rw [hmodify]

theorem bare_arrive (s : Search α) (i : Nat) (arrival : Option Signal) :
    (s.arrive i arrival).bare = s.bare.arrive i arrival := by
  rcases arrival with _ | _ | _
  · rfl
  · exact bare_requestStop s i
  · rfl

theorem bare_requestStops (s : Search α) : s.requestStops.bare = s.bare.requestStops := by
  unfold requestStops bare
  simp [Function.comp_def, Worker.bare_requestStop]

theorem bare_begin (s : Search α) (count : Nat) : (s.begin count).bare = s.bare.begin count := by
  unfold begin bare
  simp [Function.comp_def, Worker.bare, Worker.start]

theorem bare_bare (s : Search α) : s.bare.bare = s.bare := by
  have hreport : ∀ r : Snapshot α, r.bare.bare = r.bare := fun r => by
    unfold Snapshot.bare
    dsimp only
    rw [map_score_map_score]
  have hitem : ∀ item : Option α,
      (item.map Scored.score).map Scored.score = item.map Scored.score :=
    map_score_map_score
  unfold bare
  simp only [List.map_map, Function.comp_def, Worker.bare_bare, hreport, hitem]

theorem generated_bare (s : Search α) : s.bare.generated = s.generated := by
  unfold generated bare
  rw [List.map_map]
  rfl

theorem bare_offer (s : Search α) (find : α) :
    s.bare.offer (Scored.score find) = ((s.offer find).1, (s.offer find).2.bare) := by
  have himproves : (Scored.score (Scored.score find)).improves s.bare.settings.byBlocks
      (s.bare.best.map Scored.score)
        = (Scored.score find).improves s.settings.byBlocks (s.best.map Scored.score) :=
    congrArg (Score.improves _ _) (map_score_map_score s.best)
  cases h : (Scored.score find).improves s.settings.byBlocks (s.best.map Scored.score) with
  | true =>
      rw [h] at himproves
      rw [offer_of_improves h, offer_of_improves himproves]
      have hreport : ({ s.bare with best := some (Scored.score find) } : Search Score).snapshot
          = ({ s with best := some find } : Search α).snapshot.bare :=
        congrArg (fun count : Nat => Snapshot.mk _ (count : Int) _) (generated_bare s)
      rw [hreport]
      simp only [bare, List.map_append]
      rfl
  | false =>
      rw [h] at himproves
      rw [offer_of_not_improves h, offer_of_not_improves himproves]

theorem bare_poll (s : Search α) : s.bare.poll = (s.poll.1, s.poll.2.bare) := by
  have hitems : s.bare.channel.items = s.channel.items.map (Option.map Scored.score) := rfl
  unfold poll Channel.pop?
  rw [hitems]
  rcases hs : s.channel.items with _ | ⟨_ | find, rest⟩
  · rfl
  · rfl
  · exact bare_offer { s with channel := ⟨rest⟩ } find

theorem checkStop_bare (s : Search α) : s.bare.checkStop = s.checkStop := by
  have hfailed : s.bare.allFailed = s.allFailed := by
    unfold allFailed bare
    simp [Function.comp_def, Worker.bare, Worker.exited]
  have htarget : s.bare.targetReached = s.targetReached := by
    unfold targetReached bare
    cases s.best <;> rfl
  unfold checkStop
  rw [hfailed, htarget]
  rfl

/-! ## What happens to a search without keys -/

/-- Something that happens to a search: a move, or a step of a worker outside of its loop, during
which a stop may be asked for. -/
inductive Deed (α : Type)
  | move (m : Move α)
  | step (worker : Nat) (source : KeySource α) (arrival : Option Signal)

/-- The search after something has happened. -/
def deed (s : Search α) : Deed α → Search α
  | .move m => s.move m
  | .step i source arrival => (s.step i source arrival).2

/-- The search after several things have happened. -/
def perform (s : Search α) (deeds : List (Deed α)) : Search α := deeds.foldl deed s

/-- The same event with another source. -/
def Event.told (source : KeySource β) : Event α → Event β
  | .launch i => .launch i
  | .turn i _ arrival => .turn i source arrival
  | .step i _ arrival => .step i source arrival
  | .request i => .request i
  | .cancel => .cancel
  | .idle ms => .idle ms

/-- The same move with another source. -/
def Move.told (source : KeySource β) : Move α → Move β
  | .event e => .event (e.told source)
  | .poll => .poll
  | .stop => .stop

/-- The same with another source. -/
def Deed.told (source : KeySource β) : Deed α → Deed β
  | .move m => .move (m.told source)
  | .step i _ arrival => .step i source arrival

/-- What happens, whatever the seeds and finds of a step are. -/
def Deed.bare (d : Deed α) : Deed Score := d.told (.echo (.ok ⟨0, 0⟩))

/-- The outcome of a step of worker `i`. -/
def outcomeOf (s : Search α) (i : Nat) (source : KeySource α) :
    Option (Except Candidate.Error α) :=
  (s.workers[i]?).map fun w => (w.step s.settings.byBlocks source).1

/-- The outcome of the step that is made when something happens, if one is made. -/
def outcomeIn (s : Search α) : Deed α → Option (Except Candidate.Error α)
  | .move (.event (.turn i source _)) => if s.wouldStep i then s.outcomeOf i source else none
  | .move (.event (.step i source _)) =>
    if (s.workers[i]?).any Worker.active then s.outcomeOf i source else none
  | .step i source _ => s.outcomeOf i source
  | _ => none

/-- Whether a poll puts its item in the place of the best find. -/
def replyIn (s : Search α) : Deed α → Option Bool
  | .move .poll => some s.poll.1
  | _ => none

/-- What is noted each time that something happens. -/
def noted {γ : Type} (note : Search α → Deed α → Option γ) : Search α → List (Deed α) → List γ
  | _, [] => []
  | s, d :: rest => (note s d).toList ++ noted note (s.deed d) rest

/-- What a search sees of the outcomes of steps. -/
def outcomes (s : Search α) (deeds : List (Deed α)) : List (Except String Score) :=
  noted (fun s d => (s.outcomeIn d).map seen) s deeds

/-- What polls answer. -/
def replies (s : Search α) (deeds : List (Deed α)) : List Bool := noted replyIn s deeds

/-- For each item that a shutdown takes off the channel, whether it takes the place of the best
find. -/
def keptLate : List (Option α) → Search α → List Bool
  | some find :: rest, s => (s.offer find).1 :: keptLate rest (s.offer find).2
  | _, _ => []

theorem bare_drainItems (items : List (Option α)) (s : Search α) :
    drainItems (items.map (Option.map Scored.score)) s.bare
      = ((drainItems items s).1, (drainItems items s).2.bare) := by
  induction items generalizing s with
  | nil => rfl
  | cons item rest ih =>
      cases item with
      | none => rfl
      | some find =>
          have hoffer := bare_offer s find
          rw [List.map_cons, Option.map_some, drainItems, hoffer]
          dsimp only
          rw [ih]
          rfl

theorem keptLate_bare (items : List (Option α)) (s : Search α) :
    keptLate (items.map (Option.map Scored.score)) s.bare = keptLate items s := by
  induction items generalizing s with
  | nil => rfl
  | cons item rest ih =>
      cases item with
      | none => rfl
      | some find => rw [List.map_cons, Option.map_some, keptLate, keptLate, bare_offer, ih]

theorem bare_drain (s : Search α) : s.bare.drain = (s.drain.1, s.drain.2.bare) :=
  bare_drainItems s.channel.items s

theorem countP_exited_bare (s : Search α) :
    s.bare.workers.countP (fun w => !w.exited) = s.workers.countP fun w => !w.exited :=
  List.countP_map

theorem countP_failed_bare (s : Search α) :
    s.bare.workers.countP (fun w => w.failure.isSome)
      = s.workers.countP fun w => w.failure.isSome :=
  List.countP_map

theorem bare_settle (s : Search α) : s.bare.settle = s.settle.bare := by
  have hreport : ∀ (s : Search α) lines, s.bare.report lines = (s.report lines).bare :=
    fun _ _ => rfl
  unfold settle
  dsimp only
  rw [countP_exited_bare, hreport, bare_drain]
  dsimp only
  rw [hreport, countP_failed_bare, hreport]

theorem bare_finish (s : Search α) (reason : StopReason) :
    s.bare.finish reason = (s.finish reason).bare := by
  have hgenerated : ({ s.bare with endedAt := some s.bare.clock } : Search Score).generated
      = ({ s with endedAt := some s.clock } : Search α).generated :=
    generated_bare { s with endedAt := some s.clock }
  unfold finish
  dsimp only
  rw [hgenerated]
  rfl

/-! ## One thing at a time -/

theorem wouldStep_bare (s : Search α) (i : Nat) : s.bare.wouldStep i = s.wouldStep i := by
  unfold wouldStep
  rw [getElem?_bare]
  cases s.workers[i]? <;> rfl

theorem bare_launch (s : Search α) (i : Nat) : s.bare.launch i = (s.launch i).bare := by
  unfold launch
  rw [getElem?_bare]
  cases s.workers[i]? with
  | none => rfl
  | some w => exact (bare_absorb s i w.launch).symm

section
variable {i : Nat} {source : KeySource α} {outcome : Except Candidate.Error Score}
  {effect : Worker.Effect α} {effect' : Worker.Effect Score}

/-- What a worker leaves behind is taken up without its keys. -/
theorem bare_absorb_bare (h : effect'.bare = effect.bare) (s : Search α) :
    (s.bare.absorb i effect').bare = (s.absorb i effect).bare := by
  rw [bare_absorb, bare_absorb, bare_bare, h]

theorem bare_absorb_arrive (h : effect'.bare = effect.bare) (s : Search α)
    (arrival : Option Signal) :
    ((s.bare.absorb i effect').arrive i arrival).bare
      = ((s.absorb i effect).arrive i arrival).bare := by
  rw [bare_arrive, bare_arrive, bare_absorb_bare h]

theorem bare_step (s : Search α) (arrival : Option Signal)
    (h : ∀ result ∈ s.outcomeOf i source, bareOutcome result = outcome) :
    (s.bare.step i (.echo outcome) arrival).2.bare = (s.step i source arrival).2.bare := by
  unfold step
  rw [getElem?_bare]
  unfold outcomeOf at h
  cases hw : s.workers[i]? with
  | none => exact bare_bare s
  | some w =>
      rw [hw] at h
      obtain rfl := h _ rfl
      exact bare_absorb_arrive (Worker.bare_step w source) s arrival

theorem bare_advance (s : Search α) (arrival : Option Signal)
    (h : (s.workers[i]?).any Worker.active = true →
      ∀ result ∈ s.outcomeOf i source, bareOutcome result = outcome) :
    (s.bare.advance i (.echo outcome) arrival).2.bare = (s.advance i source arrival).2.bare := by
  unfold advance
  rw [getElem?_bare]
  unfold outcomeOf at h
  cases hw : s.workers[i]? with
  | none => exact bare_bare s
  | some w =>
      rw [hw] at h
      have hactive : w.bare.active = w.active := rfl
      dsimp only [Option.map_some]
      rw [hactive]
      cases hidle : w.active with
      | false => exact bare_bare s
      | true =>
          obtain rfl := h hidle _ rfl
          exact bare_absorb_arrive (Worker.bare_advance w source) s arrival

theorem bare_turn (s : Search α) (arrival : Option Signal)
    (h : s.wouldStep i = true → ∀ result ∈ s.outcomeOf i source, bareOutcome result = outcome) :
    (s.bare.turn i (.echo outcome) arrival).2.bare = (s.turn i source arrival).2.bare := by
  unfold turn
  rw [getElem?_bare, wouldStep_bare]
  unfold outcomeOf at h
  cases hw : s.workers[i]? with
  | none => exact bare_bare s
  | some w =>
      have hwould := wouldStep_eq hw
      rw [hw] at h
      have hturn := Worker.bare_turn w s.cancelled fun hstep => h (hwould.trans hstep) _ rfl
      dsimp only [Option.map_some]
      cases s.wouldStep i with
      | true => exact bare_absorb_arrive hturn s arrival
      | false => exact bare_absorb_bare hturn s

end

/-- Whatever happens to a search, the same happens to the search without keys. -/
theorem bare_deed (s : Search α) (d : Deed α) {outcome : Except Candidate.Error Score}
    (h : ∀ result ∈ s.outcomeIn d, bareOutcome result = outcome) :
    (s.bare.deed (d.told (.echo outcome))).bare = (s.deed d).bare := by
  -- where no step is made, the search without keys does the very same
  have htwice : ∀ {t : Search Score} {u : Search α}, t = u.bare → t.bare = u.bare := by
    rintro _ u rfl
    exact bare_bare u
  cases d with
  | step i source arrival => exact bare_step s arrival h
  | move m =>
      cases m with
      | poll => exact htwice (congrArg Prod.snd (bare_poll s))
      | stop => exact htwice (bare_requestStops s).symm
      | event e =>
          cases e with
          | launch i => exact htwice (bare_launch s i)
          | turn i source arrival =>
              refine bare_turn s arrival fun hwould => ?_
              rwa [outcomeIn, hwould, if_pos rfl] at h
          | step i source arrival =>
              refine bare_advance s arrival fun hactive => ?_
              rwa [outcomeIn, hactive, if_pos rfl] at h
          | request i => exact htwice (bare_requestStop s i).symm
          | cancel => exact htwice rfl
          | idle ms => exact htwice rfl

theorem isSome_outcomeOf_bare (s : Search α) (i : Nat) (source : KeySource α)
    (source' : KeySource Score) :
    (s.bare.outcomeOf i source').isSome = (s.outcomeOf i source).isSome := by
  unfold outcomeOf
  rw [getElem?_bare]
  cases s.workers[i]? <;> rfl

/-- Whether a step is made does not depend on keys. -/
theorem isSome_outcomeIn_bare (s : Search α) (d : Deed α) :
    (s.bare.outcomeIn d.bare).isSome = (s.outcomeIn d).isSome := by
  have hif : ∀ {β : Type} (p : Bool) (o : Option β),
      (if p then o else none).isSome = (p && o.isSome) := fun p o => by cases p <;> rfl
  cases d with
  | step i source arrival => exact isSome_outcomeOf_bare s i source _
  | move m =>
      cases m with
      | poll => rfl
      | stop => rfl
      | event e =>
          cases e with
          | turn i source arrival =>
              show (if s.bare.wouldStep i then _ else none : Option _).isSome
                = (if s.wouldStep i then _ else none : Option _).isSome
              rw [hif, hif, wouldStep_bare, isSome_outcomeOf_bare s i source]
          | step i source arrival =>
              have hactive : (s.bare.workers[i]?).any Worker.active
                  = (s.workers[i]?).any Worker.active := by
                rw [getElem?_bare, Option.any_map]
                rfl
              show (if (s.bare.workers[i]?).any Worker.active then _ else none : Option _).isSome
                = (if (s.workers[i]?).any Worker.active then _ else none : Option _).isSome
              rw [hif, hif, hactive, isSome_outcomeOf_bare s i source]
          | _ => rfl

theorem replyIn_bare (s : Search α) (d : Deed α) : s.bare.replyIn d.bare = s.replyIn d := by
  cases d with
  | step i source arrival => rfl
  | move m =>
      cases m with
      | poll => exact congrArg (fun result => some (Prod.fst result)) (bare_poll s)
      | _ => rfl

/-! ## Two searches -/

variable {t : Search β}

section
variable {d : Deed α} {d' : Deed β} {deeds : List (Deed α)} {deeds' : List (Deed β)}

omit [Scored α] in
theorem told_bare (d : Deed α) (source : KeySource Score) : d.bare.told source = d.told source := by
  cases d with
  | step i _ arrival => rfl
  | move m =>
      cases m with
      | event e => cases e <;> rfl
      | _ => rfl

/-- Two searches that show the same without keys go on to do so, as long as the same happens to them
and their steps have the same outcomes. -/
theorem bare_deed_congr (hst : s.bare = t.bare) (hlike : d.bare = d'.bare)
    (hout : (s.outcomeIn d).map seen = (t.outcomeIn d').map seen) :
    (s.deed d).bare = (t.deed d').bare := by
  -- one outcome for both bare searches
  obtain ⟨outcome, hs, ht⟩ : ∃ outcome : Except Candidate.Error Score,
      (∀ result ∈ s.outcomeIn d, bareOutcome result = outcome)
        ∧ ∀ result ∈ t.outcomeIn d', bareOutcome result = outcome := by
    cases hd : s.outcomeIn d with
    | none =>
        cases hd' : t.outcomeIn d' with
        | none => exact ⟨.ok ⟨0, 0⟩, by simp, by simp⟩
        | some result' => simp [hd, hd'] at hout
    | some result =>
        cases hd' : t.outcomeIn d' with
        | none => simp [hd, hd'] at hout
        | some result' =>
            rw [hd, hd'] at hout
            refine ⟨bareOutcome result, by simp, ?_⟩
            rintro _ ⟨⟩
            exact (bareOutcome_eq_of_seen_eq (Option.some.inj hout)).symm
  rw [← bare_deed s d hs, ← bare_deed t d' ht, ← told_bare d, ← told_bare d', hlike, hst]

/-- The same with all that happens, and with what is noted after it. -/
theorem perform_congr (hst : s.bare = t.bare) (hlike : deeds.map Deed.bare = deeds'.map Deed.bare)
    {more more' : List (Except String Score)}
    (hout : s.outcomes deeds ++ more = t.outcomes deeds' ++ more') :
    (s.perform deeds).bare = (t.perform deeds').bare ∧ s.replies deeds = t.replies deeds'
      ∧ more = more' := by
  induction deeds generalizing s t deeds' with
  | nil =>
      obtain rfl : deeds' = [] := List.map_eq_nil_iff.mp hlike.symm
      exact ⟨hst, rfl, hout⟩
  | cons d rest ih =>
      obtain ⟨d', rest', rfl, hd, hrest⟩ := List.map_eq_cons_iff.mp hlike.symm
      have hsome : (s.outcomeIn d).isSome = (t.outcomeIn d').isSome := by
        rw [← isSome_outcomeIn_bare s, ← isSome_outcomeIn_bare t, hst, hd]
      -- both make a step or neither does, so the lists of outcomes come apart at the same place
      have hlength : ((s.outcomeIn d).map seen).toList.length
          = ((t.outcomeIn d').map seen).toList.length := by
        rw [Option.length_toList, Option.length_toList, Option.isSome_map, Option.isSome_map, hsome]
      have hreply : s.replyIn d = t.replyIn d' := by
        rw [← replyIn_bare s, ← replyIn_bare t, hst, hd]
      rw [outcomes, noted, outcomes, noted, List.append_assoc, List.append_assoc] at hout
      obtain ⟨hfirst, hothers⟩ := List.append_inj hout hlength
      have hseen : (s.outcomeIn d).map seen = (t.outcomeIn d').map seen := by
        simpa using congrArg List.head? hfirst
      obtain ⟨hbare, hreplies, hmore⟩ :=
        ih (bare_deed_congr hst hd.symm hseen) hrest.symm hothers
      refine ⟨hbare, ?_, hmore⟩
      rw [replies, replies, noted, noted, hreply]
      exact congrArg _ hreplies

theorem outcomes_append (s : Search α) (front back : List (Deed α)) :
    s.outcomes (front ++ back) = s.outcomes front ++ (s.perform front).outcomes back := by
  induction front generalizing s with
  | nil => rfl
  | cons d rest ih =>
      have hrest := ih (s.deed d)
      unfold outcomes at hrest ⊢
      rw [List.cons_append, noted, noted, hrest, List.append_assoc]
      rfl

theorem perform_append (s : Search α) (front back : List (Deed α)) :
    s.perform (front ++ back) = (s.perform front).perform back :=
  List.foldl_append

end

/-! ## Whole runs -/

/-- All that happens in a wait and at its end. -/
def waitDeeds (events : List (Event α)) : List (Deed α) :=
  (events.map fun e => .move (.event e)) ++ [.move .poll]

/-- All that happens in the waits of a search, up to the check at which they end. -/
def roundDeeds : List (List (Event α)) → Search α → List (Deed α)
  | [], _ => []
  | events :: rest, s =>
    waitDeeds events ++
      match (s.perform (waitDeeds events)).checkStop with
      | some _ => []
      | none => roundDeeds rest (s.perform (waitDeeds events))

/-- All that happens in a run of a search, whose workers are there, up to the merge at its end. -/
def runDeeds (s : Search α) (waits : List (List (Event α))) (grace : List (Event α)) :
    List (Deed α) :=
  match rounds waits s with
  | none => roundDeeds waits s
  | some _ => roundDeeds waits s ++ .move .stop :: grace.map fun e => .move (.event e)

/-- An event, whatever the seeds and finds of a step are. -/
def Event.bare (e : Event α) : Event Score := e.told (.echo (.ok ⟨0, 0⟩))

theorem perform_events (s : Search α) (events : List (Event α)) :
    s.perform (events.map fun e => .move (.event e)) = s.afterAll events := by
  rw [perform, afterAll, List.foldl_map]
  rfl

theorem perform_waitDeeds (s : Search α) (events : List (Event α)) :
    s.perform (waitDeeds events) = (s.afterAll events).poll.2 := by
  rw [waitDeeds, perform_append, perform_events]
  rfl

/-- The waits end where all that happens in them leads to. -/
theorem rounds_perform {waits : List (List (Event α))} {mid : Search α} {reason : StopReason}
    (h : rounds waits s = some (reason, mid)) : mid = s.perform (roundDeeds waits s) := by
  induction waits generalizing s with
  | nil => cases h
  | cons events rest ih =>
      rw [rounds, ← perform_waitDeeds] at h
      rw [roundDeeds, perform_append]
      cases hstop : (s.perform (waitDeeds events)).checkStop with
      | some reason' =>
          rw [hstop] at h
          cases h
          rfl
      | none =>
          rw [hstop] at h
          exact ih h

theorem checkStop_congr (hst : s.bare = t.bare) : s.checkStop = t.checkStop := by
  rw [← checkStop_bare s, ← checkStop_bare t, hst]

omit [Scored α] [Scored β] in
theorem map_bare_events {events : List (Event α)} {events' : List (Event β)}
    (h : events.map Event.bare = events'.map Event.bare) :
    (events.map fun e => Deed.move (.event e)).map Deed.bare
      = (events'.map fun e => Deed.move (.event e)).map Deed.bare := by
  have hdeed : ∀ {γ : Type} (events : List (Event γ)),
      (events.map fun e => Deed.move (.event e)).map Deed.bare
        = (events.map Event.bare).map fun e => .move (.event e) := by
    intro γ events
    rw [List.map_map, List.map_map]
    rfl
  rw [hdeed, hdeed, h]

/-- Two searches that show the same without keys end their waits at the same check and for the same
reason, as long as the steps up to there have the same outcomes. -/
theorem rounds_congr {waits : List (List (Event α))} {waits' : List (List (Event β))}
    (hst : s.bare = t.bare)
    (hlike : waits.map (List.map Event.bare) = waits'.map (List.map Event.bare))
    {more more' : List (Except String Score)}
    (hout : s.outcomes (roundDeeds waits s) ++ more = t.outcomes (roundDeeds waits' t) ++ more') :
    (rounds waits s).map Prod.fst = (rounds waits' t).map Prod.fst
      ∧ (roundDeeds waits s).map Deed.bare = (roundDeeds waits' t).map Deed.bare
      ∧ more = more' := by
  induction waits generalizing s t waits' with
  | nil =>
      obtain rfl : waits' = [] := List.map_eq_nil_iff.mp hlike.symm
      exact ⟨rfl, rfl, hout⟩
  | cons events rest ih =>
      obtain ⟨events', rest', rfl, hevents, hrest⟩ := List.map_eq_cons_iff.mp hlike.symm
      have hwait : (waitDeeds events).map Deed.bare = (waitDeeds events').map Deed.bare := by
        rw [waitDeeds, waitDeeds, List.map_append, List.map_append, map_bare_events hevents.symm]
        rfl
      rw [roundDeeds, roundDeeds, outcomes_append, outcomes_append, List.append_assoc,
        List.append_assoc] at hout
      obtain ⟨hbare, -, htail⟩ := perform_congr hst hwait hout
      -- the waits end here for both or for neither
      have hstop := checkStop_congr hbare
      rw [rounds, rounds, roundDeeds, roundDeeds, ← perform_waitDeeds, ← perform_waitDeeds,
        List.map_append, List.map_append, hwait]
      rw [hstop] at htail ⊢
      generalize (t.perform (waitDeeds events')).checkStop = result at htail ⊢
      cases result with
      | some reason => exact ⟨rfl, rfl, htail⟩
      | none =>
          obtain ⟨hreason, hdeeds, hmore⟩ := ih hbare hrest.symm htail
          exact ⟨hreason, congrArg _ hdeeds, hmore⟩

theorem runDeeds_of_none {waits : List (List (Event α))} {grace : List (Event α)}
    (h : rounds waits s = none) : s.runDeeds waits grace = roundDeeds waits s := by
  rw [runDeeds, h]

theorem runDeeds_of_some {waits : List (List (Event α))} {grace : List (Event α)}
    {result : StopReason × Search α} (h : rounds waits s = some result) :
    s.runDeeds waits grace
      = roundDeeds waits s ++ .move .stop :: grace.map fun e => .move (.event e) := by
  rw [runDeeds, h]

/-- The same with what happens in the time that the workers have to end. -/
theorem runDeeds_congr {waits : List (List (Event α))} {waits' : List (List (Event β))}
    {grace : List (Event α)} {grace' : List (Event β)} (hst : s.bare = t.bare)
    (hlike : waits.map (List.map Event.bare) = waits'.map (List.map Event.bare))
    (hgrace : grace.map Event.bare = grace'.map Event.bare)
    (hout : s.outcomes (s.runDeeds waits grace) = t.outcomes (t.runDeeds waits' grace')) :
    (rounds waits s).map Prod.fst = (rounds waits' t).map Prod.fst
      ∧ (s.runDeeds waits grace).map Deed.bare = (t.runDeeds waits' grace').map Deed.bare := by
  obtain ⟨back, hback⟩ : ∃ back, s.runDeeds waits grace = roundDeeds waits s ++ back := by
    cases hs : rounds waits s with
    | none => exact ⟨[], by rw [runDeeds_of_none hs, List.append_nil]⟩
    | some result => exact ⟨_, runDeeds_of_some hs⟩
  obtain ⟨back', hback'⟩ : ∃ back', t.runDeeds waits' grace' = roundDeeds waits' t ++ back' := by
    cases ht : rounds waits' t with
    | none => exact ⟨[], by rw [runDeeds_of_none ht, List.append_nil]⟩
    | some result => exact ⟨_, runDeeds_of_some ht⟩
  rw [hback, hback', outcomes_append, outcomes_append] at hout
  obtain ⟨hreason, hdeeds, -⟩ := rounds_congr hst hlike hout
  refine ⟨hreason, ?_⟩
  cases hs : rounds waits s with
  | none =>
      rw [hs] at hreason
      rw [runDeeds_of_none hs, runDeeds_of_none (Option.map_eq_none_iff.mp hreason.symm), hdeeds]
  | some result =>
      rw [hs] at hreason
      obtain ⟨result', ht, -⟩ := Option.map_eq_some_iff.mp hreason.symm
      rw [runDeeds_of_some hs, runDeeds_of_some ht, List.map_append, List.map_append, hdeeds,
        List.map_cons, List.map_cons, map_bare_events hgrace]
      rfl

/-- A run that ends is all that happens in it, and then the merge. -/
theorem run_eq_perform {waits : List (List (Event α))} {grace : List (Event α)} {count : Nat}
    {reason : StopReason} {mid : Search α}
    (h : rounds waits (s.begin count) = some (reason, mid)) :
    s.run count waits grace
      = some (reason,
        (((s.begin count).perform ((s.begin count).runDeeds waits grace)).settle.finish reason)) := by
  rw [runDeeds_of_some h, perform_append, ← rounds_perform h, run, h]
  show some (reason, ((mid.requestStops.afterAll grace).settle).finish reason) = _
  rw [← perform_events]
  rfl

/-! ## Two runs -/

/-- What two searches have in common when only their keys differ. -/
structure Alike (s : Search α) (t : Search β) : Prop where
  log : s.log = t.log
  generated : s.workers.map Worker.generated = t.workers.map Worker.generated
  published : s.workers.map Worker.published = t.workers.map Worker.published
  states : s.workers.map Worker.state = t.workers.map Worker.state
  failures : s.workers.map Worker.failure = t.workers.map Worker.failure
  best : s.best.map Scored.score = t.best.map Scored.score
  reason : s.checkStop = t.checkStop
  elapsed : s.elapsed = t.elapsed

theorem alike_of_bare (h : s.bare = t.bare) : s.Alike t := by
  have hworkers : s.workers.map Worker.bare = t.workers.map Worker.bare :=
    congrArg Search.workers h
  -- what a worker shows without keys is shown by the worker
  have hmap : ∀ {γ : Type} (show' : Worker Score → γ),
      s.workers.map (fun w => show' w.bare) = t.workers.map (fun w => show' w.bare) := by
    intro γ show'
    have hshown := congrArg (List.map show') hworkers
    rw [List.map_map, List.map_map] at hshown
    exact hshown
  exact ⟨congrArg Search.log h, hmap Worker.generated, hmap Worker.published, hmap Worker.state,
    hmap Worker.failure, congrArg Search.best h, checkStop_congr h, congrArg Search.elapsed h⟩

/-- Two searches are alike at every moment of what happens to them, keep a find at the same polls and
at the same items of the merge at their end, and are alike after it. -/
structure SameCourse (s : Search α) (deeds : List (Deed α)) (t : Search β) (deeds' : List (Deed β)) :
    Prop where
  moments : ∀ k, (s.perform (deeds.take k)).Alike (t.perform (deeds'.take k))
  replies : s.replies deeds = t.replies deeds'
  late : keptLate (s.perform deeds).channel.items (s.perform deeds)
    = keptLate (t.perform deeds').channel.items (t.perform deeds')
  ending : ∀ reason, ((s.perform deeds).settle.finish reason).Alike
    ((t.perform deeds').settle.finish reason)

theorem sameCourse_of_outcomes {deeds : List (Deed α)} {deeds' : List (Deed β)}
    (hst : s.bare = t.bare) (hlike : deeds.map Deed.bare = deeds'.map Deed.bare)
    (hout : s.outcomes deeds = t.outcomes deeds') : s.SameCourse deeds t deeds' := by
  have hall : s.outcomes deeds ++ [] = t.outcomes deeds' ++ [] := by rw [hout]
  obtain ⟨hbare, hreplies, -⟩ := perform_congr hst hlike hall
  refine ⟨fun k => ?_, hreplies, ?_, fun reason => alike_of_bare ?_⟩
  · have htake : (deeds.take k).map Deed.bare = (deeds'.take k).map Deed.bare := by
      rw [List.map_take, List.map_take, hlike]
    rw [← List.take_append_drop k deeds, ← List.take_append_drop k deeds', outcomes_append,
      outcomes_append] at hout
    exact alike_of_bare (perform_congr hst htake hout).1
  · rw [← keptLate_bare, ← keptLate_bare (t.perform deeds').channel.items]
    exact congrArg (fun u : Search Score => keptLate u.channel.items u) hbare
  · rw [← bare_finish, ← bare_finish, ← bare_settle, ← bare_settle, hbare]

/-- **A search is driven by scores alone.** Let the same happen to two searches: the same workers act
in the same order, time passes and stops are asked for alike. If the steps give the same scores and
the same failure texts one by one, then the searches write the same records, count the same and keep a
find at the same moments, whatever the keys are. Two runs end at the same check and for the same
reason, as long as this holds of the steps that they make before they end. -/
theorem run_sees_scores_only (settings : Settings) (now count : Nat) :
    let s : Search α := { Search.new settings with clock := now }
    let t : Search β := { Search.new settings with clock := now }
    (∀ deeds deeds', deeds.map Deed.bare = deeds'.map Deed.bare →
      (s.begin count).outcomes deeds = (t.begin count).outcomes deeds' →
      (s.begin count).SameCourse deeds (t.begin count) deeds')
    ∧ ∀ waits waits' grace grace',
      waits.map (List.map Event.bare) = waits'.map (List.map Event.bare) →
      grace.map Event.bare = grace'.map Event.bare →
      let deeds := (s.begin count).runDeeds waits grace
      let deeds' := (t.begin count).runDeeds waits' grace'
      (s.begin count).outcomes deeds = (t.begin count).outcomes deeds' →
      (s.begin count).SameCourse deeds (t.begin count) deeds'
        ∧ (s.run count waits grace = none ∧ t.run count waits' grace' = none
          ∨ ∃ reason,
            s.run count waits grace
                = some (reason, ((s.begin count).perform deeds).settle.finish reason)
              ∧ t.run count waits' grace'
                = some (reason, ((t.begin count).perform deeds').settle.finish reason)) := by
  intro s t
  have hbegin : (s.begin count).bare = (t.begin count).bare := by
    rw [bare_begin, bare_begin]
    rfl
  refine ⟨fun deeds deeds' hlike hout => sameCourse_of_outcomes hbegin hlike hout, ?_⟩
  intro waits waits' grace grace' hwaits hgrace deeds deeds' hout
  obtain ⟨hreason, hlike⟩ := runDeeds_congr hbegin hwaits hgrace hout
  refine ⟨sameCourse_of_outcomes hbegin hlike hout, ?_⟩
  cases hs : rounds waits (s.begin count) with
  | none =>
      rw [hs] at hreason
      have ht := Option.map_eq_none_iff.mp hreason.symm
      exact .inl ⟨by rw [run, hs], by rw [run, ht]⟩
  | some result =>
      rw [hs] at hreason
      obtain ⟨result', ht, hsame⟩ := Option.map_eq_some_iff.mp hreason.symm
      obtain ⟨reason, mid⟩ := result
      obtain ⟨_, mid'⟩ := result'
      obtain rfl := hsame
      exact .inr ⟨_, run_eq_perform hs, run_eq_perform ht⟩

/-- The seed of the number seven, whose key has two zero bits in front, like that of zero. -/
def sevenSeed : Seed := ⟨Bytes.ofNat 32 7, by decide⟩

/-- A step of a worker that has not begun, and a poll that takes up what came of it. -/
def stepThenPoll (draw : Seed) : List (Deed Candidate) :=
  [.step 0 (candidates .ed25519 draw) (some .worker), .move .poll]

/-- The waits in which a worker makes one key from a seed and then fails. -/
def keyThenFailure (draw : Seed) : List (List (Event Candidate)) :=
  [[.launch 0, .turn 0 (candidates .ed25519 draw) none],
    [.turn 0 (candidates (fun _ => .error "boom") draw) none]]

/-- Two searches find different keys, and nothing that they write tells them apart. Their workers have
three tenths of a second to end. -/
theorem run_sees_scores_only_otherSeed :
    let s : Search Candidate := (Search.new Settings.defaults).begin 1
    s.SameCourse (stepThenPoll Seed.zero) s (stepThenPoll sevenSeed)
      ∧ (s.perform (stepThenPoll Seed.zero)).best ≠ (s.perform (stepThenPoll sevenSeed)).best
      ∧ ∃ final final' : Search Candidate,
        (Search.new Settings.defaults).run 1 (keyThenFailure Seed.zero) [.idle 300]
            = some (.allFailed, final)
          ∧ (Search.new Settings.defaults).run 1 (keyThenFailure sevenSeed) [.idle 300]
            = some (.allFailed, final')
          ∧ final.log = final'.log ∧ final.best ≠ final'.best
          ∧ final.log.getLast? = some (Log.info
            "Key search stopped (all workers failed): 1 keys in 0.3s") := by
  intro s
  obtain ⟨hdeeds, hruns⟩ := @run_sees_scores_only Candidate Candidate _ _ Settings.defaults 0 1
  refine ⟨hdeeds _ _ rfl (by decide +kernel), by decide +kernel, ?_⟩
  have hfailed : ((Search.new Settings.defaults).run 1 (keyThenFailure Seed.zero) [.idle 300]).map
        (fun result => (result.1, result.2.log.getLast?))
      = some (.allFailed, some (Log.info
        "Key search stopped (all workers failed): 1 keys in 0.3s")) := by
    decide +kernel
  have hkeys : ((Search.new Settings.defaults).run 1 (keyThenFailure Seed.zero) [.idle 300]).bind
        (fun result => result.2.best)
      ≠ ((Search.new Settings.defaults).run 1 (keyThenFailure sevenSeed) [.idle 300]).bind
        fun result => result.2.best := by
    decide +kernel
  obtain ⟨hcourse, hends⟩ := hruns (keyThenFailure Seed.zero) (keyThenFailure sevenSeed)
    [.idle 300] [.idle 300] rfl rfl (by decide +kernel)
  obtain ⟨⟨reason, final⟩, hrun, hshown⟩ := Option.map_eq_some_iff.mp hfailed
  obtain ⟨rfl, hlast⟩ := Prod.mk.inj hshown
  rcases hends with ⟨hnone, -⟩ | ⟨reason, hfinal, hfinal'⟩
  · exact absurd (hrun.symm.trans hnone) (Option.some_ne_none _)
  · cases hrun.symm.trans hfinal
    rw [hrun, show (Search.new Settings.defaults).run 1 (keyThenFailure sevenSeed) [.idle 300] = _
      from hfinal'] at hkeys
    exact ⟨_, _, hrun, hfinal', (hcourse.ending .allFailed).log, hkeys, hlast⟩

end Search

end KeySearch
