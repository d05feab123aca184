import KeySearch.Proofs.Schedule
import KeySearch.Proofs.WorkerSteps

/-!
# What a move does

Three things can come of a move: a worker acts, or an item is taken off the channel, or nothing
happens but requests to stop and the passing of time. `Worker.Effect.Honest` says what a worker does
with its finds, `Search.Quiet` what requests and time leave alone, and `Search.move_cases` that there
is nothing else. What holds of a search after every schedule is proved from these three.
-/

set_option autoImplicit false

namespace KeySearch

variable {α : Type} [Scored α] {byBlocks : Bool}

/-! ## What a worker does with its finds -/

namespace Worker

/-- A worker counts what it publishes, publishes nothing but finds it made, and keeps a find to
itself only if the best one it remembers is as good. What it remembers it has published. -/
structure Effect.Honest (byBlocks : Bool) (w : Worker α) (finds : List α) (effect : Effect α) :
    Prop where
  counted : effect.worker.published = w.published + effect.published.toList.length
  made : ∀ find ∈ effect.published, find ∈ finds
  covered : ∀ find ∈ finds, find ∈ effect.published ∨
    ∃ best ∈ w.best, beats byBlocks find best = false
  remembered : ∀ best ∈ effect.worker.best, best ∈ w.best ∨ best ∈ effect.published

/-- Something that a worker does without a find. -/
theorem Effect.honest_of_silent {w : Worker α} {effect : Effect α}
    (hcount : effect.worker.published = w.published) (hsilent : effect.published = none)
    (hbest : ∀ best ∈ effect.worker.best, best ∈ w.best) :
    effect.Honest byBlocks w [] := by
  refine ⟨by simp [hcount, hsilent], ?_, by simp, fun best h => .inl (hbest best h)⟩
  simp [hsilent]

theorem honest_launch (w : Worker α) : w.launch.Honest byBlocks w [] :=
  Effect.honest_of_silent rfl rfl fun _ h => h

theorem honest_finish (w : Worker α) : w.finish.Honest byBlocks w [] :=
  Effect.honest_of_silent rfl rfl (by simp [finish])

theorem honest_fail (w : Worker α) (e : Candidate.Error) : (w.fail e).Honest byBlocks w [] := by
  unfold fail
  split
  · exact Effect.honest_of_silent rfl rfl (by simp [finish])
  · exact honest_finish w

/-- A find that is dropped does not beat the last one that was published. -/
theorem honest_accept (w : Worker α) (find : α) :
    (w.accept byBlocks find).Honest byBlocks w [find] := by
  unfold accept
  dsimp only
  split
  · exact ⟨rfl, by simp, by simp, by simp⟩
  · next hdropped =>
    refine ⟨rfl, by simp, fun other hother => .inr ?_, fun best h => .inl h⟩
    rw [List.mem_singleton.mp hother]
    cases hbest : w.best with
    | none => exact absurd (by rw [hbest]; rfl) hdropped
    | some best =>
        rw [hbest] at hdropped
        exact ⟨best, rfl, Bool.eq_false_of_not_eq_true hdropped⟩

theorem honest_step (w : Worker α) (source : KeySource α) :
    (w.step byBlocks source).2.Honest byBlocks w
      (w.step byBlocks source).1.toOption.toList := by
  cases hmake : source.make (w.nextSeed source.draw) with
  | error e =>
      rw [step_of_error hmake]
      exact Effect.honest_of_silent rfl rfl fun _ h => h
  | ok find =>
      rw [step_of_ok hmake]
      have h : ((w.moveOn source.draw).accept byBlocks find).Honest byBlocks _ [find] :=
        honest_accept _ find
      exact ⟨h.counted, h.made, h.covered, h.remembered⟩

/-- A failure publishes nothing more, so the step before it stays what it was. -/
theorem Effect.Honest.andThen {w : Worker α} {finds : List α} {first : Effect α}
    {next : Worker α → Effect α} (hfirst : first.Honest byBlocks w finds)
    (hnext : (next first.worker).Honest byBlocks first.worker [])
    (hsilent : (next first.worker).published = none) :
    (first.andThen next).Honest byBlocks w finds := by
  refine ⟨?_, hfirst.made, hfirst.covered, fun best h => ?_⟩
  · have hcount : (next first.worker).worker.published = first.worker.published := by
      rw [hnext.counted, hsilent]
      rfl
    exact hcount.trans hfirst.counted
  · rcases hnext.remembered best h with hkept | hnew
    · exact hfirst.remembered best hkept
    · simp [hsilent] at hnew

omit [Scored α] in
theorem published_fail (w : Worker α) (e : Candidate.Error) : (w.fail e).published = none := by
  unfold fail
  split <;> rfl

theorem honest_advance (w : Worker α) (source : KeySource α) :
    (w.advance byBlocks source).2.Honest byBlocks w
      (w.step byBlocks source).1.toOption.toList := by
  have hstep : (w.step byBlocks source).2.Honest byBlocks w _ := honest_step w source
  unfold advance
  split
  · next find effect heq =>
    rw [heq] at hstep ⊢
    exact hstep
  · next e effect heq =>
    rw [heq] at hstep ⊢
    have hfailed : effect.Honest byBlocks w [] := hstep
    show (effect.andThen fun w => w.fail e).Honest byBlocks w []
    exact hfailed.andThen (honest_fail effect.worker e) (published_fail effect.worker e)

theorem honest_turn (w : Worker α) (cancelled : Bool) (source : KeySource α) :
    (w.turn byBlocks cancelled source).2.Honest byBlocks w
      (if w.active && !w.stopping cancelled then (w.step byBlocks source).1.toOption.toList
       else []) := by
  unfold turn
  cases hactive : w.active with
  | false => exact Effect.honest_of_silent rfl rfl fun _ h => h
  | true =>
      cases hstop : w.stopping cancelled with
      | true => exact honest_finish w
      | false => exact honest_advance w source

end Worker

namespace Search

/-! ## Requests to stop and time -/

/-- Nothing has happened to a search but requests to stop and the passing of time. -/
structure Quiet (s t : Search α) : Prop where
  settings : t.settings = s.settings
  channel : t.channel = s.channel
  best : t.best = s.best
  reports : t.reports = s.reports
  published : t.workers.map Worker.published = s.workers.map Worker.published
  remembered : t.workers.map Worker.best = s.workers.map Worker.best

section
omit [Scored α]

theorem quiet_rfl (s : Search α) : s.Quiet s := ⟨rfl, rfl, rfl, rfl, rfl, rfl⟩

theorem published_requestStop (w : Worker α) : w.requestStop.published = w.published := by
  unfold Worker.requestStop
  split <;> rfl

theorem best_requestStop (w : Worker α) : w.requestStop.best = w.best := by
  unfold Worker.requestStop
  split <;> rfl

theorem map_modify_of_same {β γ : Type} {f : β → β} {g : β → γ} (h : ∀ x, g (f x) = g x)
    (l : List β) (i : Nat) : (l.modify i f).map g = l.map g := by
  apply List.ext_getElem?
  intro k
  rw [List.getElem?_map, List.getElem?_map, List.getElem?_modify]
  cases l[k]? with
  | none => rfl
  | some x =>
      by_cases hik : i = k <;> simp [hik, h]

theorem quiet_requestStop (s : Search α) (i : Nat) : s.Quiet (s.requestStop i) :=
  ⟨rfl, rfl, rfl, rfl, map_modify_of_same published_requestStop s.workers i,
    map_modify_of_same best_requestStop s.workers i⟩

theorem quiet_requestStops (s : Search α) : s.Quiet s.requestStops := by
  refine ⟨rfl, rfl, rfl, rfl, ?_, ?_⟩
  · simp [requestStops, Function.comp_def, published_requestStop]
  · simp [requestStops, Function.comp_def, best_requestStop]

theorem quiet_arrive (s : Search α) (i : Nat) (arrival : Option Signal) :
    s.Quiet (s.arrive i arrival) := by
  rcases arrival with _ | _ | _
  · exact quiet_rfl s
  · exact quiet_requestStop s i
  · exact ⟨rfl, rfl, rfl, rfl, rfl, rfl⟩

end

/-! ## All moves -/

variable {s : Search α}

/-- Worker `i` acts in a move: it makes the finds of the move and publishes what the move
publishes. -/
structure Acts (s : Search α) (m : Move α) (i : Nat) (w : Worker α) (effect : Worker.Effect α) :
    Prop where
  worker : s.workers[i]? = some w
  honest : effect.Honest s.settings.byBlocks w ((s.foundIn m).map Prod.snd)
  published : s.publishedIn m = effect.published.toList
  offered : s.offeredIn m = []
  result : (s.absorb i effect).Quiet (s.move m)

/-- Nothing is found, published or offered in a move. -/
structure Idles (s : Search α) (m : Move α) : Prop where
  found : s.foundIn m = []
  published : s.publishedIn m = []
  offered : s.offeredIn m = []
  result : s.Quiet (s.move m)

omit [Scored α] in
theorem wouldStep_eq {i : Nat} {w : Worker α} (hw : s.workers[i]? = some w) :
    s.wouldStep i = (w.active && !w.stopping s.cancelled) := by
  unfold wouldStep
  rw [hw]

theorem map_findOf {i : Nat} {w : Worker α} (hw : s.workers[i]? = some w)
    (source : KeySource α) :
    (s.findOf i source).map Prod.snd
      = (w.step s.settings.byBlocks source).1.toOption.toList := by
  unfold findOf
  rw [hw]
  simp [Function.comp_def]

theorem launch_cases (s : Search α) (i : Nat) :
    (∃ j w effect, s.Acts (.event (.launch i)) j w effect) ∨ s.Idles (.event (.launch i)) := by
  cases hw : s.workers[i]? with
  | none =>
      refine .inr ⟨rfl, rfl, rfl, ?_⟩
      show s.Quiet (s.launch i)
      rw [launch, hw]
      exact quiet_rfl s
  | some w =>
      refine .inl ⟨i, w, w.launch, hw, Worker.honest_launch w, rfl, rfl, ?_⟩
      show (s.absorb i w.launch).Quiet (s.launch i)
      rw [launch, hw]
      exact quiet_rfl _

theorem turn_cases (s : Search α) (i : Nat) (source : KeySource α) (arrival : Option Signal) :
    (∃ j w effect, s.Acts (.event (.turn i source arrival)) j w effect)
      ∨ s.Idles (.event (.turn i source arrival)) := by
  cases hw : s.workers[i]? with
  | none =>
      refine .inr ⟨by simp [foundIn, wouldStep, hw], by simp [publishedIn, hw], rfl, ?_⟩
      show s.Quiet (s.turn i source arrival).2
      rw [turn, hw]
      exact quiet_rfl s
  | some w =>
      have heffect : (w.turn s.settings.byBlocks s.cancelled source).2.Honest
          s.settings.byBlocks w _ := Worker.honest_turn w s.cancelled source
      refine .inl ⟨i, w, (w.turn s.settings.byBlocks s.cancelled source).2, hw, ?_, ?_, rfl, ?_⟩
      · rw [← wouldStep_eq hw] at heffect
        unfold foundIn
        dsimp only
        cases hwould : s.wouldStep i with
        | true =>
            rw [hwould, if_pos rfl] at heffect
            rw [if_pos rfl, map_findOf hw]
            exact heffect
        | false =>
            rw [hwould] at heffect
            exact heffect
      · simp [publishedIn, hw]
      · show (s.absorb i _).Quiet (s.turn i source arrival).2
        rw [turn, hw]
        dsimp only
        split
        · exact quiet_arrive _ i arrival
        · exact quiet_rfl _

theorem advance_cases (s : Search α) (i : Nat) (source : KeySource α) (arrival : Option Signal) :
    (∃ j w effect, s.Acts (.event (.step i source arrival)) j w effect)
      ∨ s.Idles (.event (.step i source arrival)) := by
  have hmove : s.move (.event (.step i source arrival)) = (s.advance i source arrival).2 := rfl
  cases hw : s.workers[i]? with
  | none =>
      refine .inr ⟨by simp [foundIn, hw], by simp [publishedIn, hw], rfl, ?_⟩
      rw [hmove, advance, hw]
      exact quiet_rfl s
  | some w =>
      cases hactive : w.active with
      | false =>
          refine .inr ⟨by simp [foundIn, hw, hactive], by simp [publishedIn, hw, hactive], rfl, ?_⟩
          simp only [hmove, advance, hw, hactive]
          exact quiet_rfl s
      | true =>
          refine .inl ⟨i, w, (w.advance s.settings.byBlocks source).2, hw, ?_, ?_, rfl, ?_⟩
          · have hany : (s.workers[i]?).any Worker.active = true := by
              rw [hw]
              exact hactive
            rw [foundIn, hany, if_pos rfl, map_findOf hw]
            exact Worker.honest_advance w source
          · simp [publishedIn, hw, hactive]
          · simp only [hmove, advance, hw, hactive]
            exact quiet_arrive _ i arrival

/-- In a move a worker acts, or an item is taken off the channel, or nothing happens but requests to
stop and the passing of time. -/
theorem move_cases (s : Search α) (m : Move α) :
    (∃ i w effect, s.Acts m i w effect) ∨ m = .poll ∨ s.Idles m := by
  cases m with
  | event e =>
      cases e with
      | launch i => exact (launch_cases s i).imp_right .inr
      | turn i source arrival => exact (turn_cases s i source arrival).imp_right .inr
      | step i source arrival => exact (advance_cases s i source arrival).imp_right .inr
      | request i => exact .inr (.inr ⟨rfl, rfl, rfl, quiet_requestStop s i⟩)
      | cancel => exact .inr (.inr ⟨rfl, rfl, rfl, rfl, rfl, rfl, rfl, rfl, rfl⟩)
      | idle ms => exact .inr (.inr ⟨rfl, rfl, rfl, rfl, rfl, rfl, rfl, rfl, rfl⟩)
  | poll => exact .inr (.inl rfl)
  | stop => exact .inr (.inr ⟨rfl, rfl, rfl, quiet_requestStops s⟩)

end Search

end KeySearch
