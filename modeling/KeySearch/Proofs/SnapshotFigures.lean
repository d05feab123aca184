import KeySearch.Proofs.Interleaving

/-!
# The figures of a snapshot

A snapshot has two figures beside the best find: how many keys were tried, and how long the search
took. The first one is the number of finds that the workers made (`Search.generated_play`), so a run
has a best find exactly if some worker has counted a key. The second one is the time between the start
and a moment at which the clock stood (`Search.Dated`), for each report and for the last snapshot.
-/

set_option autoImplicit false

namespace KeySearch

variable {α : Type} [Scored α] {byBlocks : Bool}

/-! ## What a worker counts -/

namespace Worker

omit [Scored α] in
theorem generated_fail (w : Worker α) (e : Candidate.Error) :
    (w.fail e).worker.generated = w.generated := by
  unfold fail
  split <;> rfl

/-- A failure is not counted, and the step that it ends has made no find. -/
theorem generated_advance (w : Worker α) (source : KeySource α) :
    (w.advance byBlocks source).2.worker.generated
      = w.generated + (w.step byBlocks source).1.toOption.toList.length := by
  have hstep : (w.step byBlocks source).2.worker.generated = _ := (since_step w source).1.generated
  unfold advance
  split
  · next find effect heq =>
    rw [heq] at hstep ⊢
    exact hstep
  · next e effect heq =>
    rw [heq] at hstep ⊢
    exact (generated_fail effect.worker e).trans hstep

theorem generated_turn (w : Worker α) (cancelled : Bool) (source : KeySource α) :
    (w.turn byBlocks cancelled source).2.worker.generated
      = w.generated + (if w.active && !w.stopping cancelled then
          (w.step byBlocks source).1.toOption.toList else []).length := by
  unfold turn
  cases w.active with
  | false => rfl
  | true =>
      cases w.stopping cancelled with
      | true => rfl
      | false => exact generated_advance w source

omit [Scored α] in
theorem generated_requestStop (w : Worker α) : w.requestStop.generated = w.generated := by
  unfold requestStop
  split <;> rfl

end Worker

namespace Search

variable {s : Search α}

/-! ## What all workers count -/

section
omit [Scored α]

theorem generated_eq_sum (s : Search α) : s.generated = (s.workers.map Worker.generated).sum := rfl

theorem generated_absorb {i : Nat} {w : Worker α} (hw : s.workers[i]? = some w)
    {effect : Worker.Effect α} {n : Nat} (h : effect.worker.generated = w.generated + n) :
    (s.absorb i effect).generated = s.generated + n := by
  have hcount : (s.workers.map Worker.generated)[i]? = some w.generated := by
    rw [List.getElem?_map, hw, Option.map_some]
  rw [generated_eq_sum, generated_eq_sum]
  show ((s.workers.set i effect.worker).map Worker.generated).sum = _
  rw [List.map_set, h, sum_set_add hcount]

theorem generated_requestStop (s : Search α) (i : Nat) :
    (s.requestStop i).generated = s.generated :=
  congrArg List.sum (map_modify_of_same Worker.generated_requestStop s.workers i)

theorem generated_arrive (s : Search α) (i : Nat) (arrival : Option Signal) :
    (s.arrive i arrival).generated = s.generated := by
  rcases arrival with _ | _ | _
  · rfl
  · exact generated_requestStop s i
  · rfl

theorem generated_requestStops (s : Search α) : s.requestStops.generated = s.generated := by
  rw [generated_eq_sum, generated_eq_sum, requestStops, List.map_map]
  exact congrArg List.sum (List.map_congr_left fun w _ => Worker.generated_requestStop w)

theorem generated_launch (s : Search α) (i : Nat) : (s.launch i).generated = s.generated := by
  unfold launch
  split
  · rfl
  · next w hw => exact generated_absorb (n := 0) hw rfl

end

theorem generated_turn (s : Search α) (i : Nat) (source : KeySource α) (arrival : Option Signal) :
    (s.turn i source arrival).2.generated
      = s.generated + (s.foundIn (.event (.turn i source arrival))).length := by
  cases hw : s.workers[i]? with
  | none => simp [turn, foundIn, wouldStep, hw]
  | some w =>
      have hworker : (w.turn s.settings.byBlocks s.cancelled source).2.worker.generated = _ :=
        Worker.generated_turn w s.cancelled source
      have hfound : (s.foundIn (.event (.turn i source arrival))).length
          = (if w.active && !w.stopping s.cancelled then
              (w.step s.settings.byBlocks source).1.toOption.toList else []).length := by
        rw [← List.length_map, foundIn, wouldStep_eq hw]
        split
        · rw [map_findOf hw]
        · rfl
      rw [← hfound] at hworker
      have habsorb := generated_absorb hw hworker
      rw [turn, hw]
      dsimp only
      split
      · rw [generated_arrive, habsorb]
      · exact habsorb

theorem generated_advance (s : Search α) (i : Nat) (source : KeySource α) (arrival : Option Signal) :
    (s.advance i source arrival).2.generated
      = s.generated + (s.foundIn (.event (.step i source arrival))).length := by
  cases hw : s.workers[i]? with
  | none => simp [advance, foundIn, hw]
  | some w =>
      cases hactive : w.active with
      | false => simp [advance, foundIn, hw, hactive]
      | true =>
          have hfound : (s.foundIn (.event (.step i source arrival))).length
              = (w.step s.settings.byBlocks source).1.toOption.toList.length := by
            rw [← map_findOf hw, List.length_map]
            simp [foundIn, hw, hactive]
          have hworker : (w.advance s.settings.byBlocks source).2.worker.generated = _ :=
            Worker.generated_advance w source
          rw [← hfound] at hworker
          have habsorb := generated_absorb hw hworker
          simp only [advance, hw, hactive]
          exact (generated_arrive _ i arrival).trans habsorb

/-- An item that is taken off the channel changes no worker. -/
theorem workers_poll (s : Search α) : s.poll.2.workers = s.workers := by
  unfold poll
  split
  · rfl
  · rfl
  · next find channel _ =>
    obtain ⟨reports, hoffer⟩ := offer_eq { s with channel := channel } find
    rw [hoffer]

/-- The workers count the finds that a move makes. -/
theorem generated_move (s : Search α) (m : Move α) :
    (s.move m).generated = s.generated + (s.foundIn m).length := by
  cases m with
  | event e =>
      cases e with
      | launch i => exact generated_launch s i
      | turn i source arrival => exact generated_turn s i source arrival
      | step i source arrival => exact generated_advance s i source arrival
      | request i => exact generated_requestStop s i
      | cancel => rfl
      | idle ms => rfl
  | poll => exact congrArg (fun workers => (workers.map Worker.generated).sum) (workers_poll s)
  | stop => exact generated_requestStops s

/-- The keys that were tried are the finds that were made. -/
theorem generated_play (s : Search α) (moves : List (Move α)) :
    (s.play moves).generated = s.generated + (s.found moves).length := by
  induction moves generalizing s with
  | nil => rfl
  | cons m rest ih =>
      have hfound : s.found (m :: rest) = s.foundIn m ++ (s.move m).found rest := rfl
      show ((s.move m).play rest).generated = _
      rw [ih, generated_move, hfound, List.length_append, Nat.add_assoc]

omit [Scored α] in
theorem generated_begin (s : Search α) (count : Nat) : (s.begin count).generated = 0 := by
  rw [generated_eq_sum, List.sum_eq_zero_iff_forall_eq_nat]
  simp [begin, Worker.start]

/-- A run has a best find exactly if some worker has counted a key. -/
theorem run_best_eq_none_iff {settings : Settings} {count : Nat} {waits : List (List (Event α))}
    {grace : List (Event α)} {reason : StopReason} {final : Search α}
    (h : (Search.new settings).run count waits grace = some (reason, final)) :
    final.best = none ↔ ∀ w ∈ final.workers, w.generated = 0 := by
  obtain ⟨moves, hfinal, hbest⟩ := run_isBest h
  have hworkers : final.workers
      = (((Search.new settings).begin count : Search α).play moves).workers := by
    rw [hfinal]
    exact workers_settle _
  have hcount := generated_play ((Search.new settings).begin count : Search α) moves
  rw [generated_begin, Nat.zero_add, generated_eq_sum, ← hworkers] at hcount
  have hnone : final.best = none
      ↔ ((Search.new settings).begin count : Search α).found moves = [] := by
    rw [← List.map_eq_nil_iff (f := Prod.snd)]
    cases hcase : final.best with
    | none =>
        rw [hcase] at hbest
        exact ⟨fun _ => hbest, fun _ => rfl⟩
    | some best =>
        rw [hcase] at hbest
        constructor
        · intro hfalse
          cases hfalse
        · intro hnil
          exact absurd hbest.1 (by simp [hnil])
  rw [hnone, ← List.length_eq_zero_iff, ← hcount, List.sum_eq_zero_iff_forall_eq_nat]
  simp

/-! ## The time of a snapshot -/

/-- A search that began at the given time and has not ended, with reports from moments at which its
clock stood. -/
structure Dated (start : Nat) (s : Search α) : Prop where
  startedAt : s.startedAt = some start
  endedAt : s.endedAt = none
  reports : ∀ r ∈ s.reports, ∃ now ≤ s.clock,
    r.elapsed = .real ((seconds now).sub (seconds start))

omit [Scored α] in
/-- What happens to a search that goes on keeps its reports and moves its clock on. -/
theorem Dated.of_later {start : Nat} {t : Search α} (h : s.Dated start)
    (hstarted : t.startedAt = s.startedAt) (hended : t.endedAt = s.endedAt)
    (hreports : t.reports = s.reports) (hclock : s.clock ≤ t.clock) : t.Dated start := by
  refine ⟨hstarted.trans h.startedAt, hended.trans h.endedAt, fun r hr => ?_⟩
  obtain ⟨now, hnow, helapsed⟩ := h.reports r (hreports ▸ hr)
  exact ⟨now, hnow.trans hclock, helapsed⟩

omit [Scored α] in
theorem dated_begin (settings : Settings) (count : Nat) :
    ((Search.new settings).begin count : Search α).Dated 0 :=
  ⟨rfl, rfl, fun _ hr => absurd hr List.not_mem_nil⟩

omit [Scored α] in
/-- A search that has not ended looks as old as its clock says. -/
theorem Dated.elapsed_eq {start : Nat} (h : s.Dated start) :
    s.elapsed = (seconds s.clock).sub (seconds start) := by
  rw [elapsed, h.startedAt, h.endedAt]
  rfl

omit [Scored α] in
theorem Dated.elapsed_finish {start : Nat} (h : s.Dated start) (reason : StopReason) :
    (s.finish reason).elapsed = (seconds s.clock).sub (seconds start) := by
  simp [elapsed, finish, report, h.startedAt]

/-- A report is dated by the clock of the moment. -/
theorem Dated.offer {start : Nat} (h : s.Dated start) (find : α) : (s.offer find).2.Dated start := by
  cases himproves : (Scored.score find).improves s.settings.byBlocks (s.best.map Scored.score) with
  | false =>
      rw [offer_of_not_improves himproves]
      exact h
  | true =>
      rw [offer_of_improves himproves]
      refine ⟨h.startedAt, h.endedAt, fun r hr => ?_⟩
      rcases List.mem_append.mp hr with hold | hnew
      · exact h.reports r hold
      · rw [List.mem_singleton.mp hnew]
        exact ⟨s.clock, le_rfl, congrArg Quantity.real h.elapsed_eq⟩

theorem Dated.poll {start : Nat} (h : s.Dated start) : s.poll.2.Dated start := by
  unfold Search.poll
  split
  · exact h
  · exact h.of_later rfl rfl rfl le_rfl
  · next find channel _ =>
    have hpopped : ({ s with channel := channel } : Search α).Dated start :=
      h.of_later rfl rfl rfl le_rfl
    exact hpopped.offer find

theorem Dated.after {start : Nat} (h : s.Dated start) (e : Event α) : (s.after e).Dated start := by
  by_cases hidle : ∃ ms, e = .idle ms
  · obtain ⟨ms, rfl⟩ := hidle
    exact h.of_later rfl rfl rfl (Nat.le_add_right _ _)
  · obtain ⟨t, i, arrival, ht, hafter⟩ := after_of_not_idle (fun ms he => hidle ⟨ms, he⟩) s
    have hacted : t.Dated start := by
      rcases ht with rfl | ⟨effect, rfl⟩
      · exact h
      · exact h.of_later rfl rfl rfl le_rfl
    rw [hafter]
    rcases arrival with _ | _ | _ <;> exact hacted.of_later rfl rfl rfl le_rfl

theorem Dated.move {start : Nat} (h : s.Dated start) (m : Move α) : (s.move m).Dated start := by
  cases m with
  | event e => exact h.after e
  | poll => exact h.poll
  | stop => exact h.of_later rfl rfl rfl le_rfl

theorem Dated.play {start : Nat} (h : s.Dated start) (moves : List (Move α)) :
    (s.play moves).Dated start := by
  induction moves generalizing s with
  | nil => exact h
  | cons m rest ih => exact ih (h.move m)

theorem Dated.settle {start : Nat} (h : s.Dated start) : s.settle.Dated start := by
  obtain ⟨lines, hsettle⟩ := settle_eq_play s
  rw [hsettle]
  exact (h.play _).of_later rfl rfl rfl le_rfl

/-- The reports of a run and its last snapshot are as old as the clock said at some moment. -/
theorem run_dates {settings : Settings} {count : Nat} {waits : List (List (Event α))}
    {grace : List (Event α)} {reason : StopReason} {final : Search α}
    (h : (Search.new settings).run count waits grace = some (reason, final)) :
    ∀ r ∈ final.snapshot :: final.reports, ∃ now ≤ final.clock,
      r.elapsed = .real ((seconds now).sub (seconds 0)) := by
  obtain ⟨moves, rfl⟩ := exists_play_of_run h
  have hdated : ((((Search.new settings).begin count : Search α).play moves).settle).Dated 0 :=
    ((dated_begin settings count).play moves).settle
  intro r hr
  rcases List.mem_cons.mp hr with rfl | hr
  · exact ⟨_, le_rfl, congrArg Quantity.real (hdated.elapsed_finish reason)⟩
  · exact hdated.reports r hr

end Search

end KeySearch
