import KeySearch.Proofs.Rounding
import KeySearch.Proofs.Target
import Mathlib.Algebra.Order.BigOperators.Group.List
import Mathlib.Data.Nat.Find

/-!
# When and why a search ends

After each wait a search takes one item off its channel and checks whether to go on. `Search.Due`
says when a reason to stop holds, and `run_ends_at_first_due` that a run ends at the first check at
which one holds, for the first in order of those that do. Checks are counted from one, so that check
`k` is the one after `k` waits and `k` polls.

A search with a limit of time does end: its clock shows the time of all waits so far (`Elapses`), and
a clock that goes on passes every limit.
-/

set_option autoImplicit false

namespace KeySearch

/-- The place of a reason in the order in which they are looked for. -/
def StopReason.place : StopReason → Nat
  | .cancelled => 0
  | .allFailed => 1
  | .timeLimit => 2
  | .target => 3

namespace Search

variable {α : Type} [Scored α] {s t u : Search α}

/-! ## The check -/

/-- When a reason to stop holds. -/
def Due (s : Search α) : StopReason → Prop
  | .cancelled => s.cancelled = true
  | .allFailed => s.workers ≠ [] ∧ ∀ w ∈ s.workers, w.state = .stopped ∧ w.failure ≠ none
  | .timeLimit =>
    s.settings.maxDuration ≠ 0 ∧ s.elapsed.exceeds s.settings.maxDuration = true
  | .target =>
    s.settings.targetZeroBits ≠ 0 ∧ ∃ best, s.best = some best
      ∧ (s.settings.targetZeroBits : Int) ≤ (Scored.score best).zeroBits

/-- A reason to stop that holds, while none before it does. -/
structure FirstDue (s : Search α) (reason : StopReason) : Prop where
  due : s.Due reason
  first : ∀ earlier, earlier.place < reason.place → ¬ s.Due earlier

omit [Scored α] in
theorem allFailed_iff : s.allFailed = true ↔
    s.workers ≠ [] ∧ ∀ w ∈ s.workers, w.state = .stopped ∧ w.failure ≠ none := by
  simp [allFailed, Worker.exited, Option.isSome_iff_ne_none]

omit [Scored α] in
theorem overTime_iff : s.overTime = true ↔
    s.settings.maxDuration ≠ 0 ∧ s.elapsed.exceeds s.settings.maxDuration = true := by
  simp [overTime]

theorem FirstDue.unique {reason other : StopReason} (h : s.FirstDue reason)
    (h' : s.FirstDue other) : reason = other := by
  have hle : ¬ other.place < reason.place := fun hlt => h.first other hlt h'.due
  have hge : ¬ reason.place < other.place := fun hlt => h'.first reason hlt h.due
  cases reason <;> cases other <;> simp_all [StopReason.place]

/-- The check asks for each reason in turn, so the one it gives is the first that holds. -/
theorem checkStop_cases (s : Search α) :
    (∃ reason, s.checkStop = some reason ∧ s.FirstDue reason)
      ∨ s.checkStop = none ∧ ∀ reason, ¬ s.Due reason := by
  unfold checkStop
  by_cases hcancelled : s.cancelled = true
  · rw [if_pos hcancelled]
    exact .inl ⟨.cancelled, rfl, hcancelled, fun _ hlt => absurd hlt (Nat.not_lt_zero _)⟩
  rw [if_neg hcancelled]
  by_cases hfailed : s.Due .allFailed
  · rw [if_pos (allFailed_iff.mpr hfailed)]
    refine .inl ⟨.allFailed, rfl, hfailed, fun earlier hlt => ?_⟩
    cases earlier with
    | cancelled => exact hcancelled
    | _ => exact absurd hlt (by decide)
  rw [if_neg (hfailed ∘ allFailed_iff.mp)]
  by_cases hover : s.Due .timeLimit
  · rw [if_pos (overTime_iff.mpr hover)]
    refine .inl ⟨.timeLimit, rfl, hover, fun earlier hlt => ?_⟩
    cases earlier with
    | cancelled => exact hcancelled
    | allFailed => exact hfailed
    | _ => exact absurd hlt (by decide)
  rw [if_neg (hover ∘ overTime_iff.mp)]
  by_cases htarget : s.Due .target
  · rw [if_pos (targetReached_iff.mpr htarget)]
    refine .inl ⟨.target, rfl, htarget, fun earlier hlt => ?_⟩
    cases earlier with
    | cancelled => exact hcancelled
    | allFailed => exact hfailed
    | timeLimit => exact hover
    | target => exact absurd hlt (by decide)
  · rw [if_neg (htarget ∘ targetReached_iff.mp)]
    refine .inr ⟨rfl, fun reason => ?_⟩
    cases reason <;> assumption

theorem checkStop_eq_none_iff : s.checkStop = none ↔ ∀ reason, ¬ s.Due reason := by
  rcases checkStop_cases s with ⟨reason, hstop, hfirst⟩ | ⟨hstop, hnone⟩
  · rw [hstop]
    exact ⟨fun h => absurd h (Option.some_ne_none reason), fun h => absurd hfirst.due (h reason)⟩
  · exact ⟨fun _ => hnone, fun _ => hstop⟩

theorem checkStop_eq_some_iff {reason : StopReason} :
    s.checkStop = some reason ↔ s.FirstDue reason := by
  rcases checkStop_cases s with ⟨first, hstop, hfirst⟩ | ⟨hstop, hnone⟩
  · rw [hstop, Option.some_inj]
    exact ⟨fun h => h ▸ hfirst, fun h => hfirst.unique h⟩
  · rw [hstop]
    exact ⟨fun h => absurd h.symm (Option.some_ne_none reason),
      fun h => absurd h.due (hnone reason)⟩

theorem exists_firstDue {reason : StopReason} (h : s.Due reason) :
    ∃ first, s.FirstDue first := by
  rcases checkStop_cases s with ⟨first, -, hfirst⟩ | ⟨-, hnone⟩
  · exact ⟨first, hfirst⟩
  · exact absurd h (hnone reason)

/-! ## The check at which a run ends -/

/-- The search at its check after the given waits, each of them followed by a poll. -/
def atCheck (s : Search α) (waits : List (List (Event α))) : Search α :=
  waits.foldl (fun s events => (s.afterAll events).poll.2) s

/-- The waits of a search end at check `k`: no reason to stop holds at a check before, and the given
one is the first that holds then. -/
structure EndsAt (s : Search α) (waits : List (List (Event α))) (k : Nat) (reason : StopReason) :
    Prop where
  pos : 0 < k
  le : k ≤ waits.length
  before : ∀ j, 0 < j → j < k → ∀ other, ¬ (s.atCheck (waits.take j)).Due other
  firstDue : (s.atCheck (waits.take k)).FirstDue reason

theorem atCheck_take_succ {waits : List (List (Event α))} {k : Nat} {events : List (Event α)}
    (h : waits[k]? = some events) (s : Search α) :
    s.atCheck (waits.take (k + 1)) = ((s.atCheck (waits.take k)).afterAll events).poll.2 := by
  rw [List.take_add_one, h, atCheck, List.foldl_append]
  rfl

/-- The waits end at the first check, or they go on and the rest of them ends. -/
theorem endsAt_cons_iff {events : List (Event α)} {rest : List (List (Event α))} {k : Nat}
    {reason : StopReason} :
    s.EndsAt (events :: rest) (k + 1) reason ↔
      (k = 0 ∧ (s.afterAll events).poll.2.FirstDue reason)
        ∨ (∀ other, ¬ (s.afterAll events).poll.2.Due other)
          ∧ (s.afterAll events).poll.2.EndsAt rest k reason := by
  constructor
  · intro h
    rcases Nat.eq_zero_or_pos k with rfl | hk
    · exact .inl ⟨rfl, h.firstDue⟩
    · refine .inr ⟨h.before 1 Nat.one_pos (by omega), hk, Nat.le_of_succ_le_succ h.le, ?_,
        h.firstDue⟩
      exact fun j _ hlt => h.before (j + 1) j.succ_pos (Nat.succ_lt_succ hlt)
  · rintro (⟨rfl, hdue⟩ | ⟨hnone, hrest⟩)
    · exact ⟨Nat.one_pos, Nat.succ_le_succ (Nat.zero_le _), fun j _ _ => by omega, hdue⟩
    · refine ⟨k.succ_pos, Nat.succ_le_succ hrest.le, fun j hj hlt => ?_, hrest.firstDue⟩
      obtain ⟨j, rfl⟩ := Nat.exists_eq_succ_of_ne_zero hj.ne'
      rcases Nat.eq_zero_or_pos j with rfl | hpos
      · exact hnone
      · exact hrest.before j hpos (Nat.lt_of_succ_lt_succ hlt)

/-- The waits of a search are over exactly if they end at a check. -/
theorem rounds_eq_some_iff {waits : List (List (Event α))} {reason : StopReason} :
    rounds waits s = some (reason, t) ↔
      ∃ k, s.EndsAt waits k reason ∧ t = s.atCheck (waits.take k) := by
  induction waits generalizing s with
  | nil =>
      constructor
      · intro h
        cases h
      · rintro ⟨k, hends, -⟩
        exact absurd (hends.pos.trans_le hends.le) (Nat.lt_irrefl 0)
  | cons events rest ih =>
      rw [rounds]
      cases hstop : (s.afterAll events).poll.2.checkStop with
      | some first =>
          have hfirst := checkStop_eq_some_iff.mp hstop
          constructor
          · intro h
            cases h
            exact ⟨1, endsAt_cons_iff.mpr (.inl ⟨rfl, hfirst⟩), rfl⟩
          · rintro ⟨k, hends, rfl⟩
            obtain ⟨k, rfl⟩ := Nat.exists_eq_succ_of_ne_zero hends.pos.ne'
            rcases endsAt_cons_iff.mp hends with ⟨rfl, hdue⟩ | ⟨hnone, -⟩
            · rw [hfirst.unique hdue]
              rfl
            · exact absurd hfirst.due (hnone first)
      | none =>
          have hnone := checkStop_eq_none_iff.mp hstop
          show rounds rest (s.afterAll events).poll.2 = _ ↔ _
          rw [ih]
          constructor
          · rintro ⟨k, hends, rfl⟩
            exact ⟨k + 1, endsAt_cons_iff.mpr (.inr ⟨hnone, hends⟩), rfl⟩
          · rintro ⟨k, hends, rfl⟩
            obtain ⟨k, rfl⟩ := Nat.exists_eq_succ_of_ne_zero hends.pos.ne'
            rcases endsAt_cons_iff.mp hends with ⟨-, hdue⟩ | ⟨-, hrest⟩
            · exact absurd hdue.due (hnone reason)
            · exact ⟨k, hrest, rfl⟩

/-- Waits end no later than at any check at which a reason to stop holds. -/
theorem EndsAt.le_of_due {waits : List (List (Event α))} {k j : Nat} {reason other : StopReason}
    (h : s.EndsAt waits k reason) (hj : 0 < j) (hdue : (s.atCheck (waits.take j)).Due other) :
    k ≤ j :=
  Nat.le_of_not_lt fun hlt => h.before j hj hlt other hdue

/-- If a reason to stop holds at some check, the waits end. -/
theorem exists_endsAt {waits : List (List (Event α))} {j : Nat} {reason : StopReason}
    (hpos : 0 < j) (hle : j ≤ waits.length) (hdue : (s.atCheck (waits.take j)).Due reason) :
    ∃ k first, s.EndsAt waits k first := by
  classical
  have hexists : ∃ k, 0 < k ∧ ∃ other, (s.atCheck (waits.take k)).Due other :=
    ⟨j, hpos, reason, hdue⟩
  obtain ⟨hk, other, hother⟩ := Nat.find_spec hexists
  obtain ⟨first, hfirst⟩ := exists_firstDue hother
  have hfind : Nat.find hexists ≤ j := Nat.find_min' hexists ⟨hpos, reason, hdue⟩
  refine ⟨Nat.find hexists, first, hk, hfind.trans hle, fun i hi hlt earlier hearlier => ?_, hfirst⟩
  exact Nat.find_min hexists hlt ⟨hi, earlier, hearlier⟩

/-! ## The poll before a check -/

/-- A poll takes the item in front, if there is one, and keeps it if it is better. -/
theorem poll_takes_front (s : Search α) :
    s.poll.2.channel.items = s.channel.items.drop 1
      ∧ s.poll.2.best
        = (leftOver (s.channel.items.take 1)).foldl (keepBetter s.settings.byBlocks) s.best := by
  unfold poll Channel.pop?
  cases hitems : s.channel.items with
  | nil => exact ⟨hitems, rfl⟩
  | cons item rest =>
      cases item with
      | none => exact ⟨rfl, rfl⟩
      | some find =>
          obtain ⟨reports, hoffer⟩ := offer_eq { s with channel := ⟨rest⟩ } find
          dsimp only
          rw [hoffer]
          exact ⟨rfl, rfl⟩

theorem settings_atCheck (s : Search α) (waits : List (List (Event α))) :
    (s.atCheck waits).settings = s.settings := by
  induction waits generalizing s with
  | nil => rfl
  | cons events rest ih =>
      show ((s.afterAll events).poll.2.atCheck rest).settings = _
      rw [ih, settings_poll, (afterAll_frame s events).1]

/-! ## The clock -/

/-- The time that goes by in an event. -/
def Event.duration : Event α → Nat
  | .idle ms => ms
  | _ => 0

/-- The time that goes by in a wait. -/
def waitTime (events : List (Event α)) : Nat := (events.map Event.duration).sum

/-- The clock of a search moves on by so many milliseconds. Its start and its end stay where they
were. -/
structure Elapses (s t : Search α) (ms : Nat) : Prop where
  startedAt : t.startedAt = s.startedAt
  endedAt : t.endedAt = s.endedAt
  clock : t.clock = s.clock + ms

section
omit [Scored α]

theorem elapses_rfl (s : Search α) : s.Elapses s 0 := ⟨rfl, rfl, rfl⟩

theorem Elapses.trans {ms ms' : Nat} (h : s.Elapses t ms) (h' : t.Elapses u ms') :
    s.Elapses u (ms + ms') :=
  ⟨h'.startedAt.trans h.startedAt, h'.endedAt.trans h.endedAt, by
    rw [h'.clock, h.clock, Nat.add_assoc]⟩

theorem elapses_absorb (s : Search α) (i : Nat) (effect : Worker.Effect α) :
    s.Elapses (s.absorb i effect) 0 :=
  ⟨rfl, rfl, rfl⟩

theorem elapses_arrive (s : Search α) (i : Nat) (arrival : Option Signal) :
    s.Elapses (s.arrive i arrival) 0 := by
  rcases arrival with _ | _ | _ <;> exact ⟨rfl, rfl, rfl⟩

end

theorem elapses_after (s : Search α) (e : Event α) : s.Elapses (s.after e) e.duration := by
  by_cases hidle : ∃ ms, e = .idle ms
  · obtain ⟨ms, rfl⟩ := hidle
    exact ⟨rfl, rfl, rfl⟩
  · obtain ⟨t, i, arrival, ht, hafter⟩ :=
      after_of_not_idle (fun ms he => hidle ⟨ms, he⟩) s
    have hduration : e.duration = 0 := by
      cases e with
      | idle ms => exact absurd ⟨ms, rfl⟩ hidle
      | _ => rfl
    rw [hafter, hduration]
    rcases ht with rfl | ⟨effect, rfl⟩
    · exact elapses_arrive t i arrival
    · exact (elapses_absorb s i effect).trans (elapses_arrive _ i arrival)

theorem elapses_afterAll (s : Search α) (events : List (Event α)) :
    s.Elapses (s.afterAll events) (waitTime events) := by
  induction events generalizing s with
  | nil => exact elapses_rfl s
  | cons e rest ih => exact (elapses_after s e).trans (ih (s.after e))

theorem elapses_poll (s : Search α) : s.Elapses s.poll.2 0 := by
  unfold poll
  split
  · exact elapses_rfl s
  · exact ⟨rfl, rfl, rfl⟩
  · next find channel _ =>
    obtain ⟨reports, hoffer⟩ := offer_eq { s with channel := channel } find
    rw [hoffer]
    exact ⟨rfl, rfl, rfl⟩

theorem elapses_atCheck (s : Search α) (waits : List (List (Event α))) :
    s.Elapses (s.atCheck waits) (waits.map waitTime).sum := by
  induction waits generalizing s with
  | nil => exact elapses_rfl s
  | cons events rest ih =>
      exact ((elapses_afterAll s events).trans (elapses_poll _)).trans (ih _)

/-! ## The limit of time -/

theorem seconds_eq (ms : Nat) : seconds ms = Binary64.ofQuotient false ms 1000 := by
  have hnonneg : ¬ (Int.ofNat ms : Int) < 0 := Int.not_lt.mpr (Int.natCast_nonneg ms)
  show Binary64.ofQuotient (decide ((Int.ofNat ms : Int) < 0)) ms 1000 = _
  rw [decide_eq_false hnonneg]

/-- A clock that goes on passes every limit. Up to `2 ^ k` seconds the start and the limit do not
matter, and the clock has to come to twice that time. -/
theorem exists_exceeds_seconds {start : Nat} (hfinite : (seconds start).isInfinite = false)
    (limit : Nat) : ∃ late, 0 < late ∧ ∀ now, late ≤ now →
      ((seconds now).sub (seconds start)).exceeds limit = true := by
  obtain ⟨bound, hbound⟩ := Binary64.exists_not_exceeds_two_pow hfinite
  have hstart := hbound (max bound limit) (Nat.le_max_left _ _)
  have hlimit : limit < 2 ^ max bound limit :=
    Nat.lt_two_pow_self.trans_le (Nat.pow_le_pow_right Nat.two_pos (Nat.le_max_right _ _))
  refine ⟨2 ^ (max bound limit + 1) * 1000,
    Nat.mul_pos (Nat.two_pow_pos _) (by decide), fun now hnow => ?_⟩
  have hlarge := Binary64.atLeast_ofQuotient (by decide) hnow
  rw [← seconds_eq] at hlarge
  cases hseconds : seconds start with
  | nan => exact absurd ((seconds_eq start).symm.trans hseconds) (Binary64.ofQuotient_ne_nan _ _ _)
  | infinite negative =>
      rw [hseconds] at hfinite
      cases hfinite
  | finite negative mantissa exponent =>
      rw [hseconds] at hstart
      exact (Binary64.atLeast_sub hlarge hstart).exceeds hlimit

/-- If each wait lasts for some time, then at some check the search is over its limit of time. -/
theorem exists_due_of_waits (hlimit : 0 < s.settings.maxDuration)
    (hstarted : s.startedAt = some s.clock) (hended : s.endedAt = none)
    (hfinite : (seconds s.clock).isInfinite = false) :
    ∃ n, 0 < n ∧ ∀ waits : List (List (Event α)), (∀ events ∈ waits, 0 < waitTime events) →
      n ≤ waits.length → (s.atCheck (waits.take n)).Due .timeLimit := by
  obtain ⟨n, hn, hlate⟩ := exists_exceeds_seconds hfinite s.settings.maxDuration
  refine ⟨n, hn, fun waits hwaits hlength => ?_⟩
  have helapses := elapses_atCheck s (waits.take n)
  have hsum : n ≤ ((waits.take n).map waitTime).sum := by
    have hlengths := List.length_le_sum_of_one_le ((waits.take n).map waitTime)
      fun time htime => by
        obtain ⟨events, hevents, rfl⟩ := List.mem_map.mp htime
        exact hwaits events (List.mem_of_mem_take hevents)
    rwa [List.length_map, List.length_take, Nat.min_eq_left hlength] at hlengths
  have hclock : n ≤ (s.atCheck (waits.take n)).clock := by
    rw [helapses.clock]
    exact hsum.trans (Nat.le_add_left _ _)
  constructor
  · rw [settings_atCheck]
    exact hlimit.ne'
  · rw [elapsed, helapses.startedAt, helapses.endedAt, hstarted, hended, settings_atCheck]
    exact hlate _ hclock

/-! ## Whole runs -/

/-- **A run ends at the first check at which a reason to stop holds, for the first such reason.**
Between two checks a poll takes at most one item off the channel and keeps it if it is better. With
a limit of time and waits that last, a run ends, and no later than the first check at which more
time has gone by than the limit. -/
theorem run_ends_at_first_due (s : Search α) (count : Nat) :
    (∀ waits grace reason final, s.run count waits grace = some (reason, final) ↔
        ∃ k, (s.begin count).EndsAt waits k reason
          ∧ final = ((s.begin count).atCheck (waits.take k)).close reason grace)
      ∧ (∀ (waits : List (List (Event α))) k events, waits[k]? = some events →
        let before := ((s.begin count).atCheck (waits.take k)).afterAll events
        let check := (s.begin count).atCheck (waits.take (k + 1))
        check.channel.items = before.channel.items.drop 1
          ∧ check.best = (leftOver (before.channel.items.take 1)).foldl
            (keepBetter s.settings.byBlocks) before.best)
      ∧ (0 < s.settings.maxDuration → (seconds s.clock).isInfinite = false → ∃ n,
        ∀ waits : List (List (Event α)), (∀ events ∈ waits, 0 < waitTime events) →
          n ≤ waits.length → ∃ k reason, (s.begin count).EndsAt waits k reason ∧ k ≤ n
            ∧ ∀ j, 0 < j → ((s.begin count).atCheck (waits.take j)).elapsed.exceeds
              s.settings.maxDuration = true → k ≤ j) := by
  refine ⟨fun waits grace reason final => ?_, fun waits k events hevents => ?_,
    fun hlimit hfinite => ?_⟩
  · unfold run
    cases hrounds : rounds waits (s.begin count) with
    | none =>
        constructor
        · intro h
          cases h
        · rintro ⟨k, hends, -⟩
          rw [rounds_eq_some_iff.mpr ⟨k, hends, rfl⟩] at hrounds
          cases hrounds
    | some result =>
        obtain ⟨first, mid⟩ := result
        constructor
        · intro h
          cases h
          obtain ⟨k, hends, hmid⟩ := rounds_eq_some_iff.mp hrounds
          exact ⟨k, hends, by rw [hmid]⟩
        · rintro ⟨k, hends, rfl⟩
          rw [rounds_eq_some_iff.mpr ⟨k, hends, rfl⟩] at hrounds
          cases hrounds
          rfl
  · intro before check
    have hcheck : check = before.poll.2 := atCheck_take_succ hevents (s.begin count)
    have hmode : before.settings = s.settings :=
      (afterAll_frame _ events).1.trans (settings_atCheck (s.begin count) (waits.take k))
    rw [hcheck, ← hmode]
    exact poll_takes_front before
  · obtain ⟨n, hn, hdue⟩ := exists_due_of_waits (s := s.begin count) hlimit rfl rfl hfinite
    refine ⟨n, fun waits hwaits hlength => ?_⟩
    have hlate := hdue waits hwaits hlength
    obtain ⟨k, reason, hends⟩ := exists_endsAt hn hlength hlate
    refine ⟨k, reason, hends, hends.le_of_due hn hlate, fun j hj hover => ?_⟩
    have htime : ((s.begin count).atCheck (waits.take j)).Due .timeLimit := by
      rw [Due, settings_atCheck]
      exact ⟨hlimit.ne', hover⟩
    exact hends.le_of_due hj htime

/-- A search that may take one second. -/
def briefly : Search Score := Search.new { Settings.defaults with maxDuration := 1 }

/-- The waits of a search whose only worker never begins: 600 milliseconds each. -/
def idly (n : Nat) : List (List (Event Score)) := List.replicate n [.idle 600]

/-- Two waits are longer than a second and one is not, so the search ends after two. It ends too when
the waits are only known to be many. -/
theorem run_ends_at_first_due_briefly :
    (∃ final, briefly.run 1 (idly 3) [] = some (.timeLimit, final)
        ∧ (briefly.begin 1).EndsAt (idly 3) 2 .timeLimit)
      ∧ ∃ n reason final, briefly.run 1 (idly n) [] = some (reason, final) := by
  obtain ⟨hrun, -, hlimit⟩ := run_ends_at_first_due briefly 1
  constructor
  · have hreason : (briefly.run 1 (idly 3) []).map Prod.fst = some .timeLimit := by
      decide +kernel
    obtain ⟨⟨reason, final⟩, hfinal, rfl⟩ := Option.map_eq_some_iff.mp hreason
    obtain ⟨k, hends, -⟩ := (hrun _ _ _ _).mp hfinal
    have hover : ((briefly.begin 1).atCheck ((idly 3).take 2)).Due .timeLimit :=
      ⟨by decide, by decide +kernel⟩
    have hlower : k ≠ 1 := by
      rintro rfl
      have hnotOver : ((briefly.begin 1).atCheck ((idly 3).take 1)).elapsed.exceeds 1 = false := by
        decide +kernel
      exact absurd (hnotOver.symm.trans hends.firstDue.due.2) (by decide)
    have hupper := hends.le_of_due Nat.two_pos hover
    have hpos := hends.pos
    obtain rfl : k = 2 := by omega
    exact ⟨final, hfinal, hends⟩
  · obtain ⟨n, hmany⟩ := hlimit (by decide) (by decide +kernel)
    obtain ⟨k, reason, hends, -⟩ := hmany (idly n)
      (fun events hevents => by rw [List.eq_of_mem_replicate hevents]; decide)
      (by rw [idly, List.length_replicate])
    exact ⟨n, reason, _, (hrun (idly n) [] reason _).mpr ⟨k, hends, rfl⟩⟩

end Search

end KeySearch
