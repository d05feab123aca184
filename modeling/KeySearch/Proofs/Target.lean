import KeySearch.Proofs.Schedule
import KeySearch.Proofs.WorkerSteps

/-!
# Searches that reach their target

A search that ends because of its target has a best find with enough zero bits when it looks. The
shutdown may still replace that find by one that ranks above it. Where the search ranks by zero bits
the new one has more of them, so it meets the target too. Where it ranks by zero blocks the new one
may have fewer zero bits: `run_target_missed_iff` says exactly when the search then ends below its
target, and `run_oneKeyEach` is such a search.
-/

set_option autoImplicit false

namespace KeySearch

variable {α : Type} [Scored α] {byBlocks : Bool}

/-- When the best of some finds has too few zero bits although the first of them has enough: the
finds are ranked by zero blocks, and a highest one among the later finds has more zero blocks than
the first and too few zero bits. -/
theorem IsBest.zeroBits_lt_iff {first best : α} {late : List α}
    (h : IsBest byBlocks (first :: late) (some best)) {target : Int}
    (hfirst : target ≤ (Scored.score first).zeroBits) :
    (Scored.score best).zeroBits < target ↔ byBlocks = true ∧ ∃ find ∈ late,
      (Scored.score first).zeroBlocks < (Scored.score find).zeroBlocks
        ∧ (Scored.score find).zeroBits < target
        ∧ ∀ other ∈ late, beats byBlocks other find = false := by
  obtain ⟨hmem, htop⟩ := h
  have hle : rank byBlocks first ≤ rank byBlocks best :=
    beats_eq_false_iff.mp (htop first List.mem_cons_self)
  constructor
  · intro hmissed
    cases byBlocks with
    -- ranked by zero bits alone, the best find has no fewer than the first
    | false =>
        have hbits := rank_false_le_iff.mp hle
        omega
    | true =>
        have hblocks : (Scored.score first).zeroBlocks < (Scored.score best).zeroBlocks := by
          rcases rank_true_le_iff.mp hle with hlt | ⟨-, hbits⟩
          · exact hlt
          · omega
        refine ⟨rfl, best, ?_, hblocks, hmissed, fun other hother => ?_⟩
        · rcases List.mem_cons.mp hmem with rfl | hlate
          · omega
          · exact hlate
        · exact htop other (List.mem_cons_of_mem first hother)
  · rintro ⟨rfl, find, hfind, hblocks, hbits, hhighest⟩
    -- the best find and the given one rank the same, so they have the same zero bits
    have hfindle : rank true find ≤ rank true best :=
      beats_eq_false_iff.mp (htop find (List.mem_cons_of_mem first hfind))
    have hbestle : rank true best ≤ rank true find := by
      rcases List.mem_cons.mp hmem with rfl | hlate
      · exact rank_true_le_iff.mpr (.inl hblocks)
      · exact beats_eq_false_iff.mp (hhighest best hlate)
    have heq := zeroBits_eq_of_rank_eq (le_antisymm hbestle hfindle)
    omega

namespace Search

/-! ## The moment of the stop -/

theorem targetReached_iff {s : Search α} :
    s.targetReached = true ↔ s.settings.targetZeroBits ≠ 0 ∧ ∃ best, s.best = some best
      ∧ (s.settings.targetZeroBits : Int) ≤ (Scored.score best).zeroBits := by
  unfold targetReached
  cases s.best <;> simp

theorem targetReached_of_checkStop {s : Search α} (h : s.checkStop = some .target) :
    s.targetReached = true := by
  unfold checkStop at h
  split at h
  · cases h
  · split at h
    · cases h
    · split at h
      · cases h
      · split at h
        · assumption
        · cases h

/-- The waits end at the first reason to stop. -/
theorem checkStop_of_rounds {waits : List (List (Event α))} {s mid : Search α}
    {reason : StopReason} (h : rounds waits s = some (reason, mid)) :
    mid.checkStop = some reason := by
  induction waits generalizing s with
  | nil => cases h
  | cons events rest ih =>
      rw [rounds] at h
      split at h
      · next hstop =>
        cases h
        exact hstop
      · exact ih h

theorem settings_poll (s : Search α) : s.poll.2.settings = s.settings := by
  unfold poll
  split
  · rfl
  · rfl
  · next find channel _ =>
    obtain ⟨reports, hoffer⟩ := offer_eq { s with channel := channel } find
    rw [hoffer]

theorem settings_rounds {waits : List (List (Event α))} {s mid : Search α}
    {reason : StopReason} (h : rounds waits s = some (reason, mid)) :
    mid.settings = s.settings := by
  induction waits generalizing s with
  | nil => cases h
  | cons events rest ih =>
      have hwait : (s.afterAll events).poll.2.settings = s.settings := by
        rw [settings_poll, (afterAll_frame s events).1]
      rw [rounds] at h
      split at h
      · cases h
        exact hwait
      · exact (ih h).trans hwait

/-! ## The shutdown -/

/-- What a shutdown leaves is the best of the find it began with and of what it found on the
channel. -/
theorem isBest_close {s : Search α} {best : α} (hbest : s.best = some best) (reason : StopReason)
    (grace : List (Event α)) :
    IsBest s.settings.byBlocks
      (best :: leftOver (s.requestStops.afterAll grace).channel.items)
      (s.close reason grace).best := by
  have hone : IsBest s.settings.byBlocks [best] (some best) :=
    ⟨List.mem_cons_self, fun find hfind => by
      rw [List.mem_singleton.mp hfind]
      exact beats_eq_false_iff.mpr le_rfl⟩
  have hfold := hone.foldl (leftOver (s.requestStops.afterAll grace).channel.items)
  obtain ⟨hsettings, hkept⟩ := afterAll_frame s.requestStops grace
  have hclose : (s.close reason grace).best
      = (leftOver (s.requestStops.afterAll grace).channel.items).foldl
        (keepBetter s.settings.byBlocks) (some best) := by
    show (s.requestStops.afterAll grace).settle.best = _
    rw [best_settle, hsettings, hkept, ← hbest]
    rfl
  rw [hclose]
  exact hfold

/-- **A search that ends because of its target ends with too few zero bits only if the shutdown finds
more zero blocks.** When it looked, its best find had enough zero bits; ranked by zero bits, the
result has enough too. -/
theorem run_target_missed_iff {s final : Search α} {count : Nat}
    {waits : List (List (Event α))} {grace : List (Event α)}
    (h : s.run count waits grace = some (.target, final)) :
    ∃ mid atStop best, rounds waits (s.begin count) = some (.target, mid)
      ∧ mid.best = some atStop
      ∧ (s.settings.targetZeroBits : Int) ≤ (Scored.score atStop).zeroBits
      ∧ final.snapshot.best = some best
      ∧ ((Scored.score best).zeroBits < (s.settings.targetZeroBits : Int) ↔
        s.settings.byBlocks = true
          ∧ ∃ late ∈ leftOver (mid.requestStops.afterAll grace).channel.items,
            (Scored.score atStop).zeroBlocks < (Scored.score late).zeroBlocks
              ∧ (Scored.score late).zeroBits < (s.settings.targetZeroBits : Int)
              ∧ ∀ other ∈ leftOver (mid.requestStops.afterAll grace).channel.items,
                beats true other late = false) := by
  unfold run at h
  split at h
  · cases h
  · next reason mid hrounds =>
    cases h
    have hkept := settings_rounds hrounds
    have hsettings : mid.settings = s.settings := hkept
    obtain ⟨-, atStop, hatStop, henough⟩ :=
      targetReached_iff.mp (targetReached_of_checkStop (checkStop_of_rounds hrounds))
    have hbest := isBest_close hatStop .target grace
    cases hfinal : (mid.close .target grace).best with
    | none =>
        rw [hfinal] at hbest
        exact absurd hbest (List.cons_ne_nil _ _)
    | some best =>
        rw [hfinal] at hbest
        refine ⟨mid, atStop, best, hrounds, hatStop, ?_, hfinal, ?_⟩
        · rw [← hsettings]
          exact henough
        · rw [← hsettings, hbest.zeroBits_lt_iff henough]
          refine and_congr_right fun hmode => ?_
          rw [hmode]

/-- A search by zero blocks for a key with two zero bits. -/
def seekingTwoBits : Search Candidate :=
  Search.new { Settings.defaults with workers := 2, byBlocks := true, targetZeroBits := 2 }

/-- Two workers make one key each and are asked to stop meanwhile. The key of the first has two zero
bits, the key of the second has none of them but a zero block. -/
def oneKeyEach : List (Event Candidate) :=
  [.launch 0, .turn 0 (candidates .ed25519 Seed.zero) (some .worker),
    .turn 0 (candidates .ed25519 Seed.zero) none, .launch 1,
    .turn 1 (candidates .ed25519 ⟨Bytes.ofNat 32 15794, by decide⟩) (some .worker),
    .turn 1 (candidates .ed25519 ⟨Bytes.ofNat 32 15794, by decide⟩) none, .idle 100]

/-- The key with a zero block is taken in by the shutdown, when the target was reached already. -/
theorem run_oneKeyEach : ∃ final best,
    seekingTwoBits.run 2 [oneKeyEach] [] = some (.target, final)
      ∧ final.snapshot.best = some best ∧ best.zeroBits = 0 := by
  have hrun : (seekingTwoBits.run 2 [oneKeyEach] []).map
      (fun r => (r.1, r.2.best.map Candidate.zeroBits)) = some (.target, some 0) := by
    decide +kernel
  obtain ⟨⟨reason, final⟩, hfinal, hresult⟩ := Option.map_eq_some_iff.mp hrun
  obtain ⟨hreason, hbits⟩ := Prod.mk.inj hresult
  obtain ⟨best, hbest, hzero⟩ := Option.map_eq_some_iff.mp hbits
  have htarget : reason = .target := hreason
  exact ⟨final, best, by rw [hfinal, htarget], hbest, hzero⟩

/-- Of the two keys the first one ends the search and the second one, below the target, is its
result. -/
theorem run_target_missed_iff_oneKeyEach : ∃ mid final atStop best late,
    rounds [oneKeyEach] (seekingTwoBits.begin 2) = some (.target, mid)
      ∧ seekingTwoBits.run 2 [oneKeyEach] [] = some (.target, final)
      ∧ mid.best = some atStop ∧ 2 ≤ atStop.zeroBits
      ∧ final.snapshot.best = some best ∧ best.zeroBits < 2
      ∧ late ∈ leftOver mid.requestStops.channel.items
      ∧ atStop.zeroBlocks < late.zeroBlocks ∧ late.zeroBits < 2 := by
  obtain ⟨final, best, hrun, hbest, hzero⟩ := run_oneKeyEach
  obtain ⟨mid, atStop, best', hrounds, hatStop, henough, hbest', hiff⟩ :=
    run_target_missed_iff hrun
  have hsame : best = best' := Option.some.inj (hbest.symm.trans hbest')
  rw [← hsame] at hiff
  have hlow : best.zeroBits < 2 := by omega
  obtain ⟨-, late, hlate, hblocks, hbits, -⟩ := hiff.mp (Int.ofNat_lt.mpr hlow)
  exact ⟨mid, final, atStop, best, late, hrounds, hrun, hatStop, Int.ofNat_le.mp henough, hbest,
    hlow, hlate, Int.ofNat_lt.mp hblocks, Int.ofNat_lt.mp hbits⟩

/-- Reaching the target does not mean that the result has enough zero bits. -/
theorem not_forall_run_target_enough :
    ¬ ∀ (s : Search Candidate) (count : Nat) (waits : List (List (Event Candidate)))
        (grace : List (Event Candidate)) (final : Search Candidate),
      0 < s.settings.targetZeroBits → s.run count waits grace = some (.target, final) →
        ∃ best, final.snapshot.best = some best ∧ s.settings.targetZeroBits ≤ best.zeroBits := by
  intro hclaim
  obtain ⟨final, best, hrun, hbest, hzero⟩ := run_oneKeyEach
  obtain ⟨best', hbest', henough⟩ := hclaim seekingTwoBits 2 [oneKeyEach] [] final (by decide) hrun
  have hsame : best = best' := Option.some.inj (hbest.symm.trans hbest')
  have hle : 2 ≤ best'.zeroBits := henough
  rw [← hsame] at hle
  omega

end Search

end KeySearch
