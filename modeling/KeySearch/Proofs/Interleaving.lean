import KeySearch.Proofs.Ledger

/-!
# The best find of a search

After the shutdown a search has the best of all the finds that its workers made, published or not.
So the order in which the workers and the search took their turns does not matter to the rank of the
result: it is settled by what each worker found.
-/

set_option autoImplicit false

namespace KeySearch.Search

variable {α : Type} [Scored α] {byBlocks : Bool}

/-! ## The ledger at the shutdown -/

section
variable {s : Search α} {finds published offered : List α}

/-- What waits on the channel is what was published and not yet offered. -/
theorem Ledger.waiting (h : s.Ledger byBlocks finds published offered) :
    ∃ rest, s.channel.items = rest.map some ∧ published = offered ++ rest := by
  obtain ⟨front, rest, rfl, hfront, hrest⟩ := List.map_eq_append_iff.mp h.queue
  have hoffered : front = offered :=
    (List.map_inj_right fun _ _ h => Option.some.inj h).mp hfront
  exact ⟨rest, hrest.symm, by rw [hoffered]⟩

/-- The shutdown offers each find that waits, and leaves the channel empty. -/
theorem Ledger.items_settle (h : s.Ledger byBlocks finds published offered) :
    s.settle.channel.items = [] ∧ published = offered ++ leftOver s.channel.items := by
  obtain ⟨rest, hitems, hpublished⟩ := h.waiting
  refine ⟨Search.items_settle hitems, ?_⟩
  rw [hitems, leftOver_map_some]
  exact hpublished

/-- The shutdown leaves the best of all finds. -/
theorem Ledger.isBest_settle (h : s.Ledger byBlocks finds published offered) :
    IsBest byBlocks finds s.settle.best := by
  have hbest : s.settle.best = bestOf byBlocks published := by
    calc s.settle.best
        = (leftOver s.channel.items).foldl (keepBetter byBlocks) s.best := by
          rw [best_settle, h.mode]
      _ = bestOf byBlocks (offered ++ leftOver s.channel.items) := by
          rw [h.best, bestOf, bestOf, List.foldl_append]
      _ = bestOf byBlocks published := by
          rw [← h.items_settle.2]
  rw [hbest]
  exact (isBest_bestOf byBlocks published).of_covered h.made h.covered

end

/-- The ledger of a schedule from the start of a search. -/
theorem ledger_play (settings : Settings) (count : Nat) (moves : List (Move α)) :
    (((Search.new settings).begin count : Search α).play moves).Ledger settings.byBlocks
      ((((Search.new settings).begin count).found moves).map Prod.snd)
      (((Search.new settings).begin count).published moves)
      (((Search.new settings).begin count).offered moves) :=
  (ledger_begin settings count).play moves

/-- What a whole run ends with is the best of the finds of its schedule. -/
theorem run_isBest {settings : Settings} {count : Nat} {waits : List (List (Event α))}
    {grace : List (Event α)} {reason : StopReason} {final : Search α}
    (h : (Search.new settings).run count waits grace = some (reason, final)) :
    ∃ moves, final = (((Search.new settings).begin count).play moves).settle.finish reason
      ∧ IsBest settings.byBlocks ((((Search.new settings).begin count).found moves).map Prod.snd)
        final.best := by
  obtain ⟨moves, rfl⟩ := exists_play_of_run h
  exact ⟨moves, rfl, (ledger_play settings count moves).isBest_settle⟩

/-! ## The result of a schedule -/

/-- The finds of all workers together are the finds of each. -/
theorem mem_found_iff (s : Search α) (moves : List (Move α)) (find : α) :
    find ∈ (s.found moves).map Prod.snd ↔ ∃ i, find ∈ s.foundBy moves i := by
  constructor
  · intro hfind
    obtain ⟨⟨i, find'⟩, hmem, rfl⟩ := List.mem_map.mp hfind
    exact ⟨i, List.mem_filterMap.mpr ⟨(i, find'), hmem, if_pos rfl⟩⟩
  · rintro ⟨i, hfind⟩
    obtain ⟨⟨j, find'⟩, hmem, hentry⟩ := List.mem_filterMap.mp hfind
    dsimp only at hentry
    split at hentry
    · cases hentry
      exact List.mem_map.mpr ⟨(j, find), hmem, rfl⟩
    · cases hentry

/-- **A search ends with the best of all finds, whatever the order of the moves.** Each published
find was offered once, by a poll or by the shutdown; the result is nothing only if there were no
finds, else it is one that no find of any worker beats; and schedules that have each worker make the
same finds end with results of the same rank. -/
theorem settle_play_isBest (settings : Settings) (count : Nat) (moves : List (Move α)) :
    let start : Search α := (Search.new settings).begin count
    let final := (start.play moves).settle
    final.channel.items = []
      ∧ start.published moves
        = start.offered moves ++ leftOver (start.play moves).channel.items
      ∧ (final.workers.map Worker.published).sum = (start.published moves).length
      ∧ (final.best = none ↔ start.found moves = [])
      ∧ IsBest settings.byBlocks ((start.found moves).map Prod.snd) final.best
      ∧ ∀ others, (∀ i, start.foundBy others i = start.foundBy moves i) →
        (start.play others).settle.best.map (rank settings.byBlocks)
          = final.best.map (rank settings.byBlocks) := by
  intro start final
  have hledger := ledger_play (α := α) settings count moves
  have hbest := hledger.isBest_settle
  obtain ⟨hempty, hpublished⟩ := hledger.items_settle
  refine ⟨hempty, hpublished, ?_, ?_, hbest, ?_⟩
  · rw [workers_settle]
    exact hledger.counted
  · constructor
    · intro hnone
      rw [hnone] at hbest
      exact List.map_eq_nil_iff.mp hbest
    · intro hnil
      cases hfinal : final.best with
      | none => rfl
      | some best =>
          rw [hfinal, hnil] at hbest
          exact absurd hbest.1 List.not_mem_nil
  · intro others hsame
    -- both results are best among finds with the same members
    refine (ledger_play settings count others).isBest_settle.rank_eq hbest fun find => ?_
    rw [mem_found_iff, mem_found_iff]
    exact exists_congr fun i => by rw [hsame i]

/-- Keys that all have the same score. -/
def scoring (bits blocks : Int) : KeySource Score := ⟨Seed.zero, fun _ => .ok ⟨bits, blocks⟩⟩

/-- A search by zero blocks with two workers. -/
def pair : Search Score := (Search.new { Settings.defaults with byBlocks := true }).begin 2

/-- The workers take turns, the search looks in between, and the second worker is stopped by a
failure. -/
def alternating : List (Move Score) :=
  [.event (.launch 0), .event (.turn 0 (scoring 9 0) none), .poll, .event (.launch 1),
    .event (.turn 1 (scoring 1 2) none), .event (.turn 0 (scoring 4 2) (some .worker)),
    .event (.turn 1 ⟨Seed.zero, fun _ => .error (.derivation ⟨"boom"⟩)⟩ none),
    .event (.turn 0 (scoring 30 5) none), .stop]

/-- The second worker comes first, and the first one begins its last step before the stop. -/
def oneByOne : List (Move Score) :=
  [.event (.launch 1), .event (.turn 1 (scoring 1 2) none), .event (.launch 0),
    .event (.turn 0 (scoring 9 0) none), .stop, .poll, .event (.step 0 (scoring 4 2) none),
    .event (.turn 0 (scoring 30 5) none), .event (.turn 1 (scoring 30 5) none)]

/-- Two orders of the same finds give the same rank, though the find that is the first best one in
one of them comes too late for that in the other. -/
theorem settle_play_isBest_alternating :
    (∀ i, pair.foundBy oneByOne i = pair.foundBy alternating i)
      ∧ (pair.play oneByOne).settle.best.map (rank true)
        = (pair.play alternating).settle.best.map (rank true)
      ∧ (pair.play alternating).settle.best = some ⟨4, 2⟩ := by
  have halternating : pair.found alternating = [(0, ⟨9, 0⟩), (1, ⟨1, 2⟩), (0, ⟨4, 2⟩)] := rfl
  have honeByOne : pair.found oneByOne = [(1, ⟨1, 2⟩), (0, ⟨9, 0⟩), (0, ⟨4, 2⟩)] := rfl
  have hsame : ∀ i, pair.foundBy oneByOne i = pair.foundBy alternating i := by
    intro i
    rw [foundBy, foundBy, halternating, honeByOne]
    rcases i with _ | _ | i <;> rfl
  obtain ⟨-, -, -, -, -, hrank⟩ :=
    settle_play_isBest { Settings.defaults with byBlocks := true } 2 alternating
  exact ⟨hsame, hrank oneByOne hsame, rfl⟩

end KeySearch.Search
