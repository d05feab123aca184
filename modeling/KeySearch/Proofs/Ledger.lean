import KeySearch.Proofs.Moves

/-!
# What a schedule adds up to

A find may be dropped twice on its way to the best one: by its worker, if it does not beat the last
find that the worker published, and by the search, if it does not beat the best one. Nothing is lost
by it. `Search.Ledger` compares the finds that were made, published and offered with the state of the
search. Each move keeps the ledger, so the shutdown that empties the channel leaves the best of all
finds, in whatever order the workers and the search took their turns.
-/

set_option autoImplicit false

namespace KeySearch

variable {α : Type} [Scored α] {byBlocks : Bool}

namespace Search

/-! ## The ledger -/

/-- How the state of a search stands to the finds that were made, published and offered. The channel
holds what was published and not yet offered, nothing that was made is better than all that was
published, and the search has the best of what it was offered. -/
structure Ledger (byBlocks : Bool) (s : Search α) (finds published offered : List α) : Prop where
  mode : s.settings.byBlocks = byBlocks
  queue : published.map some = offered.map some ++ s.channel.items
  counted : (s.workers.map Worker.published).sum = published.length
  best : s.best = bestOf byBlocks offered
  made : ∀ find ∈ published, find ∈ finds
  covered : ∀ find ∈ finds, ∃ other ∈ published, beats byBlocks find other = false
  remembered : ∀ find, some find ∈ s.workers.map Worker.best → find ∈ published

variable {s : Search α} {finds published offered : List α}

theorem ledger_begin (settings : Settings) (count : Nat) :
    ((Search.new settings).begin count : Search α).Ledger settings.byBlocks [] [] [] := by
  refine ⟨rfl, rfl, ?_, rfl, by simp, by simp, ?_⟩
  · have hzero : ∀ n ∈ (((Search.new settings).begin count : Search α).workers.map
        Worker.published), n = 0 := by
      simp [begin, Worker.start]
    exact List.sum_eq_zero_iff_forall_eq_nat.mpr hzero
  · simp [begin, Worker.start]

/-- Requests to stop and the passing of time keep the ledger. -/
theorem Ledger.of_quiet {t : Search α} (h : s.Ledger byBlocks finds published offered)
    (hquiet : s.Quiet t) : t.Ledger byBlocks finds published offered := by
  refine ⟨?_, ?_, ?_, ?_, h.made, h.covered, ?_⟩
  · rw [hquiet.settings, h.mode]
  · rw [hquiet.channel, h.queue]
  · rw [hquiet.published, h.counted]
  · rw [hquiet.best, h.best]
  · rw [hquiet.remembered]
    exact h.remembered

/-! ## Moves -/

theorem sum_set_add {l : List Nat} {i a : Nat} (h : l[i]? = some a) (k : Nat) :
    (l.set i (a + k)).sum = l.sum + k := by
  induction l generalizing i with
  | nil => cases h
  | cons x l ih =>
      cases i with
      | zero =>
          have hx : x = a := by simpa using h
          simp [hx]
          omega
      | succ i =>
          have hsum := ih (i := i) (by simpa using h)
          simp [hsum]
          omega

/-- What a worker publishes goes to the end of the channel, and what it drops has its match among
what it published before. -/
theorem Ledger.absorb (h : s.Ledger byBlocks finds published offered) {i : Nat} {w : Worker α}
    (hw : s.workers[i]? = some w) {made : List α} {effect : Worker.Effect α}
    (heffect : effect.Honest byBlocks w made) :
    (s.absorb i effect).Ledger byBlocks (finds ++ made)
      (published ++ effect.published.toList) offered := by
  -- what the worker compares with is on record already
  have hold : ∀ best ∈ w.best, best ∈ published := by
    intro best hbest
    refine h.remembered best (List.mem_map.mpr ⟨w, List.mem_of_getElem? hw, hbest⟩)
  refine ⟨h.mode, ?_, ?_, h.best, ?_, ?_, ?_⟩
  · rw [items_absorb, ← List.append_assoc, ← h.queue, List.map_append]
  · have hcount : (s.workers.map Worker.published)[i]? = some w.published := by
      rw [List.getElem?_map, hw, Option.map_some]
    show ((s.workers.set i effect.worker).map Worker.published).sum = _
    rw [List.map_set, heffect.counted, sum_set_add hcount, h.counted, List.length_append]
  · intro find hfind
    rcases List.mem_append.mp hfind with hbefore | hnew
    · exact List.mem_append_left _ (h.made find hbefore)
    · exact List.mem_append_right _ (heffect.made find (Option.mem_toList.mp hnew))
  · intro find hfind
    rcases List.mem_append.mp hfind with hbefore | hnew
    · obtain ⟨other, hother, hle⟩ := h.covered find hbefore
      exact ⟨other, List.mem_append_left _ hother, hle⟩
    · rcases heffect.covered find hnew with hpublished | ⟨best, hbest, hle⟩
      -- a published find is its own match
      · exact ⟨find, List.mem_append_right _ (Option.mem_toList.mpr hpublished),
          beats_eq_false_iff.mpr le_rfl⟩
      · exact ⟨best, List.mem_append_left _ (hold best hbest), hle⟩
  · intro find hfind
    have hset : some find ∈ (s.workers.map Worker.best).set i effect.worker.best := by
      rw [← List.map_set]
      exact hfind
    rcases List.mem_or_eq_of_mem_set hset with hother | hself
    · exact List.mem_append_left _ (h.remembered find hother)
    · rcases heffect.remembered find hself.symm with hkept | hnew
      · exact List.mem_append_left _ (hold find hkept)
      · exact List.mem_append_right _ (Option.mem_toList.mpr hnew)

/-- An item that is taken off the channel is offered. -/
theorem Ledger.poll (h : s.Ledger byBlocks finds published offered) :
    s.poll.2.Ledger byBlocks finds published (offered ++ s.offeredIn .poll) := by
  unfold Search.poll offeredIn Channel.pop?
  have hqueue := h.queue
  cases hitems : s.channel.items with
  | nil => simpa using h
  | cons item rest =>
      rw [hitems] at hqueue
      cases item with
      -- nothing blank is ever published
      | none =>
          have hblank : none ∈ published.map some := by
            rw [hqueue]
            simp
          simp at hblank
      | some find =>
          obtain ⟨reports, hoffer⟩ := offer_eq { s with channel := ⟨rest⟩ } find
          dsimp only
          rw [hoffer]
          refine ⟨h.mode, ?_, h.counted, ?_, h.made, h.covered, h.remembered⟩
          · rw [hqueue]
            simp
          · rw [bestOf, List.foldl_append, ← bestOf, ← h.best, ← h.mode]
            rfl

/-- Every move keeps the ledger. -/
theorem Ledger.move (h : s.Ledger byBlocks finds published offered) (m : Move α) :
    (s.move m).Ledger byBlocks (finds ++ (s.foundIn m).map Prod.snd)
      (published ++ s.publishedIn m) (offered ++ s.offeredIn m) := by
  rcases move_cases s m with ⟨i, w, effect, hacts⟩ | rfl | hidles
  · have hhonest := hacts.honest
    rw [h.mode] at hhonest
    rw [hacts.published, hacts.offered, List.append_nil]
    exact (h.absorb hacts.worker hhonest).of_quiet hacts.result
  · have hpoll := h.poll
    rw [← List.append_nil finds, ← List.append_nil published] at hpoll
    exact hpoll
  · rw [hidles.found, hidles.published, hidles.offered, List.map_nil, List.append_nil,
      List.append_nil, List.append_nil]
    exact h.of_quiet hidles.result

/-- Every schedule keeps the ledger. -/
theorem Ledger.play (h : s.Ledger byBlocks finds published offered) (moves : List (Move α)) :
    (s.play moves).Ledger byBlocks (finds ++ (s.found moves).map Prod.snd)
      (published ++ s.published moves) (offered ++ s.offered moves) := by
  induction moves generalizing s finds published offered with
  | nil => simpa [Search.play, found, Search.published, Search.offered, collect] using h
  | cons m rest ih =>
      have hrest := ih (h.move m)
      rw [List.append_assoc, List.append_assoc, List.append_assoc, ← List.map_append] at hrest
      exact hrest

end Search

end KeySearch
