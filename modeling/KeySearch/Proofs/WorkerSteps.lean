import KeySearch.Proofs.Ranking
import KeySearch.Proofs.SeedCounter
import KeySearch.Search.State

/-!
# The steps of one worker

A worker remembers only the last find that it published, and yet it publishes exactly the finds that
beat all its earlier ones. `Worker.Since` says what has become of a worker's counters and of the find
it keeps since an earlier state; one step has it, whether the step makes a find or fails, and so have
steps one after another. `Worker.Tally` is the same for a worker from its start. The seeds of the steps
follow one another, so the outcomes of `Search.steps` can be read off the first seed.
-/

set_option autoImplicit false

namespace KeySearch

variable {α : Type} [Scored α] {byBlocks : Bool}

/-! ## One step -/

namespace Worker

/-- What a worker has counted and kept after the finds it has made. -/
structure Tally (byBlocks : Bool) (w : Worker α) (made : List α) : Prop where
  generated : w.generated = made.length
  published : w.published = (records byBlocks made).length
  best : w.best = bestOf byBlocks made
  bestScore : w.bestScore = w.best.map Scored.score

theorem tally_start (id : Int) (seed : Option Seed) :
    (start id seed : Worker α).Tally byBlocks [] :=
  ⟨rfl, rfl, rfl, rfl⟩

/-- The worker of a step, whose seed has moved on. -/
def moveOn (w : Worker α) (draw : Seed) : Worker α :=
  { w with seed := some (w.nextSeed draw), fresh := false }

/-- A step that fails moves on to the next seed and does nothing else. -/
theorem step_of_error {w : Worker α} {source : KeySource α} {e : Candidate.Error}
    (h : source.make (w.nextSeed source.draw) = .error e) :
    w.step byBlocks source
      = (.error e, { worker := w.moveOn source.draw, published := none, log := [] }) := by
  simp only [step, h]
  rfl

/-- A step that does not fail moves on to the next seed and then takes in its find. -/
theorem step_of_ok {w : Worker α} {source : KeySource α} {find : α}
    (h : source.make (w.nextSeed source.draw) = .ok find) :
    w.step byBlocks source = (.ok find, (w.moveOn source.draw).accept byBlocks find) := by
  simp only [step, h]
  rfl

omit [Scored α] in
@[simp] theorem nextSeed_moveOn (w : Worker α) (draw other : Seed) :
    (w.moveOn draw).nextSeed other = (w.nextSeed draw).increment := rfl

theorem nextSeed_accept (w : Worker α) (find : α) (draw : Seed) :
    (w.accept byBlocks find).worker.nextSeed draw = w.nextSeed draw := by
  unfold accept
  dsimp only
  split <;> rfl

/-- The seed after a step is the one behind the seed of the step. -/
theorem nextSeed_step (w : Worker α) (source : KeySource α) (draw : Seed) :
    (w.step byBlocks source).2.worker.nextSeed draw = (w.nextSeed source.draw).increment := by
  cases hmake : source.make (w.nextSeed source.draw) with
  | error e => rw [step_of_error hmake, nextSeed_moveOn]
  | ok find => rw [step_of_ok hmake, nextSeed_accept, nextSeed_moveOn]

theorem step_fst (w : Worker α) (source : KeySource α) :
    (w.step byBlocks source).1 = source.make (w.nextSeed source.draw) := by
  cases hmake : source.make (w.nextSeed source.draw) with
  | error e => rw [step_of_error hmake]
  | ok find => rw [step_of_ok hmake]

/-- What a worker has counted and kept since an earlier state, in which time it made the given finds.
It compares them with the find that it had kept before. -/
structure Since (byBlocks : Bool) (base w : Worker α) (made : List α) : Prop where
  generated : w.generated = base.generated + made.length
  published : w.published = base.published + (recordsAfter byBlocks base.best.toList made).length
  best : w.best = made.foldl (keepBetter byBlocks) base.best
  bestScore : w.bestScore
    = ((recordsAfter byBlocks base.best.toList made).getLast?.map Scored.score).or base.bestScore

/-- What is kept after more finds is the best of those before and the new ones. -/
theorem Since.isBest {base w : Worker α} {made : List α} (h : base.Since byBlocks w made) :
    IsBest byBlocks (base.best.toList ++ made) w.best := by
  rw [h.best]
  exact (isBest_toList byBlocks base.best).foldl made

theorem Since.trans {base w w' : Worker α} {made more : List α} (h : base.Since byBlocks w made)
    (h' : w.Since byBlocks w' more) : base.Since byBlocks w' (made ++ more) := by
  have hrecords : recordsAfter byBlocks base.best.toList (made ++ more)
      = recordsAfter byBlocks base.best.toList made ++ recordsAfter byBlocks w.best.toList more := by
    rw [recordsAfter_append, h.isBest.recordsAfter_eq]
  refine ⟨?_, ?_, ?_, ?_⟩
  · rw [h'.generated, h.generated, List.length_append, Nat.add_assoc]
  · rw [h'.published, h.published, hrecords, List.length_append, Nat.add_assoc]
  · rw [h'.best, h.best, List.foldl_append]
  · rw [h'.bestScore, h.bestScore, hrecords, List.getLast?_append, Option.map_or, Option.or_assoc]

/-- A find is counted, and it is published exactly if it ranks above the find that is kept. -/
theorem since_accept (w : Worker α) (find : α) :
    w.Since byBlocks (w.accept byBlocks find).worker [find]
      ∧ (w.accept byBlocks find).published.toList
        = recordsAfter byBlocks w.best.toList [find] := by
  have hrecords := @recordsAfter_toList_cons _ _ byBlocks w.best find []
  rw [recordsAfter, List.append_nil] at hrecords
  unfold Worker.accept
  dsimp only
  split
  · next himproves =>
    rw [if_pos himproves] at hrecords
    refine ⟨⟨rfl, ?_, ?_, ?_⟩, hrecords.symm⟩
    · rw [hrecords]
      rfl
    · rw [List.foldl_cons, List.foldl_nil, keepBetter, if_pos himproves]
    · rw [hrecords]
      rfl
  · next hkeep =>
    rw [if_neg hkeep] at hrecords
    refine ⟨⟨rfl, ?_, ?_, ?_⟩, hrecords.symm⟩
    · rw [hrecords]
      rfl
    · rw [List.foldl_cons, List.foldl_nil, keepBetter, if_neg hkeep]
    · rw [hrecords]
      rfl

/-- A step counts its find, if it makes one, and nothing else. -/
theorem since_step (w : Worker α) (source : KeySource α) :
    w.Since byBlocks (w.step byBlocks source).2.worker (w.step byBlocks source).1.toOption.toList
      ∧ (w.step byBlocks source).2.published.toList
        = recordsAfter byBlocks w.best.toList (w.step byBlocks source).1.toOption.toList := by
  cases hmake : source.make (w.nextSeed source.draw) with
  | error e =>
      rw [step_of_error hmake]
      exact ⟨⟨rfl, rfl, rfl, rfl⟩, rfl⟩
  | ok find =>
      -- moving on to the next seed changes nothing that a find is counted or compared with
      obtain ⟨hsince, hpublished⟩ := @since_accept _ _ byBlocks (w.moveOn source.draw) find
      rw [step_of_ok hmake]
      exact ⟨⟨hsince.generated, hsince.published, hsince.best, hsince.bestScore⟩, hpublished⟩

/-- The tally of all finds goes on with those that are made since. -/
theorem Tally.since {w w' : Worker α} {made more : List α} (h : w.Tally byBlocks made)
    (h' : w.Since byBlocks w' more) : w'.Tally byBlocks (made ++ more) := by
  have hbest : IsBest byBlocks made w.best := h.best ▸ isBest_bestOf byBlocks made
  have hrecords : records byBlocks (made ++ more)
      = records byBlocks made ++ recordsAfter byBlocks w.best.toList more := by
    rw [records, recordsAfter_append, List.nil_append, hbest.recordsAfter_eq]
    rfl
  refine ⟨?_, ?_, ?_, ?_⟩
  · rw [h'.generated, h.generated, List.length_append]
  · rw [h'.published, h.published, hrecords, List.length_append]
  · rw [h'.best, h.best, bestOf, bestOf, List.foldl_append]
  · rw [h'.bestScore, h.bestScore, ← Option.map_or, getLast?_recordsAfter, h'.best]

end Worker

/-! ## Steps one after another -/

namespace Search

/-- Calls of a worker's step, one for each source: what they gave, and the search after them. -/
def steps (s : Search α) (i : Nat) :
    List (KeySource α) → List (Option (Except Candidate.Error α)) × Search α
  | [] => ([], s)
  | source :: rest =>
    let (outcome, s) := s.step i source none
    let (outcomes, s) := s.steps i rest
    (outcome :: outcomes, s)

/-- The finds among the outcomes of steps. -/
def finds (outcomes : List (Option (Except Candidate.Error α))) : List α :=
  outcomes.filterMap fun outcome => outcome.bind Except.toOption

omit [Scored α] in
theorem getElem?_absorb_self {s : Search α} {i : Nat} {w : Worker α}
    (hw : s.workers[i]? = some w) (effect : Worker.Effect α) :
    (s.absorb i effect).workers[i]? = some effect.worker := by
  have hlt := (List.getElem?_eq_some_iff.mp hw).1
  simp [absorb, hlt]

omit [Scored α] in
theorem items_absorb (s : Search α) (i : Nat) (effect : Worker.Effect α) :
    (s.absorb i effect).channel.items
      = s.channel.items ++ effect.published.toList.map some := by
  unfold absorb
  cases effect.published <;> simp [Channel.push]

theorem steps_cons {s : Search α} {i : Nat} {w : Worker α} (hw : s.workers[i]? = some w)
    (source : KeySource α) (rest : List (KeySource α)) :
    s.steps i (source :: rest) =
      let next := (s.absorb i (w.step s.settings.byBlocks source).2).steps i rest
      (some (w.step s.settings.byBlocks source).1 :: next.1, next.2) := by
  simp [steps, step, hw, arrive]

/-- The steps of a worker work on the seeds that follow its first one, whether they fail or not. -/
theorem outcomes_steps {s : Search α} {i : Nat} {w : Worker α} (hw : s.workers[i]? = some w)
    (draw : Seed) {sources : List (KeySource α)} (hdraw : ∀ source ∈ sources, source.draw = draw) :
    (s.steps i sources).1
      = sources.mapIdx fun k source => some (source.make ((w.nextSeed draw).plus k)) := by
  induction sources generalizing s w with
  | nil => rfl
  | cons source rest ih =>
      have hnext := ih (getElem?_absorb_self hw (w.step s.settings.byBlocks source).2)
        fun other hother => hdraw other (by simp [hother])
      rw [steps_cons hw, List.mapIdx_cons]
      dsimp only
      rw [hnext, Worker.nextSeed_step, Worker.step_fst, hdraw source (by simp)]
      simp only [Seed.increment_plus, Seed.plus_zero]

/-- Steps of a worker, whether they fail or not, count the finds they make, and the channel takes up
those that rank above all that was found and kept before. -/
theorem steps_since {s : Search α} {i : Nat} {w : Worker α} (hw : s.workers[i]? = some w)
    (sources : List (KeySource α)) :
    ∃ w', (s.steps i sources).2.workers[i]? = some w'
      ∧ w.Since s.settings.byBlocks w' (finds (s.steps i sources).1)
      ∧ (s.steps i sources).2.channel.items = s.channel.items
        ++ (recordsAfter s.settings.byBlocks w.best.toList (finds (s.steps i sources).1)).map some := by
  induction sources generalizing s w with
  | nil => exact ⟨w, hw, ⟨rfl, rfl, rfl, rfl⟩, by simp [steps, finds, recordsAfter]⟩
  | cons source rest ih =>
      obtain ⟨hstep, hpublished⟩ := @Worker.since_step _ _ s.settings.byBlocks w source
      obtain ⟨w', hw', hrest, hitems⟩ :=
        ih (getElem?_absorb_self hw (w.step s.settings.byBlocks source).2)
      have hfinds : finds ((some (w.step s.settings.byBlocks source).1) ::
            ((s.absorb i (w.step s.settings.byBlocks source).2).steps i rest).1)
          = (w.step s.settings.byBlocks source).1.toOption.toList
            ++ finds ((s.absorb i (w.step s.settings.byBlocks source).2).steps i rest).1 := by
        simp only [finds, List.filterMap_cons, Option.bind_some]
        cases (w.step s.settings.byBlocks source).1 <;> rfl
      rw [steps_cons hw]
      refine ⟨w', hw', ?_, ?_⟩
      · rw [hfinds]
        exact hstep.trans hrest
      · rw [hfinds, recordsAfter_append, hstep.isBest.recordsAfter_eq, List.map_append,
          ← List.append_assoc, ← hpublished, ← items_absorb]
        exact hitems

/-- After any steps of a worker its tally counts the finds they made, and the channel has taken up
the records among them. -/
theorem steps_tally {s : Search α} {i : Nat} {w : Worker α} {made : List α}
    (hw : s.workers[i]? = some w) (h : w.Tally s.settings.byBlocks made)
    (sources : List (KeySource α)) :
    ∃ w', (s.steps i sources).2.workers[i]? = some w'
      ∧ w'.Tally s.settings.byBlocks (made ++ finds (s.steps i sources).1)
      ∧ (s.steps i sources).2.channel.items = s.channel.items
        ++ (recordsAfter s.settings.byBlocks made (finds (s.steps i sources).1)).map some := by
  obtain ⟨w', hw', hsince, hitems⟩ := steps_since hw sources
  have hbest : IsBest s.settings.byBlocks made w.best := h.best ▸ isBest_bestOf _ made
  rw [← hbest.recordsAfter_eq] at hitems
  exact ⟨w', hw', h.since hsince, hitems⟩

/-! ## Steps from the first seed -/

omit [Scored α] in
theorem mapIdx_replicate {β : Type} (f : Nat → KeySource α → β) (n : Nat) (source : KeySource α) :
    (List.replicate n source).mapIdx f = (List.range n).map fun k => f k source := by
  apply List.ext_getElem?
  intro k
  by_cases hk : k < n <;> simp [hk]

omit [Scored α] in
theorem nextSeed_start (id : Int) (seed : Option Seed) (draw : Seed) :
    (Worker.start id seed : Worker α).nextSeed draw = seed.getD draw := by
  cases seed <;> rfl

omit [Scored α] in
theorem finds_map_ok (made : List α) :
    finds (made.map fun find => some (.ok find)) = made := by
  induction made with
  | nil => rfl
  | cons find made ih =>
      rw [finds, List.map_cons, List.filterMap_cons]
      exact congrArg (find :: ·) ih

/-- The candidates that a key primitive makes of seeds. -/
def candidates (primitive : KeyPrimitive) (draw : Seed) : KeySource Candidate :=
  ⟨draw, fun seed => Candidate.ofSeed primitive seed.bytes⟩

/-- **A worker makes the candidates of the seeds that follow its first one, and publishes those that
beat all before them.** The first seed is the given one, or else the one that is drawn; the seeds
follow it as numbers modulo `2 ^ 256`. -/
theorem steps_publish_records {s : Search Candidate} {i : Nat} {id : Int} {seed : Option Seed}
    (hw : s.workers[i]? = some (Worker.start id seed)) (primitive : KeyPrimitive) (draw : Seed)
    (n : Nat) {made : List Candidate}
    (hmade : (List.range n).map (fun k => Candidate.ofSeed primitive
      (Bytes.ofNat 32 (((seed.getD draw).toNat + k) % 2 ^ 256))) = made.map .ok) :
    (s.steps i (List.replicate n (candidates primitive draw))).1
        = made.map (fun c => some (.ok c))
      ∧ (s.steps i (List.replicate n (candidates primitive draw))).2.channel.items
        = s.channel.items ++ (records s.settings.byBlocks made).map some
      ∧ ∃ w, (s.steps i (List.replicate n (candidates primitive draw))).2.workers[i]? = some w
        ∧ w.generated = n ∧ w.published = (records s.settings.byBlocks made).length
        ∧ w.best = (records s.settings.byBlocks made).getLast?
        ∧ w.bestScore = w.best.map fun c => ⟨c.zeroBits, c.zeroBlocks⟩ := by
  have hlen : made.length = n := by
    simpa using (congrArg List.length hmade).symm
  have houtcomes : (s.steps i (List.replicate n (candidates primitive draw))).1
      = made.map fun c => some (.ok c) := by
    rw [outcomes_steps hw draw (by simp [candidates]), mapIdx_replicate, nextSeed_start]
    -- `Seed.plus` writes the number of the seed with 32 bytes, as `hmade` does
    have hsome := congrArg (List.map some) hmade
    rw [List.map_map, List.map_map] at hsome
    exact hsome
  obtain ⟨w, hw', htally, hitems⟩ :=
    steps_tally hw (Worker.tally_start id seed) (List.replicate n (candidates primitive draw))
  rw [houtcomes, finds_map_ok] at htally hitems
  refine ⟨houtcomes, hitems, w, hw', ?_, htally.published, ?_, htally.bestScore⟩
  · rw [htally.generated, List.nil_append, hlen]
  · rw [htally.best, List.nil_append, getLast?_records]

/-- Behind the last seed the count goes on at zero, and a find that is no better than the one before
is not published. -/
theorem steps_publish_records_wraparound :
    ∃ w, (steps { Search.new Settings.defaults with
          workers := [Worker.start 0 (some ⟨List.replicate 32 0xff, by decide⟩)] } 0
        (List.replicate 3 (candidates KeyPrimitive.ed25519 Seed.zero))).2.workers[0]? = some w
      ∧ w.generated = 3 ∧ w.published = 2 ∧ w.bestScore = some ⟨2, 0⟩ := by
  obtain ⟨made, hmade, hlength, hlast⟩ : ∃ made : List Candidate,
      (List.range 3).map (fun k => Candidate.ofSeed KeyPrimitive.ed25519
        (Bytes.ofNat 32 ((2 ^ 256 - 1 + k) % 2 ^ 256))) = made.map .ok
      ∧ (records false made).length = 2
      ∧ (records false made).getLast?.map Candidate.score = some ⟨2, 0⟩ :=
    ⟨(List.range 3).filterMap fun k => (Candidate.ofSeed KeyPrimitive.ed25519
      (Bytes.ofNat 32 ((2 ^ 256 - 1 + k) % 2 ^ 256))).toOption,
      by decide +kernel, by decide +kernel, by decide +kernel⟩
  have hw : [(Worker.start 0 (some ⟨List.replicate 32 0xff, by decide⟩) : Worker Candidate)][0]?
      = some (Worker.start 0 (some ⟨List.replicate 32 0xff, by decide⟩)) := rfl
  have hseed : ((some ⟨List.replicate 32 0xff, by decide⟩ : Option Seed).getD Seed.zero).toNat
      = 2 ^ 256 - 1 := by decide
  rw [← hseed] at hmade
  obtain ⟨-, -, w, hw', hgenerated, hpublished, hbest, hscore⟩ :=
    @steps_publish_records { Search.new Settings.defaults with
      workers := [Worker.start 0 (some ⟨List.replicate 32 0xff, by decide⟩)] } 0 0 _ hw
      KeyPrimitive.ed25519 Seed.zero 3 made hmade
  refine ⟨w, hw', hgenerated, hpublished.trans hlength, ?_⟩
  rw [hscore, hbest]
  exact hlast

end Search

end KeySearch
