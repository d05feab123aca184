import KeySearch.Proofs.CandidateScores
import KeySearch.Proofs.WorkerSteps

/-!
# Steps that fail

A step moves on to the next seed before it makes a find of that seed, and counts the find afterwards. So
a step that fails costs the worker one seed and nothing else, in whatever state the worker is, and a
failure changes neither the seed nor the comparison of any later step. `Search.attempts` calls a worker's
step again and again, with a key primitive of its own for each call, so any call may fail.
-/

set_option autoImplicit false

namespace KeySearch

/-- A seed gives no candidate exactly if the key primitive fails, or if its public key has the wrong
size or more zero bits in front than an address counts. -/
theorem Candidate.exists_ofSeed_eq_error_iff {primitive : KeyPrimitive} {seed : List UInt8} :
    (∃ e, Candidate.ofSeed primitive seed = .error e) ↔
      (∃ detail, primitive seed = .error detail)
        ∨ ∃ publicKey, primitive seed = .ok publicKey
          ∧ (publicKey.length ≠ 32 ∨ 127 < zeroRun (Bytes.bits publicKey)) := by
  constructor
  · rintro ⟨e, he⟩
    cases hkey : primitive seed with
    | error detail => exact .inl ⟨detail, rfl⟩
    | ok publicKey =>
        have hnone : ¬ (publicKey.length = 32 ∧ zeroRun (Bytes.bits publicKey) ≤ 127) := by
          intro haddress
          obtain ⟨c, hc⟩ := Candidate.exists_ofSeed_iff.mpr ⟨publicKey, hkey, haddress⟩
          cases he.symm.trans hc
        exact .inr ⟨publicKey, rfl, by omega⟩
  · intro hfault
    cases hmade : Candidate.ofSeed primitive seed with
    | error e => exact ⟨e, rfl⟩
    | ok c =>
        obtain ⟨publicKey, hkey, hsize, hle⟩ := Candidate.exists_ofSeed_iff.mp ⟨c, hmade⟩
        rcases hfault with ⟨detail, hdetail⟩ | ⟨other, hother, hbad⟩
        · cases hkey.symm.trans hdetail
        · cases hkey.symm.trans hother
          omega

namespace Search

/-- Calls of a worker's step with a key primitive for each of them: what they gave, and the search after
them. -/
def attempts (s : Search Candidate) (i : Nat) (draw : Seed) (primitives : List KeyPrimitive) :
    List (Option (Except Candidate.Error Candidate)) × Search Candidate :=
  s.steps i (primitives.map fun primitive => candidates primitive draw)

section
variable {s : Search Candidate} {i : Nat} {w : Worker Candidate}

/-- A step of a worker gives what the next seed gives. -/
theorem step_candidates_fst (hw : s.workers[i]? = some w) (draw : Seed) (primitive : KeyPrimitive) :
    (s.step i (candidates primitive draw) none).1
      = some (Candidate.ofSeed primitive (w.nextSeed draw).bytes) := by
  simp only [step, hw, Worker.step_fst]
  rfl

/-- After a step that failed nothing is different but the seed of the worker. -/
theorem step_candidates_of_error (hw : s.workers[i]? = some w) {draw : Seed}
    {primitive : KeyPrimitive} {e : Candidate.Error}
    (h : Candidate.ofSeed primitive (w.nextSeed draw).bytes = .error e) :
    (s.step i (candidates primitive draw) none).2
      = { s with workers := s.workers.set i (w.moveOn draw) } := by
  have hstep : w.step s.settings.byBlocks (candidates primitive draw)
      = (.error e, { worker := w.moveOn draw, published := none, log := [] }) :=
    Worker.step_of_error h
  simp [step, hw, hstep, absorb, arrive]

/-- The calls work on the seeds one after another. -/
theorem attempts_fst (hw : s.workers[i]? = some w) (draw : Seed) (primitives : List KeyPrimitive) :
    (s.attempts i draw primitives).1 = primitives.mapIdx fun k primitive =>
      some (Candidate.ofSeed primitive
        (Bytes.ofNat 32 (((w.nextSeed draw).toNat + k) % 2 ^ 256))) := by
  have hdraw : ∀ source ∈ primitives.map fun primitive => candidates primitive draw,
      source.draw = draw := by
    intro source hsource
    obtain ⟨primitive, -, rfl⟩ := List.mem_map.mp hsource
    rfl
  rw [attempts, outcomes_steps hw draw hdraw]
  apply List.ext_getElem?
  intro k
  rw [List.getElem?_mapIdx, List.getElem?_mapIdx, List.getElem?_map, Option.map_map]
  rfl

end

/-- **A step that fails costs its seed and nothing else.** A worker in any state works on its first seed
if it has made no step yet, else on the seed behind its last one. If that gives no candidate, be it that
the key primitive fails or that the public key has no address, the search is afterwards as it was but
for the seed of the worker. So the `k`-th of any calls, failed or not, works on the seed `k` behind the
one of the first call. The worker counts the candidates that were made, and it publishes those that beat
all of these before them and the one that it had kept: the records among them, if it had kept none. -/
theorem attempts_spend_seeds {s : Search Candidate} {i : Nat} {w : Worker Candidate}
    (hw : s.workers[i]? = some w) (draw : Seed) :
    (w.fresh = true → w.nextSeed draw = w.seed.getD draw)
    ∧ (∀ last, w.fresh = false → w.seed = some last →
        (w.nextSeed draw).toNat = (last.toNat + 1) % 2 ^ 256)
    ∧ (∀ primitive : KeyPrimitive,
        ((∃ e, (s.step i (candidates primitive draw) none).1 = some (.error e)) ↔
          (∃ detail, primitive (w.nextSeed draw).bytes = .error detail)
            ∨ ∃ publicKey, primitive (w.nextSeed draw).bytes = .ok publicKey
              ∧ (publicKey.length ≠ 32 ∨ 127 < zeroRun (Bytes.bits publicKey)))
        ∧ ∀ e, (s.step i (candidates primitive draw) none).1 = some (.error e) →
            (s.step i (candidates primitive draw) none).2
              = { s with workers :=
                    s.workers.set i { w with seed := some (w.nextSeed draw), fresh := false } })
    ∧ ∀ primitives : List KeyPrimitive, ∃ outcomes after w',
        s.attempts i draw primitives = (outcomes, after)
        ∧ outcomes = primitives.mapIdx (fun k primitive => some (Candidate.ofSeed primitive
            (Bytes.ofNat 32 (((w.nextSeed draw).toNat + k) % 2 ^ 256))))
        ∧ after.workers[i]? = some w'
        ∧ w'.generated = w.generated + (finds outcomes).length
        ∧ ∃ published, published = recordsAfter s.settings.byBlocks w.best.toList (finds outcomes)
          ∧ after.channel.items = s.channel.items ++ published.map some
          ∧ w'.published = w.published + published.length
          ∧ w'.best = published.getLast?.or w.best
          ∧ w'.bestScore = (published.getLast?.map Candidate.score).or w.bestScore := by
  refine ⟨fun hfresh => ?_, fun last hfresh hlast => ?_, fun primitive => ⟨?_, fun e he => ?_⟩,
    fun primitives => ?_⟩
  · unfold Worker.nextSeed
    cases w.seed with
    | none => rfl
    | some seed => exact if_pos hfresh
  · unfold Worker.nextSeed
    rw [hlast]
    dsimp only
    rw [hfresh, if_neg Bool.false_ne_true, Seed.toNat_increment]
  · simp only [step_candidates_fst hw, Option.some.injEq]
    exact Candidate.exists_ofSeed_eq_error_iff
  · rw [step_candidates_fst hw, Option.some.injEq] at he
    exact step_candidates_of_error hw he
  · obtain ⟨w', hw', hsince, hitems⟩ :=
      steps_since hw (primitives.map fun primitive => candidates primitive draw)
    refine ⟨_, _, w', rfl, attempts_fst hw draw primitives, hw', hsince.generated, _, rfl, hitems,
      hsince.published, ?_, hsince.bestScore⟩
    rw [hsince.best]
    exact (getLast?_recordsAfter w.best _).symm

/-- A worker that begins at the last seed. -/
def lastSeedWorker : Worker Candidate := Worker.start 0 (some ⟨List.replicate 32 0xff, by decide⟩)

/-- Key primitives for four calls: the first fails, and the third gives a key without a one bit. -/
def twoFailures : List KeyPrimitive :=
  [fun _ => .error "boom", .ed25519, fun _ => .ok (List.replicate 32 0), .ed25519]

/-- Of four calls the second and the fourth make a candidate, and only the first of these is published:
that of the seed zero. -/
theorem attempts_spend_seeds_twoFailures :
    ∃ w, ({ Search.new Settings.defaults with workers := [lastSeedWorker] }.attempts 0 Seed.zero
          twoFailures).2.workers[0]? = some w
      ∧ w.generated = 2 ∧ w.published = 1 ∧ w.bestScore = some ⟨2, 0⟩ := by
  have hw : [lastSeedWorker][0]? = some lastSeedWorker := rfl
  obtain ⟨-, -, -, hcalls⟩ := @attempts_spend_seeds
    { Search.new Settings.defaults with workers := [lastSeedWorker] } 0 lastSeedWorker hw Seed.zero
  obtain ⟨outcomes, after, w, hafter, houtcomes, hw', hgenerated, _, rfl, -, hpublished, -, hscore⟩ :=
    hcalls twoFailures
  have hfound : (finds outcomes).length = 2
      ∧ (recordsAfter false [] (finds outcomes)).length = 1
      ∧ (recordsAfter false [] (finds outcomes)).getLast?.map Candidate.score = some ⟨2, 0⟩ := by
    rw [houtcomes]
    decide +kernel
  refine ⟨w, by rw [hafter]; exact hw', ?_, ?_, ?_⟩
  · exact hgenerated.trans (congrArg (0 + ·) hfound.1)
  · exact hpublished.trans (congrArg (0 + ·) hfound.2.1)
  · exact hscore.trans (congrArg (Option.or · none) hfound.2.2)

end Search

end KeySearch
