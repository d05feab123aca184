import KeySearch.Proofs.Moves
import KeySearch.Proofs.CandidateScores

/-!
# The loop of a worker from its call to its end

A worker's loop looks whether it is to stop, makes a step, and looks again. Anything may happen in
between: other workers act, the search polls, and a stop is asked for. `Search.watch` follows one
worker through all of this act by act, and keeps what its steps gave and what came out of its loop.

`Watched.act_cases` says what one act does to the worker. From it come the invariants: while no stop
and no failure has ended the loop the worker only counts (`Account`), a stop that was asked for lets
at most the step end that has begun (`Bounded`), and what is left of a worker at its end stays so.
-/

set_option autoImplicit false

namespace KeySearch

/-- The states in the order in which a worker goes through them. -/
def WorkerState.place : WorkerState → Nat
  | .running => 0
  | .stopRequested => 1
  | .stopped => 2

theorem WorkerState.ne_running_of_place_le {a b : WorkerState} (h : a.place ≤ b.place)
    (ha : a ≠ .running) : b ≠ .running := by
  rintro rfl
  cases a with
  | running => exact ha rfl
  | stopRequested | stopped => exact absurd h (by decide)

/-- A source of candidates whose key primitive gives keys of 32 bytes, or fails. -/
def KeySource.Sized (source : KeySource Candidate) : Prop :=
  ∃ primitive : KeyPrimitive, (∀ seed key, primitive seed = .ok key → key.length = 32)
    ∧ source = Search.candidates primitive source.draw

/-- Keys of the right size fail for no other reason than a search knows. -/
theorem KeySource.Sized.isSearchFailure {source : KeySource Candidate} (h : source.Sized)
    {seed : Seed} {e : Candidate.Error} (hmake : source.make seed = .error e) :
    Worker.isSearchFailure e = true := by
  obtain ⟨primitive, hsize, hsource⟩ := h
  rw [hsource] at hmake
  change Candidate.ofSeed primitive seed.bytes = .error e at hmake
  unfold Candidate.ofSeed KeyPair.derive at hmake
  cases hkey : primitive seed.bytes with
  | error detail =>
      rw [hkey] at hmake
      cases hmake
      rfl
  | ok key =>
      rw [hkey] at hmake
      dsimp only at hmake
      unfold Candidate.ofKeys at hmake
      cases haddress : Address.ofPublicKey key with
      | ok a =>
          rw [haddress] at hmake
          cases hmake
      | error fault =>
          rw [haddress] at hmake
          cases hmake
          cases fault with
          | tooManyOnes ones => rfl
          | wrongSize actual =>
              exact absurd (hsize _ _ hkey) (Address.ofPublicKey_eq_wrongSize_iff.mp haddress).1

variable {α : Type} [Scored α]

/-! ## What a worker does -/

namespace Worker

/-- A worker whose loop was not called yet. -/
structure Waiting (w : Worker α) : Prop where
  state : w.state ≠ .stopped
  idle : w.active = false
  failure : w.failure = none

/-- A worker is left alone or asked to stop: nothing but its state changes, and only forward. -/
def Asked (w w' : Worker α) : Prop :=
  ∃ state, w' = { w with state := state } ∧ w.state.place ≤ state.place
    ∧ (state = .stopped ↔ w.state = .stopped)

/-- What is left of a worker whose loop has ended: its seed is all zeros and its best find is gone. -/
structure Wiped (w : Worker α) : Prop where
  seed : ∀ seed ∈ w.seed, seed.bytes = List.replicate 32 0
  best : w.best = none
  exited : w.exited = true

section
omit [Scored α]

theorem waiting_start (id : Int) (seed : Option Seed) : (start id seed : Worker α).Waiting :=
  ⟨by simp [start], rfl, rfl⟩

theorem asked_rfl {w : Worker α} : w.Asked w := ⟨w.state, rfl, le_rfl, Iff.rfl⟩

theorem asked_requestStop (w : Worker α) : w.Asked w.requestStop := by
  unfold requestStop
  by_cases hrunning : w.state = .running
  · rw [if_pos hrunning]
    exact ⟨.stopRequested, rfl, hrunning ▸ by decide, hrunning ▸ by decide⟩
  · rw [if_neg hrunning]
    exact asked_rfl

theorem stopping_of_stopped {w : Worker α} (h : w.state = .stopped) (cancelled : Bool) :
    w.stopping cancelled = true := by
  simp [stopping, h]

theorem wiped_finish (w : Worker α) : w.finish.worker.Wiped := by
  refine ⟨?_, rfl, rfl⟩
  intro seed hseed
  obtain ⟨old, -, rfl⟩ := Option.map_eq_some_iff.mp hseed
  rfl

end

variable {byBlocks : Bool}

/-- A find counts, and neither the state nor a failure changes by it. -/
theorem accept_frame (w : Worker α) (find : α) :
    (w.accept byBlocks find).worker.state = w.state
      ∧ (w.accept byBlocks find).worker.active = w.active
      ∧ (w.accept byBlocks find).worker.failure = w.failure
      ∧ (w.accept byBlocks find).worker.generated = w.generated + 1 := by
  unfold accept
  dsimp only
  split <;> exact ⟨rfl, rfl, rfl, rfl⟩

/-- A step does not touch the state of the worker. -/
theorem state_step (w : Worker α) (source : KeySource α) :
    (w.step byBlocks source).2.worker.state = w.state := by
  cases hmake : source.make (w.nextSeed source.draw) with
  | error e => rw [step_of_error hmake, moveOn]
  | ok find => rw [step_of_ok hmake, (accept_frame _ _).1, moveOn]

/-- A step of the loop that makes a find goes on with the loop. -/
theorem advance_of_ok {w : Worker α} {source : KeySource α} {find : α}
    (h : source.make (w.nextSeed source.draw) = .ok find) :
    w.advance byBlocks source
      = (none, accept { w with seed := some (w.nextSeed source.draw), fresh := false }
        byBlocks find) := by
  simp only [advance, step, h]

/-- A step of the loop that fails ends the loop, and what the worker has found is left alone. -/
theorem advance_of_error {w : Worker α} {source : KeySource α} {e : Candidate.Error}
    (h : source.make (w.nextSeed source.draw) = .error e) :
    (w.advance byBlocks source).1 = (if isSearchFailure e then none else some e)
      ∧ (w.advance byBlocks source).2.published = none
      ∧ (w.advance byBlocks source).2.worker = { w with
          seed := some Seed.zero
          fresh := false
          failure := if isSearchFailure e then some e else w.failure
          best := none
          state := .stopped
          active := false } := by
  simp only [advance, step, h, Effect.andThen, fail]
  refine ⟨trivial, trivial, ?_⟩
  split <;> rfl

end Worker

/-! ## A worker and what happens around it -/

namespace Search

/-- One thing that happens while worker `i` of a search is watched. -/
inductive Act (α : Type)
  /-- The worker's loop is called, unless it is under way. -/
  | run
  /-- The loop looks whether it is to stop. If so it ends, else it may make a step. -/
  | look
  /-- The loop makes the step that it may make. -/
  | step (source : KeySource α)
  /-- A step is called from outside of the loop. -/
  | single (source : KeySource α)
  /-- Anything else, such as a request to stop or a wait until the worker has exited. The loop of the
  worker goes on by the acts above alone. -/
  | other (m : Move α)

/-- Whether a move makes the loop of worker `i` go on. -/
def Move.drives (i : Nat) : Move α → Bool
  | .event (.launch j) | .event (.turn j _ _) | .event (.step j _ _) => i == j
  | _ => false

/-- A search one worker of which is watched. -/
structure Watched (α : Type) where
  search : Search α
  /-- Whether the loop has looked and may make a step. -/
  cleared : Bool
  /-- What the steps of the loop gave, the earliest first. -/
  outcomes : List (Except Candidate.Error α)
  /-- The failures that came out of the loop. -/
  raised : List Candidate.Error

/-- What is watched after a step of the loop of the worker, which is `w`. -/
def Watched.stepped (i : Nat) (t : Watched α) (w : Worker α) (source : KeySource α) : Watched α :=
  let (failure, effect) := w.advance t.search.settings.byBlocks source
  { search := t.search.absorb i effect
    cleared := false
    outcomes := t.outcomes ++ [(w.step t.search.settings.byBlocks source).1]
    raised := t.raised ++ failure.toList }

/-- What is watched after the loop of the worker, which is `w`, has gone on. -/
def Watched.loop (i : Nat) (t : Watched α) (w : Worker α) : Act α → Watched α
  | .run => if w.active then t else { t with search := t.search.absorb i w.launch }
  | .look =>
    if !w.active || t.cleared then t
    else if w.stopping t.search.cancelled then { t with search := t.search.absorb i w.finish }
    else { t with cleared := true }
  | .step source => if w.active && t.cleared then t.stepped i w source else t
  | _ => t

/-- What is watched after an act. -/
def Watched.act (i : Nat) (t : Watched α) : Act α → Watched α
  | .single source => { t with search := (t.search.step i source none).2 }
  | .other m => if m.drives i then t else { t with search := t.search.move m }
  | a =>
    match t.search.workers[i]? with
    | none => t
    | some w => t.loop i w a

/-- Worker `i` of a search, watched through some acts. -/
def watch (s : Search α) (i : Nat) (acts : List (Act α)) : Watched α :=
  acts.foldl (Watched.act i) ⟨s, false, [], []⟩

/-! ## What an act does to the worker -/

variable {i : Nat} {s : Search α} {w : Worker α}

/-- Worker `i`, which is `w` in one search, is left alone or asked to stop on the way to another, and
a stop of the whole search is not taken back. -/
def Spares (i : Nat) (w : Worker α) (s t : Search α) : Prop :=
  ∃ w', t.workers[i]? = some w' ∧ w.Asked w' ∧ (s.cancelled = true → t.cancelled = true)

section
omit [Scored α]

theorem spares_of_same {t : Search α} (hw : t.workers[i]? = some w)
    (hcancelled : t.cancelled = s.cancelled) : Spares i w s t :=
  ⟨w, hw, Worker.asked_rfl, fun h => hcancelled.trans h⟩

/-- What another worker does is taken up at its own place. -/
theorem spares_absorb (hw : s.workers[i]? = some w) {j : Nat} (h : (i == j) = false)
    (effect : Worker.Effect α) : Spares i w s (s.absorb j effect) := by
  refine spares_of_same ?_ rfl
  show (s.workers.set j effect.worker)[i]? = some w
  rw [List.getElem?_set_ne (Ne.symm (by simpa using h)), hw]

theorem spares_requestStop (hw : s.workers[i]? = some w) (j : Nat) :
    Spares i w s (s.requestStop j) := by
  have hmodify : (s.requestStop j).workers[i]?
      = (fun w => if j = i then w.requestStop else w) <$> s.workers[i]? :=
    List.getElem?_modify ..
  rw [hw] at hmodify
  by_cases hij : j = i
  · exact ⟨w.requestStop, by simpa [hij] using hmodify, w.asked_requestStop, id⟩
  · exact ⟨w, by simpa [hij] using hmodify, Worker.asked_rfl, id⟩

theorem Spares.arrive {t : Search α} (h : Spares i w s t) {j : Nat} (hj : (i == j) = false)
    (arrival : Option Signal) : Spares i w s (t.arrive j arrival) := by
  obtain ⟨w', hw', hasked, hcancelled⟩ := h
  rcases arrival with _ | _ | _
  · exact ⟨w', hw', hasked, hcancelled⟩
  · refine ⟨w', ?_, hasked, hcancelled⟩
    show (t.workers.modify j Worker.requestStop)[i]? = some w'
    rw [List.getElem?_modify_ne Worker.requestStop _ (Ne.symm (by simpa using hj)), hw']
  · exact ⟨w', hw', hasked, fun _ => rfl⟩

end

theorem spares_poll (hw : s.workers[i]? = some w) : Spares i w s s.poll.2 := by
  unfold poll
  split
  · exact spares_of_same hw rfl
  · exact spares_of_same hw rfl
  · next find channel _ =>
    obtain ⟨reports, hoffer⟩ := offer_eq { s with channel := channel } find
    rw [hoffer]
    exact spares_of_same hw rfl

/-- The loops of other workers, polls, time and requests leave the worker alone or ask it to stop. -/
theorem spares_move (hw : s.workers[i]? = some w) {m : Move α} (hm : m.drives i = false) :
    Spares i w s (s.move m) := by
  cases m with
  | poll => exact spares_poll hw
  | stop =>
      refine ⟨w.requestStop, ?_, w.asked_requestStop, fun _ => rfl⟩
      show (s.workers.map Worker.requestStop)[i]? = _
      rw [List.getElem?_map, hw]
      rfl
  | event e =>
      cases e with
      | launch j =>
          show Spares i w s (s.launch j)
          unfold launch
          split
          · exact spares_of_same hw rfl
          · exact spares_absorb hw hm _
      | turn j source arrival =>
          show Spares i w s (s.turn j source arrival).2
          unfold turn
          split
          · exact spares_of_same hw rfl
          · dsimp only
            split
            · exact (spares_absorb hw hm _).arrive hm arrival
            · exact spares_absorb hw hm _
      | step j source arrival =>
          show Spares i w s (s.advance j source arrival).2
          unfold advance
          split
          · exact spares_of_same hw rfl
          · dsimp only
            split
            · exact spares_of_same hw rfl
            · exact (spares_absorb hw hm _).arrive hm arrival
      | request j => exact spares_requestStop hw j
      | cancel => exact ⟨w, hw, Worker.asked_rfl, fun _ => rfl⟩
      | idle ms => exact spares_of_same hw rfl

/-- What an act does to worker `i`, which is `w` before it. -/
inductive Watched.Does (i : Nat) (t : Watched α) (w : Worker α) : Act α → Watched α → Worker α → Prop
  /-- Nothing, since its loop is not where the act belongs. -/
  | rests {a : Act α} : Does i t w a t w
  /-- Something else happens. -/
  | others {m : Move α} {search : Search α} {w' : Worker α} (hasked : w.Asked w')
      (hcancelled : t.search.cancelled = true → search.cancelled = true) :
      Does i t w (.other m) { t with search := search } w'
  /-- Its loop begins. -/
  | begins (hidle : w.active = false) :
      Does i t w .run { t with search := t.search.absorb i w.launch } w.launch.worker
  /-- Its loop sees no stop. -/
  | clears (hactive : w.active = true) (hcleared : t.cleared = false)
      (hgoing : w.stopping t.search.cancelled = false) :
      Does i t w .look { t with cleared := true } w
  /-- Its loop sees a stop and ends. -/
  | ends (hactive : w.active = true) (hcleared : t.cleared = false)
      (hstop : w.stopping t.search.cancelled = true) :
      Does i t w .look { t with search := t.search.absorb i w.finish } w.finish.worker
  /-- Its loop makes a step, which may fail. -/
  | steps {source : KeySource α} (hactive : w.active = true) (hcleared : t.cleared = true) :
      Does i t w (.step source) (t.stepped i w source)
        (w.advance t.search.settings.byBlocks source).2.worker

/-- All that an act other than a single step can do to the worker. -/
theorem Watched.act_cases {t : Watched α} (hw : t.search.workers[i]? = some w) {a : Act α}
    (ha : ∀ source, a ≠ .single source) :
    ∃ w', (t.act i a).search.workers[i]? = some w' ∧ t.Does i w a (t.act i a) w' := by
  have hself : ∀ effect, (t.search.absorb i effect).workers[i]? = some effect.worker :=
    fun effect => getElem?_absorb_self hw effect
  have hrests : t.act i a = t →
      ∃ w', (t.act i a).search.workers[i]? = some w' ∧ t.Does i w a (t.act i a) w' := by
    intro hsame
    rw [hsame]
    exact ⟨w, hw, .rests⟩
  cases a with
  | single source => exact absurd rfl (ha source)
  | other m =>
      cases hm : m.drives i with
      | true => exact hrests (by simp [act, hm])
      | false =>
          have hact : t.act i (.other m) = { t with search := t.search.move m } := by simp [act, hm]
          obtain ⟨w', hw', hasked, hcancelled⟩ := spares_move hw hm
          rw [hact]
          exact ⟨w', hw', .others hasked hcancelled⟩
  | run =>
      cases hactive : w.active with
      | true => exact hrests (by simp [act, loop, hw, hactive])
      | false =>
          have hact : t.act i .run = { t with search := t.search.absorb i w.launch } := by
            simp [act, loop, hw, hactive]
          rw [hact]
          exact ⟨_, hself _, .begins hactive⟩
  | look =>
      by_cases hmay : w.active = true ∧ t.cleared = false
      · obtain ⟨hactive, hcleared⟩ := hmay
        cases hstop : w.stopping t.search.cancelled with
        | true =>
            have hact : t.act i .look = { t with search := t.search.absorb i w.finish } := by
              simp [act, loop, hw, hactive, hcleared, hstop]
            rw [hact]
            exact ⟨_, hself _, .ends hactive hcleared hstop⟩
        | false =>
            have hact : t.act i .look = { t with cleared := true } := by
              simp [act, loop, hw, hactive, hcleared, hstop]
            rw [hact]
            exact ⟨w, hw, .clears hactive hcleared hstop⟩
      · exact hrests (by cases hactive : w.active <;> simp_all [act, loop])
  | step source =>
      by_cases hmay : w.active = true ∧ t.cleared = true
      · obtain ⟨hactive, hcleared⟩ := hmay
        have hact : t.act i (.step source) = t.stepped i w source := by
          simp [act, loop, hw, hactive, hcleared]
        rw [hact]
        exact ⟨_, hself _, .steps hactive hcleared⟩
      · exact hrests (by cases hactive : w.active <;> simp_all [act, loop])

/-! ## Invariants of the loop -/

/-- The finds that steps made. -/
def made (outcomes : List (Except Candidate.Error α)) : List α :=
  outcomes.filterMap Except.toOption

/-- The first failure of steps, if one failed. -/
def firstFailure (outcomes : List (Except Candidate.Error α)) : Option Candidate.Error :=
  outcomes.findSome? fun
    | .error e => some e
    | .ok _ => none

/-- How a watched worker stands to what its steps gave, when it began with a number of keys. A step
that fails ends the loop, and once the loop has ended it makes no step. -/
structure Watched.Account (before : Nat) (t : Watched α) (w : Worker α) : Prop where
  raised : t.raised = []
  generated : w.generated = before + (made t.outcomes).length
  failure : w.failure = firstFailure t.outcomes
  going : w.state ≠ .stopped → firstFailure t.outcomes = none
  wiped : w.state = .stopped → w.Wiped
  halted : w.state = .stopped → t.cleared = false

/-- The loop of a worker was called: it is under way or has ended. -/
def Called (w : Worker α) : Prop := w.active = true ∨ w.state = .stopped

/-- The steps that a watched worker has made, and the one that it may make. -/
def Watched.stepsBegun (t : Watched α) : Nat := t.outcomes.length + if t.cleared then 1 else 0

/-- A stop was asked for, and no more steps than so many have begun. -/
structure Watched.Bounded (steps : Nat) (t : Watched α) (w : Worker α) : Prop where
  stopping : w.stopping t.search.cancelled = true
  bound : t.stepsBegun ≤ steps

/-- The loop of a worker has ended, and the worker counts and shows what another one does. -/
structure Watched.Over (old : Worker α) (outcomes : List (Except Candidate.Error α))
    (t : Watched α) (w : Worker α) : Prop where
  state : w.state = .stopped
  cleared : t.cleared = false
  outcomes : t.outcomes = outcomes
  generated : w.generated = old.generated
  published : w.published = old.published
  failure : w.failure = old.failure
  bestScore : w.bestScore = old.bestScore

section
variable {t t' : Watched α} {w w' : Worker α} {a : Act α}

/-- What every act keeps is kept by all acts together. -/
theorem exists_foldl_act {P : Watched α → Worker α → Prop} {acts : List (Act α)}
    (hloop : ∀ source, .single source ∉ acts)
    (hkeep : ∀ t t' w w', ∀ a ∈ acts, t.Does i w a t' w' → P t w → P t' w')
    (hw : t.search.workers[i]? = some w) (h : P t w) :
    ∃ w', (acts.foldl (Watched.act i) t).search.workers[i]? = some w'
      ∧ P (acts.foldl (Watched.act i) t) w' := by
  induction acts generalizing t w with
  | nil => exact ⟨w, hw, h⟩
  | cons a rest ih =>
      have hsingle : ∀ source, a ≠ .single source := by
        intro source heq
        exact hloop source (by simp [heq])
      obtain ⟨w', hw', hdoes⟩ := Watched.act_cases hw hsingle
      exact ih (fun source hmem => hloop source (List.mem_cons_of_mem a hmem))
        (fun t t' w w' a' ha' => hkeep t t' w w' a' (List.mem_cons_of_mem a ha')) hw'
        (hkeep _ _ _ _ a List.mem_cons_self hdoes h)

omit [Scored α] in
theorem firstFailure_append (front back : List (Except Candidate.Error α)) :
    firstFailure (front ++ back) = (firstFailure front).or (firstFailure back) := by
  rw [firstFailure, List.findSome?_append]
  rfl

theorem Watched.Account.does {before : Nat} (h : t.Account before w)
    (hsized : ∀ source, a = .step source → ∀ seed e, source.make seed = .error e →
      Worker.isSearchFailure e = true)
    (hdoes : t.Does i w a t' w') : t'.Account before w' := by
  cases hdoes with
  | rests => exact h
  | others hasked _ =>
      obtain ⟨state, rfl, -, hstopped⟩ := hasked
      refine ⟨h.raised, h.generated, h.failure, fun hne => h.going (mt hstopped.mpr hne),
        fun heq => ?_, fun heq => h.halted (hstopped.mp heq)⟩
      have hwiped := h.wiped (hstopped.mp heq)
      obtain rfl : state = .stopped := heq
      exact ⟨hwiped.seed, hwiped.best, rfl⟩
  | begins _ =>
      refine ⟨h.raised, h.generated, h.failure, h.going, fun heq => ?_, h.halted⟩
      have hwiped := h.wiped heq
      exact ⟨hwiped.seed, hwiped.best, hwiped.exited⟩
  | clears _ _ hgoing =>
      refine ⟨h.raised, h.generated, h.failure, h.going, h.wiped, fun heq => ?_⟩
      rw [Worker.stopping_of_stopped heq] at hgoing
      cases hgoing
  | ends _ hcleared _ =>
      exact ⟨h.raised, h.generated, h.failure, fun hne => absurd rfl hne,
        fun _ => w.wiped_finish, fun _ => hcleared⟩
  | @steps source _ hcleared =>
      -- the loop has looked before this step, so it has not ended and no earlier step has failed
      have hstate : w.state ≠ .stopped := by
        intro heq
        rw [h.halted heq] at hcleared
        cases hcleared
      have hnone := h.going hstate
      unfold Watched.stepped
      rw [Worker.step_fst]
      cases hmake : source.make (w.nextSeed source.draw) with
      | ok find =>
          obtain ⟨hkept, -, hfailure, hgenerated⟩ :=
            @Worker.accept_frame _ _ t.search.settings.byBlocks
              { w with seed := some (w.nextSeed source.draw), fresh := false } find
          rw [Worker.advance_of_ok hmake]
          refine ⟨by simp [h.raised], ?_, ?_, fun _ => ?_, fun heq => absurd (hkept.symm.trans heq) hstate,
            fun _ => rfl⟩
          · rw [hgenerated, h.generated]
            simp [made, Except.toOption, Nat.add_assoc]
          · rw [hfailure, h.failure, firstFailure_append]
            simp [firstFailure]
          · rw [firstFailure_append, hnone]
            rfl
      | error e =>
          obtain ⟨hraised, -, hworker⟩ :=
            @Worker.advance_of_error _ _ t.search.settings.byBlocks w source e hmake
          have hsearch := hsized source rfl _ e hmake
          rw [hsearch, if_pos rfl] at hraised
          dsimp only
          rw [hworker, hraised, hsearch]
          refine ⟨by simp [h.raised], ?_, ?_, fun hne => absurd rfl hne, fun _ => ⟨?_, rfl, rfl⟩,
            fun _ => rfl⟩
          · rw [h.generated]
            simp [made, Except.toOption]
          · rw [firstFailure_append, hnone]
            rfl
          · rintro seed ⟨⟩
            rfl

theorem Called.does (h : Called w) (hdoes : t.Does i w a t' w') : Called w' := by
  cases hdoes with
  | rests => exact h
  | others hasked _ =>
      obtain ⟨state, rfl, -, hstopped⟩ := hasked
      exact h.imp_right hstopped.mpr
  | begins _ => exact .inl rfl
  | clears hactive _ _ => exact .inl hactive
  | ends _ _ _ => exact .inr rfl
  | @steps source hactive _ =>
      cases hmake : source.make (w.nextSeed source.draw) with
      | ok find =>
          rw [Worker.advance_of_ok hmake]
          exact .inl ((Worker.accept_frame _ find).2.1.trans hactive)
      | error e =>
          rw [(Worker.advance_of_error hmake).2.2]
          exact .inr rfl

/-- A call of the loop makes it go on, if it is not under way. -/
theorem active_run (hw : t.search.workers[i]? = some w) :
    ∃ w', (t.act i .run).search.workers[i]? = some w' ∧ w'.active = true := by
  cases hactive : w.active with
  | true => exact ⟨w, by simp [Watched.act, Watched.loop, hw, hactive], hactive⟩
  | false =>
      refine ⟨w.launch.worker, ?_, rfl⟩
      have hself := getElem?_absorb_self hw w.launch
      simpa [Watched.act, Watched.loop, hw, hactive] using hself

theorem Watched.Bounded.does {steps : Nat} (h : t.Bounded steps w) (hdoes : t.Does i w a t' w') :
    t'.Bounded steps w' := by
  obtain ⟨hstop, hbound⟩ := h
  cases hdoes with
  | rests => exact ⟨hstop, hbound⟩
  | others hasked hcancelled =>
      obtain ⟨state, rfl, hle, -⟩ := hasked
      refine ⟨?_, hbound⟩
      unfold Worker.stopping at hstop ⊢
      rw [Bool.or_eq_true, bne_iff_ne] at hstop ⊢
      exact hstop.imp hcancelled (WorkerState.ne_running_of_place_le hle)
  | begins _ => exact ⟨hstop, hbound⟩
  | clears _ _ hgoing =>
      rw [hstop] at hgoing
      cases hgoing
  | ends _ _ _ => exact ⟨Worker.stopping_of_stopped rfl _, hbound⟩
  | @steps source _ hcleared =>
      -- the step was counted as one that may be made, and now it is counted as made
      have hless : (t.stepped i w source).stepsBegun ≤ steps := by
        simp only [stepsBegun, hcleared, if_true] at hbound
        simpa [stepsBegun, stepped] using hbound
      refine ⟨?_, hless⟩
      show Worker.stopping _ t.search.cancelled = true
      cases hmake : source.make (w.nextSeed source.draw) with
      | ok find =>
          rw [Worker.advance_of_ok hmake]
          unfold Worker.stopping at hstop ⊢
          rw [(Worker.accept_frame _ find).1]
          exact hstop
      | error e =>
          rw [(Worker.advance_of_error hmake).2.2]
          exact Worker.stopping_of_stopped rfl _

theorem Watched.Over.does {old : Worker α} {outcomes : List (Except Candidate.Error α)}
    (h : t.Over old outcomes w) (hdoes : t.Does i w a t' w') : t'.Over old outcomes w' := by
  cases hdoes with
  | rests => exact h
  | others hasked _ =>
      obtain ⟨state, rfl, -, hstopped⟩ := hasked
      exact ⟨hstopped.mpr h.state, h.cleared, h.outcomes, h.generated, h.published, h.failure,
        h.bestScore⟩
  | begins _ =>
      exact ⟨h.state, h.cleared, h.outcomes, h.generated, h.published, h.failure, h.bestScore⟩
  | clears _ _ hgoing =>
      rw [Worker.stopping_of_stopped h.state] at hgoing
      cases hgoing
  | ends _ _ _ =>
      exact ⟨rfl, h.cleared, h.outcomes, h.generated, h.published, h.failure, h.bestScore⟩
  | steps _ hcleared =>
      rw [h.cleared] at hcleared
      cases hcleared

omit [Scored α] in
theorem channel_absorb_of_silent (s : Search α) (i : Nat) {effect : Worker.Effect α}
    (h : effect.published = none) : (s.absorb i effect).channel = s.channel := by
  simp [absorb, h]

/-- An act of the loop after which the worker has ended takes nothing from the channel and adds nothing
to it, and the score that the worker shows stays. -/
theorem Watched.Does.keeps {before : Nat} (haccount : t.Account before w)
    (hdoes : t.Does i w a t' w') (hother : ∀ m, a ≠ .other m) (hstopped : w'.state = .stopped) :
    t'.search.channel = t.search.channel ∧ w'.bestScore = w.bestScore
      ∧ w'.published = w.published := by
  cases hdoes with
  | rests => exact ⟨rfl, rfl, rfl⟩
  | others _ _ => exact absurd rfl (hother _)
  | begins _ => exact ⟨rfl, rfl, rfl⟩
  | clears _ _ _ => exact ⟨rfl, rfl, rfl⟩
  | ends _ _ _ => exact ⟨rfl, rfl, rfl⟩
  | @steps source _ hcleared =>
      cases hmake : source.make (w.nextSeed source.draw) with
      | ok find =>
          -- a find leaves the state, and a stopped worker makes no step
          rw [Worker.advance_of_ok hmake, (Worker.accept_frame _ find).1] at hstopped
          rw [haccount.halted hstopped] at hcleared
          cases hcleared
      | error e =>
          obtain ⟨-, hsilent, hworker⟩ :=
            @Worker.advance_of_error _ _ t.search.settings.byBlocks w source e hmake
          rw [hworker]
          exact ⟨channel_absorb_of_silent t.search i hsilent, rfl, rfl⟩

theorem Watched.Does.place_le (hdoes : t.Does i w a t' w') :
    w.state.place ≤ w'.state.place := by
  have htop : ∀ state : WorkerState, state.place ≤ WorkerState.stopped.place := by
    intro state
    cases state <;> decide
  cases hdoes with
  | rests => exact le_rfl
  | others hasked _ =>
      obtain ⟨state, rfl, hle, -⟩ := hasked
      exact hle
  | begins _ => exact le_rfl
  | clears _ _ _ => exact le_rfl
  | ends _ _ _ => exact htop _
  | @steps source _ _ =>
      cases hmake : source.make (w.nextSeed source.draw) with
      | ok find => rw [Worker.advance_of_ok hmake, (Worker.accept_frame _ find).1]
      | error e =>
          rw [(Worker.advance_of_error hmake).2.2]
          exact htop _

/-- Every act moves the state forward or leaves it, single steps included. -/
theorem place_le_foldl (hw : t.search.workers[i]? = some w) (acts : List (Act α)) :
    ∃ w', (acts.foldl (Watched.act i) t).search.workers[i]? = some w'
      ∧ w.state.place ≤ w'.state.place := by
  induction acts generalizing t w with
  | nil => exact ⟨w, hw, le_rfl⟩
  | cons a rest ih =>
      have hact : ∃ w₁, (t.act i a).search.workers[i]? = some w₁
          ∧ w.state.place ≤ w₁.state.place := by
        -- a single step goes round the loop, so it is none of the cases of `Does`
        by_cases hsingle : ∃ source, a = .single source
        · obtain ⟨source, rfl⟩ := hsingle
          refine ⟨(w.step t.search.settings.byBlocks source).2.worker, ?_, ?_⟩
          · show (t.search.step i source none).2.workers[i]? = _
            rw [Search.step, hw]
            exact getElem?_absorb_self hw _
          · rw [Worker.state_step]
        · obtain ⟨w₁, hw₁, hdoes⟩ := Watched.act_cases hw (not_exists.mp hsingle)
          exact ⟨w₁, hw₁, hdoes.place_le⟩
      obtain ⟨w₁, hw₁, hle₁⟩ := hact
      obtain ⟨w₂, hw₂, hle₂⟩ := ih hw₁
      exact ⟨w₂, hw₂, hle₁.trans hle₂⟩

end

/-! ## From the call of the loop to its end -/

theorem watch_append (s : Search α) (i : Nat) (front back : List (Act α)) :
    s.watch i (front ++ back) = back.foldl (Watched.act i) (s.watch i front) :=
  List.foldl_append

/-- A round of the loop is a look and, if that sees no stop, a step. So the turns of a schedule are
acts. -/
theorem turn_eq_watch (hw : s.workers[i]? = some w) (hactive : w.active = true)
    (source : KeySource α) :
    (s.turn i source none).2 = (s.watch i [.look, .step source]).search := by
  cases hstop : w.stopping s.cancelled with
  | true =>
      have hended := getElem?_absorb_self hw w.finish
      have hidle : w.finish.worker.active = false := rfl
      simp [watch, turn, Worker.turn, Watched.act, Watched.loop, hw, hactive, hstop, hended, hidle,
        arrive]
  | false =>
      simp [watch, turn, Worker.turn, Watched.act, Watched.loop, Watched.stepped, hw, hactive, hstop,
        arrive]

section
variable {s : Search Candidate} {w : Worker Candidate} {acts : List (Act Candidate)}

theorem exists_account (hw : s.workers[i]? = some w) (hwaiting : w.Waiting)
    (hloop : ∀ source, .single source ∉ acts)
    (hsized : ∀ source, .step source ∈ acts → source.Sized) :
    ∃ w', (s.watch i acts).search.workers[i]? = some w'
      ∧ (s.watch i acts).Account w.generated w' := by
  refine exists_foldl_act hloop ?_ hw ⟨rfl, rfl, hwaiting.failure, fun _ => rfl,
    fun heq => absurd heq hwaiting.state, fun _ => rfl⟩
  intro t t' w w' a ha hdoes haccount
  refine haccount.does (fun source hstep seed e hmake => ?_) hdoes
  rw [hstep] at ha
  exact (hsized source ha).isSearchFailure hmake

/-- After a call of its loop a worker is under way or stopped. -/
theorem exists_called (hw : s.workers[i]? = some w) (hloop : ∀ source, .single source ∉ acts)
    (hrun : .run ∈ acts) :
    ∃ w', (s.watch i acts).search.workers[i]? = some w' ∧ Called w' := by
  obtain ⟨front, back, rfl⟩ := List.append_of_mem hrun
  obtain ⟨w₁, hw₁, -⟩ := place_le_foldl (t := ⟨s, false, [], []⟩) hw front
  obtain ⟨w₂, hw₂, hactive⟩ := active_run hw₁
  have hback : ∀ source, .single source ∉ back := fun source hmem =>
    hloop source (List.mem_append_right _ (List.mem_cons_of_mem _ hmem))
  have hcalled : Called w₂ := .inl hactive
  rw [watch_append]
  exact exists_foldl_act hback (fun t t' w w' a _ hdoes h => Called.does h hdoes) hw₂ hcalled

end

/-- **However a worker's loop ends, it ends in the same way.** Nothing comes out of it. A failure is
kept, and it is the only one; the keys that were made are counted. Once the loop is called it goes on
until the worker is stopped, with a seed of zeros and no best find. The end and all that is called
afterwards leave the channel and the shown score alone. A stop that was asked for lets no step begin,
and a stopped worker stays as it is. In whatever way it is dealt with, a worker's state only moves
forward. -/
theorem watch_shuts_down {s : Search Candidate} {i : Nat} {w : Worker Candidate}
    (hw : s.workers[i]? = some w) (hwaiting : w.Waiting) {acts : List (Act Candidate)}
    (hloop : ∀ source, .single source ∉ acts)
    (hsized : ∀ source, .step source ∈ acts → source.Sized) :
    (s.watch i acts).raised = []
      ∧ (∃ w', (s.watch i acts).search.workers[i]? = some w'
        ∧ w'.generated = w.generated + (made (s.watch i acts).outcomes).length
        ∧ w'.failure = firstFailure (s.watch i acts).outcomes
        ∧ (w'.failure ≠ none → w'.state = .stopped)
        ∧ (.run ∈ acts → w'.active = true ∨ w'.state = .stopped)
        ∧ (w'.state = .stopped → w'.Wiped))
      ∧ (∀ front a back, acts = front ++ a :: back → (∀ m, a ≠ .other m) →
        ∀ w₁ w₂, (s.watch i front).search.workers[i]? = some w₁ →
          (s.watch i (front ++ [a])).search.workers[i]? = some w₂ → w₂.state = .stopped →
          (s.watch i (front ++ [a])).search.channel = (s.watch i front).search.channel
            ∧ w₂.bestScore = w₁.bestScore ∧ w₂.published = w₁.published)
      ∧ (∀ front back, acts = front ++ back →
        ∀ w₁, (s.watch i front).search.workers[i]? = some w₁ →
          w₁.stopping (s.watch i front).search.cancelled = true →
          (s.watch i acts).outcomes.length ≤ (s.watch i front).stepsBegun)
      ∧ (∀ front back, acts = front ++ back →
        ∀ w₁ w₂, (s.watch i front).search.workers[i]? = some w₁ →
          (s.watch i acts).search.workers[i]? = some w₂ → w₁.state = .stopped →
          (s.watch i acts).Over w₁ (s.watch i front).outcomes w₂)
      ∧ ∀ front back w₁ w₂, (s.watch i front).search.workers[i]? = some w₁ →
        (s.watch i (front ++ back)).search.workers[i]? = some w₂ →
        w₁.state.place ≤ w₂.state.place := by
  -- what holds of all the acts holds of the first ones among them
  have hfront : ∀ {front back : List (Act Candidate)}, acts = front ++ back →
      ∃ w₁, (s.watch i front).search.workers[i]? = some w₁
        ∧ (s.watch i front).Account w.generated w₁ := by
    intro front back hacts
    refine exists_account hw hwaiting (fun source hmem => hloop source ?_)
      fun source hmem => hsized source ?_
    · rw [hacts]
      exact List.mem_append_left _ hmem
    · rw [hacts]
      exact List.mem_append_left _ hmem
  have hback : ∀ {front back : List (Act Candidate)}, acts = front ++ back →
      ∀ source, .single source ∉ back := by
    intro front back hacts source hmem
    exact hloop source (hacts ▸ List.mem_append_right _ hmem)
  obtain ⟨w', hw', haccount⟩ := exists_account hw hwaiting hloop hsized
  refine ⟨haccount.raised, ⟨w', hw', haccount.generated, haccount.failure, ?_, ?_, haccount.wiped⟩,
    ?_, ?_, ?_, ?_⟩
  · intro hfailed
    by_contra hstate
    exact hfailed (haccount.failure.trans (haccount.going hstate))
  · intro hrun
    obtain ⟨w'', hw'', hcalled⟩ := exists_called hw hloop hrun
    rw [Option.some.inj (hw'.symm.trans hw'')]
    exact hcalled
  · intro front a back hacts hother w₁ w₂ hw₁ hw₂ hstopped
    obtain ⟨w₁', hw₁', haccount₁⟩ := hfront hacts
    have hsingle : ∀ source, a ≠ .single source := by
      intro source heq
      exact hback hacts source (by simp [heq])
    obtain ⟨w₂', hw₂', hdoes⟩ := Watched.act_cases hw₁ hsingle
    rw [watch_append] at hw₂ ⊢
    rw [Option.some.inj (hw₁'.symm.trans hw₁)] at haccount₁
    rw [Option.some.inj (hw₂'.symm.trans hw₂)] at hdoes
    exact hdoes.keeps haccount₁ hother hstopped
  · intro front back hacts w₁ hw₁ hstop
    have hbounded : (s.watch i front).Bounded (s.watch i front).stepsBegun w₁ := ⟨hstop, le_rfl⟩
    obtain ⟨w₂, -, hlater⟩ := exists_foldl_act (hback hacts)
      (fun t t' w w' a _ hdoes h => h.does hdoes) hw₁ hbounded
    rw [← watch_append, ← hacts] at hlater
    exact (Nat.le_add_right _ _).trans hlater.bound
  · intro front back hacts w₁ w₂ hw₁ hw₂ hstopped
    obtain ⟨w₁', hw₁', haccount₁⟩ := hfront hacts
    rw [Option.some.inj (hw₁'.symm.trans hw₁)] at haccount₁
    have hover : (s.watch i front).Over w₁ (s.watch i front).outcomes w₁ :=
      ⟨hstopped, haccount₁.halted hstopped, rfl, rfl, rfl, rfl, rfl⟩
    obtain ⟨w₂', hw₂', hlater⟩ := exists_foldl_act (hback hacts)
      (fun t t' w w' a _ hdoes h => h.does hdoes) hw₁ hover
    rw [← watch_append, ← hacts] at hw₂' hlater
    rwa [Option.some.inj (hw₂'.symm.trans hw₂)] at hlater
  · intro front back w₁ w₂ hw₁ hw₂
    obtain ⟨w₂', hw₂', hle⟩ := place_le_foldl hw₁ back
    rw [← watch_append] at hw₂'
    rwa [Option.some.inj (hw₂'.symm.trans hw₂)] at hle

theorem sized_ed25519 (draw : Seed) : (candidates .ed25519 draw).Sized := by
  refine ⟨.ed25519, fun seed key hkey => ?_, rfl⟩
  unfold KeyPrimitive.ed25519 at hkey
  split at hkey
  · rw [← Except.ok.inj hkey, Ed25519.length_publicKey]
  · exact absurd hkey (by simp)

/-- Candidates of a key primitive that fails. -/
def failing : KeySource Candidate := candidates (fun _ => .error "boom") Seed.zero

/-- The worker makes a key. It has looked again when the whole search is asked to stop, its next step
fails, and its loop is called once more. -/
def failingStep : List (Act Candidate) :=
  [.run, .look, .step (candidates .ed25519 Seed.zero), .other .poll, .look, .other (.event .cancel),
    .step failing, .run, .look, .other .stop]

/-- One key counts, the failure is kept, and the worker is stopped without a trace of its seed. -/
theorem watch_shuts_down_failingStep :
    ∃ w, (((Search.new Settings.defaults).begin 2).watch 0 failingStep).search.workers[0]? = some w
      ∧ w.state = .stopped ∧ w.generated = 1 ∧ w.failure = some (.derivation ⟨"boom"⟩) ∧ w.Wiped := by
  have hw : ((Search.new Settings.defaults).begin 2 : Search Candidate).workers[0]?
      = some (Worker.start 0 none) := rfl
  have hsized : ∀ source, .step source ∈ failingStep → source.Sized := by
    intro source hmem
    simp only [failingStep, List.mem_cons, List.not_mem_nil, or_false, reduceCtorEq, false_or,
      Act.step.injEq] at hmem
    rcases hmem with rfl | rfl
    · exact sized_ed25519 Seed.zero
    · exact ⟨fun _ => .error "boom", by simp, rfl⟩
  have houtcomes : (made (((Search.new Settings.defaults).begin 2).watch 0 failingStep).outcomes).length
        = 1
      ∧ firstFailure (((Search.new Settings.defaults).begin 2).watch 0 failingStep).outcomes
        = some (.derivation ⟨"boom"⟩) := by
    decide +kernel
  obtain ⟨-, ⟨w, hw', hgenerated, hfailure, hfailed, -, hwiped⟩, -⟩ :=
    watch_shuts_down hw (Worker.waiting_start 0 none) (by simp [failingStep]) hsized
  rw [houtcomes.1] at hgenerated
  rw [houtcomes.2] at hfailure
  have hstopped : w.state = .stopped := hfailed (by simp [hfailure])
  exact ⟨w, hw', hstopped, hgenerated, hfailure, hwiped hstopped⟩

end Search

end KeySearch
