import KeySearch.Proofs.CandidateScores
import KeySearch.Proofs.Moves
import KeySearch.Proofs.Target

/-!
# Where the finds of a search come from

A find gets into a search in one way only: a worker makes it of a seed. From there it is remembered
by the worker, waits on the channel and may become the best find, and on this way nothing else
joins it. So whatever holds of what the workers make holds of all that a search ever has:
`Reachable.held_genuine` says so of genuine candidates. A target that no genuine candidate can meet
is then never the reason for an end.
-/

set_option autoImplicit false

namespace KeySearch

/-- A source of candidates whose key primitive gives each seed the public key that it has by
`publicKey`, or fails. Whether it fails need not depend on the seed. -/
def KeySource.Derives (publicKey : List UInt8 → List UInt8) (source : KeySource Candidate) : Prop :=
  ∃ primitive : KeyPrimitive, (∀ seed key, primitive seed = .ok key → key = publicKey seed)
    ∧ source = Search.candidates primitive source.draw

namespace Search

variable {α : Type} [Scored α] {s t : Search α} {find : α}

/-! ## The finds that a search holds -/

/-- A search holds a find that a worker remembers, that waits on the channel or that is the best
one. -/
def Holds (s : Search α) (find : α) : Prop :=
  (∃ w ∈ s.workers, w.best = some find) ∨ some find ∈ s.channel.items ∨ s.best = some find

section
omit [Scored α]

theorem holds_iff : s.Holds find ↔ some find ∈ s.workers.map Worker.best
    ∨ some find ∈ s.channel.items ∨ s.best = some find := by
  rw [Holds, List.mem_map]

theorem not_holds_new (settings : Settings) (find : α) :
    ¬ (Search.new settings : Search α).Holds find := by
  rintro (⟨w, hw, -⟩ | hitem | hbest)
  · exact List.not_mem_nil hw
  · exact List.not_mem_nil hitem
  · cases hbest

/-- New workers remember nothing. -/
theorem holds_begin {count : Nat} (h : (s.begin count).Holds find) : s.Holds find := by
  rcases h with ⟨w, hw, hbest⟩ | hrest
  · obtain ⟨i, -, rfl⟩ := List.mem_map.mp hw
    cases hbest
  · exact .inr hrest

theorem holds_join {id : Int} {seed : Option Seed}
    (h : ({ s with workers := s.workers ++ [Worker.start id seed] } : Search α).Holds find) :
    s.Holds find := by
  rcases h with ⟨w, hw, hbest⟩ | hrest
  · rcases List.mem_append.mp hw with hold | hnew
    · exact .inl ⟨w, hold, hbest⟩
    · rw [List.mem_singleton.mp hnew] at hbest
      cases hbest
  · exact .inr hrest

theorem Quiet.holds (hquiet : s.Quiet t) (h : t.Holds find) : s.Holds find := by
  rw [holds_iff] at h ⊢
  rw [← hquiet.remembered, ← hquiet.channel, ← hquiet.best]
  exact h

end

/-- What a worker leaves behind in a search is what it publishes. -/
theorem holds_absorb {byBlocks : Bool} {i : Nat} {w : Worker α} {effect : Worker.Effect α}
    {finds : List α} (hw : s.workers[i]? = some w) (honest : effect.Honest byBlocks w finds)
    (h : (s.absorb i effect).Holds find) : s.Holds find ∨ find ∈ finds := by
  rcases h with ⟨w', hw', hbest⟩ | hitem | hbest
  · rcases List.mem_or_eq_of_mem_set hw' with hold | rfl
    · exact .inl (.inl ⟨w', hold, hbest⟩)
    · rcases honest.remembered find hbest with hbefore | hnew
      · exact .inl (.inl ⟨w, List.mem_of_getElem? hw, hbefore⟩)
      · exact .inr (honest.made find hnew)
  · rw [items_absorb, List.mem_append] at hitem
    rcases hitem with hold | hnew
    · exact .inl (.inr (.inl hold))
    · obtain ⟨other, hother, hsame⟩ := List.mem_map.mp hnew
      cases hsame
      exact .inr (honest.made find (Option.mem_toList.mp hother))
  · exact .inl (.inr (.inr hbest))

/-- An offer can only put the find that is offered in the place of the best one. -/
theorem holds_offer {other : α} (h : (s.offer other).2.Holds find) :
    s.Holds find ∨ find = other := by
  obtain ⟨reports, hoffer⟩ := offer_eq s other
  rw [hoffer] at h
  rcases h with hworker | hitem | hbest
  · exact .inl (.inl hworker)
  · exact .inl (.inr (.inl hitem))
  · have hkeep : keepBetter s.settings.byBlocks s.best other = some find := hbest
    unfold keepBetter at hkeep
    split at hkeep
    · exact .inr (Option.some.inj hkeep).symm
    · exact .inl (.inr (.inr hkeep))

/-- A poll moves a find from the channel to the best one. -/
theorem holds_poll (h : s.poll.2.Holds find) : s.Holds find := by
  -- taking items off the channel adds nothing to what is held
  have hfewer : ∀ {rest : List (Option α)}, (∀ item ∈ rest, item ∈ s.channel.items) →
      ({ s with channel := ⟨rest⟩ } : Search α).Holds find → s.Holds find := by
    intro rest hsub hheld
    exact hheld.imp_right fun hother => hother.imp_left (hsub _)
  unfold poll Channel.pop? at h
  cases hitems : s.channel.items with
  | nil =>
      rw [hitems] at h
      exact h
  | cons item rest =>
      rw [hitems] at h hfewer
      have hrest := hfewer fun _ => List.mem_cons_of_mem item
      cases item with
      | none => exact hrest h
      | some other =>
          rcases holds_offer h with hheld | rfl
          · exact hrest hheld
          · exact .inr (.inl (by rw [hitems]; exact List.mem_cons_self))

/-- All that a move adds to a search is among the finds of the move. -/
theorem holds_move {m : Move α} (h : (s.move m).Holds find) :
    s.Holds find ∨ find ∈ (s.foundIn m).map Prod.snd := by
  rcases move_cases s m with ⟨i, w, effect, hacts⟩ | rfl | hidles
  · exact holds_absorb hacts.worker hacts.honest (hacts.result.holds h)
  · exact .inl (holds_poll h)
  · exact .inl (hidles.result.holds h)

/-- Nor does a call of a worker's step add anything but the find it makes. -/
theorem holds_step {i : Nat} {source : KeySource α} {arrival : Option Signal}
    (h : (s.step i source arrival).2.Holds find) :
    s.Holds find ∨ find ∈ (s.findOf i source).map Prod.snd := by
  unfold step at h
  cases hw : s.workers[i]? with
  | none =>
      rw [hw] at h
      exact .inl h
  | some w =>
      rw [hw] at h
      rw [map_findOf hw]
      exact holds_absorb hw (Worker.honest_step w source) ((quiet_arrive _ i arrival).holds h)

theorem holds_play_polls {n : Nat} (h : (s.play (List.replicate n .poll)).Holds find) :
    s.Holds find := by
  induction n generalizing s with
  | zero => exact h
  | succ n ih =>
      have hrest : (s.poll.2.play (List.replicate n .poll)).Holds find := h
      exact holds_poll (ih hrest)

theorem holds_settle (h : s.settle.Holds find) : s.Holds find := by
  obtain ⟨lines, hsettle⟩ := settle_eq_play s
  rw [hsettle] at h
  exact holds_play_polls h

/-! ## The finds that a worker makes -/

/-- The source that an event draws from, if it can make a find. -/
def Event.source? : Event α → Option (KeySource α)
  | .turn _ source _ => some source
  | .step _ source _ => some source
  | _ => none

/-- The source that a move draws from, if it can make a find. -/
def Move.source? : Move α → Option (KeySource α)
  | .event e => e.source?
  | _ => none

/-! ## Reachable searches -/

/-- A find that a source of candidates makes is genuine, if its keys are those of `publicKey`. -/
theorem genuine_of_mem_findOf {publicKey : List UInt8 → List UInt8} {s : Search Candidate}
    {i : Nat} {source : KeySource Candidate} (hsource : source.Derives publicKey) {c : Candidate}
    (h : c ∈ (s.findOf i source).map Prod.snd) : c.Genuine publicKey := by
  obtain ⟨primitive, hprimitive, hmake⟩ := hsource
  cases hw : s.workers[i]? with
  | none => simp [findOf, hw] at h
  | some w =>
      rw [map_findOf hw, Worker.step_fst, Option.mem_toList] at h
      have hmade : source.make (w.nextSeed source.draw) = .ok c := by
        cases hresult : source.make (w.nextSeed source.draw) with
        | error e =>
            rw [hresult] at h
            cases h
        | ok other =>
            rw [hresult] at h
            exact congrArg Except.ok (Option.some.inj h)
      rw [hmake] at hmade
      exact Candidate.genuine_of_ofSeed hprimitive (w.nextSeed source.draw).size hmade

theorem genuine_of_mem_foundIn {publicKey : List UInt8 → List UInt8} {s : Search Candidate}
    {m : Move Candidate} (hsource : ∀ source ∈ m.source?, source.Derives publicKey)
    {c : Candidate} (h : c ∈ (s.foundIn m).map Prod.snd) : c.Genuine publicKey := by
  unfold foundIn at h
  split at h
  · split at h
    · exact genuine_of_mem_findOf (hsource _ rfl) h
    · exact absurd h List.not_mem_nil
  · split at h
    · exact genuine_of_mem_findOf (hsource _ rfl) h
    · exact absurd h List.not_mem_nil
  · exact absurd h List.not_mem_nil

/-- The searches that can come about while seeds have the public keys of `publicKey`: workers join
one by one or all at the beginning, and any moves and calls follow in any order. -/
inductive Reachable (publicKey : List UInt8 → List UInt8) : Search Candidate → Prop
  | new (settings : Settings) : Reachable publicKey (Search.new settings)
  | begin {s : Search Candidate} (h : Reachable publicKey s) (count : Nat) :
      Reachable publicKey (s.begin count)
  /-- A worker joins, with the given first seed if there is one. -/
  | join {s : Search Candidate} (h : Reachable publicKey s) (id : Int) (seed : Option Seed) :
      Reachable publicKey { s with workers := s.workers ++ [Worker.start id seed] }
  | move {s : Search Candidate} (h : Reachable publicKey s) (m : Move Candidate)
      (hsource : ∀ source ∈ m.source?, source.Derives publicKey) :
      Reachable publicKey (s.move m)
  /-- A single step of a worker outside of its loop. -/
  | step {s : Search Candidate} (h : Reachable publicKey s) (i : Nat)
      (source : KeySource Candidate) (arrival : Option Signal)
      (hsource : source.Derives publicKey) :
      Reachable publicKey (s.step i source arrival).2
  | settle {s : Search Candidate} (h : Reachable publicKey s) : Reachable publicKey s.settle
  | finish {s : Search Candidate} (h : Reachable publicKey s) (reason : StopReason) :
      Reachable publicKey (s.finish reason)

section
variable {publicKey : List UInt8 → List UInt8} {s : Search Candidate}

/-- All that a reachable search holds is genuine. -/
theorem Reachable.genuine (h : s.Reachable publicKey) {c : Candidate} (hc : s.Holds c) :
    c.Genuine publicKey := by
  induction h with
  | new settings => exact absurd hc (not_holds_new settings c)
  | begin _ count ih => exact ih (holds_begin hc)
  | join _ id seed ih => exact ih (holds_join hc)
  | move _ m hsource ih =>
      rcases holds_move hc with hbefore | hfound
      · exact ih hbefore
      · exact genuine_of_mem_foundIn hsource hfound
  | step _ i source arrival hsource ih =>
      rcases holds_step hc with hbefore | hfound
      · exact ih hbefore
      · exact genuine_of_mem_findOf hsource hfound
  | settle _ ih => exact ih (holds_settle hc)
  | finish _ reason ih => exact ih hc

/-- No key of a reachable search has the zero bits of a target above 127. -/
theorem Reachable.checkStop_ne_target (h : s.Reachable publicKey)
    (htarget : 127 < s.settings.targetZeroBits) : s.checkStop ≠ some .target := by
  intro hstop
  obtain ⟨-, best, hbest, henough⟩ := targetReached_iff.mp (targetReached_of_checkStop hstop)
  have hle : best.zeroBits ≤ 127 := (h.genuine (.inr (.inr hbest))).zeroBits_le
  have hge : s.settings.targetZeroBits ≤ best.zeroBits := Int.ofNat_le.mp henough
  omega

theorem Reachable.afterAll (h : s.Reachable publicKey) {events : List (Event Candidate)}
    (hsources : ∀ e ∈ events, ∀ source ∈ e.source?, source.Derives publicKey) :
    (s.afterAll events).Reachable publicKey := by
  induction events generalizing s with
  | nil => exact h
  | cons e rest ih =>
      exact ih (h.move (.event e) (hsources e List.mem_cons_self))
        fun e' he' => hsources e' (List.mem_cons_of_mem e he')

theorem Reachable.rounds (h : s.Reachable publicKey) {waits : List (List (Event Candidate))}
    (hsources : ∀ events ∈ waits, ∀ e ∈ events, ∀ source ∈ e.source?, source.Derives publicKey)
    {reason : StopReason} {mid : Search Candidate} (hrounds : rounds waits s = some (reason, mid)) :
    mid.Reachable publicKey := by
  induction waits generalizing s with
  | nil => cases hrounds
  | cons events rest ih =>
      have hwait : (s.afterAll events).poll.2.Reachable publicKey :=
        (h.afterAll (hsources events List.mem_cons_self)).move .poll (by simp [Move.source?])
      rw [Search.rounds] at hrounds
      split at hrounds
      · cases hrounds
        exact hwait
      · exact ih hwait (fun events' h' => hsources events' (List.mem_cons_of_mem events h')) hrounds

theorem Reachable.close (h : s.Reachable publicKey) (reason : StopReason)
    {grace : List (Event Candidate)}
    (hsources : ∀ e ∈ grace, ∀ source ∈ e.source?, source.Derives publicKey) :
    (s.close reason grace).Reachable publicKey := by
  have hstopped : s.requestStops.Reachable publicKey := h.move .stop (by simp [Move.source?])
  exact (hstopped.afterAll hsources).settle.finish reason

/-- **All that a search holds is genuine, and no search for more than 127 zero bits reaches its
target.** This is so of every reachable search and of each run from it. -/
theorem Reachable.held_genuine (h : s.Reachable publicKey) :
    (∀ c, s.Holds c → c.Genuine publicKey)
      ∧ ∀ count waits grace,
        (∀ events ∈ grace :: waits, ∀ e ∈ events, ∀ source ∈ e.source?,
          source.Derives publicKey) →
        ∀ reason final, s.run count waits grace = some (reason, final) →
          (∀ c, final.Holds c → c.Genuine publicKey)
            ∧ (127 < s.settings.targetZeroBits → reason ≠ .target) := by
  refine ⟨fun c hc => h.genuine hc, fun count waits grace hsources reason final hrun => ?_⟩
  have hwaits := fun events (h : events ∈ waits) => hsources events (List.mem_cons_of_mem grace h)
  have hgrace := hsources grace List.mem_cons_self
  unfold run at hrun
  split at hrun
  · cases hrun
  · next mid hrounds =>
    cases hrun
    have hmid : mid.Reachable publicKey := (h.begin count).rounds hwaits hrounds
    refine ⟨fun c hc => (hmid.close reason hgrace).genuine hc, fun htarget hreason => ?_⟩
    have hkept := settings_rounds hrounds
    have hsettings : mid.settings = s.settings := hkept
    rw [← hsettings] at htarget
    rw [hreason] at hrounds
    exact hmid.checkStop_ne_target htarget (checkStop_of_rounds hrounds)

end

theorem derives_ed25519 (draw : Seed) :
    (candidates .ed25519 draw).Derives Ed25519.publicKey := by
  refine ⟨.ed25519, fun seed key hkey => ?_, rfl⟩
  unfold KeyPrimitive.ed25519 at hkey
  split at hkey
  · exact (Except.ok.inj hkey).symm
  · cases hkey

/-- A search for a key with 128 zero bits, which settings may ask for. -/
def seekingHalf : Search Candidate :=
  Search.new { Settings.defaults with targetZeroBits := 128 }

/-- One worker makes a key, and a stop is asked for meanwhile. -/
def oneKey : List (Event Candidate) :=
  [.launch 0, .turn 0 (candidates .ed25519 Seed.zero) (some .search), .idle 100]

/-- The key is genuine, and the search for 128 zero bits ends because it is asked to. -/
theorem held_genuine_oneKey : ∃ final c,
    Settings.check seekingHalf.settings.draft = .ok seekingHalf.settings
      ∧ seekingHalf.run 1 [oneKey] [] = some (.cancelled, final) ∧ final.Holds c
      ∧ c.Genuine Ed25519.publicKey ∧ StopReason.cancelled ≠ .target := by
  have hrun : (seekingHalf.run 1 [oneKey] []).map
      (fun r => (r.1, r.2.best.map Candidate.zeroBits)) = some (.cancelled, some 2) := by
    decide +kernel
  obtain ⟨⟨reason, final⟩, hfinal, hresult⟩ := Option.map_eq_some_iff.mp hrun
  obtain ⟨hreason, hbits⟩ := Prod.mk.inj hresult
  obtain ⟨c, hc, -⟩ := Option.map_eq_some_iff.mp hbits
  have hcancelled : reason = .cancelled := hreason
  rw [hcancelled] at hfinal
  have hsources : ∀ events ∈ [[], oneKey], ∀ e ∈ events, ∀ source ∈ e.source?,
      source.Derives Ed25519.publicKey := by
    simp [oneKey, Event.source?, derives_ed25519]
  obtain ⟨hgenuine, hreached⟩ :=
    (Reachable.held_genuine (Reachable.new seekingHalf.settings)).2 1 [oneKey] [] hsources
      .cancelled final hfinal
  exact ⟨final, c, by decide, hfinal, .inr (.inr hc), hgenuine c (.inr (.inr hc)),
    hreached (by decide)⟩

end Search

end KeySearch
