import KeySearch.Proofs.Moves

/-!
# What a search reports

A search reports a find exactly when the find takes the place of the best one. So its reports are the
records of the finds that it was offered, by polls or by the shutdown, which is a series of polls
itself: each report beats the one before, and the last one is the result. `Search.Tells` says what one
move does to the best find and the reports, `Search.Reported` what they are after all moves so far.
-/

set_option autoImplicit false

namespace KeySearch.Search

variable {α : Type} [Scored α] {byBlocks : Bool} {s : Search α} {offers : List α}

/-! ## One move -/

/-- The best find has stayed, and nothing was reported. -/
structure Keeps (s t : Search α) : Prop where
  best : t.best = s.best
  reports : t.reports = s.reports

/-- A find that ranks above the best one has taken its place, and that was reported once. -/
structure Replaces (s t : Search α) : Prop where
  better : ∃ find, t.best = some find ∧ ∀ best ∈ s.best, beats s.settings.byBlocks find best = true
  reports : t.reports = s.reports ++ [t.snapshot]

/-- What a move does to the best find and to the reports. Only a poll changes them, and it says
whether it did. -/
def Tells (s : Search α) : Move α → Prop
  | .poll => s.poll.1 = true ∧ s.Replaces s.poll.2 ∨ s.poll.1 = false ∧ s.Keeps s.poll.2
  | m => s.Keeps (s.move m)

theorem offer_tells (s : Search α) (find : α) :
    (s.offer find).1 = true ∧ s.Replaces (s.offer find).2
      ∨ (s.offer find).1 = false ∧ s.Keeps (s.offer find).2 := by
  cases himproves : (Scored.score find).improves s.settings.byBlocks (s.best.map Scored.score) with
  | true =>
      rw [offer_of_improves himproves]
      refine .inl ⟨rfl, ⟨find, rfl, fun best hbest => ?_⟩, rfl⟩
      rw [Option.mem_def.mp hbest] at himproves
      exact himproves
  | false =>
      rw [offer_of_not_improves himproves]
      exact .inr ⟨rfl, rfl, rfl⟩

theorem poll_tells (s : Search α) : s.Tells .poll := by
  unfold Tells poll
  rcases s.channel.pop? with _ | ⟨_ | find, channel⟩
  · exact .inr ⟨rfl, rfl, rfl⟩
  · exact .inr ⟨rfl, rfl, rfl⟩
  · rcases offer_tells { s with channel := channel } find with ⟨htrue, hnew⟩ | ⟨hfalse, hold⟩
    · exact .inl ⟨htrue, hnew.better, hnew.reports⟩
    · exact .inr ⟨hfalse, hold.best, hold.reports⟩

theorem move_tells (s : Search α) (m : Move α) : s.Tells m := by
  by_cases hpoll : m = .poll
  · rw [hpoll]
    exact poll_tells s
  · have hkeeps : s.Keeps (s.move m) := by
      rcases move_cases s m with ⟨i, w, effect, hacts⟩ | rfl | hidles
      -- what a worker leaves behind changes neither the best find nor the reports
      · exact ⟨hacts.result.best, hacts.result.reports⟩
      · exact absurd rfl hpoll
      · exact ⟨hidles.result.best, hidles.result.reports⟩
    cases m with
    | event e => exact hkeeps
    | poll => exact absurd rfl hpoll
    | stop => exact hkeeps

/-! ## All moves -/

/-- The best find and the reports after all finds that were offered. -/
structure Reported (byBlocks : Bool) (s : Search α) (offers : List α) : Prop where
  mode : s.settings.byBlocks = byBlocks
  best : s.best = bestOf byBlocks offers
  reports : s.reports.map Snapshot.best = (records byBlocks offers).map some

theorem Reported.of_keeps {t : Search α} (h : s.Reported byBlocks offers)
    (hmode : t.settings = s.settings) (hkeeps : s.Keeps t) : t.Reported byBlocks offers := by
  refine ⟨?_, ?_, ?_⟩
  · rw [hmode, h.mode]
  · rw [hkeeps.best, h.best]
  · rw [hkeeps.reports, h.reports]

/-- A find that is offered is reported exactly if it is a record. -/
theorem Reported.offer (h : s.Reported byBlocks offers) (find : α) :
    (s.offer find).2.Reported byBlocks (offers ++ [find]) := by
  have hrecords := records_concat (isBest_bestOf byBlocks offers) find
  have hbest : bestOf byBlocks (offers ++ [find]) = keepBetter byBlocks (bestOf byBlocks offers) find :=
    bestOf_concat offers find
  rw [← h.best, ← h.mode] at hrecords hbest
  cases himproves : (Scored.score find).improves s.settings.byBlocks (s.best.map Scored.score) with
  | true =>
      rw [if_pos himproves] at hrecords
      rw [keepBetter, if_pos himproves] at hbest
      rw [offer_of_improves himproves, ← h.mode]
      refine ⟨rfl, hbest.symm, ?_⟩
      rw [hrecords, List.map_append, List.map_append, h.mode, h.reports]
      rfl
  | false =>
      rw [himproves, if_neg Bool.false_ne_true, List.append_nil] at hrecords
      rw [keepBetter, himproves, if_neg Bool.false_ne_true] at hbest
      rw [offer_of_not_improves himproves, ← h.mode]
      refine ⟨rfl, hbest.symm, ?_⟩
      rw [hrecords, h.mode, h.reports]

theorem Reported.poll (h : s.Reported byBlocks offers) :
    s.poll.2.Reported byBlocks (offers ++ s.offeredIn .poll) := by
  unfold Search.poll offeredIn Channel.pop?
  rcases s.channel.items with _ | ⟨_ | find, rest⟩
  · simpa using h
  · rw [List.append_nil]
    exact h.of_keeps rfl ⟨rfl, rfl⟩
  · have hpopped : ({ s with channel := ⟨rest⟩ } : Search α).Reported byBlocks offers :=
      h.of_keeps rfl ⟨rfl, rfl⟩
    exact hpopped.offer find

theorem Reported.move (h : s.Reported byBlocks offers) (m : Move α) :
    (s.move m).Reported byBlocks (offers ++ s.offeredIn m) := by
  rcases move_cases s m with ⟨i, w, effect, hacts⟩ | rfl | hidles
  · rw [hacts.offered, List.append_nil]
    exact h.of_keeps hacts.result.settings ⟨hacts.result.best, hacts.result.reports⟩
  · exact h.poll
  · rw [hidles.offered, List.append_nil]
    exact h.of_keeps hidles.result.settings ⟨hidles.result.best, hidles.result.reports⟩

theorem Reported.play (h : s.Reported byBlocks offers) (moves : List (Move α)) :
    (s.play moves).Reported byBlocks (offers ++ s.offered moves) := by
  induction moves generalizing s offers with
  | nil => simpa [Search.play, offered, collect] using h
  | cons m rest ih =>
      have hrest := ih (h.move m)
      rw [List.append_assoc] at hrest
      exact hrest

/-- A search that has found nothing yet and its schedule. -/
theorem reported_play (hbest : s.best = none) (hreports : s.reports = []) (moves : List (Move α)) :
    (s.play moves).Reported s.settings.byBlocks (s.offered moves) := by
  have hstart : s.Reported s.settings.byBlocks [] := ⟨rfl, hbest, by rw [hreports]; rfl⟩
  exact hstart.play moves

/-- The last report shows the best find. -/
theorem Reported.last (h : s.Reported byBlocks offers) :
    s.reports.getLast?.map Snapshot.best = s.best.map some := by
  rw [← List.getLast?_map, h.reports, List.getLast?_map, getLast?_records, h.best]

theorem Reported.reports_eq_nil_iff (h : s.Reported byBlocks offers) :
    s.reports = [] ↔ s.best = none := by
  rw [← List.getLast?_eq_none_iff, ← Option.map_eq_none_iff, h.last, Option.map_eq_none_iff]

/-- Once there is a best find, there is one at any later time, and it is no worse. -/
theorem Reported.no_worse {t : Search α} {more : List α} (h : s.Reported byBlocks offers)
    (ht : t.Reported byBlocks (offers ++ more)) :
    ∀ best ∈ s.best, ∃ later ∈ t.best, beats byBlocks best later = false := by
  intro best hbest
  have hold := isBest_bestOf byBlocks offers
  have hnew := isBest_bestOf byBlocks (offers ++ more)
  rw [← h.best, Option.mem_def.mp hbest] at hold
  rw [← ht.best] at hnew
  cases hlater : t.best with
  | none =>
      rw [hlater] at hnew
      have hnil : offers = [] := (List.append_eq_nil_iff.mp hnew).1
      rw [hnil] at hold
      exact absurd hold.1 List.not_mem_nil
  | some later =>
      rw [hlater] at hnew
      exact ⟨later, rfl, hnew.2 best (List.mem_append_left _ hold.1)⟩

/-! ## Whole schedules -/

theorem Reported.finish (h : s.Reported byBlocks offers) (reason : StopReason) :
    ∃ more, (s.settle.finish reason).Reported byBlocks (offers ++ more) := by
  obtain ⟨lines, hsettle⟩ := settle_eq_play s
  refine ⟨s.offered (List.replicate ((leftOver s.channel.items).length + 1) .poll), ?_⟩
  rw [hsettle]
  exact (h.play _).of_keeps rfl ⟨rfl, rfl⟩

/-- **The reports of a search are the records of what it was offered.** The shutdown is a series of
polls. At no time does a move other than a poll change the best find or report anything; a poll that
puts a find in its place reports it once and says so, and any other poll changes nothing. The best
find never gets worse, the last report shows the result, and of the finds that nothing beats the
result is the one that was offered first. The last report of a whole run shows its result, too. -/
theorem reports_eq_records {s : Search α} (hbest : s.best = none) (hreports : s.reports = [])
    (moves : List (Move α)) (reason : StopReason) :
    let waiting := leftOver (s.play moves).channel.items
    let whole := moves ++ List.replicate (waiting.length + 1) .poll
    let final := (s.play moves).settle.finish reason
    (∃ lines, (s.play moves).settle = (s.play whole).report lines)
      ∧ (∀ front m, (s.play front).Tells m)
      ∧ (∀ front more, ∀ best ∈ (s.play front).best, ∃ later ∈ (s.play (front ++ more)).best,
        beats s.settings.byBlocks best later = false)
      ∧ final.reports.map Snapshot.best
        = (records s.settings.byBlocks (s.offered whole)).map some
      ∧ (records s.settings.byBlocks (s.offered whole)).Pairwise
        (fun earlier later => beats s.settings.byBlocks later earlier = true)
      ∧ final.reports.getLast?.map Snapshot.best = final.snapshot.best.map some
      ∧ (final.reports = [] ↔ final.snapshot.best = none)
      ∧ (∀ best ∈ final.snapshot.best, ∃ front back, s.offered whole = front ++ best :: back
        ∧ (∀ other ∈ front, beats s.settings.byBlocks best other = true)
        ∧ ∀ other ∈ back, beats s.settings.byBlocks other best = false)
      ∧ ∀ count waits grace result, s.run count waits grace = some (reason, result) →
        result.reports.getLast?.map Snapshot.best = result.snapshot.best.map some := by
  intro waiting whole final
  obtain ⟨lines, hsettle⟩ := settle_eq_play (s.play moves)
  rw [← play_append] at hsettle
  have hwhole : (s.play whole).Reported s.settings.byBlocks (s.offered whole) :=
    reported_play hbest hreports whole
  have hfinal : final.Reported s.settings.byBlocks (s.offered whole) := by
    show ((s.play moves).settle.finish reason).Reported _ _
    rw [hsettle]
    exact hwhole.of_keeps rfl ⟨rfl, rfl⟩
  refine ⟨⟨lines, hsettle⟩, fun front m => move_tells (s.play front) m, ?_, hfinal.reports,
    pairwise_records _ _, hfinal.last, hfinal.reports_eq_nil_iff, ?_, ?_⟩
  · intro front more
    have hfront := reported_play hbest hreports front
    rw [play_append]
    exact hfront.no_worse (hfront.play more)
  · intro best hresult
    have hbestOf : bestOf s.settings.byBlocks (s.offered whole) = some best := by
      rw [← hfinal.best]
      exact hresult
    exact exists_split_of_bestOf hbestOf
  · intro count waits grace result hrun
    obtain ⟨others, rfl⟩ := exists_play_of_run hrun
    have hplayed := @reported_play _ _ (s.begin count) hbest hreports others
    obtain ⟨more, hresult⟩ := hplayed.finish reason
    exact hresult.last

/-- Three workers have published a find each. The second find is no better than the first, and the
third is left for the shutdown. -/
def oneFindEach : List (Move Score) :=
  [.event (.launch 0), .event (.turn 0 ⟨Seed.zero, fun _ => .ok ⟨3, 0⟩⟩ none), .event (.launch 1),
    .event (.turn 1 ⟨Seed.zero, fun _ => .ok ⟨3, 1⟩⟩ none), .event (.launch 2),
    .event (.turn 2 ⟨Seed.zero, fun _ => .ok ⟨5, 0⟩⟩ none), .poll, .poll]

/-- The first and the third of the finds are reported, each once. -/
theorem reports_eq_records_oneFindEach :
    let start : Search Score := (Search.new Settings.defaults).begin 3
    let final := (start.play oneFindEach).settle.finish .cancelled
    final.reports.map Snapshot.best = [some ⟨3, 0⟩, some ⟨5, 0⟩]
      ∧ final.snapshot.best = some ⟨5, 0⟩ := by
  have hwaiting : leftOver (((Search.new Settings.defaults).begin 3 : Search Score).play
      oneFindEach).channel.items = [⟨5, 0⟩] := by
    decide +kernel
  have hoffered : ((Search.new Settings.defaults).begin 3 : Search Score).offered
      (oneFindEach ++ List.replicate 2 .poll) = [⟨3, 0⟩, ⟨3, 1⟩, ⟨5, 0⟩] := by
    decide +kernel
  have hrun := @reports_eq_records _ _ ((Search.new Settings.defaults).begin 3 : Search Score) rfl rfl
    oneFindEach .cancelled
  rw [hwaiting] at hrun
  obtain ⟨-, -, -, hreports, -, hlast, -⟩ := hrun
  rw [show [(⟨5, 0⟩ : Score)].length + 1 = 2 from rfl, hoffered] at hreports
  have hrecords : records false [(⟨3, 0⟩ : Score), ⟨3, 1⟩, ⟨5, 0⟩] = [⟨3, 0⟩, ⟨5, 0⟩] := by decide
  have hshown := hreports.trans (congrArg (List.map some) hrecords)
  intro start final
  refine ⟨hshown, ?_⟩
  rw [← List.getLast?_map, hshown] at hlast
  have hresult : (some ⟨5, 0⟩ : Option Score).map some = final.snapshot.best.map some := hlast
  exact (Option.map_injective (Option.some_injective Score) hresult).symm

end KeySearch.Search
