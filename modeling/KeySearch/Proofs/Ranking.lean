import KeySearch.Score
import Mathlib.Data.List.Induction
import Mathlib.Data.Prod.Lex

/-!
# The ranking of finds

`Score.beats` compares by a linear order, `Score.rank`. On top of it stand the two things that a
search makes of a list of finds: the best of them, found by keeping whatever ranks above all that
came before (`bestOf`), and the finds that were the best when they came (`records`). Comparing with
the best one so far is comparing with all of them, so the last record is the best find.
-/

set_option autoImplicit false

namespace KeySearch

/-! ## The order -/

/-- What a score is ranked by: its zero bits, and before them its zero blocks where these count. -/
def Score.rank (byBlocks : Bool) (s : Score) : Int ×ₗ Int :=
  toLex (if byBlocks then s.zeroBlocks else 0, s.zeroBits)

theorem Score.beats_iff {byBlocks : Bool} {s t : Score} :
    s.beats byBlocks t = true ↔ t.rank byBlocks < s.rank byBlocks := by
  cases byBlocks with
  | false => simp [Score.beats, Score.rank, Prod.Lex.toLex_lt_toLex]
  | true =>
      by_cases h : s.zeroBlocks = t.zeroBlocks
      · simp [Score.beats, Score.rank, Prod.Lex.toLex_lt_toLex, h]
      · have hne : ¬ t.zeroBlocks = s.zeroBlocks := fun heq => h heq.symm
        simp [Score.beats, Score.rank, Prod.Lex.toLex_lt_toLex, h, hne]

variable {α : Type} [Scored α] {byBlocks : Bool}

/-- What a find is ranked by. -/
def rank (byBlocks : Bool) (find : α) : Int ×ₗ Int := (Scored.score find).rank byBlocks

/-- Whether one find ranks strictly above another. -/
def beats (byBlocks : Bool) (find other : α) : Bool :=
  (Scored.score find).beats byBlocks (Scored.score other)

theorem beats_iff {find other : α} :
    beats byBlocks find other = true ↔ rank byBlocks other < rank byBlocks find :=
  Score.beats_iff

theorem beats_eq_false_iff {find other : α} :
    beats byBlocks find other = false ↔ rank byBlocks find ≤ rank byBlocks other := by
  rw [← Bool.not_eq_true, beats_iff, not_lt]

theorem rank_false_le_iff {find other : α} :
    rank false find ≤ rank false other
      ↔ (Scored.score find).zeroBits ≤ (Scored.score other).zeroBits := by
  simp [rank, Score.rank, Prod.Lex.toLex_le_toLex]

theorem rank_true_le_iff {find other : α} :
    rank true find ≤ rank true other
      ↔ (Scored.score find).zeroBlocks < (Scored.score other).zeroBlocks
        ∨ (Scored.score find).zeroBlocks = (Scored.score other).zeroBlocks
          ∧ (Scored.score find).zeroBits ≤ (Scored.score other).zeroBits := by
  simp [rank, Score.rank, Prod.Lex.toLex_le_toLex]

theorem zeroBits_eq_of_rank_eq {find other : α} (h : rank byBlocks find = rank byBlocks other) :
    (Scored.score find).zeroBits = (Scored.score other).zeroBits :=
  congrArg (fun r => (ofLex r).2) h

/-! ## The best find -/

/-- What is best among finds: nothing if there are none, else one of them that none of them
beats. -/
def IsBest (byBlocks : Bool) (finds : List α) : Option α → Prop
  | none => finds = []
  | some best => best ∈ finds ∧ ∀ find ∈ finds, beats byBlocks find best = false

/-- The best find after one more. It changes only for a find that ranks above it. -/
def keepBetter (byBlocks : Bool) (best : Option α) (find : α) : Option α :=
  if (Scored.score find).improves byBlocks (best.map Scored.score) then some find else best

/-- The best find after all of the given ones. -/
def bestOf (byBlocks : Bool) (finds : List α) : Option α :=
  finds.foldl (keepBetter byBlocks) none

/-- Ranking above the best find is ranking above all of them. -/
theorem IsBest.improves_iff {finds : List α} {best : Option α} (h : IsBest byBlocks finds best)
    (find : α) :
    (Scored.score find).improves byBlocks (best.map Scored.score) = true ↔
      ∀ other ∈ finds, beats byBlocks find other = true := by
  cases best with
  | none =>
      have hnil : finds = [] := h
      simp [Score.improves, hnil]
  | some best =>
      obtain ⟨hmem, htop⟩ := h
      constructor
      · intro hbeats other hother
        have hlt : rank byBlocks best < rank byBlocks find := Score.beats_iff.mp hbeats
        exact beats_iff.mpr (lt_of_le_of_lt (beats_eq_false_iff.mp (htop other hother)) hlt)
      · intro hall
        exact hall best hmem

theorem IsBest.keepBetter {finds : List α} {best : Option α} (h : IsBest byBlocks finds best)
    (find : α) : IsBest byBlocks (finds ++ [find]) (keepBetter byBlocks best find) := by
  unfold KeySearch.keepBetter
  split
  · next himproves =>
    -- the new find beats the old best one, so by transitivity it beats all before it
    have hall := (h.improves_iff find).mp himproves
    refine ⟨by simp, fun other hother => beats_eq_false_iff.mpr ?_⟩
    rcases List.mem_append.mp hother with hold | hnew
    · exact le_of_lt (beats_iff.mp (hall other hold))
    · rw [List.mem_singleton.mp hnew]
  · next hkeep =>
    cases best with
    | none => exact absurd rfl hkeep
    | some best =>
        obtain ⟨hmem, htop⟩ := h
        refine ⟨List.mem_append_left _ hmem, fun other hother => ?_⟩
        rcases List.mem_append.mp hother with hold | hnew
        · exact htop other hold
        · rw [List.mem_singleton.mp hnew]
          exact Bool.eq_false_of_not_eq_true hkeep

theorem IsBest.foldl {finds : List α} {best : Option α} (h : IsBest byBlocks finds best)
    (more : List α) :
    IsBest byBlocks (finds ++ more) (more.foldl (KeySearch.keepBetter byBlocks) best) := by
  induction more generalizing finds best with
  | nil => simpa using h
  | cons find more ih => simpa using ih (h.keepBetter find)

theorem bestOf_concat (finds : List α) (find : α) :
    bestOf byBlocks (finds ++ [find]) = keepBetter byBlocks (bestOf byBlocks finds) find := by
  simp [bestOf]

theorem isBest_bestOf (byBlocks : Bool) (finds : List α) :
    IsBest byBlocks finds (bestOf byBlocks finds) := by
  have hnone : IsBest byBlocks ([] : List α) none := rfl
  exact hnone.foldl finds

theorem isBest_toList (byBlocks : Bool) (best : Option α) : IsBest byBlocks best.toList best := by
  cases best with
  | none => rfl
  | some best => exact ⟨by simp, fun find hfind => by
      rw [List.mem_singleton.mp hfind, beats_eq_false_iff]⟩

/-- The best find is the earliest of those that none beats: it beats all before it, and none behind
it beats it. -/
theorem exists_split_of_bestOf {finds : List α} {best : α}
    (h : bestOf byBlocks finds = some best) :
    ∃ front back, finds = front ++ best :: back
      ∧ (∀ other ∈ front, beats byBlocks best other = true)
      ∧ ∀ other ∈ back, beats byBlocks other best = false := by
  induction finds using List.reverseRecOn generalizing best with
  | nil => cases h
  | append_singleton finds find ih =>
      rw [bestOf_concat, keepBetter] at h
      split at h
      · next himproves =>
        cases h
        have hall := ((isBest_bestOf byBlocks finds).improves_iff find).mp himproves
        exact ⟨finds, [], rfl, hall, by simp⟩
      · next hkeep =>
        rw [h] at hkeep
        obtain ⟨front, back, hfinds, hfront, hback⟩ := ih h
        refine ⟨front, back ++ [find], by rw [hfinds]; simp, hfront, fun other hother => ?_⟩
        rcases List.mem_append.mp hother with hold | hnew
        · exact hback other hold
        · rw [List.mem_singleton.mp hnew]
          exact Bool.eq_false_of_not_eq_true hkeep

/-- The best of some finds is the best of all, when each of the others has its match among them. -/
theorem IsBest.of_covered {chosen all : List α} {best : Option α}
    (h : IsBest byBlocks chosen best) (hsub : ∀ find ∈ chosen, find ∈ all)
    (hcovered : ∀ find ∈ all, ∃ other ∈ chosen, beats byBlocks find other = false) :
    IsBest byBlocks all best := by
  cases best with
  | none =>
      have hnil : chosen = [] := h
      refine List.eq_nil_iff_forall_not_mem.mpr fun find hfind => ?_
      obtain ⟨other, hother, -⟩ := hcovered find hfind
      simp [hnil] at hother
  | some best =>
      obtain ⟨hmem, htop⟩ := h
      refine ⟨hsub best hmem, fun find hfind => ?_⟩
      obtain ⟨other, hother, hle⟩ := hcovered find hfind
      rw [beats_eq_false_iff] at hle ⊢
      exact le_trans hle (beats_eq_false_iff.mp (htop other hother))

/-- The rank of the best find depends on nothing but which finds there are. -/
theorem IsBest.rank_eq {x y : List α} {a b : Option α} (ha : IsBest byBlocks x a)
    (hb : IsBest byBlocks y b) (hmem : ∀ find, find ∈ x ↔ find ∈ y) :
    a.map (rank byBlocks) = b.map (rank byBlocks) := by
  cases a with
  | none =>
      have hx : x = [] := ha
      cases b with
      | none => rfl
      | some b => exact absurd ((hmem b).mpr hb.1) (by simp [hx])
  | some a =>
      cases b with
      | none =>
          have hy : y = [] := hb
          exact absurd ((hmem a).mp ha.1) (by simp [hy])
      | some b =>
          have hab := beats_eq_false_iff.mp (hb.2 a ((hmem a).mp ha.1))
          have hba := beats_eq_false_iff.mp (ha.2 b ((hmem b).mpr hb.1))
          rw [Option.map_some, Option.map_some, le_antisymm hab hba]

/-! ## Records -/

/-- The finds that beat all those before them, where some were seen already. -/
def recordsAfter (byBlocks : Bool) (seen : List α) : List α → List α
  | [] => []
  | find :: rest =>
    if seen.all (beats byBlocks find) then find :: recordsAfter byBlocks (seen ++ [find]) rest
    else recordsAfter byBlocks (seen ++ [find]) rest

/-- The finds that beat all those before them. The first one always does. -/
def records (byBlocks : Bool) (finds : List α) : List α := recordsAfter byBlocks [] finds

theorem recordsAfter_append (seen front back : List α) :
    recordsAfter byBlocks seen (front ++ back)
      = recordsAfter byBlocks seen front ++ recordsAfter byBlocks (seen ++ front) back := by
  induction front generalizing seen with
  | nil => simp [recordsAfter]
  | cons find front ih =>
      have hassoc : seen ++ [find] ++ front = seen ++ find :: front := by simp
      simp only [List.cons_append, recordsAfter, ih, hassoc]
      split <;> rfl

/-- One more find is a record exactly if it ranks above the best of those before it. -/
theorem records_concat {finds : List α} {best : Option α} (h : IsBest byBlocks finds best)
    (find : α) :
    records byBlocks (finds ++ [find]) = records byBlocks finds ++
      if (Scored.score find).improves byBlocks (best.map Scored.score) then [find] else [] := by
  rw [records, recordsAfter_append, List.nil_append]
  congr 1
  -- what is left is the last step of `recordsAfter`, which compares with all finds before it
  have hiff := h.improves_iff find
  by_cases hall : ∀ other ∈ finds, beats byBlocks find other = true
  · rw [if_pos (hiff.mpr hall), recordsAfter, if_pos (List.all_eq_true.mpr hall), recordsAfter]
  · rw [if_neg (mt hiff.mp hall), recordsAfter, if_neg (mt List.all_eq_true.mp hall), recordsAfter]

theorem mem_of_mem_records {finds : List α} {find : α} (h : find ∈ records byBlocks finds) :
    find ∈ finds := by
  induction finds using List.reverseRecOn with
  | nil => cases h
  | append_singleton finds last ih =>
      rw [records_concat (isBest_bestOf byBlocks finds)] at h
      rcases List.mem_append.mp h with hold | hnew
      · exact List.mem_append_left _ (ih hold)
      · split at hnew
        · exact List.mem_append_right _ hnew
        · cases hnew

/-- Each record beats those before it. -/
theorem pairwise_records (byBlocks : Bool) (finds : List α) :
    (records byBlocks finds).Pairwise fun earlier later => beats byBlocks later earlier = true := by
  induction finds using List.reverseRecOn with
  | nil => exact List.Pairwise.nil
  | append_singleton finds find ih =>
      have hbest := isBest_bestOf byBlocks finds
      rw [records_concat hbest, List.pairwise_append]
      refine ⟨ih, by split <;> simp, fun earlier hearlier later hlater => ?_⟩
      split at hlater
      · next himproves =>
        rw [List.mem_singleton.mp hlater]
        exact (hbest.improves_iff find).mp himproves earlier (mem_of_mem_records hearlier)
      · cases hlater

/-- Comparing with the best of the finds that were seen is comparing with all of them. -/
theorem IsBest.recordsAfter_eq {seen : List α} {best : Option α} (h : IsBest byBlocks seen best)
    (finds : List α) :
    recordsAfter byBlocks seen finds = recordsAfter byBlocks best.toList finds := by
  induction finds generalizing seen best with
  | nil => rfl
  | cons find rest ih =>
      have hown := isBest_toList byBlocks best
      have hall : seen.all (beats byBlocks find) = best.toList.all (beats byBlocks find) := by
        rw [Bool.eq_iff_iff, List.all_eq_true, List.all_eq_true, ← h.improves_iff,
          ← hown.improves_iff]
      have hrest : recordsAfter byBlocks (seen ++ [find]) rest
          = recordsAfter byBlocks (best.toList ++ [find]) rest := by
        rw [ih (h.keepBetter find), ih (hown.keepBetter find)]
      rw [recordsAfter, recordsAfter, hall, hrest]

/-- The first find is a record if it ranks above the best one, and the others are compared with
whichever of the two is better. -/
theorem recordsAfter_toList_cons (best : Option α) (find : α) (rest : List α) :
    recordsAfter byBlocks best.toList (find :: rest)
      = (if (Scored.score find).improves byBlocks (best.map Scored.score) then [find] else [])
        ++ recordsAfter byBlocks (keepBetter byBlocks best find).toList rest := by
  have hbest := isBest_toList byBlocks best
  have hiff := hbest.improves_iff find
  rw [recordsAfter, (hbest.keepBetter find).recordsAfter_eq]
  by_cases hall : ∀ other ∈ best.toList, beats byBlocks find other = true
  · rw [if_pos (List.all_eq_true.mpr hall), if_pos (hiff.mpr hall)]
    rfl
  · rw [if_neg (mt List.all_eq_true.mp hall), if_neg (mt hiff.mp hall)]
    rfl

/-- The last record is the best find, if there is a record at all. -/
theorem getLast?_recordsAfter (best : Option α) (finds : List α) :
    (recordsAfter byBlocks best.toList finds).getLast?.or best
      = finds.foldl (keepBetter byBlocks) best := by
  induction finds generalizing best with
  | nil => rfl
  | cons find rest ih =>
      rw [recordsAfter_toList_cons, List.foldl_cons, ← ih, List.getLast?_append, Option.or_assoc]
      congr 1
      rw [keepBetter]
      split <;> rfl

/-- The last record is the best find. -/
theorem getLast?_records (byBlocks : Bool) (finds : List α) :
    (records byBlocks finds).getLast? = bestOf byBlocks finds := by
  have hlast := @getLast?_recordsAfter _ _ byBlocks none finds
  rwa [Option.or_none] at hlast

end KeySearch
