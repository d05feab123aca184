import KeySearch.CommandLine.Timeout
import KeySearch.Proofs.IntegerTexts
import Mathlib.Data.List.Basic

/-!
# Which texts are time limits

A time limit is to be a number of seconds, or hours and the minutes of an hour with a colon between them.
`read_outcome` says what is accepted: without a colon every integer, and with one any two integers. The
parts are not looked at on their own, so there are more minutes than an hour has, and negative ones that
only make the sum smaller (`not_forall_read_clock`).
-/

set_option autoImplicit false

namespace KeySearch.CommandLine.Timeout

/-- A text is two integers with a colon between them. -/
def Pair (text : List Nat) (hours minutes : Int) : Prop :=
  ∃ front back, text = front ++ 0x3a :: back ∧ 0x3a ∉ front ∧ 0x3a ∉ back
    ∧ Literal.Spells front hours ∧ Literal.Spells back minutes

/-- A text is hours and minutes of an hour, neither of them negative, and so many seconds. -/
def Clock (text : List Nat) (seconds : Int) : Prop :=
  ∃ hours minutes, Pair text hours minutes ∧ 0 ≤ hours ∧ 0 ≤ minutes ∧ minutes ≤ 59
    ∧ seconds = 3600 * hours + 60 * minutes

variable {text front back : List Nat} {seconds hours minutes : Int}

/-! ## Colons -/

theorem splitColons_ne_nil (text : List Nat) : splitColons text ≠ [] := by
  cases text with
  | nil => exact List.cons_ne_nil _ _
  | cons c rest =>
      rw [splitColons]
      split
      · exact List.cons_ne_nil _ _
      · split <;> exact List.cons_ne_nil _ _

theorem splitColons_colon (rest : List Nat) : splitColons (0x3a :: rest) = [] :: splitColons rest := by
  rw [splitColons]
  split
  · next hnil => exact absurd hnil (splitColons_ne_nil rest)
  · next part parts hparts => rw [if_pos rfl, hparts]

/-- What stands in front of the first colon goes to the first part. -/
theorem splitColons_append (h : 0x3a ∉ front) {part : List Nat} {parts : List (List Nat)}
    (hrest : splitColons back = part :: parts) :
    splitColons (front ++ back) = (front ++ part) :: parts := by
  induction front with
  | nil => exact hrest
  | cons c rest ih =>
      rw [List.mem_cons, not_or] at h
      rw [List.cons_append, splitColons, ih h.2]
      dsimp only
      rw [if_neg (Ne.symm h.1)]
      rfl

theorem splitColons_of_not_mem (h : 0x3a ∉ text) : splitColons text = [text] := by
  have hsplit : splitColons (text ++ []) = [text ++ []] := splitColons_append h rfl
  rwa [List.append_nil] at hsplit

theorem splitColons_pair (h : 0x3a ∉ front) (rest : List Nat) :
    splitColons (front ++ 0x3a :: rest) = front :: splitColons rest := by
  rw [splitColons_append h (splitColons_colon rest), List.append_nil]

/-- A text with a colon in it, at the first one. -/
theorem exists_first_colon (h : 0x3a ∈ text) : ∃ front back, text = front ++ 0x3a :: back ∧ 0x3a ∉ front := by
  induction text with
  | nil => cases h
  | cons c rest ih =>
      by_cases hc : c = 0x3a
      · exact ⟨[], rest, by rw [hc]; rfl, List.not_mem_nil⟩
      · obtain ⟨front, back, rfl, hfront⟩ := ih ((List.mem_cons.mp h).resolve_left (Ne.symm hc))
        refine ⟨c :: front, back, rfl, ?_⟩
        rw [List.mem_cons, not_or]
        exact ⟨Ne.symm hc, hfront⟩

/-! ## What is read -/

theorem readPart_eq_some_iff {n : Int} : readPart text = some n ↔ Literal.Spells text n := by
  rw [← Literal.read_eq_ok_iff, readPart]
  cases Literal.read text <;> simp [Except.toOption]

theorem read_of_not_mem (h : 0x3a ∉ text) : read text = some seconds ↔ Literal.Spells text seconds := by
  rw [read, splitColons_of_not_mem h]
  exact readPart_eq_some_iff

/-- Hours and minutes can be told from a text in one way only: the colon between them is the only one. -/
theorem pair_iff (hfront : 0x3a ∉ front) : Pair (front ++ 0x3a :: back) hours minutes ↔
    0x3a ∉ back ∧ Literal.Spells front hours ∧ Literal.Spells back minutes := by
  constructor
  · rintro ⟨front', back', heq, hfront', hback', hhours, hminutes⟩
    obtain ⟨rfl, -, rfl⟩ := (List.append_cons_inj_of_notMem hfront' hback').mp heq.symm
    exact ⟨hback', hhours, hminutes⟩
  · rintro ⟨hback, hhours, hminutes⟩
    exact ⟨front, back, rfl, hfront, hback, hhours, hminutes⟩

theorem Pair.unique {hours' minutes' : Int} (h : Pair text hours minutes)
    (h' : Pair text hours' minutes') : hours = hours' ∧ minutes = minutes' := by
  obtain ⟨front, back, rfl, hfront, -, hhours, hminutes⟩ := h
  obtain ⟨-, hhours', hminutes'⟩ := (pair_iff hfront).mp h'
  exact ⟨hhours.unique hhours', hminutes.unique hminutes'⟩

theorem Pair.mem (h : Pair text hours minutes) : 0x3a ∈ text := by
  obtain ⟨front, back, rfl, -⟩ := h
  exact List.mem_append_right front List.mem_cons_self

theorem read_of_one_colon (hfront : 0x3a ∉ front) (hback : 0x3a ∉ back) :
    read (front ++ 0x3a :: back) = some seconds ↔ ∃ hours minutes,
      Literal.Spells front hours ∧ Literal.Spells back minutes
        ∧ seconds = 3600 * hours + 60 * minutes := by
  rw [read, splitColons_pair hfront, splitColons_of_not_mem hback]
  dsimp only
  simp only [← readPart_eq_some_iff]
  cases readPart front with
  | none => simp
  | some h =>
      cases readPart back with
      | none => simp
      | some m =>
          simp only [Option.some.injEq]
          constructor
          · rintro rfl
            exact ⟨h, m, rfl, rfl, by omega⟩
          · rintro ⟨_, _, rfl, rfl, rfl⟩
            omega

/-- More than one colon makes no time limit. -/
theorem read_of_two_colons (hfront : 0x3a ∉ front) (hback : 0x3a ∈ back) :
    read (front ++ 0x3a :: back) = none := by
  obtain ⟨middle, rest, rfl, hmiddle⟩ := exists_first_colon hback
  rw [read, splitColons_pair hfront, splitColons_pair hmiddle]
  cases hrest : splitColons rest with
  | nil => exact absurd hrest (splitColons_ne_nil rest)
  | cons part parts => rfl

theorem read_of_mem (h : 0x3a ∈ text) : read text = some seconds ↔
    ∃ hours minutes, Pair text hours minutes ∧ seconds = 3600 * hours + 60 * minutes := by
  obtain ⟨front, back, rfl, hfront⟩ := exists_first_colon h
  simp only [pair_iff hfront]
  -- with a second colon there is a third part, so no pair, and nothing is read either
  by_cases hback : 0x3a ∈ back
  · rw [read_of_two_colons hfront hback]
    simp [hback]
  · rw [read_of_one_colon hfront hback]
    simp [hback, and_assoc]

/-- **What a time limit may be.** Without a colon it is an integer, and so many seconds. With a colon it
is two integers around the only one, as hours and minutes. All else is refused. A time of hours and
minutes is among what is accepted, with its seconds, but it is not all: what decides about a text with a
colon is that its parts are integers, whereas it is a time only if neither of them is negative and the
minutes are below sixty. -/
theorem read_outcome (text : List Nat) :
    (0x3a ∉ text → ∀ seconds, read text = some seconds ↔ Literal.Spells text seconds)
      ∧ (0x3a ∈ text → ∀ seconds, read text = some seconds ↔
          ∃ hours minutes, Pair text hours minutes ∧ seconds = 3600 * hours + 60 * minutes)
      ∧ (∀ seconds, Clock text seconds → read text = some seconds)
      ∧ ∀ hours minutes, Pair text hours minutes →
          (Clock text (3600 * hours + 60 * minutes) ↔ 0 ≤ hours ∧ 0 ≤ minutes ∧ minutes ≤ 59) := by
  refine ⟨fun h seconds => read_of_not_mem h, fun h seconds => read_of_mem h, ?_, ?_⟩
  · rintro seconds ⟨hours, minutes, hpair, -, -, -, rfl⟩
    exact (read_of_mem hpair.mem).mpr ⟨hours, minutes, hpair, rfl⟩
  · intro hours minutes hpair
    constructor
    · rintro ⟨hours', minutes', hpair', hhours, hminutes, hle, -⟩
      obtain ⟨rfl, rfl⟩ := hpair.unique hpair'
      exact ⟨hhours, hminutes, hle⟩
    · rintro ⟨hhours, hminutes, hle⟩
      exact ⟨hours, minutes, hpair, hhours, hminutes, hle, rfl⟩

/-- The text of two hours less thirty minutes. -/
def lessThirty : List Nat := Text.codePoints "2:-30"

theorem pair_lessThirty : Pair lessThirty 2 (-30) := by
  refine ⟨[0x32], [0x2d, 0x33, 0x30], by decide, by decide, by decide, ?_, ?_⟩
  · exact Literal.read_eq_ok_iff.mp (by decide +kernel)
  · exact Literal.read_eq_ok_iff.mp (by decide +kernel)

/-- Two hours less thirty minutes are accepted as an hour and a half, and they are no time. -/
theorem read_outcome_lessThirty : read lessThirty = some 5400 ∧ ¬ Clock lessThirty 5400 := by
  obtain ⟨-, hcolon, -, hclock⟩ := read_outcome lessThirty
  have htime := hclock 2 (-30) pair_lessThirty
  refine ⟨(hcolon (by decide) 5400).mpr ⟨2, -30, pair_lessThirty, rfl⟩, fun h => ?_⟩
  exact absurd (htime.mp h).2.1 (by decide)

/-- Not every text with a colon that is accepted is a time, even if the seconds are not negative. -/
theorem not_forall_read_clock :
    ¬ ∀ (text : List Nat) (seconds : Int), 0x3a ∈ text → read text = some seconds → 0 ≤ seconds →
      Clock text seconds := by
  intro hall
  obtain ⟨hours, minutes, hpair, -, hminutes, -, -⟩ :=
    hall lessThirty 5400 (by decide) (by decide +kernel) (by decide)
  obtain ⟨-, rfl⟩ := hpair.unique pair_lessThirty
  exact absurd hminutes (by decide)

end KeySearch.CommandLine.Timeout
