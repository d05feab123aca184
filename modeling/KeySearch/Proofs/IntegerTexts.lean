import KeySearch.Number.Literal
import Mathlib.Data.List.TakeWhile

/-!
# Texts of integers

The grammar of integer literals, which says nothing of how they are read: white space, a sign or none,
digits of any script with single underscores between them, white space. `read_eq_ok_iff` says that
`Literal.read` accepts the texts of this grammar that have no more than 4300 digits, and no others.
-/

set_option autoImplicit false

namespace KeySearch.Literal

/-- A text is a row of digits, with single underscores between some of them; the digits have the given
values. -/
inductive Numeral : List Nat → List Nat → Prop
  | last {c d : Nat} (h : Text.digitValue? c = some d) : Numeral [c] [d]
  | digit {c d : Nat} {text ds : List Nat} (h : Text.digitValue? c = some d)
      (hrest : Numeral text ds) : Numeral (c :: text) (d :: ds)
  | underscore {c d : Nat} {text ds : List Nat} (h : Text.digitValue? c = some d)
      (hrest : Numeral text ds) : Numeral (c :: 0x5f :: text) (d :: ds)

/-- A sign in front of a number, or none, and whether it makes the number negative. -/
inductive Sign : List Nat → Bool → Prop
  | none : Sign [] false
  | plus : Sign [0x2b] false
  | minus : Sign [0x2d] true

/-- A text is a literal of an integer. -/
def Spells (text : List Nat) (n : Int) : Prop :=
  ∃ front sign body back negative digits, text = front ++ (sign ++ (body ++ back))
    ∧ (∀ c ∈ front, isMargin c = true) ∧ (∀ c ∈ back, isMargin c = true) ∧ Sign sign negative
    ∧ Numeral body digits ∧ digits.length ≤ maxDigits
    ∧ n = if negative then -(ofDigits digits : Int) else (ofDigits digits : Int)

/-! ## What characters a literal is made of -/

theorem isMargin_digits : ∀ start ∈ Text.digitZeros, ∀ i < 10, isMargin (start + i) = false := by
  decide +kernel

theorem not_isMargin_of_digit {c d : Nat} (h : Text.digitValue? c = some d) : isMargin c = false := by
  have hstart : ∃ start ∈ Text.digitZeros, start ≤ c ∧ c ≤ start + 9 := by
    unfold Text.digitValue? at h
    split at h
    · next hascii =>
      split at h
      · next hrange =>
        rw [Bool.and_eq_true, decide_eq_true_eq, decide_eq_true_eq] at hrange
        exact ⟨0x30, by decide, hrange⟩
      · cases h
    · obtain ⟨start, hfind, -⟩ := Option.map_eq_some_iff.mp h
      have hrange := List.find?_some hfind
      rw [Bool.and_eq_true, decide_eq_true_eq, decide_eq_true_eq] at hrange
      exact ⟨start, List.mem_of_find?_eq_some hfind, hrange⟩
  obtain ⟨start, hmem, hlow, hhigh⟩ := hstart
  have hmargin := isMargin_digits start hmem (c - start) (by omega)
  rwa [Nat.add_sub_cancel' hlow] at hmargin

theorem ne_of_digit {c d other : Nat} (h : Text.digitValue? c = some d)
    (hother : Text.digitValue? other = none) : c ≠ other := by
  rintro rfl
  cases hother.symm.trans h

theorem digitValue?_of_isMargin {c : Nat} (h : isMargin c = true) : Text.digitValue? c = none := by
  cases hd : Text.digitValue? c with
  | none => rfl
  | some d =>
      rw [not_isMargin_of_digit hd] at h
      cases h

section Grammar

variable {text rest body back ds : List Nat}

/-- A numeral begins with a digit. -/
theorem Numeral.exists_digit (h : Numeral body ds) :
    ∃ c d more, body = c :: more ∧ Text.digitValue? c = some d := by
  cases h with
  | last h => exact ⟨_, _, _, rfl, h⟩
  | digit h _ => exact ⟨_, _, _, rfl, h⟩
  | underscore h _ => exact ⟨_, _, _, rfl, h⟩

/-! ## Digits -/

theorem readDigits_digit {c d : Nat} (h : Text.digitValue? c = some d) (atEdge : Bool) :
    readDigits atEdge (c :: rest) = (readDigits false rest).map fun (ds, rest) => (d :: ds, rest) := by
  rw [readDigits, if_neg (ne_of_digit h (by decide)), h]

theorem readDigits_margin (hback : ∀ c ∈ back, isMargin c = true) :
    readDigits false back = some ([], back) := by
  cases back with
  | nil => rfl
  | cons c rest =>
      have hc := hback c List.mem_cons_self
      have hne : c ≠ 0x5f := by
        rintro rfl
        exact absurd hc (by decide)
      rw [readDigits, if_neg hne, digitValue?_of_isMargin hc]
      rfl

/-- A numeral is read up to the white space behind it. -/
theorem Numeral.readDigits_append (h : Numeral body ds) (hback : ∀ c ∈ back, isMargin c = true)
    (atEdge : Bool) : readDigits atEdge (body ++ back) = some (ds, back) := by
  induction h generalizing atEdge with
  | last h =>
      rw [List.singleton_append, readDigits_digit h, readDigits_margin hback]
      rfl
  | digit h _ ih =>
      rw [List.cons_append, readDigits_digit h, ih]
      rfl
  | underscore h _ ih =>
      have hunderscore : ∀ more, readDigits false (0x5f :: more) = readDigits true more := fun _ => rfl
      rw [List.cons_append, List.cons_append, readDigits_digit h, hunderscore, ih]
      rfl

/-- What is read at the edge of a number is a numeral. Behind a digit, a numeral follows, or an
underscore and a numeral, or the number is at its end. -/
theorem exists_numeral_of_readDigits :
    (readDigits true text = some (ds, rest) → ∃ body, text = body ++ rest ∧ Numeral body ds)
      ∧ (readDigits false text = some (ds, rest) → (ds = [] ∧ text = rest)
        ∨ ∃ body, Numeral body ds ∧ (text = body ++ rest ∨ text = 0x5f :: (body ++ rest))) := by
  induction text generalizing ds rest with
  | nil =>
      constructor
      · intro h
        cases h
      · intro h
        cases h
        exact .inl ⟨rfl, rfl⟩
  | cons c more ih =>
      by_cases hunderscore : c = 0x5f
      · subst hunderscore
        constructor
        · intro h
          cases h
        · intro h
          obtain ⟨body, rfl, hbody⟩ := ih.1 h
          exact .inr ⟨body, hbody, .inr rfl⟩
      · cases hc : Text.digitValue? c with
        | none =>
            have hedge : ∀ atEdge, readDigits atEdge (c :: more)
                = if atEdge then none else some ([], c :: more) := by
              intro atEdge
              rw [readDigits, if_neg hunderscore, hc]
            constructor
            · intro h
              rw [hedge] at h
              cases h
            · intro h
              rw [hedge] at h
              cases h
              exact .inl ⟨rfl, rfl⟩
        | some d =>
            -- the same whatever was before: the digit begins the numeral
            have hdigit : ∀ atEdge, readDigits atEdge (c :: more) = some (ds, rest) →
                ∃ body, c :: more = body ++ rest ∧ Numeral body ds := by
              intro atEdge h
              rw [readDigits_digit hc] at h
              obtain ⟨⟨others, behind⟩, hrest, hpair⟩ := Option.map_eq_some_iff.mp h
              cases hpair
              rcases ih.2 hrest with ⟨rfl, rfl⟩ | ⟨body, hbody, rfl | rfl⟩
              · exact ⟨[c], rfl, .last hc⟩
              · exact ⟨c :: body, rfl, .digit hc hbody⟩
              · exact ⟨c :: 0x5f :: body, rfl, .underscore hc hbody⟩
            constructor
            · exact hdigit true
            · intro h
              obtain ⟨body, htext, hbody⟩ := hdigit false h
              exact .inr ⟨body, hbody, .inl htext⟩

/-! ## Signs -/

theorem sign_readSign (text : List Nat) :
    ∃ sign, Sign sign (readSign text).1 ∧ text = sign ++ (readSign text).2 := by
  unfold readSign
  split
  · exact ⟨_, .plus, rfl⟩
  · exact ⟨_, .minus, rfl⟩
  · exact ⟨_, .none, rfl⟩

/-- In front of a numeral no sign is overlooked. -/
theorem Sign.readSign_append {sign : List Nat} {negative : Bool} (h : Sign sign negative)
    (hbody : Numeral body ds) : readSign (sign ++ (body ++ back)) = (negative, body ++ back) := by
  cases h with
  | plus => rfl
  | minus => rfl
  | none =>
      obtain ⟨c, d, more, rfl, hc⟩ := hbody.exists_digit
      have hplus : c ≠ 0x2b := ne_of_digit hc (by decide)
      have hminus : c ≠ 0x2d := ne_of_digit hc (by decide)
      rw [List.nil_append, List.cons_append, readSign.eq_def]
      split
      · next heq => exact absurd (List.cons.inj heq).1 hplus
      · next heq => exact absurd (List.cons.inj heq).1 hminus
      · rfl

/-- Neither a sign nor a digit is white space. -/
theorem Sign.dropWhile_append {sign : List Nat} {negative : Bool} (h : Sign sign negative)
    (hbody : Numeral body ds) :
    (sign ++ (body ++ back)).dropWhile isMargin = sign ++ (body ++ back) := by
  cases h with
  | plus => rfl
  | minus => rfl
  | none =>
      obtain ⟨c, d, more, rfl, hc⟩ := hbody.exists_digit
      rw [List.nil_append, List.cons_append, List.dropWhile_cons_of_neg]
      rw [not_isMargin_of_digit hc]
      exact Bool.false_ne_true

/-! ## Whole literals -/

theorem dropWhile_eq_nil_iff_margin :
    (!(rest.dropWhile isMargin).isEmpty) = false ↔ ∀ c ∈ rest, isMargin c = true := by
  rw [Bool.not_eq_false', List.isEmpty_iff, List.dropWhile_eq_nil_iff]

theorem read_of_readDigits {negative : Bool} {body : List Nat}
    (hsign : readSign (text.dropWhile isMargin) = (negative, body))
    (hdigits : readDigits true body = some (ds, rest)) :
    read text = if maxDigits < ds.length then .error (.tooLong ds.length)
      else if !(rest.dropWhile isMargin).isEmpty then .error (.malformed text)
      else .ok (if negative then -(ofDigits ds : Int) else (ofDigits ds : Int)) := by
  rw [read, hsign]
  dsimp only
  rw [hdigits]
  rfl

/-- **The integers that are read are those of the grammar.** A text is accepted exactly if it is a
literal of at most 4300 digits, and gives the number that it spells. -/
theorem read_eq_ok_iff {n : Int} : read text = .ok n ↔ Spells text n := by
  constructor
  · intro h
    obtain ⟨sign, hsign, hbody⟩ := sign_readSign (text.dropWhile isMargin)
    generalize hread : readSign (text.dropWhile isMargin) = found at hsign hbody
    obtain ⟨negative, body⟩ := found
    cases hdigits : readDigits true body with
    | none =>
        rw [read, hread] at h
        dsimp only at h
        rw [hdigits] at h
        cases h
    | some found =>
        obtain ⟨ds, rest⟩ := found
        rw [read_of_readDigits hread hdigits] at h
        split at h
        · cases h
        next hlength =>
        split at h
        · cases h
        next hrest =>
        cases h
        -- the readers took the text apart into the parts of the grammar, and what they left is space
        have hmargin := dropWhile_eq_nil_iff_margin.mp (Bool.eq_false_iff.mpr hrest)
        obtain ⟨numeral, rfl, hnumeral⟩ := exists_numeral_of_readDigits.1 hdigits
        refine ⟨text.takeWhile isMargin, sign, numeral, rest, negative, ds, ?_, ?_, hmargin, hsign,
          hnumeral, Nat.le_of_not_lt hlength, rfl⟩
        · rw [← hbody, List.takeWhile_append_dropWhile]
        · exact fun c hc => List.all_eq_true.mp List.all_takeWhile c hc
  · rintro ⟨front, sign, body, back, negative, ds, rfl, hfront, hback, hsign, hbody, hlength, rfl⟩
    -- every reader stops where the next part of the grammar begins
    have hdrop : (front ++ (sign ++ (body ++ back))).dropWhile isMargin = sign ++ (body ++ back) := by
      rw [List.dropWhile_append_of_pos hfront, hsign.dropWhile_append hbody]
    have hread : readSign (sign ++ (body ++ back)) = (_, body ++ back) := hsign.readSign_append hbody
    rw [← hdrop] at hread
    rw [read_of_readDigits hread (hbody.readDigits_append hback true),
      if_neg (Nat.not_lt.mpr hlength), dropWhile_eq_nil_iff_margin.mpr hback, if_neg Bool.false_ne_true]

/-- A text spells one integer at most. -/
theorem Spells.unique {n m : Int} (h : Spells text n) (h' : Spells text m) : n = m := by
  have hsame := (read_eq_ok_iff.mpr h).symm.trans (read_eq_ok_iff.mpr h')
  exact Except.ok.inj hsame

end Grammar

end KeySearch.Literal
