import KeySearch.Proofs.DurationTexts
import Mathlib.Algebra.Order.Field.Rat
import Mathlib.Data.Nat.Cast.Field
import Mathlib.Tactic.Linarith

/-!
# Durations read back

`read` takes the text of a duration apart again: numbers with a point, each in front of its unit. The
text of a number of nanoseconds is read back as exactly that number (`IsText.read_eq`), so no two numbers
have the same text. `text_outcome` says what this comes to for what is printed: it is the text of the
number except for milliseconds with a part of a microsecond, which are printed without that part.
-/

set_option autoImplicit false

namespace KeySearch.Duration

/-! ## Reading back -/

/-- The nanoseconds of the unit at the front of a text, and what stands behind it. -/
def readUnit : List Char → Option (Nat × List Char)
  | 'n' :: 's' :: rest => some (1, rest)
  | 'µ' :: 's' :: rest => some (1000, rest)
  | 'm' :: 's' :: rest => some (1000000, rest)
  | 's' :: rest => some (second, rest)
  | 'm' :: rest => some (minute, rest)
  | 'h' :: rest => some (hour, rest)
  | _ => none

/-- The decimal number at the front of a text, and what stands behind it. -/
def readNumber (text : List Char) : ℚ × List Char :=
  let whole : ℚ := Nat.ofDigitChars 10 (text.takeWhile Char.isDigit) 0
  match text.dropWhile Char.isDigit with
  | '.' :: rest =>
    let part := rest.takeWhile Char.isDigit
    (whole + Nat.ofDigitChars 10 part 0 / 10 ^ part.length, rest.dropWhile Char.isDigit)
  | rest => (whole, rest)

/-- The nanoseconds of the number and the unit at the front of a text, and what stands behind them. -/
def readAmount (text : List Char) : Option (ℚ × List Char) :=
  (readUnit (readNumber text).2).map fun (size, rest) => ((readNumber text).1 * size, rest)

theorem length_lt_of_readUnit {text rest : List Char} {size : Nat}
    (h : readUnit text = some (size, rest)) : rest.length < text.length := by
  unfold readUnit at h
  split at h <;> cases h <;> simp only [List.length_cons] <;> omega

theorem length_readNumber_le (text : List Char) : (readNumber text).2.length ≤ text.length := by
  have hdrop : ∀ cs : List Char, (cs.dropWhile Char.isDigit).length ≤ cs.length :=
    fun cs => (List.dropWhile_suffix _).length_le
  have hfirst := hdrop text
  unfold readNumber
  dsimp only
  split
  · next rest hrest =>
    rw [hrest, List.length_cons] at hfirst
    have hsecond := hdrop rest
    dsimp only
    omega
  · exact hfirst

theorem length_lt_of_readAmount {text rest : List Char} {value : ℚ}
    (h : readAmount text = some (value, rest)) : rest.length < text.length := by
  obtain ⟨⟨size, rest'⟩, hunit, hpair⟩ := Option.map_eq_some_iff.mp h
  cases hpair
  exact (length_lt_of_readUnit hunit).trans_le (length_readNumber_le text)

/-- The sum of the amounts of a text. -/
def readAmounts (text : List Char) : Option ℚ :=
  match _h : readAmount text with
  | none => none
  | some (value, rest) => if rest = [] then some value else (readAmounts rest).map (value + ·)
termination_by text.length
decreasing_by exact length_lt_of_readAmount _h

/-- The nanoseconds of a text. -/
def read : List Char → Option ℚ
  | '-' :: text => (readAmounts text).map fun ns => -ns
  | text => readAmounts text

section Read

variable {size ns : Nat} {text tail rest : List Char}

theorem readAmounts_last {value : ℚ} (h : readAmount text = some (value, [])) :
    readAmounts text = some value := by
  rw [readAmounts]
  split
  · next hnone => cases hnone.symm.trans h
  · next hsome =>
    cases hsome.symm.trans h
    rfl

theorem readAmounts_more {value : ℚ} (h : readAmount text = some (value, rest)) (hne : rest ≠ []) :
    readAmounts text = (readAmounts rest).map (value + ·) := by
  rw [readAmounts]
  split
  · next hnone => cases hnone.symm.trans h
  · next hsome =>
    cases hsome.symm.trans h
    exact if_neg hne

theorem isDigit_digits (n : Nat) : ∀ c ∈ Decimal.digits n, c.isDigit = true :=
  fun _ hc => Nat.isDigit_of_mem_toDigits (by decide) (by decide) hc

/-- A text that neither a digit nor a point begins goes on behind a number. -/
def Stops (tail : List Char) : Prop := ∀ c ∈ tail.head?, c.isDigit = false ∧ c ≠ '.'

theorem stops_of_readUnit (h : readUnit tail = some (size, rest)) : Stops tail := by
  have hfirst : ∃ c ∈ ['n', 'µ', 'm', 's', 'h'], tail.head? = some c := by
    unfold readUnit at h
    split at h <;> first | exact ⟨_, by decide, rfl⟩ | cases h
  have hletters : ∀ c ∈ ['n', 'µ', 'm', 's', 'h'], c.isDigit = false ∧ c ≠ '.' := by
    simp only [List.forall_mem_cons]
    refine ⟨?_, ?_, ?_, ?_, ?_, List.forall_mem_nil _⟩ <;> decide
  obtain ⟨first, hmem, hhead⟩ := hfirst
  intro c hc
  obtain rfl : first = c := Option.some.inj (hhead.symm.trans hc)
  exact hletters first hmem

theorem takeWhile_digits {ds : List Char} (hds : ∀ c ∈ ds, c.isDigit = true)
    (htail : ∀ c ∈ tail.head?, c.isDigit = false) :
    (ds ++ tail).takeWhile Char.isDigit = ds ∧ (ds ++ tail).dropWhile Char.isDigit = tail := by
  rw [List.takeWhile_append_of_pos hds, List.dropWhile_append_of_pos hds]
  cases tail with
  | nil => simp
  | cons c rest =>
      have hc : c.isDigit = false := htail c rfl
      simp [hc]

theorem readNumber_whole (n : Nat) (htail : Stops tail) :
    readNumber (Decimal.digits n ++ tail) = ((n : ℚ), tail) := by
  obtain ⟨htake, hdrop⟩ := takeWhile_digits (isDigit_digits n) fun c hc => (htail c hc).1
  have hvalue : Nat.ofDigitChars 10 (Decimal.digits n) 0 = n := Nat.ofDigitChars_ten_toDigits
  unfold readNumber
  rw [htake, hdrop, hvalue]
  dsimp only
  split
  · exact absurd rfl (htail '.' rfl).2
  · rfl

theorem readNumber_broken (n : Nat) {ds : List Char} (hds : ∀ c ∈ ds, c.isDigit = true)
    (htail : Stops tail) : readNumber (Decimal.digits n ++ '.' :: ds ++ tail)
      = ((n : ℚ) + Nat.ofDigitChars 10 ds 0 / 10 ^ ds.length, tail) := by
  have hpoint : ∀ c ∈ ('.' :: (ds ++ tail)).head?, c.isDigit = false := by
    intro c hc
    cases hc
    rfl
  obtain ⟨htake, hdrop⟩ := takeWhile_digits (isDigit_digits n) hpoint
  obtain ⟨htake', hdrop'⟩ := takeWhile_digits hds fun c hc => (htail c hc).1
  have hvalue : Nat.ofDigitChars 10 (Decimal.digits n) 0 = n := Nat.ofDigitChars_ten_toDigits
  unfold readNumber
  rw [List.append_assoc, List.cons_append, htake, hdrop, hvalue]
  dsimp only
  split
  · next heq =>
    cases heq
    rw [htake', hdrop']
  · next hne => exact absurd rfl (hne _)

/-- An amount is read back exactly. -/
theorem Amount.readNumber_eq (hsize : 0 < size) (h : Amount size ns text) (htail : Stops tail) :
    readNumber (text ++ tail) = ((ns : ℚ) / size, tail) := by
  have hne : (size : ℚ) ≠ 0 := by exact_mod_cast hsize.ne'
  cases h with
  | whole hdvd => rw [readNumber_whole _ htail, Nat.cast_div hdvd hne]
  | @broken ds hdigits _ _ hvalue =>
      have hpow : (10 : ℚ) ^ ds.length ≠ 0 := pow_ne_zero _ (by norm_num)
      have hvalue : (Nat.ofDigitChars 10 ds 0 : ℚ) * size = (ns % size : Nat) * 10 ^ ds.length := by
        exact_mod_cast hvalue
      have hsplit : (ns : ℚ) = size * (ns / size : Nat) + (ns % size : Nat) := by
        exact_mod_cast (Nat.div_add_mod ns size).symm
      rw [readNumber_broken _ hdigits htail]
      congr 1
      -- the whole units and the fraction of one are the two parts of a division
      rw [eq_div_iff hne, add_mul, div_mul_eq_mul_div, hvalue, mul_div_assoc, div_self hpow]
      linarith

theorem Amount.readAmount_eq (hsize : 0 < size) (h : Amount size ns text)
    (hunit : readUnit tail = some (size, rest)) : readAmount (text ++ tail) = some ((ns : ℚ), rest) := by
  have hne : (size : ℚ) ≠ 0 := by exact_mod_cast hsize.ne'
  rw [readAmount, h.readNumber_eq hsize (stops_of_readUnit hunit), hunit, Option.map_some]
  dsimp only
  rw [div_mul_cancel₀ _ hne]

/-- So many whole units are an amount of them. -/
theorem readAmount_whole {n : Nat} (hsize : 0 < size) (hunit : readUnit tail = some (size, rest)) :
    readAmount (Decimal.digits n ++ tail) = some (((n * size : Nat) : ℚ), rest) := by
  have hamount : Amount size (n * size) (Decimal.digits (n * size / size)) :=
    .whole (Nat.dvd_mul_left size n)
  rw [Nat.mul_div_cancel _ hsize] at hamount
  exact hamount.readAmount_eq hsize hunit

theorem exists_digit_digits (n : Nat) :
    ∃ c rest, Decimal.digits n = c :: rest ∧ c.isDigit = true := by
  cases hdigits : Decimal.digits n with
  | nil => exact absurd hdigits Nat.toDigits_ne_nil
  | cons c rest =>
      refine ⟨c, rest, rfl, isDigit_digits n c ?_⟩
      rw [hdigits]
      exact List.mem_cons_self

/-- An amount begins with a digit. -/
theorem Amount.exists_digit (h : Amount size ns text) :
    ∃ c rest, text = c :: rest ∧ c.isDigit = true := by
  obtain ⟨c, rest, hdigits, hc⟩ := exists_digit_digits (ns / size)
  cases h with
  | whole _ => exact ⟨c, rest, hdigits, hc⟩
  | @broken ds _ _ _ _ => exact ⟨c, rest ++ '.' :: ds, by rw [hdigits]; rfl, hc⟩

/-- Minutes are not taken for milliseconds, since digits follow. -/
theorem Amount.readUnit_minutes (h : Amount size ns text) :
    readUnit ('m' :: (text ++ tail)) = some (minute, text ++ tail) := by
  obtain ⟨c, rest, rfl, hc⟩ := h.exists_digit
  have hne : c ≠ 's' := by
    rintro rfl
    cases hc
  simp [readUnit, hne]

theorem Amount.readAmounts_seconds (h : Amount second ns text) :
    readAmounts (text ++ ['s']) = some (ns : ℚ) :=
  readAmounts_last (h.readAmount_eq (by decide) rfl)

theorem Amount.readAmounts_minutes (h : Amount second ns text) (n : Nat) :
    readAmounts (Decimal.digits n ++ 'm' :: (text ++ ['s'])) = some ((n * minute + ns : Nat) : ℚ) := by
  have hne : text ++ ['s'] ≠ [] := List.append_ne_nil_of_right_ne_nil _ (List.cons_ne_nil _ _)
  rw [readAmounts_more (readAmount_whole (by decide) h.readUnit_minutes) hne, h.readAmounts_seconds,
    Option.map_some, Nat.cast_add]

theorem Spells.readAmounts_eq (h : Spells ns text) : readAmounts text = some (ns : ℚ) := by
  cases h with
  | nanoseconds _ _ hamount => exact readAmounts_last (hamount.readAmount_eq (by decide) rfl)
  | microseconds _ _ hamount => exact readAmounts_last (hamount.readAmount_eq (by decide) rfl)
  | milliseconds _ _ hamount => exact readAmounts_last (hamount.readAmount_eq (by decide) rfl)
  | seconds _ _ hamount => exact hamount.readAmounts_seconds
  | minutes _ _ hamount =>
      have hsum : ns / minute * minute + ns % minute = ns := Nat.div_add_mod' ns minute
      rw [hamount.readAmounts_minutes, hsum]
  | @hours amount _ hamount =>
      have hsum : ns / hour * hour + (ns / minute % 60 * minute + ns % minute) = ns := by
        have hminute : minute = 60000000000 := rfl
        have hhour : hour = 3600000000000 := rfl
        rw [hminute, hhour]
        omega
      have hhours : readAmount (Decimal.digits (ns / hour) ++ 'h' ::
          (Decimal.digits (ns / minute % 60) ++ 'm' :: (amount ++ ['s']))) = some _ :=
        readAmount_whole (by decide) rfl
      have hne : Decimal.digits (ns / minute % 60) ++ 'm' :: (amount ++ ['s']) ≠ [] :=
        List.append_ne_nil_of_right_ne_nil _ (List.cons_ne_nil _ _)
      rw [readAmounts_more hhours hne, hamount.readAmounts_minutes, Option.map_some, ← Nat.cast_add, hsum]

theorem Spells.exists_digit (h : Spells ns text) : ∃ c rest, text = c :: rest ∧ c.isDigit = true := by
  have hfront : ∀ {front back : List Char}, (∃ c rest, front = c :: rest ∧ c.isDigit = true) →
      ∃ c rest, front ++ back = c :: rest ∧ c.isDigit = true := by
    rintro front back ⟨c, rest, rfl, hc⟩
    exact ⟨c, rest ++ back, rfl, hc⟩
  cases h with
  | nanoseconds _ _ hamount => exact hfront hamount.exists_digit
  | microseconds _ _ hamount => exact hfront hamount.exists_digit
  | milliseconds _ _ hamount => exact hfront hamount.exists_digit
  | seconds _ _ hamount => exact hfront hamount.exists_digit
  | minutes _ _ _ => exact hfront (exists_digit_digits _)
  | hours _ _ => exact hfront (exists_digit_digits _)

end Read

/-- The text of a number is read back as the number. -/
theorem IsText.read_eq {ns : Int} {text : List Char} (h : IsText ns text) : read text = some (ns : ℚ) := by
  cases h with
  | zero =>
      have hamount : Amount second 0 (Decimal.digits (0 / second)) := .whole (Nat.dvd_zero _)
      exact hamount.readAmounts_seconds.trans (by norm_num)
  | positive hspells =>
      obtain ⟨c, rest, rfl, hc⟩ := hspells.exists_digit
      have hplain : read (c :: rest) = readAmounts (c :: rest) := by
        unfold read
        split
        · next heq =>
          cases heq
          cases hc
        · rfl
      rw [hplain, hspells.readAmounts_eq, Int.cast_natCast]
  | negative hspells =>
      rw [read, hspells.readAmounts_eq, Option.map_some, Int.cast_neg, Int.cast_natCast]

/-- No text is the text of two numbers. -/
theorem IsText.eq_of_eq {ns other : Int} {text : List Char} (h : IsText ns text)
    (h' : IsText other text) : ns = other := by
  have hread := h.read_eq.symm.trans h'.read_eq
  exact_mod_cast Option.some.inj hread

/-! ## What is lost in printing -/

/-- All of a number is printed, unless it is in milliseconds and has a part of a microsecond. -/
theorem kept_eq_iff {ns : Int} :
    kept ns = ns ↔ (1000000 ≤ ns.natAbs → ns.natAbs < second → 1000 ∣ ns) := by
  have hsign : ns.sign * ns.natAbs = ns := Int.sign_mul_natAbs ns
  unfold kept keptNat
  by_cases hmilli : 1000000 ≤ ns.natAbs ∧ ns.natAbs < second
  · have hdvd : kept ns = ns ↔ 1000 ∣ ns := by
      rw [kept, keptNat, if_pos hmilli]
      rcases Int.lt_or_gt_of_ne (show ns ≠ 0 by omega) with hneg | hpos
      · rw [Int.sign_eq_neg_one_of_neg hneg]
        omega
      · rw [Int.sign_eq_one_of_pos hpos]
        omega
    rw [kept, keptNat] at hdvd
    rw [hdvd]
    exact ⟨fun h _ _ => h, fun h => h hmilli.1 hmilli.2⟩
  · rw [if_neg hmilli, hsign]
    exact iff_of_true rfl fun hlow hhigh => absurd ⟨hlow, hhigh⟩ hmilli

section Outcome

variable {seconds other : Quantity} {ns m : Int}

theorem text_of_writable (h : nanoseconds seconds = .ok ns)
    (hwritable : Literal.isWritable (ns.natAbs / hour) = true) :
    text seconds = .ok (String.ofList (chars ns)) := by
  rw [text, h]
  exact if_pos hwritable

theorem text_of_unwritable (h : nanoseconds seconds = .ok ns)
    (hwritable : Literal.isWritable (ns.natAbs / hour) = false) : text seconds = .error .unwritable := by
  rw [text, h]
  exact if_neg (by rw [hwritable]; exact Bool.false_ne_true)

/-- What is printed of two numbers is the same exactly if what is kept of them is. -/
theorem chars_eq_iff : chars ns = chars m ↔ kept ns = kept m := by
  constructor
  · intro h
    exact (isText_chars ns).eq_of_eq (h ▸ isText_chars m)
  · intro h
    exact (isText_chars ns).unique (h ▸ isText_chars m)

/-- **A duration is printed exactly, but for parts of a microsecond in milliseconds.** A number of
nanoseconds has one text, which is read back as that number. Printed is the text of what is kept of it,
so what is read back from the printed text is that, and two durations are printed alike exactly if the
same is kept of them. It is the text of the number itself unless the number is in milliseconds and not in
whole microseconds. Nothing is printed of a number whose hours have too many digits to be written. -/
theorem text_outcome (h : nanoseconds seconds = .ok ns) :
    (∃! exact, IsText ns exact) ∧ (∀ exact, IsText ns exact → read exact = some (ns : ℚ))
      ∧ (Literal.isWritable (ns.natAbs / hour) = true →
          ∃ printed, text seconds = .ok (String.ofList printed) ∧ IsText (kept ns) printed
            ∧ read printed = some (kept ns : ℚ))
      ∧ (Literal.isWritable (ns.natAbs / hour) = false → text seconds = .error .unwritable)
      ∧ ((∃ exact, text seconds = .ok (String.ofList exact) ∧ IsText ns exact) ↔
          Literal.isWritable (ns.natAbs / hour) = true
            ∧ (1000000 ≤ ns.natAbs → ns.natAbs < second → 1000 ∣ ns))
      ∧ ∀ other m, nanoseconds other = .ok m → Literal.isWritable (ns.natAbs / hour) = true →
          Literal.isWritable (m.natAbs / hour) = true →
            (text seconds = text other ↔ kept ns = kept m) := by
  refine ⟨?_, fun exact hexact => hexact.read_eq, fun hwritable => ?_, text_of_unwritable h, ?_, ?_⟩
  · obtain ⟨exact, hexact⟩ := exists_isText ns
    exact ⟨exact, hexact, fun _ hother => hother.unique hexact⟩
  · have hchars := isText_chars ns
    exact ⟨chars ns, text_of_writable h hwritable, hchars, hchars.read_eq⟩
  · rw [← kept_eq_iff]
    constructor
    · rintro ⟨exact, htext, hexact⟩
      cases hwritable : Literal.isWritable (ns.natAbs / hour) with
      | false => cases (text_of_unwritable h hwritable).symm.trans htext
      | true =>
          have hsame := Except.ok.inj ((text_of_writable h hwritable).symm.trans htext)
          rw [String.ofList_inj] at hsame
          exact ⟨rfl, (isText_chars ns).eq_of_eq (hsame ▸ hexact)⟩
    · rintro ⟨hwritable, hkept⟩
      have hchars := isText_chars ns
      rw [hkept] at hchars
      exact ⟨chars ns, text_of_writable h hwritable, hchars⟩
  · intro other m hother hwritable hwritable'
    rw [text_of_writable h hwritable, text_of_writable hother hwritable', Except.ok.injEq,
      String.ofList_inj, chars_eq_iff]

end Outcome

/-- A second, divided by 512: 1.953125 milliseconds. -/
def shortTime : Quantity := .real (.finite false 0x10000000000000 (-61))

/-- It is printed without its last 125 nanoseconds, and so it is printed like 1.953 milliseconds. -/
theorem text_outcome_shortTime :
    nanoseconds shortTime = .ok 1953125
      ∧ ∃ printed, text shortTime = .ok (String.ofList printed) ∧ read printed = some 1953000
        ∧ ¬ IsText 1953125 printed := by
  have hns : nanoseconds shortTime = .ok 1953125 := by decide +kernel
  obtain ⟨-, hread, hprinted, -, -, -⟩ := text_outcome hns
  obtain ⟨printed, htext, -, hback⟩ := hprinted (by decide +kernel)
  have hkept : kept 1953125 = 1953000 := by decide +kernel
  rw [hkept] at hback
  refine ⟨hns, printed, htext, hback, fun hexact => ?_⟩
  have hsame := (hread printed hexact).symm.trans hback
  norm_num at hsame

/-- Not every duration is printed as the text of its number of nanoseconds. -/
theorem not_forall_text_isText :
    ¬ ∀ (seconds : Quantity) (ns : Int), nanoseconds seconds = .ok ns →
      ∃ exact, text seconds = .ok (String.ofList exact) ∧ IsText ns exact := by
  intro hall
  have hns : nanoseconds shortTime = .ok 1953125 := by decide +kernel
  obtain ⟨exact, htext, hexact⟩ := hall shortTime 1953125 hns
  have hsame := Except.ok.inj ((text_of_writable hns (by decide +kernel)).symm.trans htext)
  rw [String.ofList_inj] at hsame
  have hkept := (isText_chars 1953125).eq_of_eq (hsame ▸ hexact)
  exact absurd hkept (by decide +kernel)

end KeySearch.Duration
