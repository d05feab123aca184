import KeySearch.Text.Quoted
import Mathlib.Tactic.Ring

/-!
# What a quoted text gives away

A quoted literal gives the whole text away: whoever sees it can read the text back, code point by code
point, so two texts with one literal are the same (`quoted_injective`).
-/

set_option autoImplicit false

namespace KeySearch.Text

/-- A text all of whose numbers are code points. -/
def Encoded (text : List Nat) : Prop := ∀ c ∈ text, c < 0x110000

/-! ## Digits -/

theorem toString_nat_injective {m n : Nat} (h : toString m = toString n) : m = n := by
  rw [Nat.toString_eq_ofList_toDigits, Nat.toString_eq_ofList_toDigits, String.ofList_inj] at h
  rw [← @Nat.ofDigitChars_ten_toDigits m, h, Nat.ofDigitChars_ten_toDigits]

/-- The value of a lower-case hexadecimal digit. -/
def hexDigitValue (c : Char) : Nat := if c.isDigit then c.toNat - 0x30 else c.toNat - 0x61 + 10

/-- The number that hexadecimal digits spell. -/
def readDigits (digits : List Char) : Nat := digits.foldl (fun n c => n * 16 + hexDigitValue c) 0

theorem hexDigitValue_hexDigit : ∀ n < 16, hexDigitValue (hexDigit n) = n := by decide

theorem length_hexDigits (width n : Nat) : (hexDigits width n).length = width := by
  induction width generalizing n with
  | zero => rfl
  | succ width ih => rw [hexDigits, List.length_append, ih, List.length_singleton]

theorem readDigits_hexDigits (width n : Nat) : readDigits (hexDigits width n) = n % 16 ^ width := by
  induction width generalizing n with
  | zero => rw [Nat.pow_zero, Nat.mod_one]; rfl
  | succ width ih =>
      have hlast : hexDigitValue (hexDigit (n % 16)) = n % 16 :=
        hexDigitValue_hexDigit _ (Nat.mod_lt n (by decide))
      have hfront : readDigits (hexDigits width (n / 16)) = n / 16 % 16 ^ width := ih (n / 16)
      rw [readDigits] at hfront ⊢
      rw [hexDigits, List.foldl_append, hfront, List.foldl_cons, List.foldl_nil, hlast, Nat.pow_succ,
        Nat.mul_comm, Nat.mul_comm (16 ^ width), Nat.mod_mul]
      ring

/-! ## One code point -/

/-- The code point that the first characters between the quotes of a literal stand for, and the
characters behind these. -/
def readCode : List Char → Option (Nat × List Char)
  | [] => none
  | '\\' :: mark :: rest =>
    if mark = 'x' then some (readDigits (rest.take 2), rest.drop 2)
    else if mark = 'u' then some (readDigits (rest.take 4), rest.drop 4)
    else if mark = 'U' then some (readDigits (rest.take 8), rest.drop 8)
    else if mark = 't' then some (0x09, rest)
    else if mark = 'n' then some (0x0a, rest)
    else if mark = 'r' then some (0x0d, rest)
    else some (mark.toNat, rest)
  | c :: rest => some (c.toNat, rest)

theorem readDigits_append (width : Nat) {c : Nat} (h : c < 16 ^ width) (rest : List Char) :
    readDigits ((hexDigits width c ++ rest).take width) = c
      ∧ (hexDigits width c ++ rest).drop width = rest := by
  constructor
  · rw [List.take_left' (length_hexDigits width c), readDigits_hexDigits, Nat.mod_eq_of_lt h]
  · rw [List.drop_left' (length_hexDigits width c)]

/-- A surrogate is not printable, so what is written as itself is a character. -/
theorem isValidChar_of_isPrintable {c : Nat} (hc : c < 0x110000) (h : isPrintable c = true) :
    c.isValidChar := by
  have hsurrogates : ∃ range ∈ unprintableRanges, range.1 ≤ 0xd800 ∧ 0xdfff ≤ range.2 := by
    decide +kernel
  obtain ⟨range, hmem, hlow, hhigh⟩ := hsurrogates
  unfold Nat.isValidChar
  by_contra hsurrogate
  have hinside : range.1 ≤ c ∧ c ≤ range.2 := by omega
  rw [isPrintable, if_neg (by omega), if_neg (by omega), Bool.not_eq_true',
    List.any_eq_false] at h
  exact h range hmem (by simpa using hinside)

theorem readCode_ofNat {c : Nat} (hc : c < 0x110000) (h : isPrintable c = true) (hslash : c ≠ 0x5c)
    (rest : List Char) : readCode (Char.ofNat c :: rest) = some (c, rest) := by
  have hcode : (Char.ofNat c).toNat = c := by
    rw [Char.ofNat, dif_pos (isValidChar_of_isPrintable hc h)]
    rfl
  have hne : Char.ofNat c ≠ '\\' := by
    intro heq
    rw [heq] at hcode
    exact hslash hcode.symm
  rw [readCode, hcode]
  intro mark tail heq
  exact absurd heq hne

/-- **A code point is read back from what is written for it.** -/
theorem readCode_quotedCodePoint {quote : Char} (hquote : quote = '\x27' ∨ quote = '\x22') {c : Nat}
    (hc : c < 0x110000) (rest : List Char) :
    readCode (quotedCodePoint quote c ++ rest) = some (c, rest) := by
  unfold quotedCodePoint
  split
  · next h => rw [h]; rfl
  split
  · next h =>
    rw [h]
    rcases hquote with rfl | rfl <;> rfl
  split
  · next h => rw [h]; rfl
  split
  · next h => rw [h]; rfl
  split
  · next h => rw [h]; rfl
  split
  · next hslash _ _ _ _ hprintable => exact readCode_ofNat hc hprintable hslash rest
  -- what is not printable is written by its number, in as many digits as it may need
  split
  · next hsmall =>
    obtain ⟨hvalue, hrest⟩ := readDigits_append 2 hsmall rest
    simp [readCode, hvalue, hrest]
  split
  · next hsmall =>
    obtain ⟨hvalue, hrest⟩ := readDigits_append 4 hsmall rest
    simp [readCode, hvalue, hrest]
  · have hlarge : c < 16 ^ 8 := by omega
    obtain ⟨hvalue, hrest⟩ := readDigits_append 8 hlarge rest
    simp [readCode, hvalue, hrest]

/-! ## The whole text -/

theorem flatMap_quotedCodePoint_inj {quote : Char} (hquote : quote = '\x27' ∨ quote = '\x22')
    {text other : List Nat} (htext : Encoded text) (hother : Encoded other)
    (h : text.flatMap (quotedCodePoint quote) = other.flatMap (quotedCodePoint quote)) :
    text = other := by
  have hread := congrArg readCode h
  induction text generalizing other with
  | nil =>
      cases other with
      | nil => rfl
      | cons c rest =>
          rw [List.flatMap_cons, readCode_quotedCodePoint hquote (hother c List.mem_cons_self)] at hread
          cases hread
  | cons c rest ih =>
      rw [List.flatMap_cons, readCode_quotedCodePoint hquote (htext c List.mem_cons_self)] at hread
      cases other with
      | nil => cases hread
      | cons c' rest' =>
          rw [List.flatMap_cons, readCode_quotedCodePoint hquote (hother c' List.mem_cons_self),
            Option.some.injEq, Prod.mk.injEq] at hread
          obtain ⟨rfl, hrest⟩ := hread
          have htail : rest = rest' :=
            ih (fun d hd => htext d (List.mem_cons_of_mem c hd))
              (fun d hd => hother d (List.mem_cons_of_mem c hd)) hrest (congrArg readCode hrest)
          rw [htail]

/-- **Texts with one literal are the same text.** The first character of the literal is its quote, and
the code points are read back one after another from there. -/
theorem quoted_injective {text other : List Nat} (htext : Encoded text) (hother : Encoded other)
    (h : quoted text = quoted other) : text = other := by
  have hquote : quoteFor text = '\x27' ∨ quoteFor text = '\x22' := by
    unfold quoteFor
    split
    · exact .inr rfl
    · exact .inl rfl
  -- the literals begin with their quotes, so these are the same, and they end with them too
  have hchars : quotedChars text = quotedChars other := String.ofList_injective h
  simp only [quotedChars, List.cons_append, List.cons.injEq] at hchars
  obtain ⟨hsame, hbody⟩ := hchars
  rw [← hsame] at hbody
  exact flatMap_quotedCodePoint_inj hquote htext hother (List.append_cancel_right hbody)

end KeySearch.Text
