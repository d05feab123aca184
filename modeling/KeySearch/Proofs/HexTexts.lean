import KeySearch.Proofs.WrittenText
import KeySearch.Text.Lowercase
import Mathlib.Data.List.DropRight

/-!
# Texts in hexadecimal

`Spells` is the grammar of hexadecimal bytes: pairs of digits in either case, with ASCII white space
between pairs and nothing inside a pair. White space of any script may stand around the whole.
`decode_outcome` says that exactly such a text is decoded, to the bytes that its pairs spell, and what
comes of every other one. Written again, the bytes are the text in small letters without white space.
-/

set_option autoImplicit false

namespace KeySearch

/-! ## White space at the ends -/

namespace Text

variable {text : List Nat}

theorem strip_eq_rdropWhile (text : List Nat) :
    strip text = (text.dropWhile isBlank).rdropWhile isBlank := rfl

theorem isBlank_of_isAsciiBlank {c : Nat} (h : isAsciiBlank c = true) : isBlank c = true := by
  simp [isBlank, h]

/-- A stripped text does not begin with white space. -/
theorem head_strip {c : Nat} {rest : List Nat} (h : strip text = c :: rest) :
    isBlank c = false := by
  have hprefix : c :: rest <+: text.dropWhile isBlank := by
    rw [← h, strip_eq_rdropWhile]
    exact List.rdropWhile_prefix isBlank _
  obtain ⟨more, hmore⟩ := hprefix
  have hhead := List.head?_dropWhile_not isBlank text
  rw [← hmore] at hhead
  simpa using hhead

/-- A stripped text does not end with white space. -/
theorem last_strip {c : Nat} {rest : List Nat} (h : strip text = rest ++ [c]) :
    isBlank c = false := by
  have hne : (text.dropWhile isBlank).rdropWhile isBlank ≠ [] := by
    rw [← strip_eq_rdropWhile, h]
    exact List.concat_ne_nil c rest
  have hlast := List.rdropWhile_last_not isBlank _ hne
  simp only [← strip_eq_rdropWhile, h, List.getLast_append_singleton] at hlast
  exact Bool.eq_false_iff.mpr hlast

end Text

namespace Hex

/-! ## The grammar -/

/-- The digits by their values. -/
def smallDigits : List Char :=
  ['0', '1', '2', '3', '4', '5', '6', '7', '8', '9', 'a', 'b', 'c', 'd', 'e', 'f']

/-- The digits by their values, with capital letters. -/
def capitalDigits : List Char :=
  ['0', '1', '2', '3', '4', '5', '6', '7', '8', '9', 'A', 'B', 'C', 'D', 'E', 'F']

/-- A code point is the digit of a value, in either case. -/
def IsDigit (c n : Nat) : Prop :=
  smallDigits[n]?.map Char.toNat = some c ∨ capitalDigits[n]?.map Char.toNat = some c

instance (c n : Nat) : Decidable (IsDigit c n) := inferInstanceAs (Decidable (_ ∨ _))

/-- Two digits next to each other spell a byte. -/
def SpellsByte (high low : Nat) (byte : UInt8) : Prop :=
  ∃ h l, IsDigit high h ∧ IsDigit low l ∧ byte.toNat = h * 16 + l

/-- A text spells bytes: it consists of their pairs of digits, with any amount of ASCII white space
between two pairs. -/
inductive Spells : List Nat → List UInt8 → Prop
  | nil : Spells [] []
  | last {high low : Nat} {byte : UInt8} (hbyte : SpellsByte high low byte) :
    Spells [high, low] [byte]
  | cons {high low : Nat} {byte : UInt8} {gap text : List Nat} {next : UInt8} {bytes : List UInt8}
    (hbyte : SpellsByte high low byte) (hgap : ∀ c ∈ gap, Text.isAsciiBlank c = true)
    (hrest : Spells text (next :: bytes)) :
    Spells (high :: low :: (gap ++ text)) (byte :: next :: bytes)

variable {text : List Nat} {bytes : List UInt8} {byte : UInt8} {c n high low : Nat}

/-! ## Digits and pairs -/

theorem isDigit_of_digitValue? : ∀ c < 0x67, ∀ n ∈ digitValue? c, IsDigit c n := by decide

theorem digitValue?_smallDigits : ∀ n < 16, ∀ c ∈ smallDigits[n]?.map Char.toNat,
    digitValue? c = some n := by
  decide

theorem digitValue?_capitalDigits : ∀ n < 16, ∀ c ∈ capitalDigits[n]?.map Char.toNat,
    digitValue? c = some n := by
  decide

theorem lt_of_digitValue? (h : digitValue? c = some n) : c < 0x67 := by
  by_contra hge
  rw [digitValue?, if_neg (by simp; omega), if_neg (by simp; omega), if_neg (by simp; omega)] at h
  cases h

theorem digitValue?_eq_some_iff : digitValue? c = some n ↔ IsDigit c n := by
  constructor
  · exact fun h => isDigit_of_digitValue? c (lt_of_digitValue? h) n h
  · have hlength : ∀ digits : List Char, digits.length = 16 →
        digits[n]?.map Char.toNat = some c → n < 16 := by
      intro digits hdigits h
      obtain ⟨digit, hdigit, -⟩ := Option.map_eq_some_iff.mp h
      exact hdigits ▸ (List.getElem?_eq_some_iff.mp hdigit).1
    rintro (h | h)
    · exact digitValue?_smallDigits n (hlength _ rfl h) c h
    · exact digitValue?_capitalDigits n (hlength _ rfl h) c h

theorem not_isAsciiBlank_of_digitValue? : ∀ c < 0x67, (digitValue? c).isSome →
    Text.isAsciiBlank c = false := by
  decide

theorem not_isAsciiBlank_of_isDigit (h : IsDigit c n) : Text.isAsciiBlank c = false := by
  have hdigit := digitValue?_eq_some_iff.mpr h
  exact not_isAsciiBlank_of_digitValue? c (lt_of_digitValue? hdigit) (Option.isSome_of_mem hdigit)

theorem IsDigit.lt (h : IsDigit c n) : n < 16 := by
  rw [← digitValue?_eq_some_iff, digitValue?] at h
  simp only [Bool.and_eq_true, decide_eq_true_eq] at h
  split_ifs at h <;> cases h <;> omega

theorem spellsByte_iff : SpellsByte high low byte ↔
    ∃ h l, digitValue? high = some h ∧ digitValue? low = some l
      ∧ UInt8.ofNat (h * 16 + l) = byte := by
  simp only [SpellsByte, digitValue?_eq_some_iff]
  refine exists_congr fun h => exists_congr fun l => ?_
  refine and_congr_right fun hh => and_congr_right fun hl => ?_
  have hlt : h * 16 + l < 256 := by
    have := hh.lt
    have := hl.lt
    omega
  rw [← UInt8.toNat_inj, Utf8.toNat_ofNat_of_lt hlt, eq_comm]

theorem pairs_blanks_append {gap : List Nat} (h : ∀ c ∈ gap, Text.isAsciiBlank c = true)
    (text : List Nat) : pairs (gap ++ text) = pairs text := by
  induction gap with
  | nil => rfl
  | cons c gap ih =>
      rw [List.cons_append, pairs.eq_def]
      dsimp only
      rw [if_pos (h c List.mem_cons_self)]
      exact ih fun c hc => h c (List.mem_cons_of_mem _ hc)

theorem pairs_pair_append (h : SpellsByte high low byte) (text : List Nat) :
    pairs (high :: low :: text) = (pairs text).map (byte :: ·) := by
  obtain ⟨h, l, hhigh, hlow, rfl⟩ := spellsByte_iff.mp h
  have hblank := not_isAsciiBlank_of_isDigit (digitValue?_eq_some_iff.mp hhigh)
  rw [pairs.eq_def]
  dsimp only
  rw [hblank, if_neg Bool.false_ne_true, hhigh, hlow]

theorem Spells.pairs_eq (h : Spells text bytes) : pairs text = some bytes := by
  induction h with
  | nil => rfl
  | last hbyte => rw [pairs_pair_append hbyte]; rfl
  | cons hbyte hgap hrest ih =>
      rw [pairs_pair_append hbyte, pairs_blanks_append hgap, ih]
      rfl

theorem Spells.eq_nil (h : Spells text []) : text = [] := by
  cases h
  rfl

/-- What is read as pairs spells them, but for ASCII white space at its ends. -/
theorem exists_spells_of_pairs (h : pairs text = some bytes) :
    ∃ front core back, text = front ++ core ++ back
      ∧ (∀ c ∈ front, Text.isAsciiBlank c = true) ∧ (∀ c ∈ back, Text.isAsciiBlank c = true)
      ∧ Spells core bytes := by
  fun_induction pairs text generalizing bytes with
  | case1 =>
      cases h
      exact ⟨[], [], [], rfl, by simp, by simp, .nil⟩
  | case2 c rest hc ih =>
      obtain ⟨front, core, back, rfl, hfront, hback, hcore⟩ := ih h
      exact ⟨c :: front, core, back, rfl, List.forall_mem_cons.mpr ⟨hc, hfront⟩, hback, hcore⟩
  | case3 c hc => cases h
  | case4 high hc low rest highValue lowValue hlow hhigh ih =>
      obtain ⟨more, hmore, rfl⟩ := Option.map_eq_some_iff.mp h
      obtain ⟨front, core, back, rfl, hfront, hback, hcore⟩ := ih hmore
      have hbyte := spellsByte_iff.mpr ⟨_, _, hhigh, hlow, rfl⟩
      -- white space in front of the rest is a gap if there is another pair behind it
      cases more with
      | nil =>
          obtain rfl := hcore.eq_nil
          refine ⟨[], [high, low], front ++ back, by simp, by simp, ?_, .last hbyte⟩
          exact fun c hc => (List.mem_append.mp hc).elim (hfront c) (hback c)
      | cons next more =>
          exact ⟨[], _, back, by simp, by simp, hback, .cons hbyte hfront hcore⟩
  | case5 c hc d rest hnone => cases h

/-- Read as pairs, a stripped text gives the bytes that it spells. -/
theorem pairs_strip_eq_some_iff :
    pairs (Text.strip text) = some bytes ↔ Spells (Text.strip text) bytes := by
  refine ⟨fun h => ?_, Spells.pairs_eq⟩
  obtain ⟨front, core, back, hstrip, hfront, hback, hcore⟩ := exists_spells_of_pairs h
  have hnofront : front = [] := by
    cases front with
    | nil => rfl
    | cons c front =>
        have hblank := Text.isBlank_of_isAsciiBlank (hfront c List.mem_cons_self)
        rw [Text.head_strip hstrip] at hblank
        cases hblank
  have hnoback : back = [] := by
    rcases List.eq_nil_or_concat back with rfl | ⟨back, c, rfl⟩
    · rfl
    · have hblank := Text.isBlank_of_isAsciiBlank (hback c (by simp))
      rw [List.concat_eq_append, ← List.append_assoc] at hstrip
      rw [Text.last_strip hstrip] at hblank
      cases hblank
  rw [hnofront, hnoback, List.nil_append, List.append_nil] at hstrip
  rwa [hstrip]

/-! ## What becomes of a text -/

theorem decode_eq_ok_iff : decode text = .ok bytes ↔ Spells (Text.strip text) bytes := by
  rw [← pairs_strip_eq_some_iff, decode]
  cases pairs (Text.strip text) <;> simp

theorem decode_eq_error_iff {e : Error} :
    decode text = .error e ↔ (∀ bytes, ¬ Spells (Text.strip text) bytes) ∧ e = .malformed text := by
  simp only [← pairs_strip_eq_some_iff, decode]
  cases pairs (Text.strip text) <;> simp [eq_comm]

theorem decodeSized_eq_ok_iff {size : Nat} :
    decodeSized size text = .ok bytes ↔ Spells (Text.strip text) bytes ∧ bytes.length = size := by
  rw [← decode_eq_ok_iff, decodeSized]
  cases decode text with
  | error e => simp
  | ok found =>
      dsimp only
      split_ifs with hsize
      · constructor
        · intro h
          cases h
          exact ⟨rfl, hsize⟩
        · exact fun h => h.1
      · refine iff_of_false (by simp) ?_
        rintro ⟨h, hlength⟩
        cases h
        exact hsize hlength

theorem decodeSized_eq_error_iff {size : Nat} {e : Error} :
    decodeSized size text = .error e ↔
      ((∀ bytes, ¬ Spells (Text.strip text) bytes) ∧ e = .malformed text)
        ∨ ∃ bytes, Spells (Text.strip text) bytes ∧ bytes.length ≠ size
          ∧ e = .wrongSize size bytes.length := by
  rw [← decode_eq_error_iff]
  simp only [← decode_eq_ok_iff, decodeSized]
  cases decode text with
  | error e' => simp
  | ok found =>
      dsimp only
      split_ifs with hsize
      · simp [hsize]
      · constructor
        · intro h
          cases h
          exact .inr ⟨found, rfl, hsize, rfl⟩
        · rintro (⟨h, -⟩ | ⟨_, h, -, rfl⟩)
          cases h
          rfl

/-! ## The same bytes written again -/

theorem smallLetter_of_digitValue? : ∀ c < 0x67, ∀ n ∈ digitValue? c,
    Text.smallLetter c = (Text.hexDigit n).toNat := by
  decide

theorem IsDigit.smallLetter_eq (h : IsDigit c n) :
    Text.smallLetter c = (Text.hexDigit n).toNat :=
  smallLetter_of_digitValue? c (lt_of_digitValue? (digitValue?_eq_some_iff.mpr h)) n
    (digitValue?_eq_some_iff.mpr h)

theorem not_isBlank_smallLetter (h : IsDigit c n) : Text.isBlank (Text.smallLetter c) = false := by
  rw [h.smallLetter_eq]
  exact not_isBlank_hexDigit n h.lt

theorem smallLetter_of_isAsciiBlank (h : Text.isAsciiBlank c = true) : Text.smallLetter c = c := by
  simp only [Text.isAsciiBlank, Bool.or_eq_true, Bool.and_eq_true, beq_iff_eq,
    decide_eq_true_eq] at h
  simp only [Text.smallLetter, Bool.and_eq_true, decide_eq_true_eq]
  rw [if_pos (by omega), if_neg (by omega)]

/-- The digits written for a byte are those that spell it, in small letters. -/
theorem SpellsByte.encodeByte_eq (h : SpellsByte high low byte) :
    (encodeByte byte).map Char.toNat = [Text.smallLetter high, Text.smallLetter low] := by
  obtain ⟨h, l, hhigh, hlow, hbyte⟩ := h
  have hlt := hlow.lt
  have hh : byte.toNat / 16 = h := by omega
  have hl : byte.toNat % 16 = l := by omega
  rw [encodeByte, hh, hl, hhigh.smallLetter_eq, hlow.smallLetter_eq]
  rfl

/-- A text that spells bytes has no code points beyond ASCII. -/
theorem Spells.lt (h : Spells text bytes) : ∀ c ∈ text, c < 0x80 := by
  have hdigit : ∀ {c n : Nat}, IsDigit c n → c < 0x80 := fun h =>
    (lt_of_digitValue? (digitValue?_eq_some_iff.mpr h)).trans (by decide)
  have hblank : ∀ c, Text.isAsciiBlank c = true → c < 0x80 := by
    intro c hc
    simp [Text.isAsciiBlank] at hc
    omega
  induction h with
  | nil => simp
  | last hbyte =>
      obtain ⟨_, _, hhigh, hlow, -⟩ := hbyte
      simp [hdigit hhigh, hdigit hlow]
  | cons hbyte hgap hrest ih =>
      obtain ⟨_, _, hhigh, hlow, -⟩ := hbyte
      simp only [List.forall_mem_cons, List.forall_mem_append]
      exact ⟨hdigit hhigh, hdigit hlow, fun c hc => hblank c (hgap c hc), ih⟩

/-- In a text of ASCII every letter is made small for itself. -/
theorem lowercase_eq_map (h : ∀ c ∈ text, c < 0x80) :
    Text.lowercase text = text.map Text.smallLetter := by
  have hafter : ∀ before, Text.lowercaseAfter before text = text.map Text.smallLetter := by
    induction text with
    | nil => exact fun _ => rfl
    | cons c rest ih =>
        intro before
        have hc := h c List.mem_cons_self
        rw [Text.lowercaseAfter, ih fun c hc => h c (List.mem_cons_of_mem _ hc)]
        rw [if_neg (by omega), if_neg (by omega)]
        rfl
  exact hafter []

/-- The digits written for bytes are a text that spells them, in small letters and without its white
space. -/
theorem Spells.codePoints_encode (h : Spells text bytes) :
    Text.codePoints (encode bytes) = (Text.lowercase text).filter fun c => !Text.isBlank c := by
  rw [lowercase_eq_map h.lt, Text.codePoints, encode, String.toList_ofList]
  -- the digits of a pair are kept, and the white space of a gap is not
  have hpair : ∀ {high low : Nat} {byte : UInt8} (more : List Nat), SpellsByte high low byte →
      ((high :: low :: more).map Text.smallLetter).filter (fun c => !Text.isBlank c)
        = (encodeByte byte).map Char.toNat
          ++ (more.map Text.smallLetter).filter fun c => !Text.isBlank c := by
    intro high low byte more hbyte
    rw [hbyte.encodeByte_eq]
    obtain ⟨_, _, hhigh, hlow, -⟩ := hbyte
    simp [not_isBlank_smallLetter hhigh, not_isBlank_smallLetter hlow]
  induction h with
  | nil => rfl
  | last hbyte =>
      rw [hpair [] hbyte, encodeChars, List.flatMap_singleton]
      exact (List.append_nil _).symm
  | @cons _ _ byte gap text next bytes hbyte hgap hrest ih =>
      have hnone : (gap.map Text.smallLetter).filter (fun c => !Text.isBlank c) = [] := by
        refine List.filter_eq_nil_iff.mpr fun small hsmall => ?_
        obtain ⟨c, hc, rfl⟩ := List.mem_map.mp hsmall
        rw [smallLetter_of_isAsciiBlank (hgap c hc), Text.isBlank_of_isAsciiBlank (hgap c hc)]
        exact Bool.false_ne_true
      rw [hpair _ hbyte, List.map_append, List.filter_append, hnone, List.nil_append, ← ih,
        ← List.map_append]
      rfl

/-- **A text is decoded exactly if it spells bytes in hexadecimal**, and then to these, if they are as
many as were asked for. Every other text is refused, for its form or for their number. So bytes are
decoded from the text that is written of them, and what is written of the bytes of a text is that text
in small letters without white space. -/
theorem decode_outcome :
    (∀ text bytes, decode text = .ok bytes ↔ Spells (Text.strip text) bytes)
      ∧ (∀ size text bytes, decodeSized size text = .ok bytes ↔
          Spells (Text.strip text) bytes ∧ bytes.length = size)
      ∧ (∀ text e, decode text = .error e ↔
          (∀ bytes, ¬ Spells (Text.strip text) bytes) ∧ e = .malformed text)
      ∧ (∀ size text e, decodeSized size text = .error e ↔
          ((∀ bytes, ¬ Spells (Text.strip text) bytes) ∧ e = .malformed text)
            ∨ ∃ bytes, Spells (Text.strip text) bytes ∧ bytes.length ≠ size
              ∧ e = .wrongSize size bytes.length)
      ∧ (∀ bytes, decode (Text.codePoints (encode bytes)) = .ok bytes)
      ∧ ∀ text bytes, decode text = .ok bytes → Text.codePoints (encode bytes)
          = (Text.lowercase (Text.strip text)).filter fun c => !Text.isBlank c :=
  ⟨fun _ _ => decode_eq_ok_iff, fun _ _ _ => decodeSized_eq_ok_iff, fun _ _ => decode_eq_error_iff,
    fun _ _ _ => decodeSized_eq_error_iff, decode_encode,
    fun _ _ h => (decode_eq_ok_iff.mp h).codePoints_encode⟩

/-- An ideographic space may stand around the digits and a tab between two pairs of them. -/
theorem decode_outcome_spaces :
    decode (Text.codePoints "\u3000Ab\t0C ") = .ok [0xab, 0x0c]
      ∧ (Text.lowercase (Text.strip (Text.codePoints "\u3000Ab\t0C "))).filter
          (fun c => !Text.isBlank c) = Text.codePoints "ab0c" := by
  obtain ⟨-, -, -, -, -, hagain⟩ := decode_outcome
  have hdecode : decode (Text.codePoints "\u3000Ab\t0C ") = .ok [0xab, 0x0c] := by decide +kernel
  refine ⟨hdecode, (hagain _ _ hdecode).symm.trans ?_⟩
  decide +kernel

/-- Between two pairs the ideographic space is none that is passed over. -/
example : decode (Text.codePoints "Ab\u30000C") =
    .error (.malformed (Text.codePoints "Ab\u30000C")) := by
  decide +kernel

end Hex

end KeySearch
