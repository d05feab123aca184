import KeySearch.Report.Duration
import Mathlib.Tactic.Ring

/-!
# Texts of durations

A duration is printed in hours, minutes and seconds, or below a second in the largest unit that it
fills, and the digits behind the point are to be all that it has. `IsText` says which text a number of
nanoseconds has by these rules; there is one for every number (`exists_isText`, `IsText.unique`). What is
printed is the text of `kept` (`isText_chars`): all of the number, except that of milliseconds the last
three digits are left out.
-/

set_option autoImplicit false

namespace KeySearch.Duration

/-! ## What is to be printed -/

/-- A number of nanoseconds in a unit: the whole units, and behind a point the rest as a decimal
fraction of the unit, which does not end in a zero. -/
inductive Amount (size ns : Nat) : List Char → Prop
  | whole (h : size ∣ ns) : Amount size ns (Decimal.digits (ns / size))
  | broken {ds : List Char} (hdigits : ∀ c ∈ ds, c.isDigit = true) (hne : ds ≠ [])
      (hlast : ds.getLast? ≠ some '0')
      (hvalue : Nat.ofDigitChars 10 ds 0 * size = ns % size * 10 ^ ds.length) :
      Amount size ns (Decimal.digits (ns / size) ++ '.' :: ds)

/-- The text of a positive number of nanoseconds. Only the last unit has a fraction. -/
inductive Spells (ns : Nat) : List Char → Prop
  | nanoseconds {amount : List Char} (hpos : 0 < ns) (h : ns < 1000) (hamount : Amount 1 ns amount) :
      Spells ns (amount ++ ['n', 's'])
  | microseconds {amount : List Char} (hlow : 1000 ≤ ns) (h : ns < 1000000)
      (hamount : Amount 1000 ns amount) : Spells ns (amount ++ ['µ', 's'])
  | milliseconds {amount : List Char} (hlow : 1000000 ≤ ns) (h : ns < second)
      (hamount : Amount 1000000 ns amount) : Spells ns (amount ++ ['m', 's'])
  | seconds {amount : List Char} (hlow : second ≤ ns) (h : ns < minute)
      (hamount : Amount second ns amount) : Spells ns (amount ++ ['s'])
  | minutes {amount : List Char} (hlow : minute ≤ ns) (h : ns < hour)
      (hamount : Amount second (ns % minute) amount) :
      Spells ns (Decimal.digits (ns / minute) ++ 'm' :: (amount ++ ['s']))
  | hours {amount : List Char} (hlow : hour ≤ ns) (hamount : Amount second (ns % minute) amount) :
      Spells ns (Decimal.digits (ns / hour) ++ 'h' ::
        (Decimal.digits (ns / minute % 60) ++ 'm' :: (amount ++ ['s'])))

/-- The text of a number of nanoseconds. -/
inductive IsText : Int → List Char → Prop
  | zero : IsText 0 ['0', 's']
  | positive {ns : Nat} {text : List Char} (h : Spells ns text) : IsText ns text
  | negative {ns : Nat} {text : List Char} (h : Spells ns text) : IsText (-ns) ('-' :: text)

/-! ## Texts of digits -/

section Digits

variable {c d : Char} {ds es : List Char}

theorem digit_le (h : c.isDigit = true) : c.toNat - '0'.toNat ≤ 9 := by
  have hrange := Char.isDigit_iff_toNat.mp h
  have hzero : '0'.toNat = 48 := rfl
  have hnine : '9'.toNat = 57 := rfl
  omega

theorem eq_of_digit_eq (hc : c.isDigit = true) (hd : d.isDigit = true)
    (h : c.toNat - '0'.toNat = d.toNat - '0'.toNat) : c = d := by
  have hcrange := Char.isDigit_iff_toNat.mp hc
  have hdrange := Char.isDigit_iff_toNat.mp hd
  have hzero : '0'.toNat = 48 := rfl
  apply Char.toNat_inj.mp
  omega

theorem ofDigitChars_lt (hds : ∀ c ∈ ds, c.isDigit = true) :
    Nat.ofDigitChars 10 ds 0 < 10 ^ ds.length := by
  induction ds with
  | nil => decide
  | cons c rest ih =>
      rw [List.forall_mem_cons] at hds
      have hfirst := digit_le hds.1
      have hrest := ih hds.2
      rw [Nat.ofDigitChars_cons, Nat.ofDigitChars_eq_ofDigitChars_zero, List.length_cons, Nat.pow_succ]
      calc 10 ^ rest.length * (10 * 0 + (c.toNat - '0'.toNat)) + Nat.ofDigitChars 10 rest 0
          < 10 ^ rest.length * (10 * 0 + (c.toNat - '0'.toNat)) + 10 ^ rest.length :=
            Nat.add_lt_add_left hrest _
        _ = 10 ^ rest.length * (c.toNat - '0'.toNat + 1) := by ring
        _ ≤ 10 ^ rest.length * 10 := Nat.mul_le_mul_left _ (by omega)

/-- As many digits with the same value are the same digits. -/
theorem eq_of_ofDigitChars_eq (hds : ∀ c ∈ ds, c.isDigit = true) (hes : ∀ c ∈ es, c.isDigit = true)
    (hlength : ds.length = es.length) (h : Nat.ofDigitChars 10 ds 0 = Nat.ofDigitChars 10 es 0) :
    ds = es := by
  induction ds generalizing es with
  | nil => exact (List.length_eq_zero_iff.mp hlength.symm).symm
  | cons c rest ih =>
      cases es with
      | nil => cases hlength
      | cons d others =>
          rw [List.forall_mem_cons] at hds hes
          have hlengths : rest.length = others.length := Nat.succ.inj hlength
          rw [Nat.ofDigitChars_cons, Nat.ofDigitChars_cons, Nat.ofDigitChars_eq_ofDigitChars_zero,
            Nat.ofDigitChars_eq_ofDigitChars_zero (l := others), ← hlengths] at h
          have hrest := ofDigitChars_lt hds.2
          have hothers := ofDigitChars_lt hes.2
          rw [← hlengths] at hothers
          have hquotient := congrArg (· / 10 ^ rest.length) h
          have hremainder := congrArg (· % 10 ^ rest.length) h
          simp only [Nat.mul_add_mod, Nat.mod_eq_of_lt hrest, Nat.mod_eq_of_lt hothers] at hremainder
          have hpow : 0 < 10 ^ rest.length := Nat.pow_pos (by decide)
          simp only [Nat.mul_add_div hpow, Nat.div_eq_of_lt hrest, Nat.div_eq_of_lt hothers] at hquotient
          have hfirst : c = d := eq_of_digit_eq hds.1 hes.1 (by omega)
          rw [hfirst, ih hds.2 hes.2 hlengths hremainder]

/-- Fractions of the same value that do not end in a zero have the same digits. -/
theorem eq_of_fraction_eq (hds : ∀ c ∈ ds, c.isDigit = true) (hes : ∀ c ∈ es, c.isDigit = true)
    (hes_last : es.getLast? ≠ some '0') (hle : ds.length ≤ es.length)
    (h : Nat.ofDigitChars 10 ds 0 * 10 ^ es.length = Nat.ofDigitChars 10 es 0 * 10 ^ ds.length) :
    ds = es := by
  obtain ⟨more, hmore⟩ := Nat.exists_eq_add_of_le hle
  -- with zeros behind it the shorter one is as long as the other
  have hvalue : Nat.ofDigitChars 10 (ds ++ List.replicate more '0') 0 = Nat.ofDigitChars 10 es 0 := by
    rw [Nat.ofDigitChars_append, Nat.ofDigitChars_replicate_zero]
    apply Nat.eq_of_mul_eq_mul_right (Nat.pow_pos (by decide : 0 < 10) : 0 < 10 ^ ds.length)
    rw [← h, hmore, Nat.pow_add]
    ring
  have hpadded : ds ++ List.replicate more '0' = es := by
    apply eq_of_ofDigitChars_eq _ hes _ hvalue
    · intro c hc
      rcases List.mem_append.mp hc with hc | hc
      · exact hds c hc
      · rw [(List.mem_replicate.mp hc).2]
        rfl
    · rw [List.length_append, List.length_replicate, hmore]
  cases more with
  | zero => simpa using hpadded
  | succ more =>
      exfalso
      apply hes_last
      rw [← hpadded, List.replicate_succ', ← List.append_assoc, List.getLast?_concat]

end Digits

/-! ## One text for every number -/

section Unique

variable {size ns : Nat} {text other : List Char}

/-- A fraction that does not end in a zero is more than nothing. -/
theorem Amount.not_dvd {ds : List Char} (hdigits : ∀ c ∈ ds, c.isDigit = true) (hne : ds ≠ [])
    (hlast : ds.getLast? ≠ some '0')
    (hvalue : Nat.ofDigitChars 10 ds 0 * size = ns % size * 10 ^ ds.length) (hsize : 0 < size) :
    ¬ size ∣ ns := by
  intro hdvd
  rw [Nat.mod_eq_zero_of_dvd hdvd, Nat.zero_mul] at hvalue
  have hzero : Nat.ofDigitChars 10 ds 0 = 0 :=
    (Nat.mul_eq_zero.mp hvalue).resolve_right hsize.ne'
  have hempty : [] = ds := by
    apply eq_of_fraction_eq (List.forall_mem_nil _) hdigits hlast (Nat.zero_le _)
    rw [hzero, Nat.ofDigitChars_nil, Nat.zero_mul, Nat.zero_mul]
  exact hne hempty.symm

theorem Amount.unique (hsize : 0 < size) (h : Amount size ns text) (h' : Amount size ns other) :
    text = other := by
  cases h with
  | whole hdvd =>
      cases h' with
      | whole _ => rfl
      | broken hdigits hne hlast hvalue =>
          exact absurd hdvd (Amount.not_dvd hdigits hne hlast hvalue hsize)
  | @broken ds hdigits hne hlast hvalue =>
      cases h' with
      | whole hdvd => exact absurd hdvd (Amount.not_dvd hdigits hne hlast hvalue hsize)
      | @broken es hdigits' hne' hlast' hvalue' =>
          have hsame : Nat.ofDigitChars 10 ds 0 * 10 ^ es.length
              = Nat.ofDigitChars 10 es 0 * 10 ^ ds.length := by
            apply Nat.eq_of_mul_eq_mul_right hsize
            calc Nat.ofDigitChars 10 ds 0 * 10 ^ es.length * size
                = Nat.ofDigitChars 10 ds 0 * size * 10 ^ es.length := by ring
              _ = Nat.ofDigitChars 10 es 0 * size * 10 ^ ds.length := by rw [hvalue, hvalue']; ring
              _ = Nat.ofDigitChars 10 es 0 * 10 ^ ds.length * size := by ring
          rcases Nat.le_total ds.length es.length with hle | hle
          · rw [eq_of_fraction_eq hdigits hdigits' hlast' hle hsame]
          · rw [eq_of_fraction_eq hdigits' hdigits hlast hle hsame.symm]

/-- The units are of different ranges, so a number is in the range of one of them only. -/
theorem Spells.unique (h : Spells ns text) (h' : Spells ns other) : text = other := by
  have hsecond : second = 1000000000 := rfl
  have hminute : minute = 60000000000 := rfl
  have hhour : hour = 3600000000000 := rfl
  cases h with
  | nanoseconds hpos hlt hamount =>
      cases h' with
      | nanoseconds _ _ hamount' => rw [hamount.unique (by decide) hamount']
      | _ => omega
  | microseconds hlow hlt hamount =>
      cases h' with
      | microseconds _ _ hamount' => rw [hamount.unique (by decide) hamount']
      | _ => omega
  | milliseconds hlow hlt hamount =>
      cases h' with
      | milliseconds _ _ hamount' => rw [hamount.unique (by decide) hamount']
      | _ => omega
  | seconds hlow hlt hamount =>
      cases h' with
      | seconds _ _ hamount' => rw [hamount.unique (by decide) hamount']
      | _ => omega
  | minutes hlow hlt hamount =>
      cases h' with
      | minutes _ _ hamount' => rw [hamount.unique (by decide) hamount']
      | _ => omega
  | hours hlow hamount =>
      cases h' with
      | hours _ hamount' => rw [hamount.unique (by decide) hamount']
      | _ => omega

theorem Spells.pos (h : Spells ns text) : 0 < ns := by
  have hsecond : second = 1000000000 := rfl
  have hminute : minute = 60000000000 := rfl
  have hhour : hour = 3600000000000 := rfl
  cases h <;> omega

end Unique

/-- Every number has one text. -/
theorem IsText.unique {ns : Int} {text other : List Char} (h : IsText ns text)
    (h' : IsText ns other) : text = other := by
  generalize hns : ns = same at h'
  cases h with
  | zero =>
      cases h' with
      | zero => rfl
      | positive hspells => have hpos := hspells.pos; omega
      | negative hspells => have hpos := hspells.pos; omega
  | positive hspells =>
      have hpos := hspells.pos
      cases h' with
      | zero => omega
      | positive hspells' =>
          rw [Int.natCast_inj] at hns
          subst hns
          exact hspells.unique hspells'
      | negative hspells' => omega
  | negative hspells =>
      have hpos := hspells.pos
      cases h' with
      | zero => omega
      | positive hspells' => omega
      | negative hspells' =>
          rw [Int.neg_inj, Int.natCast_inj] at hns
          subst hns
          rw [hspells.unique hspells']

/-! ## What is printed -/

/-- What is printed of a number of nanoseconds: of milliseconds no more than the microseconds. -/
def keptNat (ns : Nat) : Nat := if 1000000 ≤ ns ∧ ns < second then ns / 1000 * 1000 else ns

/-- What is printed of a number of nanoseconds with a sign. -/
def kept (ns : Int) : Int := ns.sign * keptNat ns.natAbs

section Printed

variable {ns : Nat}

theorem digitChar_isDigit : ∀ n < 10, (Nat.digitChar n).isDigit = true := by decide

theorem digitChar_value : ∀ n < 10, (Nat.digitChar n).toNat - '0'.toNat = n := by decide

theorem length_lastDigits (width n : Nat) : (Decimal.lastDigits width n).length = width := by
  induction width generalizing n with
  | zero => rfl
  | succ width ih => rw [Decimal.lastDigits, List.length_append, ih, List.length_singleton]

theorem isDigit_lastDigits (width n : Nat) : ∀ c ∈ Decimal.lastDigits width n, c.isDigit = true := by
  induction width generalizing n with
  | zero => exact List.forall_mem_nil _
  | succ width ih =>
      intro c hc
      rw [Decimal.lastDigits, List.mem_append, List.mem_singleton] at hc
      rcases hc with hc | rfl
      · exact ih _ c hc
      · exact digitChar_isDigit _ (Nat.mod_lt n (by decide))

theorem ofDigitChars_lastDigits (width n : Nat) :
    Nat.ofDigitChars 10 (Decimal.lastDigits width n) 0 = n % 10 ^ width := by
  induction width generalizing n with
  | zero => rw [Nat.pow_zero, Nat.mod_one]; rfl
  | succ width ih =>
      have hlast := digitChar_value _ (Nat.mod_lt n (by decide : 0 < 10))
      rw [Decimal.lastDigits, Nat.ofDigitChars_append, ih, Nat.ofDigitChars_cons, Nat.ofDigitChars_nil,
        hlast, Nat.pow_succ, Nat.mul_comm (10 ^ width), Nat.mod_mul]
      omega

/-- Without the zeros at their end digits do not end in a zero, and these zeros are all that is
missing. -/
theorem exists_stripped (ds : List Char) : ∃ zeros,
    (ds.reverse.dropWhile (· == '0')).reverse ++ List.replicate zeros '0' = ds
      ∧ (ds.reverse.dropWhile (· == '0')).reverse.getLast? ≠ some '0' := by
  refine ⟨(ds.reverse.takeWhile (· == '0')).length, ?_, ?_⟩
  · have hzeros : List.replicate (ds.reverse.takeWhile (· == '0')).length '0'
        = (ds.reverse.takeWhile (· == '0')).reverse := by
      refine (List.eq_replicate_iff.mpr ⟨List.length_reverse, fun c hc => ?_⟩).symm
      have hzero := List.all_eq_true.mp List.all_takeWhile c (List.mem_reverse.mp hc)
      exact beq_iff_eq.mp hzero
    rw [hzeros, ← List.reverse_append, List.takeWhile_append_dropWhile, List.reverse_reverse]
  · intro hlast
    rw [List.getLast?_reverse] at hlast
    have hfirst := List.head?_dropWhile_not (· == '0') ds.reverse
    rw [hlast] at hfirst
    exact absurd hfirst (by decide)

/-- The rest of a unit in so many digits is a fraction of the unit, if the digits are enough. -/
theorem amount_fraction {width scale : Nat} (hscale : 0 < scale) (hexact : scale ∣ ns) :
    Amount (10 ^ width * scale) ns (Decimal.digits (ns / (10 ^ width * scale))
      ++ fraction width (ns % (10 ^ width * scale) / scale)) := by
  have hpow : 0 < 10 ^ width := Nat.pow_pos (by decide)
  obtain ⟨count, rfl⟩ := hexact
  have hrest : scale * count % (10 ^ width * scale) / scale = count % 10 ^ width := by
    rw [Nat.mul_comm (10 ^ width), Nat.mul_mod_mul_left, Nat.mul_div_cancel_left _ hscale]
  rw [hrest]
  obtain ⟨zeros, hdigits, hlast⟩ := exists_stripped (Decimal.lastDigits width (count % 10 ^ width))
  have hvalue := ofDigitChars_lastDigits width (count % 10 ^ width)
  have hlength := length_lastDigits width (count % 10 ^ width)
  have hall := isDigit_lastDigits width (count % 10 ^ width)
  unfold fraction
  generalize ((Decimal.lastDigits width (count % 10 ^ width)).reverse.dropWhile (· == '0')).reverse
    = ds at hdigits hlast ⊢
  rw [← hdigits] at hvalue hlength hall
  rw [Nat.ofDigitChars_append, Nat.ofDigitChars_replicate_zero, Nat.mod_mod] at hvalue
  rw [List.length_append, List.length_replicate] at hlength
  cases ds with
  | nil =>
      have hnone : count % 10 ^ width = 0 := by
        rw [← hvalue, Nat.ofDigitChars_nil, Nat.mul_zero]
      rw [List.append_nil]
      apply Amount.whole
      rw [Nat.mul_comm (10 ^ width)]
      exact Nat.mul_dvd_mul_left scale (Nat.dvd_of_mod_eq_zero hnone)
  | cons d ds =>
      refine Amount.broken (fun c hc => hall c (List.mem_append_left _ hc)) (List.cons_ne_nil _ _) hlast ?_
      rw [Nat.mul_comm (10 ^ width) scale, Nat.mul_mod_mul_left, ← hvalue, ← hlength, Nat.pow_add]
      ring

/-- A positive number is printed as the text of what is kept of it. -/
theorem spells_positiveChars (hpos : 0 < ns) : Spells (keptNat ns) (positiveChars ns) := by
  have hsecond : second = 1000000000 := rfl
  have hminute : minute = 60000000000 := rfl
  have hhour : hour = 3600000000000 := rfl
  have hwhole : ∀ rest, Amount second rest (Decimal.digits (rest / second) ++ fraction 9 (rest % second)) := by
    intro rest
    have hamount := @amount_fraction rest 9 1 Nat.one_pos (Nat.one_dvd _)
    rwa [Nat.div_one] at hamount
  unfold positiveChars keptNat
  by_cases hnano : ns < 1000
  · rw [if_pos hnano, if_neg (by omega)]
    have hamount : Amount 1 ns (Decimal.digits (ns / 1)) := .whole (Nat.one_dvd ns)
    rw [Nat.div_one] at hamount
    exact .nanoseconds hpos hnano hamount
  by_cases hmicro : ns < 1000000
  · rw [if_neg hnano, if_pos hmicro, if_neg (by omega)]
    have hamount := @amount_fraction ns 3 1 Nat.one_pos (Nat.one_dvd _)
    rw [Nat.div_one] at hamount
    exact .microseconds (by omega) hmicro hamount
  by_cases hmilli : ns < second
  · rw [if_neg hnano, if_neg hmicro, if_pos hmilli, if_pos ⟨by omega, hmilli⟩]
    -- three digits are enough once the last three are gone
    have hamount := @amount_fraction (ns / 1000 * 1000) 3 1000 (by decide) (Nat.dvd_mul_left _ _)
    have hunits : ns / 1000 * 1000 / (10 ^ 3 * 1000) = ns / 1000000 := by omega
    have hrest : ns / 1000 * 1000 % (10 ^ 3 * 1000) / 1000 = ns % 1000000 / 1000 := by omega
    rw [hunits, hrest] at hamount
    exact .milliseconds (by omega) (by omega) hamount
  rw [if_neg hnano, if_neg hmicro, if_neg hmilli, if_neg (by omega)]
  by_cases hshort : ns < minute
  · rw [if_pos hshort]
    exact .seconds (by omega) hshort (hwhole ns)
  rw [if_neg hshort]
  by_cases hlong : hour ≤ ns
  · have hminutes : ns % hour / minute = ns / minute % 60 := by rw [hhour, hminute]; omega
    rw [if_pos hlong, hminutes]
    simpa [secondsChars] using Spells.hours hlong (hwhole (ns % minute))
  · have hminutes : ns % hour / minute = ns / minute := by rw [Nat.mod_eq_of_lt (by omega)]
    rw [if_neg hlong, hminutes]
    simpa [secondsChars] using Spells.minutes (by omega) (by omega) (hwhole (ns % minute))

end Printed

/-- Every positive number has a text. -/
theorem exists_spells {ns : Nat} (hpos : 0 < ns) : ∃ text, Spells ns text := by
  by_cases hmilli : 1000000 ≤ ns ∧ ns < second
  · -- all six digits behind the point are taken here
    have hamount := @amount_fraction ns 6 1 Nat.one_pos (Nat.one_dvd _)
    exact ⟨_, .milliseconds hmilli.1 hmilli.2 hamount⟩
  · have hspells := spells_positiveChars hpos
    rw [keptNat, if_neg hmilli] at hspells
    exact ⟨_, hspells⟩

/-- Every number has a text. -/
theorem exists_isText (ns : Int) : ∃ text, IsText ns text := by
  rcases Int.lt_trichotomy ns 0 with hneg | rfl | hpos
  · obtain ⟨text, hspells⟩ := @exists_spells ns.natAbs (by omega)
    have hns : ns = -(ns.natAbs : Int) := by omega
    rw [hns]
    exact ⟨_, .negative hspells⟩
  · exact ⟨_, .zero⟩
  · obtain ⟨text, hspells⟩ := @exists_spells ns.natAbs (by omega)
    have hns : ns = (ns.natAbs : Int) := by omega
    rw [hns]
    exact ⟨_, .positive hspells⟩

theorem isText_chars (ns : Int) : IsText (kept ns) (chars ns) := by
  rcases Int.lt_trichotomy ns 0 with hneg | rfl | hpos
  · have hspells : Spells (keptNat ns.natAbs) (positiveChars ns.natAbs) :=
      spells_positiveChars (by omega)
    rw [chars, if_neg hneg.ne, if_pos hneg, kept, Int.sign_eq_neg_one_of_neg hneg, Int.neg_one_mul]
    exact .negative hspells
  · exact .zero
  · have hspells : Spells (keptNat ns.natAbs) (positiveChars ns.natAbs) :=
      spells_positiveChars (by omega)
    rw [chars, if_neg hpos.ne', if_neg (Int.not_lt.mpr hpos.le), kept, Int.sign_eq_one_of_pos hpos,
      Int.one_mul]
    exact .positive hspells

end KeySearch.Duration
