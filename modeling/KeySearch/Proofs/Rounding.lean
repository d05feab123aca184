import KeySearch.Number.Binary64
import Mathlib.Tactic.Linarith
import Mathlib.Tactic.Ring

/-!
# Rounding keeps powers of two apart

Powers of two are binary floating-point numbers, so no quotient that is at least one of them is
rounded below it (`Binary64.atLeast_ofQuotient`), and none that is at most one of them is rounded
above it (`Binary64.atMost_ofQuotient`). For a difference this means that it is large when its first
part is far above its second: `Binary64.atLeast_sub`. For a product it means that it is finite when
its parts are far below the largest number: `Binary64.AtMost.mul`. Nothing more is known here about
the error of an operation, and nothing more is needed to see that a clock passes every limit and that
a time has an integer part.
-/

set_option autoImplicit false

namespace KeySearch

theorem le_roundQuotient (num den : Nat) : num / den ≤ roundQuotient num den := by
  unfold roundQuotient
  dsimp only
  split
  · exact le_rfl
  · split <;> omega

namespace Binary64

/-! ## The logarithm of a quotient -/

theorem scaleQuotient_natCast (num den shift : Nat) :
    scaleQuotient num den shift = (num, den * 2 ^ shift) := by
  simp [scaleQuotient]

theorem scaleQuotient_neg (num den shift : Nat) :
    scaleQuotient num den (-(shift : Int)) = (num * 2 ^ shift, den) := by
  cases shift with
  | zero => simp [scaleQuotient]
  | succ shift =>
      have hneg : ¬ (0 : Int) ≤ -((shift + 1 : Nat) : Int) := by omega
      rw [scaleQuotient, if_neg hneg, Int.neg_neg, Int.toNat_natCast, Nat.pow_eq]

/-- `floorLog` is no less than the exponent of any power of two below the quotient. -/
theorem le_floorLog {num den k : Nat} (hden : 0 < den) (h : 2 ^ k * den ≤ num) :
    (k : Int) ≤ floorLog num den := by
  have hpos : 0 < 2 ^ k * den := Nat.mul_pos (Nat.two_pow_pos k) hden
  have hlog : k + den.log2 ≤ num.log2 := by
    rw [Nat.le_log2 (by omega), Nat.pow_add]
    exact (Nat.mul_le_mul_left _ (Nat.log2_self_le (by omega))).trans h
  unfold floorLog
  dsimp only
  split
  · simp only [Int.ofNat_eq_natCast]
    omega
  · next hbelow =>
    -- the guess is not `k` itself, because the quotient is no less than `2 ^ k`
    have hne : (Int.ofNat num.log2 - Int.ofNat den.log2 : Int) ≠ k := by
      intro heq
      rw [heq, scaleQuotient_natCast] at hbelow
      exact hbelow (by rw [Nat.mul_comm]; exact h)
    simp only [Int.ofNat_eq_natCast] at hne ⊢
    omega

/-- The quotient is no less than the power of two that `floorLog` names. -/
theorem two_pow_mul_le_of_floorLog {num den k : Nat} (hnum : num ≠ 0)
    (h : floorLog num den = k) : 2 ^ k * den ≤ num := by
  unfold floorLog at h
  dsimp only at h
  split at h
  · next hle =>
    rw [h, scaleQuotient_natCast] at hle
    rw [Nat.mul_comm]
    exact hle
  · simp only [Int.ofNat_eq_natCast] at h
    have hlog : k + (den.log2 + 1) = num.log2 := by omega
    calc 2 ^ k * den
        ≤ 2 ^ k * 2 ^ (den.log2 + 1) := Nat.mul_le_mul_left _ Nat.lt_log2_self.le
      _ = 2 ^ num.log2 := by rw [← Nat.pow_add, hlog]
      _ ≤ num := Nat.log2_self_le hnum

/-! ## Numbers that are large enough -/

/-- Whether the number is no less than a natural number, both taken exactly. -/
def AtLeast (n : Nat) : Binary64 → Prop
  | .infinite negative => negative = false
  | .finite false mantissa exponent =>
    n * (magnitude mantissa exponent).2 ≤ (magnitude mantissa exponent).1
  | _ => False

theorem atLeast_finite {n mantissa : Nat} {exponent : Int} :
    (finite false mantissa exponent).AtLeast n ↔
      n * (magnitude mantissa exponent).2 ≤ (magnitude mantissa exponent).1 :=
  Iff.rfl

theorem magnitude_den_pos (mantissa : Nat) (exponent : Int) :
    0 < (magnitude mantissa exponent).2 := by
  unfold magnitude
  split
  · exact Nat.one_pos
  · exact Nat.two_pow_pos _

/-- A full mantissa makes a number as large as its exponent says. -/
theorem atLeast_of_full {mantissa k : Nat} {exponent : Int} (hfull : 2 ^ 52 ≤ mantissa)
    (hk : (k : Int) ≤ exponent + 52) : (finite false mantissa exponent).AtLeast (2 ^ k) := by
  rw [atLeast_finite]
  unfold magnitude
  split
  · have hle : k ≤ 52 + exponent.toNat := by omega
    calc 2 ^ k * 1
        ≤ 2 ^ (52 + exponent.toNat) := by
          rw [Nat.mul_one]
          exact Nat.pow_le_pow_right Nat.two_pos hle
      _ = 2 ^ 52 * 2 ^ exponent.toNat := Nat.pow_add 2 52 _
      _ ≤ mantissa * 2 ^ exponent.toNat := Nat.mul_le_mul_right _ hfull
  · have hle : k + (-exponent).toNat ≤ 52 := by omega
    calc 2 ^ k * 2 ^ (-exponent).toNat
        = 2 ^ (k + (-exponent).toNat) := (Nat.pow_add 2 k _).symm
      _ ≤ 2 ^ 52 := Nat.pow_le_pow_right Nat.two_pos hle
      _ ≤ mantissa := hfull

/-- Scaled by 52 less than its logarithm, a quotient has a full mantissa. -/
theorem full_roundQuotient {num den log : Nat} (hden : 0 < den) (h : 2 ^ log * den ≤ num) :
    2 ^ 52 ≤ roundQuotient (scaleQuotient num den ((log : Int) - 52)).1
      (scaleQuotient num den ((log : Int) - 52)).2 := by
  refine le_trans ?_ (le_roundQuotient _ _)
  rcases Nat.le_total 52 log with hlarge | hsmall
  · obtain ⟨shift, rfl⟩ := Nat.exists_eq_add_of_le hlarge
    have hshift : ((52 + shift : Nat) : Int) - 52 = shift := by omega
    rw [hshift, scaleQuotient_natCast]
    show 2 ^ 52 ≤ num / (den * 2 ^ shift)
    rw [Nat.le_div_iff_mul_le (Nat.mul_pos hden (Nat.two_pow_pos shift))]
    calc 2 ^ 52 * (den * 2 ^ shift)
        = 2 ^ (52 + shift) * den := by rw [Nat.pow_add]; ring
      _ ≤ num := h
  · obtain ⟨shift, hshift⟩ := Nat.exists_eq_add_of_le hsmall
    have hneg : (log : Int) - 52 = -(shift : Int) := by omega
    rw [hneg, scaleQuotient_neg]
    show 2 ^ 52 ≤ num * 2 ^ shift / den
    rw [Nat.le_div_iff_mul_le hden]
    calc 2 ^ 52 * den
        = 2 ^ (log + shift) * den := by rw [← hshift]
      _ = 2 ^ log * den * 2 ^ shift := by rw [Nat.pow_add]; ring
      _ ≤ num * 2 ^ shift := Nat.mul_le_mul_right _ h

/-- No quotient that is at least a power of two is rounded below it. -/
theorem atLeast_ofQuotient {num den k : Nat} (hden : 0 < den) (h : 2 ^ k * den ≤ num) :
    (ofQuotient false num den).AtLeast (2 ^ k) := by
  have hnum : num ≠ 0 := by
    have hpos : 0 < 2 ^ k * den := Nat.mul_pos (Nat.two_pow_pos k) hden
    omega
  have hk := le_floorLog hden h
  obtain ⟨log, hlog⟩ := Int.eq_ofNat_of_zero_le ((Int.natCast_nonneg k).trans hk)
  have hfull := full_roundQuotient hden (two_pow_mul_le_of_floorLog hnum hlog)
  have hexponent : max (floorLog num den - 52) minExponent = (log : Int) - 52 := by
    rw [hlog, minExponent]
    omega
  unfold ofQuotient
  rw [if_neg hnum]
  dsimp only
  rw [hexponent]
  split
  · split
    · rfl
    · exact atLeast_of_full le_rfl (by omega)
  · split
    · rfl
    · exact atLeast_of_full hfull (by omega)

theorem exceeds_finite {negative : Bool} {mantissa : Nat} {exponent n : Int} :
    (finite negative mantissa exponent).exceeds n = true ↔
      n * (magnitude mantissa exponent).2 < signedNat negative (magnitude mantissa exponent).1 := by
  show decide (n * ((magnitude mantissa exponent).2 : Int)
    < signedNat negative (magnitude mantissa exponent).1) = true ↔ _
  exact decide_eq_true_iff

/-- A number that is large enough lies above every smaller integer. -/
theorem AtLeast.exceeds {x : Binary64} {n m : Nat} (h : x.AtLeast n) (hm : m < n) :
    x.exceeds m = true := by
  unfold AtLeast at h
  split at h
  · subst h
    rfl
  · next mantissa exponent =>
    have hlt : m * (magnitude mantissa exponent).2 < (magnitude mantissa exponent).1 :=
      (Nat.mul_lt_mul_of_pos_right hm (magnitude_den_pos mantissa exponent)).trans_le h
    rw [exceeds_finite]
    exact Int.ofNat_lt.mpr hlt
  · exact h.elim

/-- A positive difference is the exact one, rounded. -/
theorem sub_finite_of_pos {s t : Bool} {m n : Nat} {e f difference : Int}
    (hdifference : signedNat s (magnitude m e).1 * (magnitude n f).2
      - signedNat t (magnitude n f).1 * (magnitude m e).2 = difference) (hpos : 0 < difference) :
    (finite s m e).sub (finite t n f)
      = ofQuotient false difference.natAbs ((magnitude m e).2 * (magnitude n f).2) := by
  have hsub : (finite s m e).sub (finite t n f)
      = ofQuotient (if difference = 0 then s && !t else difference < 0) difference.natAbs
        ((magnitude m e).2 * (magnitude n f).2) := by
    rw [← hdifference]
    rfl
  rw [hsub, if_neg hpos.ne', decide_eq_false (Int.not_lt.mpr hpos.le)]

/-- A difference is large if its first part is twice as large as its second may be. -/
theorem atLeast_sub {x : Binary64} {k : Nat} (hx : x.AtLeast (2 ^ (k + 1))) {negative : Bool}
    {mantissa : Nat} {exponent : Int}
    (hy : (finite negative mantissa exponent).exceeds ((2 ^ k : Nat) : Int) = false) :
    (x.sub (finite negative mantissa exponent)).AtLeast (2 ^ k) := by
  unfold AtLeast at hx
  split at hx
  · subst hx
    rfl
  · next m e =>
    have hyle : signedNat negative (magnitude mantissa exponent).1
        ≤ (2 ^ k : Nat) * (magnitude mantissa exponent).2 := by
      rw [← Int.not_lt, ← exceeds_finite, hy]
      decide
    have hden : 0 < (magnitude m e).2 * (magnitude mantissa exponent).2 :=
      Nat.mul_pos (magnitude_den_pos m e) (magnitude_den_pos mantissa exponent)
    have hlarge : ((2 ^ k * ((magnitude m e).2 * (magnitude mantissa exponent).2) : Nat) : Int)
        ≤ signedNat false (magnitude m e).1 * (magnitude mantissa exponent).2
          - signedNat negative (magnitude mantissa exponent).1 * (magnitude m e).2 := by
      have hfirst : ((2 ^ (k + 1) * (magnitude m e).2 * (magnitude mantissa exponent).2 : Nat) : Int)
          ≤ signedNat false (magnitude m e).1 * (magnitude mantissa exponent).2 :=
        Int.ofNat_le.mpr (Nat.mul_le_mul_right _ hx)
      have hsecond : signedNat negative (magnitude mantissa exponent).1 * (magnitude m e).2
          ≤ (2 ^ k : Nat) * (magnitude mantissa exponent).2 * (magnitude m e).2 :=
        Int.mul_le_mul_of_nonneg_right hyle (Int.natCast_nonneg _)
      push_cast at hfirst hsecond ⊢
      rw [pow_succ] at hfirst
      linarith
    have hpos := Nat.mul_pos (Nat.two_pow_pos k) hden
    rw [sub_finite_of_pos rfl (by omega)]
    exact atLeast_ofQuotient hden (by omega)
  · exact hx.elim

/-- Below infinity there is a power of two above every number. -/
theorem exists_not_exceeds_two_pow {x : Binary64} (hfinite : x.isInfinite = false) :
    ∃ bound, ∀ k, bound ≤ k → x.exceeds ((2 ^ k : Nat) : Int) = false := by
  cases x with
  | nan => exact ⟨0, fun _ _ => rfl⟩
  | infinite negative => cases hfinite
  | finite negative mantissa exponent =>
      refine ⟨(magnitude mantissa exponent).1, fun k hk => ?_⟩
      have hden := magnitude_den_pos mantissa exponent
      have hsigned : signedNat negative (magnitude mantissa exponent).1
          ≤ (magnitude mantissa exponent).1 := by
        unfold signedNat
        split <;> simp only [Int.ofNat_eq_natCast] <;> omega
      have hle : (magnitude mantissa exponent).1 ≤ 2 ^ k * (magnitude mantissa exponent).2 :=
        calc (magnitude mantissa exponent).1
            ≤ k := hk
          _ ≤ 2 ^ k := Nat.lt_two_pow_self.le
          _ ≤ 2 ^ k * (magnitude mantissa exponent).2 := Nat.le_mul_of_pos_right _ hden
      rw [← Bool.not_eq_true, exceeds_finite, Int.not_lt]
      exact hsigned.trans (mod_cast hle)

theorem ofQuotient_ne_nan (negative : Bool) (num den : Nat) : ofQuotient negative num den ≠ nan := by
  unfold ofQuotient
  dsimp only
  repeat' split
  all_goals exact Binary64.noConfusion

/-! ## Numbers that are small enough -/

/-- Whether the number is finite and no farther from zero than a natural number, both taken
exactly. -/
def AtMost (n : Nat) : Binary64 → Prop
  | .finite _ mantissa exponent =>
    (magnitude mantissa exponent).1 ≤ n * (magnitude mantissa exponent).2
  | _ => False

/-- One of the two powers is one. -/
theorem atMost_finite {n mantissa : Nat} {exponent : Int} {negative : Bool} :
    (finite negative mantissa exponent).AtMost n ↔
      mantissa * 2 ^ exponent.toNat ≤ n * 2 ^ (-exponent).toNat := by
  show (magnitude mantissa exponent).1 ≤ n * (magnitude mantissa exponent).2 ↔ _
  unfold magnitude
  split
  · next hnonneg =>
    have hnone : (-exponent).toNat = 0 := by omega
    rw [hnone]
    rfl
  · next hneg =>
    have hnone : exponent.toNat = 0 := by omega
    rw [hnone, Nat.pow_zero, Nat.mul_one]
    rfl

theorem roundQuotient_le {num den bound : Nat} (h : num ≤ bound * den) :
    roundQuotient num den ≤ bound := by
  rcases Nat.eq_zero_or_pos den with rfl | hden
  · have hnum : num = 0 := by omega
    simp [roundQuotient, hnum]
  · have hmod := Nat.mod_add_div num den
    have hle : num / den ≤ bound := by
      rw [← Nat.lt_succ_iff, Nat.div_lt_iff_lt_mul hden, Nat.succ_mul]
      omega
    rcases Nat.lt_or_ge (num / den) bound with hlt | hge
    · have hone : num / den % 2 ≤ 1 := by omega
      unfold roundQuotient
      dsimp only
      split
      · exact hle
      · split <;> omega
    · -- the quotient is the bound, and nothing is left to round
      have hexact : num / den = bound := Nat.le_antisymm hle hge
      have hrest : num % den = 0 := by
        rw [hexact, Nat.mul_comm den] at hmod
        omega
      unfold roundQuotient
      dsimp only
      rw [hrest, if_pos (by omega)]
      exact hle

/-- `floorLog` is no more than the exponent of any power of two above the quotient. -/
theorem floorLog_le {num den k : Nat} (hnum : num ≠ 0) (hden : 0 < den) (h : num ≤ 2 ^ k * den) :
    floorLog num den ≤ k := by
  rw [← Int.not_lt]
  intro hlt
  obtain ⟨log, hlog⟩ := Int.eq_ofNat_of_zero_le ((Int.natCast_nonneg k).trans hlt.le)
  have hlarge := two_pow_mul_le_of_floorLog hnum hlog
  have hpow : 2 ^ k < 2 ^ log := Nat.pow_lt_pow_right (by decide) (by omega)
  exact absurd (hlarge.trans h) (Nat.not_le.mpr (Nat.mul_lt_mul_of_pos_right hpow hden))

/-- Scaled by an exponent, a quotient below a power of two has a small mantissa. -/
theorem roundQuotient_scale_le {num den k : Nat} {exponent : Int} (h : num ≤ 2 ^ k * den)
    (hexponent : exponent ≤ k) :
    roundQuotient (scaleQuotient num den exponent).1 (scaleQuotient num den exponent).2
      ≤ 2 ^ ((k : Int) - exponent).toNat := by
  refine roundQuotient_le ?_
  obtain ⟨shift, rfl | rfl⟩ := exponent.eq_nat_or_neg
  · obtain ⟨rest, rfl⟩ := Nat.exists_eq_add_of_le (Int.ofNat_le.mp hexponent)
    have hrest : (((shift + rest : Nat) : Int) - shift).toNat = rest := by omega
    rw [scaleQuotient_natCast, hrest]
    calc num
        ≤ 2 ^ (shift + rest) * den := h
      _ = 2 ^ rest * (den * 2 ^ shift) := by rw [Nat.pow_add]; ring
  · have hrest : ((k : Int) - -(shift : Int)).toNat = k + shift := by omega
    rw [scaleQuotient_neg, hrest]
    calc num * 2 ^ shift
        ≤ 2 ^ k * den * 2 ^ shift := Nat.mul_le_mul_right _ h
      _ = 2 ^ (k + shift) * den := by rw [Nat.pow_add]; ring

/-- A mantissa below what its exponent leaves makes a number below a power of two. -/
theorem atMost_of_mantissa_le {mantissa k : Nat} {exponent : Int} {negative : Bool}
    (h : mantissa ≤ 2 ^ ((k : Int) - exponent).toNat) (hexponent : exponent ≤ k) :
    (finite negative mantissa exponent).AtMost (2 ^ k) := by
  rw [atMost_finite]
  have hpowers : ((k : Int) - exponent).toNat + exponent.toNat = k + (-exponent).toNat := by omega
  calc mantissa * 2 ^ exponent.toNat
      ≤ 2 ^ ((k : Int) - exponent).toNat * 2 ^ exponent.toNat := Nat.mul_le_mul_right _ h
    _ = 2 ^ k * 2 ^ (-exponent).toNat := by rw [← Nat.pow_add, hpowers, Nat.pow_add]

/-- No quotient that is at most a power of two is rounded above it. -/
theorem atMost_ofQuotient {num den k : Nat} (hden : 0 < den) (h : num ≤ 2 ^ k * den)
    (hk : k ≤ 1023) (negative : Bool) : (ofQuotient negative num den).AtMost (2 ^ k) := by
  unfold ofQuotient
  split
  · rw [atMost_finite, Nat.zero_mul]
    exact Nat.zero_le _
  · next hnum =>
    have hlog := floorLog_le hnum hden h
    have hle : max (floorLog num den - 52) minExponent ≤ k := by
      rw [minExponent]
      omega
    have hmax : max (floorLog num den - 52) minExponent ≤ maxExponent := by
      rw [minExponent, maxExponent]
      omega
    have hmantissa := roundQuotient_scale_le h hle
    dsimp only
    split
    · next hfull =>
      -- a mantissa of 53 bits is halved, and there is room for the larger exponent
      rw [hfull] at hmantissa
      have hroom := (Nat.pow_le_pow_iff_right (by decide)).mp hmantissa
      rw [if_neg (by rw [maxExponent]; omega)]
      refine atMost_of_mantissa_le (Nat.pow_le_pow_right Nat.two_pos ?_) ?_ <;> omega
    · rw [if_neg (Int.not_lt.mpr hmax)]
      exact atMost_of_mantissa_le hmantissa hle

/-- A number that is small enough has an integer part and a nearest integer. -/
theorem AtMost.exists_integers {x : Binary64} {n : Nat} (h : x.AtMost n) :
    (∃ part, x.truncate = .ok part) ∧ ∃ nearest, x.nearestInteger = .ok nearest := by
  cases x with
  | finite negative mantissa exponent => exact ⟨⟨_, rfl⟩, _, rfl⟩
  | infinite negative => exact h.elim
  | nan => exact h.elim

/-- The nearest integer is no farther from zero than the number may be. -/
theorem AtMost.natAbs_nearest_le {x : Binary64} {n : Nat} (h : x.AtMost n) {nearest : Int}
    (hnearest : x.nearestInteger = .ok nearest) : nearest.natAbs ≤ n := by
  cases x with
  | finite negative mantissa exponent =>
      cases hnearest
      calc (signedNat negative (roundQuotient (magnitude mantissa exponent).1
            (magnitude mantissa exponent).2)).natAbs
          = roundQuotient (magnitude mantissa exponent).1 (magnitude mantissa exponent).2 := by
            unfold signedNat
            split <;> simp
        _ ≤ n := roundQuotient_le h
  | infinite negative => exact h.elim
  | nan => exact h.elim

/-- Taking zero off a number does not make it larger. -/
theorem AtMost.sub_zero {x : Binary64} {k : Nat} (h : x.AtMost (2 ^ k)) (hk : k ≤ 1023)
    (small : Int) : (x.sub (finite false 0 small)).AtMost (2 ^ k) := by
  cases x with
  | infinite negative => exact h.elim
  | nan => exact h.elim
  | finite negative mantissa exponent =>
      have hzero : signedNat false (magnitude 0 small).1 = 0 := by
        unfold magnitude
        split <;> simp [signedNat]
      have hden := Nat.mul_pos (magnitude_den_pos mantissa exponent) (magnitude_den_pos 0 small)
      -- the difference is the first number, with the denominators of both
      have hdifference : (signedNat negative (magnitude mantissa exponent).1 * (magnitude 0 small).2
          - signedNat false (magnitude 0 small).1 * (magnitude mantissa exponent).2).natAbs
          = (magnitude mantissa exponent).1 * (magnitude 0 small).2 := by
        rw [hzero, Int.zero_mul, Int.sub_zero, Int.natAbs_mul, Int.natAbs_natCast]
        cases negative <;> simp [signedNat]
      refine atMost_ofQuotient hden ?_ hk _
      refine hdifference.trans_le ?_
      rw [← Nat.mul_assoc]
      exact Nat.mul_le_mul_right _ h

/-- Powers of two that two numbers do not exceed have a product that theirs does not exceed. -/
theorem AtMost.mul {x y : Binary64} {k l : Nat} (hx : x.AtMost (2 ^ k)) (hy : y.AtMost (2 ^ l))
    (hkl : k + l ≤ 1023) : (x.mul y).AtMost (2 ^ (k + l)) := by
  cases x with
  | infinite negative => exact hx.elim
  | nan => exact hx.elim
  | finite s m e =>
      cases y with
      | infinite negative => exact hy.elim
      | nan => exact hy.elim
      | finite t n f =>
          have hproduct : (finite s (m * n) (e + f)).AtMost (2 ^ (k + l)) := by
            rw [atMost_finite] at hx hy ⊢
            have hpowers : e.toNat + f.toNat + (-(e + f)).toNat
                = (e + f).toNat + (-e).toNat + (-f).toNat := by omega
            refine Nat.le_of_mul_le_mul_right ?_ (Nat.two_pow_pos (e.toNat + f.toNat))
            calc m * n * 2 ^ (e + f).toNat * 2 ^ (e.toNat + f.toNat)
                = m * 2 ^ e.toNat * (n * 2 ^ f.toNat) * 2 ^ (e + f).toNat := by
                  rw [Nat.pow_add]; ring
              _ ≤ 2 ^ k * 2 ^ (-e).toNat * (2 ^ l * 2 ^ (-f).toNat) * 2 ^ (e + f).toNat :=
                  Nat.mul_le_mul_right _ (Nat.mul_le_mul hx hy)
              _ = 2 ^ (k + l) * 2 ^ ((e + f).toNat + (-e).toNat + (-f).toNat) := by
                  simp only [Nat.pow_add]; ring
              _ = 2 ^ (k + l) * 2 ^ (-(e + f)).toNat * 2 ^ (e.toNat + f.toNat) := by
                  rw [← hpowers]; simp only [Nat.pow_add]; ring
          exact atMost_ofQuotient (magnitude_den_pos (m * n) (e + f)) hproduct hkl _

end Binary64

end KeySearch
