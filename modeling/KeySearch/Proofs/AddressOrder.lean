import KeySearch.Proofs.AddressLayout

/-!
# The order of addresses

As a number of 128 bits an address has the zero bits of its key above 112 further bits, and these
are what is left of `Address.shown`, the first one bit of the key and the 112 bits behind it, when it
is taken from `2 ^ 113 - 1`. So a smaller key has more zero bits or the same number of them and
smaller bits behind, and either way its address is no lower. Two keys share an address exactly if
they agree as far as their address shows them.
-/

set_option autoImplicit false

namespace KeySearch.Address

/-- An address as one number of 128 bits. -/
def toNat (a : Address) : Nat := Bytes.toNat a.bytes

/-- What an address shows of its key: the first one bit and the 112 bits behind it, as a number. -/
def shown (key : Nat) : Nat := key / 2 ^ (143 - onesOfKey key)

theorem toNat_injective {a b : Address} (h : a.toNat = b.toNat) : a = b := by
  obtain ⟨abytes, asize⟩ := a
  obtain ⟨bbytes, bsize⟩ := b
  have hbytes : abytes = bbytes := by
    rw [← Bytes.ofNat_toNat abytes, ← Bytes.ofNat_toNat bbytes, asize, bsize]
    exact congrArg (Bytes.ofNat 16) h
  subst hbytes
  rfl

/-! ## Zero bits and shown bits of a key -/

theorem bitLength_mono {x y : Nat} (h : x ≤ y) : bitLength x ≤ bitLength y :=
  bitLength_le_iff.mpr (lt_of_le_of_lt h (bitLength_le_iff.mp le_rfl))

theorem onesOfKey_antitone {x y : Nat} (h : x ≤ y) : onesOfKey y ≤ onesOfKey x :=
  Nat.sub_le_sub_left (bitLength_mono h) 256

/-- A key that has an address lies between two powers of two. -/
theorem key_bounds {key : Nat} (hkey : key < 2 ^ 256) (hones : onesOfKey key ≤ maxOnes) :
    2 ^ (255 - onesOfKey key) ≤ key ∧ key < 2 ^ (256 - onesOfKey key) := by
  have hfit : bitLength key ≤ 256 := bitLength_le_iff.mpr hkey
  have hlength : bitLength key = 256 - onesOfKey key := by
    unfold onesOfKey
    omega
  unfold maxOnes at hones
  constructor
  · refine Nat.le_of_not_lt fun hlow => ?_
    have hshort := bitLength_le_iff.mpr hlow
    omega
  · exact bitLength_le_iff.mp hlength.le

/-- The shown bits begin with the first one bit, so they are a number of exactly 113 bits. -/
theorem shown_bounds {key : Nat} (hkey : key < 2 ^ 256) (hones : onesOfKey key ≤ maxOnes) :
    2 ^ 112 ≤ shown key ∧ shown key < 2 ^ 113 := by
  obtain ⟨hlow, hhigh⟩ := key_bounds hkey hones
  unfold maxOnes at hones
  have hlower : 255 - onesOfKey key = 112 + (143 - onesOfKey key) := by omega
  have hupper : 256 - onesOfKey key = 113 + (143 - onesOfKey key) := by omega
  rw [hlower, Nat.pow_add] at hlow
  rw [hupper, Nat.pow_add] at hhigh
  constructor
  · exact (Nat.le_div_iff_mul_le (Nat.two_pow_pos _)).mpr hlow
  · exact (Nat.div_lt_iff_lt_mul (Nat.two_pow_pos _)).mpr hhigh

/-! ## An address as a number -/

/-- The bytes behind the number of zero bits are the complement of the shown bits. -/
theorem take_tailOfKey {key : Nat} (hkey : key < 2 ^ 256) (hones : onesOfKey key ≤ maxOnes) :
    (tailOfKey key).take 14 = Bytes.ofNat 14 (2 ^ 113 - (shown key + 1)) := by
  obtain ⟨-, hshown⟩ := shown_bounds hkey hones
  apply Bytes.bits_injective
  apply List.ext_getElem?
  intro j
  by_cases hj : j < 112
  · have hpos : 111 - j + (143 - onesOfKey key) = 254 - onesOfKey key - j := by
      unfold maxOnes at hones
      omega
    have hin : 111 - j < 113 := by omega
    rw [Bytes.bits_take, List.getElem?_take_of_lt hj, getElem?_bits_tailOfKey hones hj,
      Bytes.bits_ofNat, getElem?_msbBits _ hj, Nat.testBit_two_pow_sub_succ hshown, shown,
      Nat.testBit_div_two_pow]
    simp [hpos, hin]
  · have hlong := length_tailOfKey hones
    rw [List.getElem?_eq_none (by simp; omega), List.getElem?_eq_none (by simp; omega)]

/-- The number of an address, from the zero bits and the shown bits of its key. -/
theorem toNat_of_ofPublicKey {publicKey : List UInt8} {a : Address}
    (h : ofPublicKey publicKey = .ok a) :
    a.toNat + shown (Bytes.toNat publicKey)
      = 2 ^ 121 + onesOfKey (Bytes.toNat publicKey) * 2 ^ 112 + (2 ^ 113 - 1) := by
  obtain ⟨hsize, hones, hbytes⟩ := ofPublicKey_eq_ok_iff.mp h
  have hkey := Bytes.toNat_lt_two_pow publicKey
  rw [hsize] at hkey
  obtain ⟨hlow, hhigh⟩ := shown_bounds hkey hones
  have hbyte : (UInt8.ofNat (onesOfKey (Bytes.toNat publicKey))).toNat
      = onesOfKey (Bytes.toNat publicKey) := by
    unfold maxOnes at hones
    rw [UInt8.toNat_ofNat']
    omega
  have htail : (2 ^ 113 - (shown (Bytes.toNat publicKey) + 1)) % 256 ^ 14
      = 2 ^ 113 - (shown (Bytes.toNat publicKey) + 1) := by
    apply Nat.mod_eq_of_lt
    omega
  rw [toNat, hbytes, take_tailOfKey hkey hones, Bytes.toNat_cons, Bytes.toNat_cons, hbyte,
    Bytes.toNat_ofNat, htail, List.length_cons, Bytes.length_ofNat]
  have hfirst : (0x02 : UInt8).toNat = 2 := rfl
  rw [hfirst]
  omega

/-! ## Order and collisions -/

section
variable {x y : List UInt8} {a b : Address}

/-- The shown bits of a key with an address are 113 bits. -/
theorem shown_bounds_of_ofPublicKey (h : ofPublicKey x = .ok a) :
    2 ^ 112 ≤ shown (Bytes.toNat x) ∧ shown (Bytes.toNat x) < 2 ^ 113 := by
  obtain ⟨hsize, hones, -⟩ := ofPublicKey_eq_ok_iff.mp h
  have hkey := Bytes.toNat_lt_two_pow x
  rw [hsize] at hkey
  exact shown_bounds hkey hones

/-- One more zero bit in front of a key outweighs all the bits that its address shows. -/
theorem toNat_lt_of_ones_lt (ha : ofPublicKey x = .ok a) (hb : ofPublicKey y = .ok b)
    (h : onesOfKey (Bytes.toNat y) < onesOfKey (Bytes.toNat x)) : b.toNat < a.toNat := by
  have hatNat := toNat_of_ofPublicKey ha
  have hbtNat := toNat_of_ofPublicKey hb
  obtain ⟨halow, hahigh⟩ := shown_bounds_of_ofPublicKey ha
  obtain ⟨hblow, hbhigh⟩ := shown_bounds_of_ofPublicKey hb
  omega

/-- A smaller key has no lower an address. -/
theorem toNat_le_of_key_le (ha : ofPublicKey x = .ok a) (hb : ofPublicKey y = .ok b)
    (h : Bytes.toNat x ≤ Bytes.toNat y) : b.toNat ≤ a.toNat := by
  rcases Nat.lt_or_eq_of_le (onesOfKey_antitone h) with hlt | heq
  · exact Nat.le_of_lt (toNat_lt_of_ones_lt ha hb hlt)
  · have hatNat := toNat_of_ofPublicKey ha
    have hbtNat := toNat_of_ofPublicKey hb
    have hshown : shown (Bytes.toNat x) ≤ shown (Bytes.toNat y) := by
      rw [shown, shown, heq]
      exact Nat.div_le_div_right h
    omega

theorem ofPublicKey_eq_iff_shown (ha : ofPublicKey x = .ok a) (hb : ofPublicKey y = .ok b) :
    a = b ↔ onesOfKey (Bytes.toNat x) = onesOfKey (Bytes.toNat y)
      ∧ shown (Bytes.toNat x) = shown (Bytes.toNat y) := by
  have hatNat := toNat_of_ofPublicKey ha
  have hbtNat := toNat_of_ofPublicKey hb
  obtain ⟨halow, hahigh⟩ := shown_bounds_of_ofPublicKey ha
  obtain ⟨hblow, hbhigh⟩ := shown_bounds_of_ofPublicKey hb
  constructor
  · intro hab
    rw [hab] at hatNat
    omega
  · rintro ⟨hones, hshown⟩
    exact toNat_injective (by omega)

/-- Keys with the same zero bits show the same bits exactly if they agree that far. -/
theorem shown_eq_iff_take (hx : x.length = 32) (hy : y.length = 32)
    (hones : onesOfKey (Bytes.toNat x) ≤ maxOnes)
    (heq : onesOfKey (Bytes.toNat x) = onesOfKey (Bytes.toNat y)) :
    shown (Bytes.toNat x) = shown (Bytes.toNat y) ↔
      (Bytes.bits x).take (onesOfKey (Bytes.toNat x) + 113)
        = (Bytes.bits y).take (onesOfKey (Bytes.toNat x) + 113) := by
  have hkeyx := Bytes.toNat_lt_two_pow x
  have hkeyy := Bytes.toNat_lt_two_pow y
  rw [hx] at hkeyx
  rw [hy] at hkeyy
  have hxhigh := (shown_bounds hkeyx hones).2
  have hyhigh := (shown_bounds hkeyy (heq ▸ hones)).2
  have hwide : 2 ^ 113 ≤ 2 ^ (onesOfKey (Bytes.toNat x) + 113) :=
    Nat.pow_le_pow_right (by decide) (by omega)
  -- the first bits of a key are those of the quotient that `shown` takes
  have htake : ∀ z : List UInt8, z.length = 32 →
      onesOfKey (Bytes.toNat z) = onesOfKey (Bytes.toNat x) →
      (Bytes.bits z).take (onesOfKey (Bytes.toNat x) + 113)
        = msbBits (onesOfKey (Bytes.toNat x) + 113) (shown (Bytes.toNat z)) := by
    intro z hz hzones
    have hwidth : 8 * z.length = onesOfKey (Bytes.toNat x) + 113
        + (143 - onesOfKey (Bytes.toNat x)) := by
      unfold maxOnes at hones
      omega
    rw [Bytes.bits_eq_msbBits, hwidth, msbBits_add, List.take_left' (length_msbBits _ _), shown,
      hzones]
  rw [htake x hx rfl, htake y hy heq.symm]
  constructor
  · intro h
    rw [h]
  · intro h
    exact msbBits_injective (by omega) (by omega) h

end

/-- **The smaller of two keys has the higher address, or they share one.** They share it exactly if
they have the same zero bits in front and agree on the 113 bits behind these. -/
theorem ofPublicKey_reverses_order {x y : List UInt8} (hx : x.length = 32) (hy : y.length = 32)
    (hxrun : zeroRun (Bytes.bits x) ≤ 127) (hyrun : zeroRun (Bytes.bits y) ≤ 127) :
    ∃ a b, ofPublicKey x = .ok a ∧ ofPublicKey y = .ok b
      ∧ (Bytes.toNat x ≤ Bytes.toNat y → b.toNat ≤ a.toNat)
      ∧ (a = b ↔ zeroRun (Bytes.bits x) = zeroRun (Bytes.bits y)
        ∧ (Bytes.bits x).take (zeroRun (Bytes.bits x) + 113)
          = (Bytes.bits y).take (zeroRun (Bytes.bits x) + 113)) := by
  obtain ⟨a, ha⟩ := exists_ofPublicKey_iff.mpr ⟨hx, hxrun⟩
  obtain ⟨b, hb⟩ := exists_ofPublicKey_iff.mpr ⟨hy, hyrun⟩
  refine ⟨a, b, ha, hb, toNat_le_of_key_le ha hb, ?_⟩
  have hones := (ofPublicKey_eq_ok_iff.mp ha).2.1
  rw [ofPublicKey_eq_iff_shown ha hb, ← onesOfKey_toNat hx, ← onesOfKey_toNat hy]
  exact and_congr_right fun heq => shown_eq_iff_take hx hy hones heq

/-- Two keys that differ only in their last bit share an address. -/
theorem ofPublicKey_reverses_order_lastBit :
    ∃ a b, ofPublicKey (0x80 :: List.replicate 31 0) = .ok a
      ∧ ofPublicKey (0x80 :: List.replicate 30 0 ++ [1]) = .ok b ∧ a = b := by
  obtain ⟨a, b, ha, hb, -, hiff⟩ :=
    @ofPublicKey_reverses_order (0x80 :: List.replicate 31 0) (0x80 :: List.replicate 30 0 ++ [1])
      (by decide) (by decide) (by decide) (by decide)
  exact ⟨a, b, ha, hb, hiff.mpr ⟨by decide, by decide⟩⟩

end KeySearch.Address
