import KeySearch.Address
import KeySearch.Proofs.BitStream

/-!
# The layout of addresses

`Address.ofPublicKey` works on one number of 256 bits. `Layout` says bit by bit what it computes:
after the byte `02` and the number of zero bits in front of the key come the complements of the 112
key bits that follow the first one bit. A key has an address exactly when it has 32 bytes and no
more than 127 zero bits in front, and its layout is then its address.
-/

set_option autoImplicit false

namespace KeySearch.Address

/-- How an address shows the bits of a public key. -/
structure Layout (publicKey : List UInt8) (a : Address) : Prop where
  first : a.bytes[0]? = some 0x02
  ones : a.bytes[1]?.map UInt8.toNat = some (zeroRun (Bytes.bits publicKey))
  tail : ∀ j < 112, (Bytes.bits (a.bytes.drop 2))[j]? =
    ((Bytes.bits publicKey)[zeroRun (Bytes.bits publicKey) + 1 + j]?).map not

/-! ## The numbers behind an address -/

/-- The ones of an inverted key are the zero bits in front of the key. -/
theorem onesOfKey_toNat {publicKey : List UInt8} (h : publicKey.length = 32) :
    onesOfKey (Bytes.toNat publicKey) = zeroRun (Bytes.bits publicKey) := by
  rw [zeroRun_bits, h, onesOfKey]

theorem tailValue_eq (key : Nat) :
    tailValue key = (key ^^^ (2 ^ 256 - 1)) % 2 ^ tailBits key / 2 ^ (tailBits key % 8) := rfl

/-- The number that the tail is written from fits the bytes of the tail. -/
theorem tailValue_lt (key : Nat) : tailValue key < 256 ^ (tailBits key / 8) := by
  have hpow : 256 ^ (tailBits key / 8) * 2 ^ (tailBits key % 8) = 2 ^ tailBits key := by
    rw [show 256 = 2 ^ 8 from rfl, ← Nat.pow_mul, ← Nat.pow_add, Nat.div_add_mod]
  -- the bits that are dropped and those that are kept add up to the bits of the tail
  rw [tailValue_eq, Nat.div_lt_iff_lt_mul (Nat.two_pow_pos _), hpow]
  exact Nat.mod_lt _ (Nat.two_pow_pos _)

/-- A bit of the tail is the complement of the key bit as far behind the first one bit. -/
theorem getElem?_bits_tailOfKey {key j : Nat} (hones : onesOfKey key ≤ maxOnes) (hj : j < 112) :
    (Bytes.bits (tailOfKey key))[j]? = some (!key.testBit (254 - onesOfKey key - j)) := by
  unfold maxOnes at hones
  have hwidth : j < 8 * (tailBits key / 8) := by
    unfold tailBits
    omega
  -- the dropped bits shift the position by what the last whole byte leaves
  have hpos : 8 * (tailBits key / 8) - 1 - j + tailBits key % 8 = 254 - onesOfKey key - j := by
    unfold tailBits at *
    omega
  have hin : 254 - onesOfKey key - j < tailBits key := by
    unfold tailBits
    omega
  have hfit : 254 - onesOfKey key - j < 256 := by omega
  rw [tailOfKey, tailValue_eq, Bytes.bits_ofNat, getElem?_msbBits _ hwidth,
    Nat.testBit_div_two_pow, hpos, Nat.testBit_mod_two_pow, Nat.testBit_xor,
    Nat.testBit_two_pow_sub_one]
  simp [hin, hfit]

/-! ## Which keys have an address -/

theorem ofPublicKey_eq_ok_iff {publicKey : List UInt8} {a : Address} :
    ofPublicKey publicKey = .ok a ↔
      publicKey.length = 32 ∧ onesOfKey (Bytes.toNat publicKey) ≤ maxOnes ∧
        a.bytes = 0x02 :: UInt8.ofNat (onesOfKey (Bytes.toNat publicKey))
          :: (tailOfKey (Bytes.toNat publicKey)).take 14 := by
  unfold ofPublicKey
  by_cases hsize : publicKey.length = 32
  · by_cases hones : maxOnes < onesOfKey (Bytes.toNat publicKey)
    · have hnot : ¬ onesOfKey (Bytes.toNat publicKey) ≤ maxOnes := by omega
      simp [hsize, hones, hnot]
    · have hle : onesOfKey (Bytes.toNat publicKey) ≤ maxOnes := by omega
      simp only [hsize, hones, hle, ne_eq, not_true_eq_false, if_false, dif_neg, true_and,
        not_false_eq_true, Except.ok.injEq]
      constructor
      · rintro rfl
        rfl
      · intro h
        cases a
        simp only at h
        subst h
        rfl
  · simp [hsize]

theorem ofPublicKey_eq_wrongSize_iff {publicKey : List UInt8} {actual : Nat} :
    ofPublicKey publicKey = .error (.wrongSize actual) ↔
      publicKey.length ≠ 32 ∧ actual = publicKey.length := by
  unfold ofPublicKey
  by_cases hsize : publicKey.length = 32
  · by_cases hones : maxOnes < onesOfKey (Bytes.toNat publicKey) <;> simp [hsize, hones]
  · simp [hsize, eq_comm]

theorem ofPublicKey_eq_tooManyOnes_iff {publicKey : List UInt8} {ones : Nat} :
    ofPublicKey publicKey = .error (.tooManyOnes ones) ↔
      publicKey.length = 32 ∧ maxOnes < onesOfKey (Bytes.toNat publicKey) ∧
        ones = onesOfKey (Bytes.toNat publicKey) := by
  unfold ofPublicKey
  by_cases hsize : publicKey.length = 32
  · by_cases hones : maxOnes < onesOfKey (Bytes.toNat publicKey)
    · simp [hsize, hones, eq_comm]
    · simp [hsize, hones]
  · simp [hsize]

theorem exists_ofPublicKey_iff {publicKey : List UInt8} :
    (∃ a, ofPublicKey publicKey = .ok a) ↔
      publicKey.length = 32 ∧ zeroRun (Bytes.bits publicKey) ≤ 127 := by
  constructor
  · rintro ⟨a, ha⟩
    obtain ⟨hsize, hones, -⟩ := ofPublicKey_eq_ok_iff.mp ha
    rw [onesOfKey_toNat hsize] at hones
    exact ⟨hsize, hones⟩
  · rintro ⟨hsize, hle⟩
    cases hkey : ofPublicKey publicKey with
    | ok a => exact ⟨a, rfl⟩
    | error e =>
        cases e with
        | wrongSize actual => exact absurd hsize (ofPublicKey_eq_wrongSize_iff.mp hkey).1
        | tooManyOnes ones =>
            have hlt := (ofPublicKey_eq_tooManyOnes_iff.mp hkey).2.1
            rw [onesOfKey_toNat hsize, maxOnes] at hlt
            omega

/-! ## The layout -/

/-- The address of a key has the layout of the key. -/
theorem layout_of_ofPublicKey {publicKey : List UInt8} {a : Address}
    (h : ofPublicKey publicKey = .ok a) : Layout publicKey a := by
  obtain ⟨hsize, hones, hbytes⟩ := ofPublicKey_eq_ok_iff.mp h
  have hrun := onesOfKey_toNat hsize
  have hle : zeroRun (Bytes.bits publicKey) ≤ 127 := by rwa [← hrun]
  refine ⟨by simp [hbytes], ?_, ?_⟩
  · rw [hbytes, hrun]
    simp only [List.getElem?_cons_succ, List.getElem?_cons_zero, Option.map_some,
      UInt8.toNat_ofNat', Option.some.injEq]
    omega
  · intro j hj
    have hkey : zeroRun (Bytes.bits publicKey) + 1 + j < 8 * publicKey.length := by omega
    have hpos : 8 * publicKey.length - 1 - (zeroRun (Bytes.bits publicKey) + 1 + j)
        = 254 - onesOfKey (Bytes.toNat publicKey) - j := by omega
    have hbit := getElem?_bits_tailOfKey hones hj
    rw [hbytes, List.drop_succ_cons, List.drop_succ_cons, List.drop_zero, Bytes.bits_take,
      List.getElem?_take_of_lt (by omega), hbit, Bytes.getElem?_bits hkey, hpos, Option.map_some]

/-- A key has at most one layout. -/
theorem Layout.unique {publicKey : List UInt8} {a b : Address} (ha : Layout publicKey a)
    (hb : Layout publicKey b) : a = b := by
  have htail : Bytes.bits (a.bytes.drop 2) = Bytes.bits (b.bytes.drop 2) := by
    apply List.ext_getElem?
    intro j
    by_cases hj : j < 112
    · rw [ha.tail j hj, hb.tail j hj]
    · rw [List.getElem?_eq_none (by simp [a.size]; omega),
        List.getElem?_eq_none (by simp [b.size]; omega)]
  have hdrop := Bytes.bits_injective htail
  obtain ⟨abytes, asize⟩ := a
  obtain ⟨bbytes, bsize⟩ := b
  match abytes, bbytes, asize, bsize with
  | a0 :: a1 :: arest, b0 :: b1 :: brest, asize, bsize =>
      have h0 : a0 = b0 := Option.some.inj (ha.first.trans hb.first.symm)
      have h1 : a1 = b1 := UInt8.toNat_inj.mp (Option.some.inj (ha.ones.trans hb.ones.symm))
      simp only [List.drop_succ_cons, List.drop_zero] at hdrop
      subst h0 h1 hdrop
      rfl

/-- **A public key has an address exactly when it has 32 bytes and at most 127 zero bits in front,
and the address is then the one with its layout.** The other keys are refused for their size or for
their zero bits, and the number that the tail is written from fits its bytes. -/
theorem ofPublicKey_layout (publicKey : List UInt8) :
    (∀ actual, ofPublicKey publicKey = .error (.wrongSize actual) ↔
      publicKey.length ≠ 32 ∧ actual = publicKey.length)
    ∧ (∀ ones, ofPublicKey publicKey = .error (.tooManyOnes ones) ↔
      publicKey.length = 32 ∧ 127 < zeroRun (Bytes.bits publicKey)
        ∧ ones = zeroRun (Bytes.bits publicKey))
    ∧ ((∃ a, ofPublicKey publicKey = .ok a) ↔
      publicKey.length = 32 ∧ zeroRun (Bytes.bits publicKey) ≤ 127)
    ∧ (∀ a, ofPublicKey publicKey = .ok a ↔
      publicKey.length = 32 ∧ zeroRun (Bytes.bits publicKey) ≤ 127 ∧ Layout publicKey a)
    ∧ tailValue (Bytes.toNat publicKey) < 256 ^ (tailBits (Bytes.toNat publicKey) / 8) := by
  refine ⟨fun actual => ofPublicKey_eq_wrongSize_iff, fun ones => ?_, exists_ofPublicKey_iff,
    fun a => ?_, tailValue_lt _⟩
  · rw [ofPublicKey_eq_tooManyOnes_iff]
    constructor
    · rintro ⟨hsize, hlt, rfl⟩
      rw [onesOfKey_toNat hsize] at hlt ⊢
      exact ⟨hsize, hlt, rfl⟩
    · rintro ⟨hsize, hlt, rfl⟩
      rw [onesOfKey_toNat hsize]
      exact ⟨hsize, hlt, rfl⟩
  · constructor
    · intro ha
      obtain ⟨hsize, hle⟩ := exists_ofPublicKey_iff.mp ⟨a, ha⟩
      exact ⟨hsize, hle, layout_of_ofPublicKey ha⟩
    · rintro ⟨hsize, hle, hlayout⟩
      obtain ⟨b, hb⟩ := exists_ofPublicKey_iff.mpr ⟨hsize, hle⟩
      rwa [hlayout.unique (layout_of_ofPublicKey hb)]

end KeySearch.Address
