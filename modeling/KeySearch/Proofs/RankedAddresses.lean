import KeySearch.Proofs.AddressOrder
import KeySearch.Proofs.CandidateScores
import KeySearch.Proofs.Ranking

/-!
# The better candidate has the higher address

The zero bits in front of a key are counted twice: byte by byte for the score of its candidate, and as
what one number of 256 bits lacks in length for its address. Both count the bits in front of the first
one bit, so the score is the second byte of the address. As that byte stands above all bits of the key
that an address shows, a candidate that ranks above another by zero bits has a strictly higher address.
-/

set_option autoImplicit false

namespace KeySearch

/-! ## Two counts of the same bits -/

/-- A run of zero bits ends at the first one bit, or behind the last bit if there is none. -/
theorem zeroRun_eq_findIdx (bits : List Bool) : zeroRun bits = bits.findIdx id := by
  induction bits with
  | nil => rfl
  | cons bit rest ih =>
      rw [List.findIdx_cons]
      cases bit with
      | true => rfl
      | false => rw [zeroRun, ih, id, cond_false]

theorem Bytes.leadingZeroBits_of_not_mem {bytes : List UInt8} (h : true ∉ bits bytes) :
    leadingZeroBits bytes = 8 * bytes.length := by
  have hzeros : ∀ bit ∈ bits bytes, id bit = false := by
    intro bit hbit
    cases bit with
    | true => exact absurd hbit h
    | false => rfl
  rw [leadingZeroBits_eq_zeroRun, zeroRun_eq_findIdx,
    List.findIdx_eq_length_of_false hzeros, length_bits]

namespace Address

/-- To invert a key twice leaves the key. -/
theorem onesOfKey_eq_inverted (key : Nat) :
    onesOfKey key = 256 - bitLength ((key ^^^ (2 ^ 256 - 1)) ^^^ (2 ^ 256 - 1)) := by
  rw [Nat.xor_assoc, Nat.xor_self, Nat.xor_zero, onesOfKey]

/-- The count of the score is the count of the address. -/
theorem leadingZeroBits_eq_onesOfKey {publicKey : List UInt8} (h : publicKey.length = 32) :
    Bytes.leadingZeroBits publicKey = onesOfKey (Bytes.toNat publicKey) := by
  rw [Bytes.leadingZeroBits_eq_zeroRun, onesOfKey_toNat h]

end Address

/-! ## Candidates and their addresses -/

/-- A candidate with more zero bits has the higher address. -/
theorem Candidate.toNat_address_lt {keys keys' : KeyPair} {c d : Candidate}
    (hc : Candidate.ofKeys keys = .ok c) (hd : Candidate.ofKeys keys' = .ok d)
    (h : d.zeroBits < c.zeroBits) : d.address.toNat < c.address.toNat := by
  obtain ⟨-, hcaddress, hcbits, -⟩ := Candidate.ofKeys_eq_ok_iff.mp hc
  obtain ⟨-, hdaddress, hdbits, -⟩ := Candidate.ofKeys_eq_ok_iff.mp hd
  have hcsize := (Address.ofPublicKey_eq_ok_iff.mp hcaddress).1
  have hdsize := (Address.ofPublicKey_eq_ok_iff.mp hdaddress).1
  apply Address.toNat_lt_of_ones_lt hcaddress hdaddress
  rw [← Address.leadingZeroBits_eq_onesOfKey hcsize, ← Address.leadingZeroBits_eq_onesOfKey hdsize,
    ← hcbits, ← hdbits]
  exact h

/-- **The zero bits in front of a key rank the addresses.** Counting byte by byte gives the place of the
first one bit, and all the bits if there is none. For a key of 32 bytes this is the count that its
address is made with: it is the second byte of the address, and the key has no address exactly if it is
more than 127. Of two candidates the one that ranks above the other by zero bits has the strictly higher
address. -/
theorem leadingZeroBits_ranks_addresses :
    (∀ bytes : List UInt8, Bytes.leadingZeroBits bytes = (Bytes.bits bytes).findIdx id
      ∧ (true ∉ Bytes.bits bytes → Bytes.leadingZeroBits bytes = 8 * bytes.length))
    ∧ (∀ publicKey : List UInt8, publicKey.length = 32 →
        Bytes.leadingZeroBits publicKey = Address.onesOfKey (Bytes.toNat publicKey)
        ∧ Address.onesOfKey (Bytes.toNat publicKey) = 256
          - bitLength ((Bytes.toNat publicKey ^^^ (2 ^ 256 - 1)) ^^^ (2 ^ 256 - 1))
        ∧ (∀ a, Address.ofPublicKey publicKey = .ok a →
            a.bytes[1]?.map UInt8.toNat = some (Bytes.leadingZeroBits publicKey))
        ∧ ((∃ a, Address.ofPublicKey publicKey = .ok a) ↔ Bytes.leadingZeroBits publicKey ≤ 127)
        ∧ ∀ ones, Address.ofPublicKey publicKey = .error (.tooManyOnes ones) ↔
            127 < Bytes.leadingZeroBits publicKey ∧ ones = Bytes.leadingZeroBits publicKey)
    ∧ ∀ (keys keys' : KeyPair) (c d : Candidate), Candidate.ofKeys keys = .ok c →
        Candidate.ofKeys keys' = .ok d → beats false c d = true →
        d.address.toNat < c.address.toNat := by
  refine ⟨fun bytes => ⟨?_, Bytes.leadingZeroBits_of_not_mem⟩, fun publicKey hsize => ?_,
    fun keys keys' c d hc hd hbeats => ?_⟩
  · rw [Bytes.leadingZeroBits_eq_zeroRun, zeroRun_eq_findIdx]
  · have hcount := Address.leadingZeroBits_eq_onesOfKey hsize
    refine ⟨hcount, Address.onesOfKey_eq_inverted _, fun a ha => ?_, ?_, fun ones => ?_⟩
    · rw [Bytes.leadingZeroBits_eq_zeroRun]
      exact (Address.layout_of_ofPublicKey ha).ones
    · rw [Address.exists_ofPublicKey_iff, Bytes.leadingZeroBits_eq_zeroRun]
      exact and_iff_right hsize
    · rw [Address.ofPublicKey_eq_tooManyOnes_iff, hcount]
      exact and_iff_right hsize
  · -- without zero blocks a candidate beats another exactly if it has more zero bits
    have hbits : ((d.zeroBits : Nat) : Int) < c.zeroBits := of_decide_eq_true hbeats
    exact Candidate.toNat_address_lt hc hd (Int.ofNat_lt.mp hbits)

/-- Eight zero bits in front rank above seven, whatever follows. -/
theorem leadingZeroBits_ranks_addresses_eightOverSeven :
    ∃ c d, Candidate.ofKeys ⟨[], 0x00 :: 0x80 :: List.replicate 30 0x00⟩ = .ok c
      ∧ Candidate.ofKeys ⟨[], 0x01 :: List.replicate 31 0xff⟩ = .ok d
      ∧ c.address.bytes[1]?.map UInt8.toNat = some 8 ∧ d.address.toNat < c.address.toNat := by
  obtain ⟨c, hc⟩ := (@Candidate.exists_ofKeys_iff
    ⟨[], 0x00 :: 0x80 :: List.replicate 30 0x00⟩).mpr (by decide)
  obtain ⟨d, hd⟩ := (@Candidate.exists_ofKeys_iff ⟨[], 0x01 :: List.replicate 31 0xff⟩).mpr (by decide)
  obtain ⟨-, haddress, hcbits, -⟩ := Candidate.ofKeys_eq_ok_iff.mp hc
  obtain ⟨-, -, hdbits, -⟩ := Candidate.ofKeys_eq_ok_iff.mp hd
  have hbeats : beats false c d = true := by
    show decide (((d.zeroBits : Nat) : Int) < c.zeroBits) = true
    rw [hcbits, hdbits]
    decide
  obtain ⟨-, hkey, horder⟩ := leadingZeroBits_ranks_addresses
  exact ⟨c, d, hc, hd, (hkey _ (by decide)).2.2.1 _ haddress, horder _ _ c d hc hd hbeats⟩

end KeySearch
