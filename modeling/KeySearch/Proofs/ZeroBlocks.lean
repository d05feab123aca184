import KeySearch.Proofs.CandidateScores

/-!
# Zero blocks as bits of the key

The second score of a candidate comes about in four stages: the key is inverted behind its first one
bit, packed into bytes, read as groups of 16 bits, and the longest run of zero groups is counted. Here
the stages are read back to the key. A run of zero groups begins somewhere
(`Address.le_zeroBlocks_iff`), a zero group is 16 zero bits of the address, and these are 16 one bits of
the key. So a score of `n` says that `n` aligned blocks of ones follow one another behind the first one
bit.
-/

set_option autoImplicit false

namespace KeySearch

namespace Address

/-! ## Groups as bits -/

/-- Two bytes are zero as a number exactly if their 16 bits are. -/
theorem pair_eq_zero_iff (high low : UInt8) :
    high.toNat * 256 + low.toNat = 0 ↔
      ∀ k < 16, (Bytes.bits [high, low])[k]? = some false := by
  have hvalue : Bytes.toNat [high, low] = high.toNat * 256 + low.toNat := by
    simp [Bytes.toNat]
  constructor
  · intro hzero k hk
    rw [Bytes.getElem?_bits hk, hvalue, hzero, Nat.zero_testBit]
  · intro hbits
    rw [← hvalue]
    apply Nat.eq_of_testBit_eq
    intro i
    rw [Nat.zero_testBit]
    by_cases hi : i < 16
    · have hpos : 8 * [high, low].length - 1 - (15 - i) = i := by
        simp only [List.length_cons, List.length_nil]
        omega
      have hbit := hbits (15 - i) (by omega)
      rw [Bytes.getElem?_bits (by simp only [List.length_cons, List.length_nil]; omega), hpos] at hbit
      exact Option.some.inj hbit
    · have hlt := Bytes.toNat_lt_two_pow [high, low]
      have hpow : 2 ^ 16 ≤ 2 ^ i := Nat.pow_le_pow_right (by decide) (by omega)
      exact Nat.testBit_lt_two_pow (lt_of_lt_of_le hlt hpow)

/-- A pair of bytes is zero exactly if its 16 bits are. -/
theorem pairs_getElem?_eq_zero_iff {bytes : List UInt8} {g : Nat} (h : 2 * g + 1 < bytes.length) :
    (pairs bytes)[g]? = some 0 ↔ ∀ k < 16, (Bytes.bits bytes)[16 * g + k]? = some false := by
  fun_induction pairs bytes generalizing g with
  | case1 high low rest ih =>
      have hsplit : Bytes.bits (high :: low :: rest) = Bytes.bits [high, low] ++ Bytes.bits rest :=
        Bytes.bits_append [high, low] rest
      have hlength : (Bytes.bits [high, low]).length = 16 := Bytes.length_bits [high, low]
      rw [hsplit]
      cases g with
      | zero =>
          rw [List.getElem?_cons_zero, Option.some_inj, pair_eq_zero_iff]
          refine forall₂_congr fun k hk => ?_
          rw [Nat.mul_zero, Nat.zero_add, List.getElem?_append_left (by omega)]
      | succ g =>
          simp only [List.length_cons] at h
          rw [List.getElem?_cons_succ, ih (by omega)]
          refine forall₂_congr fun k _ => ?_
          have hpos : 16 * (g + 1) + k - 16 = 16 * g + k := by omega
          rw [List.getElem?_append_right (by omega), hlength, hpos]
  | case2 bytes hshort =>
      -- fewer than two bytes have no pair
      rcases bytes with _ | ⟨high, _ | ⟨low, rest⟩⟩
      · exact absurd h (Nat.not_lt_zero _)
      · simp at h
      · exact absurd rfl (hshort high low rest)

/-- A group behind the first one is zero exactly if the 16 key bits that it inverts are ones. -/
theorem groups_getElem?_eq_zero_iff {publicKey : List UInt8} {a : Address}
    (h : ofPublicKey publicKey = .ok a) {i : Nat} (hi : i < 7) :
    a.groups[i + 1]? = some 0 ↔ ∀ k < 16,
      (Bytes.bits publicKey)[zeroRun (Bytes.bits publicKey) + 1 + 16 * i + k]? = some true := by
  have htail := (layout_of_ofPublicKey h).tail
  have hsplit : Bytes.bits a.bytes = Bytes.bits (a.bytes.take 2) ++ Bytes.bits (a.bytes.drop 2) := by
    rw [← Bytes.bits_append, List.take_append_drop]
  have hlength : (Bytes.bits (a.bytes.take 2)).length = 16 := by
    rw [Bytes.length_bits, List.length_take, a.size]
    rfl
  rw [groups, pairs_getElem?_eq_zero_iff (by rw [a.size]; omega), hsplit]
  refine forall₂_congr fun k hk => ?_
  have hpos : 16 * (i + 1) + k - 16 = 16 * i + k := by omega
  have hkey : zeroRun (Bytes.bits publicKey) + 1 + (16 * i + k)
      = zeroRun (Bytes.bits publicKey) + 1 + 16 * i + k := by omega
  rw [List.getElem?_append_right (by omega), hlength, hpos, htail _ (by omega), hkey,
    Option.map_eq_some_iff]
  constructor
  · rintro ⟨bit, hbit, hnot⟩
    rw [hbit, Bool.not_inj (hnot.trans Bool.not_true.symm)]
  · intro hbit
    exact ⟨true, hbit, rfl⟩

/-- Blocks that follow one another are one stretch of bits. -/
theorem forall_blocks_iff {p : Nat → Prop} {start n : Nat} :
    (∀ j < n, ∀ k < 16, p (start + 16 * j + k)) ↔ ∀ b, start ≤ b → b < start + 16 * n → p b := by
  constructor
  · intro h b hlow hhigh
    have hb : start + 16 * ((b - start) / 16) + (b - start) % 16 = b := by omega
    rw [← hb]
    exact h _ (by omega) _ (by omega)
  · intro h j hj k hk
    exact h _ (by omega) (by omega)

end Address

/-! ## The score of a key -/

/-- **The zero blocks of a key are its longest run of aligned blocks of ones.** With `L` zero bits in
front of the key, block `g` is the 16 key bits from `L + 1 + 16 * (g - 1)` on, for `g` from 1 to 7, and
`n` blocks from `g` on are the bits up to `L + 16 * (g - 1 + n)`. -/
theorem Candidate.zeroBlocks_ofKeys {keys : KeyPair} (hsize : keys.publicKey.length = 32)
    (hrun : zeroRun (Bytes.bits keys.publicKey) ≤ 127) :
    ∃ c, Candidate.ofKeys keys = .ok c ∧ c.zeroBlocks ≤ 7 ∧ ∀ n, 1 ≤ n → n ≤ 7 →
      (n ≤ c.zeroBlocks ↔ ∃ g, 1 ≤ g ∧ g ≤ 8 - n
        ∧ ∀ b, zeroRun (Bytes.bits keys.publicKey) + 1 + 16 * (g - 1) ≤ b →
          b ≤ zeroRun (Bytes.bits keys.publicKey) + 16 * (g - 1 + n) →
          (Bytes.bits keys.publicKey)[b]? = some true) := by
  obtain ⟨a, ha⟩ := Address.exists_ofPublicKey_iff.mpr ⟨hsize, hrun⟩
  refine ⟨⟨keys, a, Bytes.leadingZeroBits keys.publicKey, a.zeroBlocks⟩, ?_, a.zeroBlocks_le, ?_⟩
  · exact ofKeys_eq_ok_iff.mpr ⟨rfl, ha, rfl, rfl⟩
  intro n hn hle
  -- `n` blocks from the one behind `i` others on
  have hblocks : ∀ i, i + n ≤ 7 → ((∀ j < n, a.groups[i + j + 1]? = some 0) ↔
      ∀ b, zeroRun (Bytes.bits keys.publicKey) + 1 + 16 * i ≤ b →
        b < zeroRun (Bytes.bits keys.publicKey) + 1 + 16 * i + 16 * n →
        (Bytes.bits keys.publicKey)[b]? = some true) := by
    intro i hi
    rw [← Address.forall_blocks_iff]
    refine forall₂_congr fun j hj => ?_
    rw [Address.groups_getElem?_eq_zero_iff ha (by omega)]
    refine forall₂_congr fun k _ => ?_
    have hpos : 16 * (i + j) = 16 * i + 16 * j := by omega
    rw [hpos, ← Nat.add_assoc (zeroRun (Bytes.bits keys.publicKey) + 1)]
  rw [Address.le_zeroBlocks_iff hn]
  constructor
  · rintro ⟨i, hi, hzero⟩
    refine ⟨i + 1, by omega, by omega, fun b hlow hhigh => ?_⟩
    exact (hblocks i hi).mp hzero b (by omega) (by omega)
  · rintro ⟨g, hpos, hg, hones⟩
    refine ⟨g - 1, by omega, (hblocks (g - 1) (by omega)).mpr fun b hlow hhigh => ?_⟩
    exact hones b (by omega) (by omega)

/-- A key with three zero bits in front, whose bits 20 to 51 are ones: behind its first one bit the
second and the third block are ones. -/
def twoBlocks : KeyPair :=
  ⟨List.replicate 32 0, [0x10, 0, 0x0f, 0xff, 0xff, 0xff, 0xf0] ++ List.replicate 25 0⟩

/-- The second and the third block count, and there are no others. -/
theorem Candidate.zeroBlocks_ofKeys_twoBlocks :
    ∃ c, Candidate.ofKeys twoBlocks = .ok c ∧ 2 ≤ c.zeroBlocks ∧ ¬ 3 ≤ c.zeroBlocks := by
  have hrun : zeroRun (Bytes.bits twoBlocks.publicKey) = 3 := by decide
  have hone : ∀ b < 52, 20 ≤ b → (Bytes.bits twoBlocks.publicKey)[b]? = some true := by decide
  have hzero : ∀ g ∈ [0, 1, 2, 3, 4], ∃ b < 48,
      (Bytes.bits twoBlocks.publicKey)[4 + 16 * g + b]? ≠ some true := by decide
  obtain ⟨c, hc, -, hblocks⟩ :=
    @Candidate.zeroBlocks_ofKeys twoBlocks (by decide) (by rw [hrun]; decide)
  rw [hrun] at hblocks
  refine ⟨c, hc, ?_, fun hthree => ?_⟩
  · refine (hblocks 2 (by decide) (by decide)).mpr ⟨2, by decide, by decide, fun b hlow hhigh => ?_⟩
    exact hone b (by omega) (by omega)
  · obtain ⟨g, hpos, hg, hones⟩ := (hblocks 3 (by decide) (by decide)).mp hthree
    have hmem : g - 1 ∈ [0, 1, 2, 3, 4] := by
      simp only [List.mem_cons, List.not_mem_nil, or_false]
      omega
    obtain ⟨b, hb, hne⟩ := hzero (g - 1) hmem
    exact hne (hones _ (by omega) (by omega))

end KeySearch
