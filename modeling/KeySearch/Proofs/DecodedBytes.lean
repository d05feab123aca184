import KeySearch.Proofs.WrittenText

/-!
# Bytes that are a text

Bytes fall apart into the characters at their front and a tail that begins with none (`splitBytes`).
Bytes are decoded without a fault exactly if the tail is empty, so if they are those of a text, and it
makes no difference in how many blocks they come (`decodeBlocks_spec`).
-/

set_option autoImplicit false

namespace KeySearch.Utf8

/-- The bytes of a text. -/
def encode (text : List Char) : List UInt8 := text.flatMap String.utf8EncodeChar

theorem encode_append (front text : List Char) : encode (front ++ text) = encode front ++ encode text :=
  List.flatMap_append

/-! ## The bytes of one character -/

/-- The bytes of the character of a number. -/
theorem utf8EncodeChar_ofNat {v : Nat} (h : v.isValidChar) :
    String.utf8EncodeChar (Char.ofNat v) =
      if v ≤ 127 then [UInt8.ofNat v]
      else if v ≤ 2047 then [UInt8.ofNat (v / 64 % 32 + 192), following (v % 64)]
      else if v ≤ 65535 then
        [UInt8.ofNat (v / 4096 % 16 + 224), following (v / 64 % 64), following (v % 64)]
      else
        [UInt8.ofNat (v / 262144 % 8 + 240), following (v / 4096 % 64), following (v / 64 % 64),
          following (v % 64)] := by
  have hv : (Char.ofNat v).val.toNat = v := by
    rw [Char.ofNat, dif_pos h]
    rfl
  rw [String.utf8EncodeChar, hv]
  rfl

variable {a b c d : UInt8}

theorem ofNat_eq {n : Nat} (h : n = a.toNat) : UInt8.ofNat n = a := by
  rw [h, UInt8.ofNat_toNat]

theorem payload_lt (b : UInt8) : payload b < 64 := Nat.mod_lt _ (by decide)

theorem following_payload (h : isContinuation b = true) : following (payload b) = b := by
  refine ofNat_eq ?_
  rw [isContinuation, beq_iff_eq] at h
  rw [payload]
  omega

/-- What may follow a first byte, in numbers. -/
theorem of_mayFollow (h : mayFollow a b = true) :
    isContinuation b = true ∧ (a.toNat = 0xe0 → 0x20 ≤ payload b) ∧ (a.toNat = 0xed → payload b < 0x20)
      ∧ (a.toNat = 0xf0 → 0x10 ≤ payload b) ∧ (a.toNat = 0xf4 → payload b < 0x10) := by
  rw [mayFollow, Bool.and_eq_true] at h
  obtain ⟨hcontinues, hsecond⟩ := h
  have hb : b.toNat / 64 = 2 := by simpa [isContinuation] using hcontinues
  have hfirst : ∀ {n : Nat}, a.toNat = n → a = UInt8.ofNat n := by
    rintro _ rfl
    exact UInt8.ofNat_toNat.symm
  refine ⟨hcontinues, ?_, ?_, ?_, ?_⟩ <;> intro ha <;> rw [hfirst ha] at hsecond <;> rw [payload]
  · have hge : 0xa0 ≤ b.toNat := by simpa [UInt8.le_iff_toNat_le] using hsecond
    omega
  · have hlt : b.toNat < 0xa0 := by simpa [UInt8.lt_iff_toNat_lt] using hsecond
    omega
  · have hge : 0x90 ≤ b.toNat := by simpa [UInt8.le_iff_toNat_le] using hsecond
    omega
  · have hlt : b.toNat < 0x90 := by simpa [UInt8.lt_iff_toNat_lt] using hsecond
    omega

theorem encodeChar_one (ha : a < 0x80) : String.utf8EncodeChar (Char.ofNat a.toNat) = [a] := by
  have hlt : a.toNat < 128 := UInt8.lt_iff_toNat_lt.mp ha
  rw [utf8EncodeChar_ofNat (.inl (by omega)), if_pos (by omega), UInt8.ofNat_toNat]

theorem encodeChar_two (hle : 0xc2 ≤ a.toNat) (hlt : a.toNat < 0xe0) (hb : isContinuation b = true) :
    String.utf8EncodeChar (Char.ofNat (a.toNat % 32 * 64 + payload b)) = [a, b] := by
  have hpayload := payload_lt b
  rw [utf8EncodeChar_ofNat (.inl (by omega)), if_neg (by omega), if_pos (by omega),
    ofNat_eq (show _ = a.toNat by omega), show (a.toNat % 32 * 64 + payload b) % 64 = payload b by omega,
    following_payload hb]

theorem encodeChar_three (hle : 0xe0 ≤ a.toNat) (hlt : a.toNat < 0xf0) (hb : mayFollow a b = true)
    (hc : isContinuation c = true) :
    String.utf8EncodeChar (Char.ofNat ((a.toNat % 16 * 64 + payload b) * 64 + payload c))
      = [a, b, c] := by
  obtain ⟨hcontinues, h0, hd, -, -⟩ := of_mayFollow hb
  have hpayload := payload_lt b
  have hlast := payload_lt c
  have hvalid : ((a.toNat % 16 * 64 + payload b) * 64 + payload c).isValidChar := by
    unfold Nat.isValidChar
    omega
  rw [utf8EncodeChar_ofNat hvalid, if_neg (by omega), if_neg (by omega), if_pos (by omega),
    ofNat_eq (show _ = a.toNat by omega),
    show ((a.toNat % 16 * 64 + payload b) * 64 + payload c) / 64 % 64 = payload b by omega,
    show ((a.toNat % 16 * 64 + payload b) * 64 + payload c) % 64 = payload c by omega,
    following_payload hcontinues, following_payload hc]

theorem encodeChar_four (hle : 0xf0 ≤ a.toNat) (hlt : a.toNat < 0xf5) (hb : mayFollow a b = true)
    (hc : isContinuation c = true) (hd : isContinuation d = true) :
    String.utf8EncodeChar
        (Char.ofNat (((a.toNat % 8 * 64 + payload b) * 64 + payload c) * 64 + payload d))
      = [a, b, c, d] := by
  obtain ⟨hcontinues, -, -, h0, h4⟩ := of_mayFollow hb
  have hpayload := payload_lt b
  have hthird := payload_lt c
  have hlast := payload_lt d
  generalize hv : ((a.toNat % 8 * 64 + payload b) * 64 + payload c) * 64 + payload d = v
  have hvalid : v.isValidChar := by
    unfold Nat.isValidChar
    omega
  rw [utf8EncodeChar_ofNat hvalid, if_neg (by omega), if_neg (by omega), if_neg (by omega),
    ofNat_eq (show _ = a.toNat by omega), show v / 4096 % 64 = payload b by omega,
    show v / 64 % 64 = payload c by omega, show v % 64 = payload d by omega,
    following_payload hcontinues, following_payload hc, following_payload hd]

/-! ## What is at the front of bytes -/

/-- No character is at the front of bytes, whatever comes after them. -/
def Broken (bytes : List UInt8) (fault : Fault) (front : List UInt8) : Prop :=
  fault ≠ .unexpectedEnd ∧
    ∀ position more, decodeAt position (bytes ++ more) = ([], some ⟨fault, position, front⟩)

/-- Bytes begin a character and end before it does. -/
def Cut (bytes : List UInt8) : Prop :=
  ∀ position, decodeAt position bytes = ([], some ⟨.unexpectedEnd, position, bytes⟩)

/-- Bytes with no character at their front. -/
def NoFront (bytes : List UInt8) : Prop :=
  bytes = [] ∨ (∃ fault front, Broken bytes fault front) ∨ Cut bytes

/-- Bytes begin with a character or with none. The cases are those of the decoder. -/
theorem front_cases (bytes : List UInt8) :
    bytes = [] ∨ (∃ c rest, bytes = String.utf8EncodeChar c ++ rest)
      ∨ (∃ fault front, Broken bytes fault front) ∨ Cut bytes := by
  have character : ∀ {v : Nat} {front rest : List UInt8}, String.utf8EncodeChar (Char.ofNat v) = front →
      ∃ c more, front ++ rest = String.utf8EncodeChar c ++ more := by
    rintro v _ rest rfl
    exact ⟨_, rest, rfl⟩
  -- each byte is put to the tests of the decoder, in its order, and each of them decides a case
  rcases bytes with _ | ⟨a, rest⟩
  · exact .inl rfl
  refine .inr ?_
  by_cases hone : a < 0x80
  · exact .inl (character (encodeChar_one hone))
  by_cases hstart : (a < 0xc2 || 0xf5 ≤ a) = true
  · refine .inr (.inl ⟨.invalidStart, [a], by decide, fun position more => ?_⟩)
    rw [List.cons_append, decodeAt.eq_def]
    dsimp only
    rw [if_neg hone, if_pos hstart]
  have hbounds : 0xc2 ≤ a.toNat ∧ a.toNat < 0xf5 := by
    simpa [UInt8.lt_iff_toNat_lt, UInt8.le_iff_toNat_le] using hstart
  rcases rest with _ | ⟨b, rest⟩
  · refine .inr (.inr fun position => ?_)
    rw [decodeAt.eq_def]
    simp [hone, hstart]
  rcases (Bool.eq_false_or_eq_true (mayFollow a b)).symm with hb | hb
  · refine .inr (.inl ⟨.invalidContinuation, [a], by decide, fun position more => ?_⟩)
    rw [List.cons_append, decodeAt.eq_def]
    simp [hone, hstart, hb]
  by_cases htwo : a < 0xe0
  · exact .inl (character (encodeChar_two hbounds.1 (UInt8.lt_iff_toNat_lt.mp htwo) (of_mayFollow hb).1))
  have hthird : 0xe0 ≤ a.toNat := UInt8.le_iff_toNat_le.mp (UInt8.not_lt.mp htwo)
  rcases rest with _ | ⟨c, rest⟩
  · refine .inr (.inr fun position => ?_)
    rw [decodeAt.eq_def]
    simp [hone, hstart, hb, htwo]
  rcases (Bool.eq_false_or_eq_true (isContinuation c)).symm with hc | hc
  · refine .inr (.inl ⟨.invalidContinuation, [a, b], by decide, fun position more => ?_⟩)
    rw [List.cons_append, decodeAt.eq_def]
    simp [hone, hstart, hb, htwo, hc]
  by_cases hthree : a < 0xf0
  · exact .inl (character (encodeChar_three hthird (UInt8.lt_iff_toNat_lt.mp hthree) hb hc))
  have hfourth : 0xf0 ≤ a.toNat := UInt8.le_iff_toNat_le.mp (UInt8.not_lt.mp hthree)
  rcases rest with _ | ⟨d, rest⟩
  · refine .inr (.inr fun position => ?_)
    rw [decodeAt.eq_def]
    simp [hone, hstart, hb, htwo, hc, hthree]
  rcases (Bool.eq_false_or_eq_true (isContinuation d)).symm with hd | hd
  · refine .inr (.inl ⟨.invalidContinuation, [a, b, c], by decide, fun position more => ?_⟩)
    rw [List.cons_append, decodeAt.eq_def]
    simp [hone, hstart, hb, htwo, hc, hthree, hd]
  · exact .inl (character (encodeChar_four hfourth hbounds.2 hb hc hd))

/-- **Bytes are those of a text with some that begin no character behind them.** -/
theorem exists_split (bytes : List UInt8) : ∃ text rest, bytes = encode text ++ rest ∧ NoFront rest := by
  induction hlength : bytes.length using Nat.strongRecOn generalizing bytes with
  | ind length ih =>
    rcases front_cases bytes with rfl | ⟨c, rest, rfl⟩ | hbroken | hcut
    · exact ⟨[], [], rfl, .inl rfl⟩
    · have hshorter : rest.length < length := by
        have hpos : 0 < (String.utf8EncodeChar c).length := by
          rw [String.length_utf8EncodeChar]
          exact c.utf8Size_pos
        rw [List.length_append] at hlength
        omega
      obtain ⟨text, tail, htext, htail⟩ := ih rest.length hshorter rest rfl
      refine ⟨c :: text, tail, ?_, htail⟩
      rw [htext, encode, encode, List.flatMap_cons, List.append_assoc]
    · exact ⟨[], bytes, rfl, .inr (.inl hbroken)⟩
    · exact ⟨[], bytes, rfl, .inr (.inr hcut)⟩

/-! ## Decoding up to the first fault -/

/-- The bytes of a text are decoded to it, and what follows them as if it came alone. -/
theorem decodeAt_encode_append (text : List Char) (rest : List UInt8) (position : Nat) :
    decodeAt position (encode text ++ rest) =
      (text ++ (decodeAt (position + (encode text).length) rest).1,
        (decodeAt (position + (encode text).length) rest).2) := by
  induction text generalizing position with
  | nil => rfl
  | cons c text ih =>
      have hcons : encode (c :: text) = String.utf8EncodeChar c ++ encode text := rfl
      rw [hcons, List.append_assoc, decodeAt_encodeChar, ih, push, Char.ofNat_toNat, List.length_append,
        Nat.add_assoc]
      rfl

/-- Without a character at the front nothing is decoded, and it is a fault unless nothing is there. -/
theorem NoFront.decodeAt_eq {rest : List UInt8} (h : NoFront rest) (position : Nat) :
    (decodeAt position rest).1 = [] ∧ ((decodeAt position rest).2 = none ↔ rest = []) := by
  rcases h with rfl | ⟨fault, front, -, hbroken⟩ | hcut
  · exact ⟨rfl, iff_of_true rfl rfl⟩
  · have hdecode := hbroken position []
    rw [List.append_nil] at hdecode
    refine ⟨by rw [hdecode], iff_of_false (by simp [hdecode]) ?_⟩
    rintro rfl
    cases hdecode
  · have hdecode := hcut position
    refine ⟨by rw [hdecode], iff_of_false (by simp [hdecode]) ?_⟩
    rintro rfl
    cases hdecode

theorem decodeAt_eq_iff {bytes : List UInt8} {text : List Char} (position : Nat) :
    decodeAt position bytes = (text, none) ↔ bytes = encode text := by
  constructor
  · intro h
    obtain ⟨front, rest, rfl, hrest⟩ := exists_split bytes
    obtain ⟨htext, hfault⟩ := hrest.decodeAt_eq (position + (encode front).length)
    rw [decodeAt_encode_append, htext, Prod.mk.injEq, List.append_nil] at h
    rw [hfault.mp h.2, h.1, List.append_nil]
  · rintro rfl
    exact decodeAt_flatMap text position

/-- What follows the bytes of a text makes a text with them exactly if it is one. -/
theorem exists_encode_append_iff {front : List Char} {rest : List UInt8} :
    (∃ text, encode front ++ rest = encode text) ↔ ∃ text, rest = encode text := by
  constructor
  · rintro ⟨text, htext⟩
    have hdecode := (decodeAt_eq_iff 0).mpr htext
    rw [decodeAt_encode_append, Prod.mk.injEq] at hdecode
    exact ⟨_, (decodeAt_eq_iff _).mp (Prod.ext rfl hdecode.2)⟩
  · rintro ⟨text, rfl⟩
    exact ⟨front ++ text, (encode_append front text).symm⟩

/-- Bytes that begin no character make no text, whatever comes after them. -/
theorem Broken.not_text {bytes front more : List UInt8} {fault : Fault} (h : Broken bytes fault front) :
    ¬ ∃ text, bytes ++ more = encode text := by
  rintro ⟨text, htext⟩
  have hdecode := (decodeAt_eq_iff 0).mpr htext
  rw [h.2] at hdecode
  cases hdecode

/-! ## Decoding block by block -/

/-- What decoding in blocks comes to: a text whose bytes are at the front, and all of them if there is no
fault. If there is one the bytes are those of no text. -/
structure Decoded (bytes : List UInt8) (result : List Char × Option Error) : Prop where
  prefix_eq : ∃ rest, bytes = encode result.1 ++ rest ∧ (result.2 = none → rest = [])
  not_text : result.2 ≠ none → ¬ ∃ text, bytes = encode text

/-- What is decoded first goes in front. -/
theorem Decoded.append {rest : List UInt8} {result : List Char × Option Error} (h : Decoded rest result)
    (front : List Char) : Decoded (encode front ++ rest) (front ++ result.1, result.2) := by
  obtain ⟨⟨tail, htail, hnone⟩, htext⟩ := h
  refine ⟨⟨tail, ?_, hnone⟩, fun hfault => mt exists_encode_append_iff.mp (htext hfault)⟩
  rw [encode_append, List.append_assoc, ← htail]

/-- **It makes no difference in how many blocks bytes come.** The induction is on the blocks; what is held
between two of them begins no character, or not yet. -/
theorem decodeBlocks_spec (blocks : Nat) (held bytes : List UInt8)
    (hlength : bytes.length ≤ blocks * blockSize) (hheld : NoFront held) :
    Decoded (held ++ bytes) (decodeBlocks blocks held bytes) := by
  induction blocks generalizing held bytes with
  | zero =>
      obtain rfl : bytes = [] := List.length_eq_zero_iff.mp (by omega)
      obtain ⟨-, hnone⟩ := hheld.decodeAt_eq 0
      rw [List.append_nil, decodeBlocks]
      refine ⟨⟨held, rfl, hnone.mp⟩, ?_⟩
      rintro hfault ⟨text, htext⟩
      exact hfault (congrArg Prod.snd ((decodeAt_eq_iff 0).mpr htext))
  | succ blocks ih =>
      have hrest : (bytes.drop blockSize).length ≤ blocks * blockSize := by
        rw [List.length_drop]
        rw [Nat.succ_mul] at hlength
        omega
      obtain ⟨text, tail, hblock, htail⟩ := exists_split (held ++ bytes.take blockSize)
      have hall : held ++ bytes = encode text ++ (tail ++ bytes.drop blockSize) := by
        rw [← List.append_assoc, ← hblock, List.append_assoc, List.take_append_drop]
      have hdrop : (encode text ++ tail).drop (0 + (encode text).length) = tail := by
        rw [Nat.zero_add, List.drop_left]
      have hdecode := decodeAt_encode_append text tail 0
      have hnext := ih tail (bytes.drop blockSize) hrest htail
      rw [hall, decodeBlocks]
      simp only [decodeSome, hblock, hdecode]
      -- nothing is held after a block of whole characters, and what begins one is; bytes that are broken
      -- are held only if they could begin a surrogate, and then they are broken in the next block too
      rcases htail with rfl | ⟨fault, front, hbroken⟩ | hcut
      · simp only [decodeAt, List.append_nil]
        exact hnext.append text
      · have hfault := hbroken.2 (0 + (encode text).length) []
        rw [List.append_nil] at hfault
        simp only [hfault, hdrop, List.append_nil]
        split
        · exact hnext.append text
        · exact ⟨⟨_, rfl, fun h => absurd h (Option.some_ne_none _)⟩,
            fun _ => mt exists_encode_append_iff.mp hbroken.not_text⟩
      · have hfault := hcut (0 + (encode text).length)
        simp only [hfault, hdrop, decide_true, Bool.true_or, if_true, List.append_nil]
        exact hnext.append text

theorem decodeBlocks_decoded (bytes : List UInt8) :
    Decoded bytes (decodeBlocks (blockCount bytes) [] bytes) := by
  refine decodeBlocks_spec _ [] bytes ?_ (.inl rfl)
  rw [blockCount, blockSize]
  omega

/-- The bytes of a text, and no others, are decoded without a fault. -/
theorem decodeBlocks_eq_iff {bytes : List UInt8} {text : List Char} :
    decodeBlocks (blockCount bytes) [] bytes = (text, none) ↔ bytes = encode text := by
  obtain ⟨⟨rest, hrest, hnone⟩, htext⟩ := decodeBlocks_decoded bytes
  have hall : ∀ {decoded}, decodeBlocks (blockCount bytes) [] bytes = (decoded, none) →
      bytes = encode decoded := by
    intro decoded h
    rw [h] at hrest hnone
    rw [hrest, hnone rfl, List.append_nil]
  refine ⟨hall, fun h => ?_⟩
  have hfault : (decodeBlocks (blockCount bytes) [] bytes).2 = none :=
    Classical.byContradiction fun hfault => htext hfault ⟨text, h⟩
  have hdecoded := (decodeAt_eq_iff 0).mpr (hall (Prod.ext rfl hfault))
  rw [(decodeAt_eq_iff 0).mpr h] at hdecoded
  exact Prod.ext (congrArg Prod.fst hdecoded).symm hfault

/-- Of other bytes a text at the front is decoded. -/
theorem exists_decodeBlocks_eq {bytes : List UInt8} (h : ¬ ∃ text, bytes = encode text) :
    ∃ front rest e, bytes = encode front ++ rest
      ∧ decodeBlocks (blockCount bytes) [] bytes = (front, some e) := by
  obtain ⟨rest, hrest, -⟩ := (decodeBlocks_decoded bytes).prefix_eq
  cases hdecode : decodeBlocks (blockCount bytes) [] bytes with
  | mk front fault? =>
      rw [hdecode] at hrest
      cases fault? with
      | none => exact absurd ⟨front, decodeBlocks_eq_iff.mp hdecode⟩ h
      | some e => exact ⟨front, rest, e, hrest, rfl⟩

end KeySearch.Utf8
