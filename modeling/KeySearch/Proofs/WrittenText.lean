import KeySearch.Hex
import KeySearch.Text.Lines
import KeySearch.Text.Utf8

/-!
# Texts are read as they were written

A text that is written to a file comes back when the file is read: `Utf8.decode` undoes the encoding
of texts, `Text.unifyLineEnds` leaves a text alone that has no carriage return, and `Hex.decode` gives
back the bytes whose digits were written.
-/

set_option autoImplicit false

namespace KeySearch

/-! ## UTF-8 -/

namespace Utf8

theorem toList_loop (bytes : ByteArray) (i : Nat) (front : List UInt8) :
    ByteArray.toList.loop bytes i front = front.reverse ++ bytes.data.toList.drop i := by
  fun_induction ByteArray.toList.loop bytes i front with
  | case1 i front hlt ih =>
      have hdrop : bytes.data.toList.drop i = bytes.get! i :: bytes.data.toList.drop (i + 1) := by
        simpa [ByteArray.get!, hlt] using List.drop_eq_getElem_cons (l := bytes.data.toList) hlt
      rw [ih, hdrop, List.reverse_cons, List.append_assoc]
      rfl
  | case2 i front hge =>
      have hdrop : bytes.data.toList.drop i = [] := List.drop_eq_nil_iff.mpr (Nat.le_of_not_lt hge)
      rw [hdrop, List.append_nil]

/-- The bytes of a text are those of its characters, one after another. -/
theorem toList_toUTF8 (text : String) :
    text.toUTF8.toList = text.toList.flatMap String.utf8EncodeChar := by
  have hencode : text.toUTF8 = text.toList.utf8Encode := by
    rw [String.toUTF8_eq_toByteArray, ← String.toByteArray_ofList, String.ofList_toList]
  rw [hencode, ByteArray.toList, toList_loop]
  exact List.toList_data_toByteArray

/-- A byte that continues a character. -/
def following (n : Nat) : UInt8 := UInt8.ofNat (n + 128)

theorem toNat_ofNat_of_lt {n : Nat} (h : n < 256) : (UInt8.ofNat n).toNat = n := by
  rw [UInt8.toNat_ofNat', Nat.mod_eq_of_lt h]

theorem isContinuation_following {n : Nat} (h : n < 64) : isContinuation (following n) = true := by
  rw [isContinuation, following, toNat_ofNat_of_lt (by omega), beq_iff_eq]
  omega

theorem payload_following {n : Nat} (h : n < 64) : payload (following n) = n := by
  rw [payload, following, toNat_ofNat_of_lt (by omega)]
  omega

/-- A continuation byte may follow the first byte if the character is none that the first byte leaves
out. -/
theorem mayFollow_following {a n : Nat} (ha : a < 256) (hn : n < 64)
    (h : (a = 0xe0 → 0x20 ≤ n) ∧ (a = 0xed → n < 0x20) ∧ (a = 0xf0 → 0x10 ≤ n)
      ∧ (a = 0xf4 → n < 0x10)) :
    mayFollow (UInt8.ofNat a) (following n) = true := by
  obtain ⟨h0, hd, h3, h4⟩ := h
  have hfirst : ∀ byte : UInt8, UInt8.ofNat a = byte → a = byte.toNat := by
    rintro _ rfl
    exact (toNat_ofNat_of_lt ha).symm
  have hsecond : (following n).toNat = n + 128 := toNat_ofNat_of_lt (by omega)
  have hge : ∀ byte : UInt8, byte.toNat ≤ n + 128 → decide (following n ≥ byte) = true := by
    intro byte hle
    exact decide_eq_true (UInt8.le_iff_toNat_le.mpr (by rwa [hsecond]))
  have hlt : ∀ byte : UInt8, n + 128 < byte.toNat → decide (following n < byte) = true := by
    intro byte hlt
    exact decide_eq_true (UInt8.lt_iff_toNat_lt.mpr (by rwa [hsecond]))
  rw [mayFollow, isContinuation_following hn, Bool.true_and]
  split
  · next heq => exact hge 0xa0 (Nat.add_le_add_right (h0 (hfirst _ heq)) 128)
  split
  · next heq => exact hlt 0xa0 (Nat.add_lt_add_right (hd (hfirst _ heq)) 128)
  split
  · next heq => exact hge 0x90 (Nat.add_le_add_right (h3 (hfirst _ heq)) 128)
  split
  · next heq => exact hlt 0x90 (Nat.add_lt_add_right (h4 (hfirst _ heq)) 128)
  · rfl

/-- The kinds of first bytes are intervals of numbers. -/
theorem ofNat_lt_iff {a : Nat} (ha : a < 256) (byte : UInt8) :
    UInt8.ofNat a < byte ↔ a < byte.toNat := by
  rw [UInt8.lt_iff_toNat_lt, toNat_ofNat_of_lt ha]

theorem not_ofNat_lt {a : Nat} (ha : a < 256) (byte : UInt8) (h : byte.toNat ≤ a) :
    ¬ UInt8.ofNat a < byte :=
  fun hlt => Nat.not_lt.mpr h ((ofNat_lt_iff ha byte).mp hlt)

theorem isStart_ofNat {a : Nat} (hle : 0xc2 ≤ a) (hlt : a < 0xf5) :
    (UInt8.ofNat a < 0xc2 || 0xf5 ≤ UInt8.ofNat a) = false := by
  have ha : a < 256 := by omega
  have hbelow : decide (UInt8.ofNat a < 0xc2) = false := decide_eq_false (not_ofNat_lt ha _ hle)
  have habove : decide ((0xf5 : UInt8) ≤ UInt8.ofNat a) = false :=
    decide_eq_false (UInt8.not_le.mpr ((ofNat_lt_iff ha _).mpr hlt))
  rw [hbelow, habove]
  rfl

theorem decodeAt_one {a : Nat} (ha : a < 0x80) (position : Nat) (rest : List UInt8) :
    decodeAt position (UInt8.ofNat a :: rest) = push a (decodeAt (position + 1) rest) := by
  rw [decodeAt.eq_def]
  dsimp only
  rw [if_pos ((ofNat_lt_iff (by omega) _).mpr ha), toNat_ofNat_of_lt (by omega)]

theorem decodeAt_two {a n : Nat} (hle : 0xc2 ≤ a) (hlt : a < 0xe0) (hn : n < 64) (position : Nat)
    (rest : List UInt8) :
    decodeAt position (UInt8.ofNat a :: following n :: rest)
      = push (a % 32 * 64 + n) (decodeAt (position + 2) rest) := by
  have ha : a < 256 := by omega
  have hmay := mayFollow_following ha hn ⟨by omega, by omega, by omega, by omega⟩
  rw [decodeAt.eq_def]
  dsimp only
  rw [if_neg (not_ofNat_lt ha 0x80 (Nat.le_trans (by decide) hle)),
    isStart_ofNat hle (by omega), if_neg Bool.false_ne_true, hmay, if_neg (by decide),
    if_pos ((ofNat_lt_iff ha 0xe0).mpr hlt), toNat_ofNat_of_lt ha, payload_following hn]

theorem decodeAt_three {a n m : Nat} (hle : 0xe0 ≤ a) (hlt : a < 0xf0) (hn : n < 64) (hm : m < 64)
    (h : (a = 0xe0 → 0x20 ≤ n) ∧ (a = 0xed → n < 0x20)) (position : Nat) (rest : List UInt8) :
    decodeAt position (UInt8.ofNat a :: following n :: following m :: rest)
      = push ((a % 16 * 64 + n) * 64 + m) (decodeAt (position + 3) rest) := by
  have ha : a < 256 := by omega
  have hmay := mayFollow_following ha hn ⟨h.1, h.2, by omega, by omega⟩
  rw [decodeAt.eq_def]
  dsimp only
  rw [if_neg (not_ofNat_lt ha 0x80 (Nat.le_trans (by decide) hle)),
    isStart_ofNat (by omega) (by omega), if_neg Bool.false_ne_true, hmay, if_neg (by decide),
    if_neg (not_ofNat_lt ha 0xe0 hle), isContinuation_following hm, if_neg (by decide),
    if_pos ((ofNat_lt_iff ha 0xf0).mpr hlt), toNat_ofNat_of_lt ha, payload_following hn,
    payload_following hm]

theorem decodeAt_four {a n m k : Nat} (hle : 0xf0 ≤ a) (hlt : a < 0xf5) (hn : n < 64) (hm : m < 64)
    (hk : k < 64) (h : (a = 0xf0 → 0x10 ≤ n) ∧ (a = 0xf4 → n < 0x10)) (position : Nat)
    (rest : List UInt8) :
    decodeAt position (UInt8.ofNat a :: following n :: following m :: following k :: rest)
      = push (((a % 8 * 64 + n) * 64 + m) * 64 + k) (decodeAt (position + 4) rest) := by
  have ha : a < 256 := by omega
  have hmay := mayFollow_following ha hn ⟨by omega, by omega, h.1, h.2⟩
  rw [decodeAt.eq_def]
  dsimp only
  rw [if_neg (not_ofNat_lt ha 0x80 (Nat.le_trans (by decide) hle)),
    isStart_ofNat (by omega) hlt, if_neg Bool.false_ne_true, hmay, if_neg (by decide),
    if_neg (not_ofNat_lt ha 0xe0 (Nat.le_trans (by decide) hle)),
    isContinuation_following hm, if_neg (by decide), if_neg (not_ofNat_lt ha 0xf0 hle),
    isContinuation_following hk, if_neg (by decide), toNat_ofNat_of_lt ha, payload_following hn,
    payload_following hm, payload_following hk]

/-- A character is decoded from its bytes. -/
theorem decodeAt_encodeChar (c : Char) (position : Nat) (rest : List UInt8) :
    decodeAt position (String.utf8EncodeChar c ++ rest)
      = push c.toNat (decodeAt (position + (String.utf8EncodeChar c).length) rest) := by
  -- what a first byte leaves out are the surrogates, numbers that are too large and those that fewer
  -- bytes spell
  have hvalid : c.toNat < 0xd800 ∨ 0xdfff < c.toNat ∧ c.toNat < 0x110000 := c.valid
  unfold String.utf8EncodeChar
  rw [show c.val.toNat = c.toNat from rfl]
  generalize c.toNat = v at hvalid ⊢
  dsimp only
  by_cases hone : v ≤ 127
  · rw [if_pos hone]
    exact decodeAt_one (by omega) position rest
  rw [if_neg hone]
  by_cases htwo : v ≤ 2047
  · rw [if_pos htwo]
    have hv : (v / 64 % 32 + 192) % 32 * 64 + v % 64 = v := by omega
    exact (decodeAt_two (by omega) (by omega) (by omega) position rest).trans (by rw [hv]; rfl)
  rw [if_neg htwo]
  by_cases hthree : v ≤ 65535
  · rw [if_pos hthree]
    have hv : ((v / 4096 % 16 + 224) % 16 * 64 + v / 64 % 64) * 64 + v % 64 = v := by omega
    refine (decodeAt_three (by omega) (by omega) (by omega) (by omega) ⟨?_, ?_⟩ position
      rest).trans (by rw [hv]; rfl)
    · omega
    · omega
  · rw [if_neg hthree]
    have hv : (((v / 262144 % 8 + 240) % 8 * 64 + v / 4096 % 64) * 64 + v / 64 % 64) * 64 + v % 64
        = v := by
      omega
    refine (decodeAt_four (by omega) (by omega) (by omega) (by omega) (by omega) ⟨?_, ?_⟩
      position rest).trans (by rw [hv]; rfl)
    · omega
    · omega

theorem decodeAt_flatMap (text : List Char) (position : Nat) :
    decodeAt position (text.flatMap String.utf8EncodeChar) = (text, none) := by
  induction text generalizing position with
  | nil => rfl
  | cons c text ih =>
      rw [List.flatMap_cons, decodeAt_encodeChar, ih, push, Char.ofNat_toNat]

/-- **A text is decoded from its bytes.** -/
theorem decode_toUTF8 (text : String) : decode text.toUTF8.toList = .ok text.toList := by
  rw [decode, decodeSome, toList_toUTF8, decodeAt_flatMap]

end Utf8

/-! ## Line ends and white space -/

namespace Text

/-- A text without a carriage return keeps its line ends. -/
theorem unifyLineEnds_of_not_mem {text : List Char} (h : '\r' ∉ text) : unifyLineEnds text = text := by
  fun_induction unifyLineEnds text with
  | case1 => rfl
  | case2 rest ih => exact absurd List.mem_cons_self h
  | case3 rest hnext ih => exact absurd List.mem_cons_self h
  | case4 c rest hc hc' ih => rw [ih fun hmem => h (List.mem_cons_of_mem c hmem)]

theorem dropWhile_of_forall {α : Type} {drop : α → Bool} {xs : List α}
    (h : ∀ x ∈ xs, drop x = false) : xs.dropWhile drop = xs := by
  cases xs with
  | nil => rfl
  | cons x xs => rw [List.dropWhile_cons, h x List.mem_cons_self, if_neg Bool.false_ne_true]

/-- A list in which nothing is to be dropped stays as it is. -/
theorem trim_of_forall {α : Type} {drop : α → Bool} {xs : List α}
    (h : ∀ x ∈ xs, drop x = false) : trim drop xs = xs := by
  have hback : ∀ x ∈ xs.reverse, drop x = false := fun x hx => h x (List.mem_reverse.mp hx)
  rw [trim, dropWhile_of_forall h, dropWhile_of_forall hback, List.reverse_reverse]

end Text

/-! ## Hexadecimal -/

namespace Hex

/-- What is written for a byte is two digits. -/
theorem exists_hexDigit {bytes : List UInt8} {c : Char} (h : c ∈ encodeChars bytes) :
    ∃ n < 16, c = Text.hexDigit n := by
  obtain ⟨byte, -, hbyte⟩ := List.mem_flatMap.mp h
  have hlt := byte.toNat_lt
  rcases List.mem_cons.mp hbyte with hhigh | hlow
  · exact ⟨byte.toNat / 16, by omega, hhigh⟩
  · exact ⟨byte.toNat % 16, by omega, List.mem_singleton.mp hlow⟩

theorem not_isBlank_hexDigit : ∀ n < 16, Text.isBlank (Text.hexDigit n).toNat = false := by decide

theorem not_isAsciiBlank_hexDigit : ∀ n < 16, Text.isAsciiBlank (Text.hexDigit n).toNat = false := by
  decide

theorem digitValue?_hexDigit : ∀ n < 16, digitValue? (Text.hexDigit n).toNat = some n := by decide

theorem pairs_encodeChars (bytes : List UInt8) :
    pairs ((encodeChars bytes).map Char.toNat) = some bytes := by
  induction bytes with
  | nil => rfl
  | cons byte bytes ih =>
      have hlt := byte.toNat_lt
      have hhigh := digitValue?_hexDigit (byte.toNat / 16) (by omega)
      have hlow := digitValue?_hexDigit (byte.toNat % 16) (by omega)
      have hblank := not_isAsciiBlank_hexDigit (byte.toNat / 16) (by omega)
      have hbyte : UInt8.ofNat (byte.toNat / 16 * 16 + byte.toNat % 16) = byte := by
        rw [Nat.div_add_mod', UInt8.ofNat_toNat]
      show pairs ((Text.hexDigit (byte.toNat / 16)).toNat :: (Text.hexDigit (byte.toNat % 16)).toNat
        :: (encodeChars bytes).map Char.toNat) = _
      rw [pairs, hblank, if_neg Bool.false_ne_true]
      rw [hhigh, hlow]
      dsimp only
      rw [ih, Option.map_some, hbyte]

/-- **Bytes are read back from their digits.** -/
theorem decode_encode (bytes : List UInt8) : decode (Text.codePoints (encode bytes)) = .ok bytes := by
  have hstrip : Text.strip ((encodeChars bytes).map Char.toNat) = (encodeChars bytes).map Char.toNat := by
    refine Text.trim_of_forall fun code hcode => ?_
    obtain ⟨c, hc, rfl⟩ := List.mem_map.mp hcode
    obtain ⟨n, hn, rfl⟩ := exists_hexDigit hc
    exact not_isBlank_hexDigit n hn
  rw [Text.codePoints, encode, String.toList_ofList, decode, hstrip, pairs_encodeChars]

end Hex

end KeySearch
