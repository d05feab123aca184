import KeySearch.Candidate
import KeySearch.Proofs.AddressLayout

/-!
# What a candidate says of its key

`Candidate.Genuine` lists what holds together in a candidate: its keys are those of its seed, its
address is that of its public key, and its scores are read off these two. A candidate is made by
`Candidate.ofSeed` only, which gives genuine ones. The scores are bounded: an address counts no more
than 127 zero bits, and it has seven groups that can be zero. How many of these count is said by
`Address.le_zeroBlocks_iff`: a run of zero groups is a window of zeros in a list (`ZeroWindow`).
-/

set_option autoImplicit false

namespace KeySearch

/-! ## The zero blocks of an address -/

namespace Address

theorem length_pairs (bytes : List UInt8) : (pairs bytes).length = bytes.length / 2 := by
  fun_induction pairs bytes with
  | case1 high low rest ih =>
      rw [List.length_cons, ih, List.length_cons, List.length_cons]
      omega
  | case2 bytes hshort =>
      match bytes, hshort with
      | [], _ => rfl
      | [_], _ => simp
      | high :: low :: rest, hshort => exact absurd rfl (hshort high low rest)

@[simp] theorem length_groups (a : Address) : a.groups.length = 8 := by
  rw [groups, length_pairs, a.size]

/-- Somewhere in a list so many zeros follow one another. -/
def ZeroWindow (n : Nat) (l : List Nat) : Prop := ∃ i, ∀ j < n, l[i + j]? = some 0

theorem zeroWindow_mono {m n : Nat} {l : List Nat} (h : ZeroWindow n l) (hle : m ≤ n) :
    ZeroWindow m l := by
  obtain ⟨i, hzero⟩ := h
  exact ⟨i, fun j hj => hzero j (by omega)⟩

theorem zeroWindow_replicate_append (n : Nat) (l : List Nat) :
    ZeroWindow n (List.replicate n 0 ++ l) := by
  refine ⟨0, fun j hj => ?_⟩
  rw [Nat.zero_add, List.getElem?_append_left (by simpa using hj)]
  simp [hj]

theorem zeroWindow_append_right {n : Nat} {l : List Nat} (h : ZeroWindow n l)
    (front : List Nat) : ZeroWindow n (front ++ l) := by
  obtain ⟨i, hzero⟩ := h
  refine ⟨front.length + i, fun j hj => ?_⟩
  have hpos : front.length + i + j - front.length = i + j := by omega
  rw [List.getElem?_append_right (by omega), hpos]
  exact hzero j hj

/-- A list of zeros has no longer window than itself. -/
theorem le_of_zeroWindow_replicate {n run : Nat} (h : ZeroWindow n (List.replicate run 0)) :
    n ≤ run := by
  obtain ⟨i, hzero⟩ := h
  cases n with
  | zero => exact Nat.zero_le run
  | succ n =>
      obtain ⟨hlt, -⟩ := List.getElem?_eq_some_iff.mp (hzero n n.lt_succ_self)
      rw [List.length_replicate] at hlt
      omega

/-- A window does not reach over a number that is not zero. -/
theorem zeroWindow_split {n x : Nat} {front back : List Nat} (hx : x ≠ 0)
    (h : ZeroWindow n (front ++ x :: back)) : ZeroWindow n front ∨ ZeroWindow n back := by
  obtain ⟨i, hzero⟩ := h
  have hat : (front ++ x :: back)[front.length]? = some x := by simp
  by_cases hbefore : i + n ≤ front.length
  · refine .inl ⟨i, fun j hj => ?_⟩
    rw [← hzero j hj, List.getElem?_append_left (by omega)]
  · by_cases hover : i ≤ front.length
    · have hin := hzero (front.length - i) (by omega)
      rw [Nat.add_sub_cancel' hover, hat] at hin
      exact absurd (Option.some.inj hin) hx
    · refine .inr ⟨i - (front.length + 1), fun j hj => ?_⟩
      have hpos : i + j - front.length = i - (front.length + 1) + j + 1 := by omega
      rw [← hzero j hj, List.getElem?_append_right (by omega), hpos, List.getElem?_cons_succ]

/-- What is counted on a list is the longest window of the list with the zeros that lead up to it,
unless a longer one was seen before. -/
theorem le_longestZeroRun_iff {n longest run : Nat} {l : List Nat} (hle : run ≤ longest) :
    n ≤ longestZeroRun longest run l ↔
      n ≤ longest ∨ ZeroWindow n (List.replicate run 0 ++ l) := by
  induction l generalizing longest run with
  | nil =>
      rw [longestZeroRun, List.append_nil]
      constructor
      · exact .inl
      · rintro (hseen | hwindow)
        · exact hseen
        · exact (le_of_zeroWindow_replicate hwindow).trans hle
  | cons group rest ih =>
      rw [longestZeroRun]
      split
      · next hzero =>
        -- the zero lengthens the run that leads up to the rest
        have hrun : List.replicate run 0 ++ group :: rest = List.replicate (run + 1) 0 ++ rest := by
          rw [hzero, List.replicate_succ', List.append_assoc, List.singleton_append]
        rw [ih (Nat.le_max_right _ _), hrun]
        constructor
        · rintro (hseen | hwindow)
          · rcases le_max_iff.mp hseen with hbefore | hnow
            · exact .inl hbefore
            · exact .inr (zeroWindow_mono (zeroWindow_replicate_append (run + 1) rest) hnow)
          · exact .inr hwindow
        · rintro (hseen | hwindow)
          · exact .inl (le_max_iff.mpr (.inl hseen))
          · exact .inr hwindow
      · next hother =>
        rw [ih (Nat.zero_le _), List.replicate_zero, List.nil_append]
        constructor
        · rintro (hseen | hwindow)
          · exact .inl hseen
          · have hafter := zeroWindow_append_right hwindow (List.replicate run 0 ++ [group])
            rw [List.append_assoc, List.singleton_append] at hafter
            exact .inr hafter
        · rintro (hseen | hwindow)
          · exact .inl hseen
          · rcases zeroWindow_split hother hwindow with hfront | hback
            · exact .inl ((le_of_zeroWindow_replicate hfront).trans hle)
            · exact .inr hback

/-- Runs of zero groups, as the places where they begin. -/
theorem le_zeroBlocks_iff {a : Address} {n : Nat} (hn : 0 < n) :
    n ≤ a.zeroBlocks ↔ ∃ i, i + n ≤ 7 ∧ ∀ j < n, a.groups[i + j + 1]? = some 0 := by
  have hdrop : ∀ i, (a.groups.drop 1)[i]? = a.groups[i + 1]? := fun i => by
    rw [List.getElem?_drop, Nat.add_comm]
  rw [zeroBlocks, le_longestZeroRun_iff le_rfl, List.replicate_zero, List.nil_append]
  constructor
  · rintro (hzero | ⟨i, hwindow⟩)
    · omega
    · refine ⟨i, ?_, fun j hj => by rw [← hdrop, hwindow j hj]⟩
      obtain ⟨hlt, -⟩ := List.getElem?_eq_some_iff.mp (hwindow (n - 1) (by omega))
      rw [List.length_drop, length_groups] at hlt
      omega
  · rintro ⟨i, -, hwindow⟩
    exact .inr ⟨i, fun j hj => by rw [hdrop, hwindow j hj]⟩

/-- The first group holds no bit of the key, so seven groups are left to be zero. -/
theorem zeroBlocks_le (a : Address) : a.zeroBlocks ≤ 7 := by
  by_cases hpos : 0 < a.zeroBlocks
  · obtain ⟨i, hi, -⟩ := (le_zeroBlocks_iff hpos).mp le_rfl
    omega
  · omega

end Address

/-! ## Genuine candidates -/

namespace Candidate

/-- A candidate with the keys of its seed, the address of its public key and their scores, where
`publicKey` says which public key a seed has. A score of `n` zero blocks is a run of `n` zero groups
behind the first one. -/
structure Genuine (publicKey : List UInt8 → List UInt8) (c : Candidate) : Prop where
  seed_size : c.keys.seed.length = 32
  keys : KeyPair.derive (fun seed => .ok (publicKey seed)) c.keys.seed = .ok c.keys
  secret : c.keys.secretKey = c.keys.seed ++ c.keys.publicKey
  address : Address.ofPublicKey c.keys.publicKey = .ok c.address
  zeroBits : c.zeroBits = zeroRun (Bytes.bits c.keys.publicKey)
  ones : c.address.bytes[1]?.map UInt8.toNat = some c.zeroBits
  zeroBits_le : c.zeroBits ≤ 127
  zeroBlocks : ∀ n, 0 < n →
    (n ≤ c.zeroBlocks ↔ ∃ i, i + n ≤ 7 ∧ ∀ j < n, c.address.groups[i + j + 1]? = some 0)
  zeroBlocks_le : c.zeroBlocks ≤ 7

/-- No other number has these runs. -/
theorem Genuine.zeroBlocks_eq {publicKey : List UInt8 → List UInt8} {c : Candidate}
    (h : c.Genuine publicKey) : c.zeroBlocks = c.address.zeroBlocks := by
  refine eq_of_forall_le_iff fun n => ?_
  rcases Nat.eq_zero_or_pos n with rfl | hn
  · simp
  · rw [h.zeroBlocks n hn, Address.le_zeroBlocks_iff hn]

theorem ofKeys_eq_ok_iff {keys : KeyPair} {c : Candidate} :
    ofKeys keys = .ok c ↔ c.keys = keys ∧ Address.ofPublicKey keys.publicKey = .ok c.address
      ∧ c.zeroBits = Bytes.leadingZeroBits keys.publicKey ∧ c.zeroBlocks = c.address.zeroBlocks := by
  obtain ⟨ckeys, address, zeroBits, zeroBlocks⟩ := c
  unfold ofKeys
  cases haddress : Address.ofPublicKey keys.publicKey with
  | error e => simp
  | ok a =>
      simp only [Except.ok.injEq, Candidate.mk.injEq]
      constructor
      · rintro ⟨rfl, rfl, rfl, rfl⟩
        exact ⟨rfl, rfl, rfl, rfl⟩
      · rintro ⟨rfl, rfl, rfl, rfl⟩
        exact ⟨rfl, rfl, rfl, rfl⟩

theorem ofKeys_eq_error_iff {keys : KeyPair} {e : Address.KeyError} :
    ofKeys keys = .error e ↔ Address.ofPublicKey keys.publicKey = .error e := by
  unfold ofKeys
  cases Address.ofPublicKey keys.publicKey <;> simp

/-- A key pair has a candidate exactly if its public key has an address. -/
theorem exists_ofKeys_iff {keys : KeyPair} :
    (∃ c, ofKeys keys = .ok c) ↔
      keys.publicKey.length = 32 ∧ zeroRun (Bytes.bits keys.publicKey) ≤ 127 := by
  constructor
  · rintro ⟨c, hc⟩
    exact Address.exists_ofPublicKey_iff.mp ⟨c.address, (ofKeys_eq_ok_iff.mp hc).2.1⟩
  · intro h
    obtain ⟨address, haddress⟩ := Address.exists_ofPublicKey_iff.mpr h
    exact ⟨⟨keys, address, Bytes.leadingZeroBits keys.publicKey, address.zeroBlocks⟩,
      ofKeys_eq_ok_iff.mpr ⟨rfl, haddress, rfl, rfl⟩⟩

theorem ofSeed_eq_ok_iff {primitive : KeyPrimitive} {seed : List UInt8} {c : Candidate} :
    ofSeed primitive seed = .ok c ↔
      ∃ publicKey, primitive seed = .ok publicKey ∧ ofKeys ⟨seed, publicKey⟩ = .ok c := by
  unfold ofSeed KeyPair.derive
  cases primitive seed with
  | error detail => simp
  | ok publicKey => cases hkeys : ofKeys ⟨seed, publicKey⟩ <;> simp [hkeys]

/-- A seed has a candidate exactly if it has a public key that has an address. -/
theorem exists_ofSeed_iff {primitive : KeyPrimitive} {seed : List UInt8} :
    (∃ c, ofSeed primitive seed = .ok c) ↔ ∃ publicKey, primitive seed = .ok publicKey
      ∧ publicKey.length = 32 ∧ zeroRun (Bytes.bits publicKey) ≤ 127 := by
  constructor
  · rintro ⟨c, hc⟩
    obtain ⟨publicKey, hkey, hmade⟩ := ofSeed_eq_ok_iff.mp hc
    exact ⟨publicKey, hkey, exists_ofKeys_iff.mp ⟨c, hmade⟩⟩
  · rintro ⟨publicKey, hkey, haddress⟩
    obtain ⟨c, hmade⟩ := (@exists_ofKeys_iff ⟨seed, publicKey⟩).mpr haddress
    exact ⟨c, ofSeed_eq_ok_iff.mpr ⟨publicKey, hkey, hmade⟩⟩

/-- What is made of a seed is genuine. That the public key has 32 bytes need not be known before:
other keys have no address. -/
theorem genuine_of_ofSeed {publicKey : List UInt8 → List UInt8} {primitive : KeyPrimitive}
    (hprimitive : ∀ seed key, primitive seed = .ok key → key = publicKey seed)
    {seed : List UInt8} (hsize : seed.length = 32) {c : Candidate}
    (h : ofSeed primitive seed = .ok c) : c.Genuine publicKey := by
  obtain ⟨key, hkey, hmade⟩ := ofSeed_eq_ok_iff.mp h
  obtain ⟨hkeys, haddress, hbits, hblocks⟩ := ofKeys_eq_ok_iff.mp hmade
  obtain ⟨keys, address, zeroBits, zeroBlocks⟩ := c
  dsimp only at hkeys haddress hbits hblocks
  subst hkeys
  have hderived : KeyPair.derive (fun seed => .ok (publicKey seed)) seed = .ok ⟨seed, key⟩ := by
    rw [hprimitive seed key hkey]
    rfl
  have hrun : zeroBits = zeroRun (Bytes.bits key) := by
    rw [hbits, Bytes.leadingZeroBits_eq_zeroRun]
  have hones : address.bytes[1]?.map UInt8.toNat = some zeroBits := by
    rw [(Address.layout_of_ofPublicKey haddress).ones, hrun]
  have hle : zeroBits ≤ 127 := by
    rw [hrun]
    exact (Address.exists_ofPublicKey_iff.mp ⟨address, haddress⟩).2
  have hruns : ∀ n, 0 < n →
      (n ≤ zeroBlocks ↔ ∃ i, i + n ≤ 7 ∧ ∀ j < n, address.groups[i + j + 1]? = some 0) := by
    rw [hblocks]
    exact fun n => Address.le_zeroBlocks_iff
  have hblocksle : zeroBlocks ≤ 7 := by
    rw [hblocks]
    exact address.zeroBlocks_le
  exact ⟨hsize, hderived, rfl, haddress, hrun, hones, hle, hruns, hblocksle⟩

end Candidate

end KeySearch
