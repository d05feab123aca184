import KeySearch.KeyPair
import KeySearch.Proofs.WrittenText

/-!
# Texts of secret keys

A secret key is given as a text in hexadecimal, and so may be the seed alone. Three equations say what
becomes of a text: `ofSecret_of_undecodable`, `ofSecret_of_wrongSize` and `ofSecret_of_seed`. What is
accepted is a seed of 32 bytes, or a seed with the public key behind it that the key primitive gives.
Nothing else is, so a public key that was altered or belongs to another seed is noticed.
-/

set_option autoImplicit false

namespace KeySearch

/-- A key primitive that gives every seed of 32 bytes a public key of 32 bytes. -/
def KeyPrimitive.Total (primitive : KeyPrimitive) : Prop :=
  ∀ seed, seed.length = 32 → ∃ publicKey, primitive seed = .ok publicKey ∧ publicKey.length = 32

theorem KeyPrimitive.total_ed25519 : KeyPrimitive.ed25519.Total :=
  fun seed hseed => ⟨Ed25519.publicKey seed, if_pos hseed, Ed25519.length_publicKey seed⟩

namespace KeyPair

variable {primitive : KeyPrimitive} {text : List Nat} {keys : KeyPair} {seed tail bytes : List UInt8}

theorem derive_eq_ok_iff :
    derive primitive seed = .ok keys ↔ keys.seed = seed ∧ primitive seed = .ok keys.publicKey := by
  obtain ⟨own, publicKey⟩ := keys
  unfold derive
  cases primitive seed with
  | error detail => simp
  | ok key =>
      simp only [Except.ok.injEq, KeyPair.mk.injEq]
      exact and_congr_left' eq_comm

/-! ## What becomes of a text -/

theorem ofSecret_of_undecodable {e : Hex.Error} (h : Hex.decode text = .error e) :
    ofSecret primitive text = .error (.hex e) := by
  rw [ofSecret, h]

theorem ofSecret_of_wrongSize (h : Hex.decode text = .ok bytes) (hshort : bytes.length ≠ 32)
    (hlong : bytes.length ≠ 64) :
    ofSecret primitive text = .error (.wrongSize bytes.length) := by
  rw [ofSecret, h]
  exact if_pos ⟨hshort, hlong⟩

/-- Of a text with 32 or 64 bytes the first 32 are taken for a seed. What follows them has to be its
public key, if anything does. -/
theorem ofSecret_of_seed (h : Hex.decode text = .ok (seed ++ tail)) (hseed : seed.length = 32)
    (htail : tail = [] ∨ tail.length = 32) :
    ofSecret primitive text = match derive primitive seed with
      | .error e => .error (.derivation e)
      | .ok keys => if tail = [] ∨ tail = keys.publicKey then .ok keys else .error .mismatch := by
  have htake : (seed ++ tail).take 32 = seed := List.take_left' hseed
  have hlength : (seed ++ tail).length = 32 + tail.length := by
    rw [List.length_append, hseed]
  have hsize : ¬ ((seed ++ tail).length ≠ 32 ∧ (seed ++ tail).length ≠ 64) := by
    rcases htail with rfl | htail
    · simp [hseed]
    · omega
  rw [ofSecret, h]
  dsimp only
  rw [if_neg hsize, htake]
  cases hkeys : derive primitive seed with
  | error e => rfl
  | ok keys =>
      obtain ⟨rfl, -⟩ := derive_eq_ok_iff.mp hkeys
      -- the bytes are the secret key exactly if what follows the seed is the public key
      have hwhole : keys.seed ++ tail = keys.secretKey ↔ tail = keys.publicKey :=
        List.append_right_inj keys.seed
      rcases htail with rfl | htail
      · simp [hseed]
      · have hne : tail ≠ [] := by
          rintro rfl
          cases htail
        dsimp only
        by_cases hown : tail = keys.publicKey
        · rw [if_neg (fun h => h.2 (hwhole.mpr hown)), if_pos (.inr hown)]
        · rw [if_pos ⟨by omega, mt hwhole.mp hown⟩, if_neg (not_or.mpr ⟨hne, hown⟩)]

theorem exists_seed_append (h : bytes.length = 32 ∨ bytes.length = 64) :
    ∃ seed tail : List UInt8, bytes = seed ++ tail ∧ seed.length = 32
      ∧ (tail = [] ∨ tail.length = 32) := by
  refine ⟨bytes.take 32, bytes.drop 32, (List.take_append_drop 32 bytes).symm, ?_, ?_⟩
  · rw [List.length_take]
    omega
  · rcases h with hshort | hlong
    · exact .inl (List.drop_eq_nil_of_le (Nat.le_of_eq hshort))
    · exact .inr (by rw [List.length_drop, hlong])

/-- A text spells a secret key exactly if its bytes are a seed or a seed with its own public key. -/
theorem ofSecret_eq_ok_iff :
    ofSecret primitive text = .ok keys ↔ ∃ bytes, Hex.decode text = .ok bytes
      ∧ keys.seed.length = 32 ∧ derive primitive keys.seed = .ok keys
      ∧ (bytes = keys.seed ∨ bytes.length = 64 ∧ bytes = keys.secretKey) := by
  constructor
  · intro h
    cases hdecode : Hex.decode text with
    | error e => cases (ofSecret_of_undecodable hdecode).symm.trans h
    | ok bytes =>
        by_cases hsize : bytes.length = 32 ∨ bytes.length = 64
        · obtain ⟨seed, tail, rfl, hseed, htail⟩ := exists_seed_append hsize
          rw [ofSecret_of_seed hdecode hseed htail] at h
          cases hown : derive primitive seed with
          | error e =>
              rw [hown] at h
              cases h
          | ok own =>
              rw [hown] at h
              dsimp only at h
              split at h
              · next hspelled =>
                cases h
                obtain ⟨rfl, -⟩ := derive_eq_ok_iff.mp hown
                refine ⟨_, rfl, hseed, hown, ?_⟩
                rcases htail with rfl | htail
                · exact .inl (List.append_nil _)
                · rcases hspelled with rfl | rfl
                  · cases htail
                  · exact .inr ⟨by rw [List.length_append, hseed, htail], rfl⟩
              · cases h
        · rw [not_or] at hsize
          cases (ofSecret_of_wrongSize hdecode hsize.1 hsize.2).symm.trans h
  · rintro ⟨bytes, hdecode, hseed, hown, hbytes⟩
    rcases hbytes with rfl | ⟨hlong, rfl⟩
    · rw [← List.append_nil keys.seed] at hdecode
      rw [ofSecret_of_seed hdecode hseed (.inl rfl), hown]
      exact if_pos (.inl rfl)
    · have hpublic : keys.publicKey.length = 32 := by
        rw [secretKey, List.length_append, hseed] at hlong
        omega
      rw [ofSecret_of_seed hdecode hseed (.inr hpublic), hown]
      exact if_pos (.inr rfl)

/-- The text of a secret key gives back its key pair. -/
theorem ofSecret_secretHex (hseed : keys.seed.length = 32) (hpublic : keys.publicKey.length = 32)
    (hkey : primitive keys.seed = .ok keys.publicKey) :
    ofSecret primitive (Text.codePoints keys.secretHex) = .ok keys := by
  have hlength : keys.secretKey.length = 64 := by
    rw [secretKey, List.length_append, hseed, hpublic]
  exact ofSecret_eq_ok_iff.mpr ⟨keys.secretKey, Hex.decode_encode _, hseed,
    derive_eq_ok_iff.mpr ⟨rfl, hkey⟩, .inr ⟨hlength, rfl⟩⟩

/-- The text of a seed gives its key pair. -/
theorem ofSecret_seedHex (hseed : keys.seed.length = 32)
    (hkey : primitive keys.seed = .ok keys.publicKey) :
    ofSecret primitive (Text.codePoints keys.seedHex) = .ok keys :=
  ofSecret_eq_ok_iff.mpr ⟨keys.seed, Hex.decode_encode _, hseed,
    derive_eq_ok_iff.mpr ⟨rfl, hkey⟩, .inl rfl⟩

/-- A seed with another public key behind it than its own is refused. -/
theorem ofSecret_of_other (hseed : keys.seed.length = 32)
    (hkey : primitive keys.seed = .ok keys.publicKey) (htail : tail.length = 32)
    (hother : tail ≠ keys.publicKey) (h : Hex.decode text = .ok (keys.seed ++ tail)) :
    ofSecret primitive text = .error .mismatch := by
  have hne : tail ≠ [] := by
    rintro rfl
    cases htail
  rw [ofSecret_of_seed h hseed (.inr htail), derive_eq_ok_iff.mpr ⟨rfl, hkey⟩]
  exact if_neg (not_or.mpr ⟨hne, hother⟩)

/-- A failure of the derivation is one of the key primitive on a seed of 32 bytes. -/
theorem exists_of_derivation {e : DerivationError}
    (h : ofSecret primitive text = .error (.derivation e)) :
    ∃ seed, seed.length = 32 ∧ primitive seed = .error e.detail := by
  cases hdecode : Hex.decode text with
  | error e => cases (ofSecret_of_undecodable hdecode).symm.trans h
  | ok bytes =>
      by_cases hsize : bytes.length = 32 ∨ bytes.length = 64
      · obtain ⟨seed, tail, rfl, hseed, htail⟩ := exists_seed_append hsize
        rw [ofSecret_of_seed hdecode hseed htail, derive] at h
        refine ⟨seed, hseed, ?_⟩
        cases hkey : primitive seed with
        | error detail =>
            rw [hkey] at h
            cases h
            rfl
        | ok publicKey =>
            rw [hkey] at h
            dsimp only at h
            split at h <;> cases h
      · rw [not_or] at hsize
        cases (ofSecret_of_wrongSize hdecode hsize.1 hsize.2).symm.trans h

/-! ## The texts that are accepted -/

/-- With a key primitive that does not fail the size of a whole secret key need not be asked for. -/
theorem ofSecret_eq_ok_iff_of_total (htotal : primitive.Total) :
    ofSecret primitive text = .ok keys ↔ ∃ seed, seed.length = 32 ∧ derive primitive seed = .ok keys
      ∧ (Hex.decode text = .ok seed ∨ Hex.decode text = .ok (seed ++ keys.publicKey)) := by
  rw [ofSecret_eq_ok_iff]
  constructor
  · rintro ⟨bytes, hdecode, hseed, hown, hbytes⟩
    refine ⟨keys.seed, hseed, hown, ?_⟩
    rcases hbytes with rfl | ⟨-, rfl⟩
    · exact .inl hdecode
    · exact .inr hdecode
  · rintro ⟨seed, hseed, hown, hdecode⟩
    obtain ⟨rfl, hkey⟩ := derive_eq_ok_iff.mp hown
    rcases hdecode with hdecode | hdecode
    · exact ⟨keys.seed, hdecode, hseed, hown, .inl rfl⟩
    · obtain ⟨publicKey, hpublic, hlength⟩ := htotal keys.seed hseed
      cases hpublic.symm.trans hkey
      exact ⟨keys.secretKey, hdecode, hseed, hown,
        .inr ⟨by rw [secretKey, List.length_append, hseed, hlength], rfl⟩⟩

/-- **A text gives a key pair exactly if it spells a seed, alone or with its own public key.** The key pair
is then that of the seed. Every other text is refused for what it is: no hexadecimal, of a wrong size, or
with another public key than that of its seed. So the two texts that are written of a key pair give it
back, and no text does that has the seed with an altered public key. -/
theorem ofSecret_outcome (htotal : primitive.Total) :
    (∀ text keys, ofSecret primitive text = .ok keys ↔
        ∃ seed, seed.length = 32 ∧ derive primitive seed = .ok keys
          ∧ (Hex.decode text = .ok seed ∨ Hex.decode text = .ok (seed ++ keys.publicKey)))
    ∧ (∀ text, (∃ keys, ofSecret primitive text = .ok keys) ↔
        ∃ seed publicKey, seed.length = 32 ∧ primitive seed = .ok publicKey
          ∧ (Hex.decode text = .ok seed ∨ Hex.decode text = .ok (seed ++ publicKey)))
    ∧ (∀ text e, ofSecret primitive text = .error e →
        (∃ fault, e = .hex fault) ∨ (∃ actual, e = .wrongSize actual) ∨ e = .mismatch)
    ∧ ∀ seed keys, seed.length = 32 → derive primitive seed = .ok keys →
        ofSecret primitive (Text.codePoints keys.secretHex) = .ok keys
        ∧ ofSecret primitive (Text.codePoints keys.seedHex) = .ok keys
        ∧ ∀ text other, other.length = 32 → other ≠ keys.publicKey →
            Hex.decode text = .ok (seed ++ other) → ofSecret primitive text = .error .mismatch := by
  refine ⟨fun text keys => ofSecret_eq_ok_iff_of_total htotal, fun text => ⟨?_, ?_⟩,
    fun text e he => ?_, fun seed keys hseed hown => ?_⟩
  · rintro ⟨keys, hkeys⟩
    obtain ⟨seed, hseed, hown, hdecode⟩ := (ofSecret_eq_ok_iff_of_total htotal).mp hkeys
    exact ⟨seed, keys.publicKey, hseed, (derive_eq_ok_iff.mp hown).2, hdecode⟩
  · rintro ⟨seed, publicKey, hseed, hkey, hdecode⟩
    exact ⟨⟨seed, publicKey⟩, (ofSecret_eq_ok_iff_of_total htotal).mpr
      ⟨seed, hseed, derive_eq_ok_iff.mpr ⟨rfl, hkey⟩, hdecode⟩⟩
  · cases e with
    | hex fault => exact .inl ⟨fault, rfl⟩
    | wrongSize actual => exact .inr (.inl ⟨actual, rfl⟩)
    | mismatch => exact .inr (.inr rfl)
    | derivation fault =>
        -- the key primitive gives every such seed a public key
        obtain ⟨seed, hseed, hfails⟩ := exists_of_derivation he
        obtain ⟨publicKey, hkey, -⟩ := htotal seed hseed
        cases hkey.symm.trans hfails
  · obtain ⟨rfl, hkey⟩ := derive_eq_ok_iff.mp hown
    obtain ⟨publicKey, hpublic, hlength⟩ := htotal keys.seed hseed
    cases hpublic.symm.trans hkey
    exact ⟨ofSecret_secretHex hseed hlength hkey, ofSecret_seedHex hseed hkey,
      fun text other hsize hother hdecode => ofSecret_of_other hseed hkey hsize hother hdecode⟩

/-- The key pair of the seed zero. -/
def zeroKeys : KeyPair := ⟨List.replicate 32 0, Ed25519.publicKey (List.replicate 32 0)⟩

/-- The text of its secret key with another last digit. -/
def alteredSecret : String :=
  "0000000000000000000000000000000000000000000000000000000000000000"
    ++ "3b6a27bcceb6a42d62a3a8d02a6f0d73653215771de243a63ac048a18b59da28"

/-- The last digit of a secret key belongs to its public key, so it may not be another one. -/
theorem ofSecret_outcome_lastDigit :
    ofSecret .ed25519 (Text.codePoints zeroKeys.secretHex) = .ok zeroKeys
      ∧ ofSecret .ed25519 (Text.codePoints zeroKeys.seedHex) = .ok zeroKeys
      ∧ ofSecret .ed25519 (Text.codePoints alteredSecret) = .error .mismatch := by
  obtain ⟨-, -, -, hown⟩ := ofSecret_outcome KeyPrimitive.total_ed25519
  obtain ⟨hwhole, hseed, haltered⟩ := hown zeroKeys.seed zeroKeys List.length_replicate rfl
  have hlast : alteredSecret = Hex.encode (zeroKeys.seed ++ zeroKeys.publicKey.set 31 0x28) := by
    decide +kernel
  refine ⟨hwhole, hseed, haltered _ (zeroKeys.publicKey.set 31 0x28) ?_ (by decide +kernel) ?_⟩
  · rw [List.length_set, zeroKeys, Ed25519.length_publicKey]
  · rw [hlast]
    exact Hex.decode_encode _

end KeyPair

end KeySearch
