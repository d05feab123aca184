import KeySearch.Proofs.HexTexts
import KeySearch.Proofs.JsonStrings
import KeySearch.Proofs.SavedKeys
import KeySearch.Proofs.TrustedFields

/-!
# What the log says of a private key

A saved key that is rejected leaves one record, and it should be the same record for any other private
key that fails at the same check. `Fails` says what each check finds, and `Alike` what two private keys
have in common if their records are the same. That is next to nothing for most checks. But the check of
the digits quotes the text that it is given, so there a record gives the private key away, all of it but
what was mistyped.
-/

set_option autoImplicit false

namespace KeySearch.SavedKey

/-! ## Saved keys that differ in the private key alone -/

theorem field?_eq_none {fields : List (List Nat × Json)} {name : List Nat}
    (h : ∀ field ∈ fields, field.1 ≠ name) : Json.field? fields name = none := by
  induction fields with
  | nil => rfl
  | cons field rest ih =>
      obtain ⟨hfield, hrest⟩ := List.forall_mem_cons.mp h
      have hsplit := Json.field?_append [field] rest name
      rw [List.singleton_append] at hsplit
      rw [hsplit, ih hrest, Option.none_or]
      exact if_neg hfield

/-- A saved key but for the text of its private key: the fields around the data and, within the data,
those around the private key. No field behind takes the place of the data or of the private key. -/
structure Frame where
  front : List (List Nat × Json)
  back : List (List Nat × Json)
  before : List (List Nat × Json)
  after : List (List Nat × Json)
  data_last : ∀ field ∈ back, field.1 ≠ Text.codePoints "data"
  key_last : ∀ field ∈ after, field.1 ≠ Text.codePoints "PrivateKey"

namespace Frame

variable (s : Frame) (secret : List Nat)

/-- The fields of the data with a private key. -/
def inner : List (List Nat × Json) :=
  s.before ++ (Text.codePoints "PrivateKey", .str secret) :: s.after

/-- The saved key with a private key. -/
def fill : Json := .obj (s.front ++ (Text.codePoints "data", .obj (s.inner secret)) :: s.back)

/-- The public key that the saved key claims to have, whatever its private key. -/
def publicKey : Except LoadError (List UInt8) := publicKeyOf (.obj (s.before ++ s.after))

theorem dataOf_fill : dataOf (s.fill secret) = .ok (.obj (s.inner secret)) := by
  rw [fill, dataOf_insert, field?_eq_none s.data_last]
  rfl

theorem field?_inner (name : List Nat) : Json.field? (s.inner secret) name
    = ((Json.field? s.after name).or
        (if Text.codePoints "PrivateKey" = name then some (.str secret) else none)).or
          (Json.field? s.before name) := by
  have hhere := Json.field?_append [(Text.codePoints "PrivateKey", .str secret)] s.after name
  rw [List.singleton_append] at hhere
  rw [inner, Json.field?_append, hhere]
  rfl

theorem secret_inner : fieldOf (.obj (s.inner secret)) "PrivateKey" = .ok (.str secret) := by
  rw [fieldOf, field?_inner, field?_eq_none s.key_last]
  rfl

theorem publicKeyOf_inner : publicKeyOf (.obj (s.inner secret)) = s.publicKey := by
  have hne : Text.codePoints "PrivateKey" ≠ Text.codePoints "PublicKey" := by decide
  have hfield : fieldOf (.obj (s.inner secret)) "PublicKey"
      = fieldOf (.obj (s.before ++ s.after)) "PublicKey" := by
    rw [fieldOf, fieldOf, field?_inner, if_neg hne, Json.field?_append, Option.or_none]
  rw [publicKey, publicKeyOf, publicKeyOf, hfield]

/-- The private key is looked at first, and nothing but the keys that come of it is looked at later. -/
theorem ofJson_fill (primitive : KeyPrimitive) : ofJson primitive (s.fill secret)
    = match KeyPair.ofSecret primitive secret with
      | .error e => .error (.rejected (.secret e))
      | .ok keys =>
        match s.publicKey with
        | .error e => .error e
        | .ok claimed =>
          if keys.publicKey ≠ claimed then .error .mismatch
          else
            match Candidate.ofKeys keys with
            | .ok c => .ok c
            | .error e => .error (.rejected (.address e)) := by
  simp only [ofJson, dataOf_fill, publicKeyOf_inner, keysOf, secret_inner, textOf, bind, Except.bind]
  cases KeyPair.ofSecret primitive secret with
  | error e => rfl
  | ok keys =>
      dsimp only
      cases s.publicKey with
      | error e => rfl
      | ok claimed => rfl

end Frame

/-! ## The checks -/

/-- The checks that can reject a saved key. -/
inductive Check
  | encoding
  | json
  | fields
  | secretDigits
  | secretSize
  | derivation
  | secretMatch
  | publicDigits
  | publicMatch
  | address
  deriving Repr, DecidableEq

/-- The check that a rejection comes from. -/
def Rejection.check : Rejection → Check
  | .undecodable _ => .encoding
  | .json _ => .json
  | .missingField _ => .fields
  | .secret (.hex _) => .secretDigits
  | .secret (.wrongSize _) => .secretSize
  | .secret (.derivation _) => .derivation
  | .secret .mismatch => .secretMatch
  | .publicKey _ => .publicDigits
  | .address _ => .address

/-- The check that a fault comes from. Values of the wrong kind and those too deep come from none. -/
def LoadError.check? : LoadError → Option Check
  | .rejected r => some r.check
  | .mismatch => some .publicMatch
  | .wrongKind _ | .tooDeep _ => none

/-- The records of a fault. -/
def LoadError.log (place : List Nat) : LoadError → List Log.Record
  | .rejected r => [Log.failure ("Error loading key from JSON: " ++ r.message)]
  | .mismatch => [Log.failure ("Public key in " ++ Text.shown place ++ " does not match its private key")]
  | .wrongKind _ | .tooDeep _ => []

variable {primitive : KeyPrimitive} {s : Frame} {secret secret' : List Nat} {check : Check}
  {e e' : LoadError} {f g : Files} {place : List Nat} {path path' : Path} {bytes bytes' : List UInt8}

/-- What a check finds when it fails. -/
inductive Fails (primitive : KeyPrimitive) (s : Frame) (secret : List Nat) :
    Check → LoadError → Prop
  | secretDigits (h : Hex.decode secret = .error (.malformed secret)) :
      Fails primitive s secret .secretDigits (.rejected (.secret (.hex (.malformed secret))))
  | secretSize {spelled : List UInt8} (h : Hex.decode secret = .ok spelled) :
      Fails primitive s secret .secretSize (.rejected (.secret (.wrongSize spelled.length)))
  | derivation {spelled : List UInt8} {detail : String} (h : Hex.decode secret = .ok spelled)
      (hfails : primitive (spelled.take 32) = .error detail) :
      Fails primitive s secret .derivation (.rejected (.secret (.derivation ⟨detail⟩)))
  | secretMatch : Fails primitive s secret .secretMatch (.rejected (.secret .mismatch))
  | fields {name : String} (h : s.publicKey = .error (.rejected (.missingField name))) :
      Fails primitive s secret .fields (.rejected (.missingField name))
  | publicDigits {fault : Hex.Error} (h : s.publicKey = .error (.rejected (.publicKey fault))) :
      Fails primitive s secret .publicDigits (.rejected (.publicKey fault))
  | publicMatch : Fails primitive s secret .publicMatch .mismatch
  | address {keys : KeyPair} {fault : Address.KeyError} (hown : s.publicKey = .ok keys.publicKey)
      (h : Candidate.ofKeys keys = .error fault) :
      Fails primitive s secret .address (.rejected (.address fault))

theorem fails_of_secret {fault : KeyPair.SecretError}
    (h : KeyPair.ofSecret primitive secret = .error fault) :
    Fails primitive s secret (Rejection.secret fault).check (.rejected (.secret fault)) := by
  unfold KeyPair.ofSecret at h
  cases hdecode : Hex.decode secret with
  | error e =>
      obtain ⟨-, rfl⟩ := Hex.decode_eq_error_iff.mp hdecode
      rw [hdecode] at h
      cases h
      exact .secretDigits hdecode
  | ok spelled =>
      rw [hdecode] at h
      dsimp only at h
      split at h
      · cases h
        exact .secretSize hdecode
      · -- a seed of the right size is handed to the key primitive, and compared with what comes back
        cases hprimitive : primitive (spelled.take 32) with
        | error detail =>
            simp only [KeyPair.derive, hprimitive] at h
            cases h
            exact .derivation hdecode hprimitive
        | ok publicKey =>
            simp only [KeyPair.derive, hprimitive] at h
            split at h
            · cases h
              exact .secretMatch
            · cases h

/-- The public key is missing, or it is no text, or it is no text of digits. -/
theorem fails_of_publicKey (h : s.publicKey = .error e) (hcheck : e.check? = some check) :
    Fails primitive s secret check e := by
  have hsource := h
  unfold Frame.publicKey publicKeyOf at h
  rcases field_cases (s.before ++ s.after) "PublicKey" with ⟨text, htext⟩ | ⟨key, hkey, hne⟩ | hnone
  · simp only [fieldOf, htext, textOf, bind, Except.bind] at h
    split at h
    · cases h
    · cases h
      cases hcheck
      exact .publicDigits hsource
  · simp only [fieldOf, hkey, textOf_of_ne hne, bind, Except.bind] at h
    cases h
    cases hcheck
  · simp only [fieldOf, hnone, bind, Except.bind] at h
    cases h
    cases hcheck
    exact .fields hsource

/-- A check that fails finds what `Fails` says. -/
theorem fails_of_ofJson (h : ofJson primitive (s.fill secret) = .error e)
    (hcheck : e.check? = some check) : Fails primitive s secret check e := by
  rw [Frame.ofJson_fill] at h
  cases hkeys : KeyPair.ofSecret primitive secret with
  | error fault =>
      rw [hkeys] at h
      cases h
      cases hcheck
      exact fails_of_secret hkeys
  | ok keys =>
      rw [hkeys] at h
      cases hpublic : s.publicKey with
      | error fault =>
          rw [hpublic] at h
          cases h
          exact fails_of_publicKey hpublic hcheck
      | ok claimed =>
          rw [hpublic] at h
          dsimp only at h
          -- both keys are read; they are compared before the address is made
          split at h
          · cases h
            cases hcheck
            exact .publicMatch
          · next hown =>
            rw [ne_eq, not_not] at hown
            cases hmade : Candidate.ofKeys keys with
            | ok c =>
                rw [hmade] at h
                cases h
            | error fault =>
                rw [hmade] at h
                cases h
                cases hcheck
                exact .address (hown ▸ hpublic) hmade

/-! ## Two private keys -/

/-- What two private keys have in common if the records of a check are the same for both: all of their
text where its digits are checked, the number of their bytes, what the key primitive says of their
seeds, and elsewhere nothing at all. -/
def Alike (primitive : KeyPrimitive) (secret secret' : List Nat) : Check → Prop
  | .secretDigits => secret = secret'
  | .secretSize => (Hex.decode secret).map List.length = (Hex.decode secret').map List.length
  | .derivation => (Hex.decode secret).map (fun spelled => primitive (spelled.take 32))
      = (Hex.decode secret').map fun spelled => primitive (spelled.take 32)
  | .encoding | .json | .fields | .secretMatch | .publicDigits | .publicMatch | .address => True

theorem failure_inj_iff {p text text' : String} :
    [Log.failure (p ++ text)] = [Log.failure (p ++ text')] ↔ text = text' := by
  simp [Log.failure]

theorem log_eq_iff (hencoded : Text.Encoded secret) (hencoded' : Text.Encoded secret')
    (h : Fails primitive s secret check e) (h' : Fails primitive s secret' check e') :
    e.log place = e'.log place ↔ Alike primitive secret secret' check := by
  cases h with
  | secretDigits h =>
      cases h' with
      | secretDigits h' =>
          -- the record quotes the text, and a literal can be read back
          rw [LoadError.log, LoadError.log, failure_inj_iff]
          change "Invalid hex string: " ++ Text.quoted secret
            = "Invalid hex string: " ++ Text.quoted secret' ↔ secret = secret'
          rw [String.append_right_inj]
          exact ⟨Text.quoted_injective hencoded hencoded', congrArg Text.quoted⟩
  | secretSize h =>
      cases h' with
      | secretSize h' =>
          rw [LoadError.log, LoadError.log, failure_inj_iff, Alike, h, h']
          change "Secret key must be 32 or 64 bytes, got " ++ toString _
            = "Secret key must be 32 or 64 bytes, got " ++ toString _ ↔ Except.ok _ = Except.ok _
          rw [String.append_right_inj, Except.ok.injEq]
          exact ⟨Text.toString_nat_injective, congrArg toString⟩
  | derivation h hfails =>
      cases h' with
      | derivation h' hfails' =>
          rw [LoadError.log, LoadError.log, failure_inj_iff, Alike, h, h']
          change "Keypair derivation failed: " ++ _ = "Keypair derivation failed: " ++ _
            ↔ Except.ok (primitive _) = Except.ok (primitive _)
          rw [String.append_right_inj, hfails, hfails', Except.ok.injEq, Except.error.injEq]
  | secretMatch =>
      cases h'
      exact iff_of_true rfl trivial
  | fields h =>
      cases h' with
      | fields h' =>
          -- the fault of the public key comes from the rest of the file
          cases h.symm.trans h'
          exact iff_of_true rfl trivial
  | publicDigits h =>
      cases h' with
      | publicDigits h' =>
          cases h.symm.trans h'
          exact iff_of_true rfl trivial
  | publicMatch =>
      cases h'
      exact iff_of_true rfl trivial
  | address hown h =>
      cases h' with
      | address hown' h' =>
          -- the public key was found to be the one of the file, which is the same
          have hsame := Except.ok.inj (hown.symm.trans hown')
          have hfault := Candidate.ofKeys_eq_error_iff.mp h
          have hfault' := Candidate.ofKeys_eq_error_iff.mp h'
          rw [hsame, hfault'] at hfault
          cases hfault
          exact iff_of_true rfl trivial

/-! ## Two files -/

/-- A file holds a saved key with a private key, and a check rejects it. -/
structure RejectedAt (primitive : KeyPrimitive) (f : Files) (place : List Nat) (s : Frame)
    (secret : List Nat) (check : Check) : Prop where
  found : ∃ path bytes, f.locate place = some (path, .file bytes) ∧ Reads bytes (.ok (s.fill secret))
  fault : ∃ e, ofJson primitive (s.fill secret) = .error e ∧ e.check? = some check

/-- The private key of a file is a text: it is made of code points. -/
theorem encoded_of_reads (h : Reads bytes (.ok (s.fill secret))) : Text.Encoded secret := by
  obtain ⟨text, -, hread⟩ := h
  have htext : Text.Encoded ((Text.unifyLineEnds text).map Char.toNat) := by
    intro c hc
    obtain ⟨char, -, rfl⟩ := List.mem_map.mp hc
    have hvalid : char.toNat < 0xd800 ∨ 0xdfff < char.toNat ∧ char.toNat < 0x110000 := char.valid
    omega
  -- down from the whole value to the data, and from the data to the private key
  have hwhole : Json.EncodedStrings (s.fill secret) := Json.encoded_read htext hread
  cases hwhole with
  | obj hall =>
      have hdata : Json.EncodedStrings (.obj (s.inner secret)) :=
        hall (Text.codePoints "data", _) (by simp)
      cases hdata with
      | obj hinner =>
          have hkey : Json.EncodedStrings (.str secret) :=
            hinner (Text.codePoints "PrivateKey", _) (by simp [Frame.inner])
          cases hkey with
          | str h => exact h

/-- A file that a check rejects is loaded as none, and the records are those of the fault. -/
theorem RejectedAt.load_eq (h : RejectedAt primitive f place s secret check) :
    ∃ e, Text.Encoded secret ∧ Fails primitive s secret check e
      ∧ load primitive f place = .ok (none, e.log place) := by
  obtain ⟨⟨path, bytes, hfile, hread⟩, e, he, hcheck⟩ := h
  refine ⟨e, encoded_of_reads hread, fails_of_ofJson he hcheck, ?_⟩
  rw [load_eq_of_file hfile, hread.ofBytes_eq, he]
  cases e with
  | rejected r => rfl
  | mismatch => rfl
  | wrongKind w => cases hcheck
  | tooDeep e => cases hcheck

/-- **What the records of two private keys have in common.** Let two files hold saved keys that differ
in the text of the private key alone, and let the same check reject both. Each is loaded as none with
its records, and the records are the same exactly if the private keys are alike for that check. So they
are always the same where the whole text has been taken in, be it for the public key or the address;
at the size they are the same for as many bytes; but at the digits the record quotes the private key,
and they are the same for one and the same text only. -/
theorem load_logs_iff (h : RejectedAt primitive f place s secret check)
    (h' : RejectedAt primitive g place s secret' check) :
    ∃ log log', load primitive f place = .ok (none, log)
      ∧ load primitive g place = .ok (none, log')
      ∧ (log = log' ↔ Alike primitive secret secret' check)
      ∧ (check = .secretDigits →
        log = [Log.failure
          ("Error loading key from JSON: " ++ ("Invalid hex string: " ++ Text.quoted secret))]) := by
  obtain ⟨e, hencoded, hfails, hload⟩ := h.load_eq
  obtain ⟨e', hencoded', hfails', hload'⟩ := h'.load_eq
  refine ⟨_, _, hload, hload', log_eq_iff hencoded hencoded' hfails hfails', ?_⟩
  rintro rfl
  cases hfails
  rfl

/-! ## A private key with a slip -/

/-- The text of a file with a private key and nothing else. -/
def bareText (secret : String) : String :=
  jsonObject "" [("data", jsonObject "  " [("PrivateKey", jsonString secret)])]

/-- A saved key with a private key and nothing else. -/
def bare : Frame := ⟨[], [], [], [], by simp, by simp⟩

theorem not_mem_jsonObject_single {indent name text : String} (hname : 0x0d ∉ Text.codePoints name)
    (htext : 0x0d ∉ Text.codePoints text) (hindent : 0x0d ∉ Text.codePoints indent) :
    0x0d ∉ Text.codePoints (jsonObject indent [(name, text)]) :=
  Json.not_mem_jsonObject (by simpa using hname) (by simpa using htext) hindent

theorem not_mem_bareText {secret : String} (h : Json.Plain (Text.codePoints secret)) :
    0x0d ∉ Text.codePoints (bareText secret) := by
  have hdata : 0x0d ∉ Text.codePoints (jsonObject "  " [("PrivateKey", jsonString secret)]) :=
    not_mem_jsonObject_single (by decide) (not_mem_jsonString h) (by decide)
  exact not_mem_jsonObject_single (by decide) hdata (by decide)

theorem reads_bareText {secret : String} (h : Json.Plain (Text.codePoints secret)) :
    Reads (bareText secret).toUTF8.toList (.ok (bare.fill (Text.codePoints secret))) := by
  have hdata : Json.Spells 987 (Text.codePoints (jsonObject "  " [("PrivateKey", jsonString secret)]))
      (.obj (bare.inner (Text.codePoints secret))) :=
    Json.spells_object (.cons (by decide) (spells_jsonString h) .nil) (List.cons_ne_nil _ _) (by decide)
  have hwhole : Json.Spells 988 (Text.codePoints (bareText secret))
      (bare.fill (Text.codePoints secret)) :=
    Json.spells_object (.cons (by decide) hdata .nil) (List.cons_ne_nil _ _) (by decide)
  have hmark : (Text.codePoints (bareText secret)).head? ≠ some 0xfeff := by
    rw [bareText, Json.codePoints_jsonObject]
    simp
  have hreads := reads_ofList (not_mem_toList (not_mem_bareText h)) (hwhole.read hmark)
  rwa [String.ofList_toList] at hreads

/-- Whatever the private key, the file is rejected by the check that its text fails. -/
theorem rejectedAt_bareText {secret : String} (h : Json.Plain (Text.codePoints secret))
    (fault : KeyPair.SecretError)
    (hfault : KeyPair.ofSecret .ed25519 (Text.codePoints secret) = .error fault) :
    RejectedAt .ed25519 (keyFile (bareText secret)) "k.json" bare (Text.codePoints secret)
      (Rejection.secret fault).check := by
  refine ⟨⟨_, _, locate_keyFile _, reads_bareText h⟩, .rejected (.secret fault), ?_, rfl⟩
  rw [Frame.ofJson_fill, hfault]

/-- The text of the seed zero, but for its last character. -/
def mistyped (last : Char) : String := String.ofList (List.replicate 63 '0' ++ [last])

theorem rejectedAt_mistyped {last : Char} (h : last ∈ ['x', 'y']) :
    RejectedAt .ed25519 (keyFile (bareText (mistyped last))) "k.json" bare
      (Text.codePoints (mistyped last)) .secretDigits := by
  have hfault : Json.Plain (Text.codePoints (mistyped last))
      ∧ Hex.decode (Text.codePoints (mistyped last))
        = .error (.malformed (Text.codePoints (mistyped last))) := by
    rw [List.mem_cons, List.mem_singleton] at h
    rcases h with rfl | rfl
    · exact ⟨by decide +kernel, by decide +kernel⟩
    · exact ⟨by decide +kernel, by decide +kernel⟩
  exact rejectedAt_bareText hfault.1 _ (KeyPair.ofSecret_of_undecodable hfault.2)

/-- A text of one digit over and over, with a byte less than a seed has. -/
def shortSeed (digit : Char) : String := String.ofList (List.replicate 62 digit)

theorem rejectedAt_shortSeed {digit : Char} (h : digit ∈ ['0', 'f']) :
    RejectedAt .ed25519 (keyFile (bareText (shortSeed digit))) "k.json" bare
      (Text.codePoints (shortSeed digit)) .secretSize := by
  rw [List.mem_cons, List.mem_singleton] at h
  rcases h with rfl | rfl
  · exact rejectedAt_bareText (by decide +kernel) (.wrongSize 31) (by decide +kernel)
  · exact rejectedAt_bareText (by decide +kernel) (.wrongSize 31) (by decide +kernel)

/-- The record of a mistyped seed shows all of it, and that of another slip is another one. Two texts with
a byte too few have one record. -/
theorem load_logs_iff_mistyped :
    (∃ log log', load .ed25519 (keyFile (bareText (mistyped 'x'))) "k.json" = .ok (none, log)
        ∧ load .ed25519 (keyFile (bareText (mistyped 'y'))) "k.json" = .ok (none, log')
        ∧ log = [Log.failure ("Error loading key from JSON: Invalid hex string: "
          ++ "'000000000000000000000000000000000000000000000000000000000000000x'")]
        ∧ log ≠ log')
      ∧ load .ed25519 (keyFile (bareText (shortSeed '0'))) "k.json"
        = load .ed25519 (keyFile (bareText (shortSeed 'f'))) "k.json" := by
  constructor
  · have hx := @rejectedAt_mistyped 'x' (by decide)
    have hy := @rejectedAt_mistyped 'y' (by decide)
    obtain ⟨log, log', hload, hload', hiff, hquoted⟩ := load_logs_iff hx hy
    refine ⟨log, log', hload, hload', ?_, fun hlog => ?_⟩
    · rw [hquoted rfl]
      decide +kernel
    · have hsame : Text.codePoints (mistyped 'x') = Text.codePoints (mistyped 'y') := hiff.mp hlog
      exact absurd hsame (by decide +kernel)
  · have hzeros := @rejectedAt_shortSeed '0' (by decide)
    have hefs := @rejectedAt_shortSeed 'f' (by decide)
    have hsize : Alike .ed25519 (Text.codePoints (shortSeed '0')) (Text.codePoints (shortSeed 'f'))
        .secretSize := by
      unfold Alike
      decide +kernel
    obtain ⟨log, log', hload, hload', hiff, -⟩ := load_logs_iff hzeros hefs
    rw [hload, hload', hiff.mpr hsize]

/-- The statement that is not so: two private keys of one length that the same check rejects leave the
same records. They do not where the digits are checked. -/
theorem not_forall_load_logs_eq :
    ¬ ∀ (primitive : KeyPrimitive) (f g : Files) (place : List Nat) (s : Frame)
      (secret secret' : List Nat) (check : Check) (log log' : List Log.Record),
      secret.length = secret'.length → RejectedAt primitive f place s secret check →
        RejectedAt primitive g place s secret' check →
          load primitive f place = .ok (none, log) → load primitive g place = .ok (none, log') →
            log = log' := by
  intro hall
  have hx := @rejectedAt_mistyped 'x' (by decide)
  have hy := @rejectedAt_mistyped 'y' (by decide)
  obtain ⟨e, hencoded, hfails, hload⟩ := hx.load_eq
  obtain ⟨e', hencoded', hfails', hload'⟩ := hy.load_eq
  have hlog := hall _ _ _ _ _ _ _ _ _ _ (by decide +kernel) hx hy hload hload'
  have hsame : Text.codePoints (mistyped 'x') = Text.codePoints (mistyped 'y') :=
    (log_eq_iff hencoded hencoded' hfails hfails').mp hlog
  exact absurd hsame (by decide +kernel)

end KeySearch.SavedKey
