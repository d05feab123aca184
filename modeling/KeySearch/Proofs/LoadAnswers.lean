import KeySearch.Proofs.CandidateScores
import KeySearch.SavedKey

/-!
# What becomes of the file of a saved key

Whatever bytes a file has, `SavedKey.load` is to answer with a candidate or with none. It does so
unless a value of the file is of a kind that its place does not allow for, or the values stand too deep
in one another: nothing looks at the kinds beforehand, and these faults are not among those that are
reported. `Misfit` says which values have the wrong kind, `Vouches` which ones give a candidate, and
`load_cases` follows the bytes of a file to one outcome or the other.
-/

set_option autoImplicit false

namespace KeySearch.SavedKey

variable {primitive : KeyPrimitive} {value : Json} {c : Candidate}

/-! ## Values of the wrong kind -/

/-- What is wrong with data that is no object. -/
def noFields : Json → WrongKind
  | .arr _ => .dataArray
  | .str _ => .dataString
  | data => .noData (kindName data)

/-- A value is of a kind that its place in a saved key does not allow for. The public key is looked at
only after the private key has given a key pair. -/
inductive Misfit (primitive : KeyPrimitive) : Json → WrongKind → Prop
  | whole {value : Json} (h : ∀ all, value ≠ .obj all) :
      Misfit primitive value (.noObject (kindName value))
  | data {all : List (List Nat × Json)} {data : Json}
      (hdata : Json.field? all (Text.codePoints "data") = some data) (h : ∀ inner, data ≠ .obj inner) :
      Misfit primitive (.obj all) (noFields data)
  | privateKey {all inner : List (List Nat × Json)} {key : Json}
      (hdata : Json.field? all (Text.codePoints "data") = some (.obj inner))
      (hkey : Json.field? inner (Text.codePoints "PrivateKey") = some key)
      (h : ∀ text, key ≠ .str text) : Misfit primitive (.obj all) (.noString (kindName key))
  | publicKey {all inner : List (List Nat × Json)} {secret : List Nat} {keys : KeyPair} {key : Json}
      (hdata : Json.field? all (Text.codePoints "data") = some (.obj inner))
      (hsecret : Json.field? inner (Text.codePoints "PrivateKey") = some (.str secret))
      (hkeys : KeyPair.ofSecret primitive secret = .ok keys)
      (hkey : Json.field? inner (Text.codePoints "PublicKey") = some key)
      (h : ∀ text, key ≠ .str text) : Misfit primitive (.obj all) (.noString (kindName key))

/-- The private key of a saved key gives the keys of a candidate, and the public key that stands
beside it is theirs. -/
def Vouches (primitive : KeyPrimitive) (value : Json) (c : Candidate) : Prop :=
  ∃ all inner secret claimed, value = .obj all
    ∧ Json.field? all (Text.codePoints "data") = some (.obj inner)
    ∧ Json.field? inner (Text.codePoints "PrivateKey") = some (.str secret)
    ∧ Json.field? inner (Text.codePoints "PublicKey") = some (.str claimed)
    ∧ KeyPair.ofSecret primitive secret = .ok c.keys
    ∧ Hex.decode claimed = .ok c.keys.publicKey
    ∧ Candidate.ofKeys c.keys = .ok c

/-! ## One place after another -/

theorem dataOf_of_ne (h : ∀ all, value ≠ .obj all) :
    dataOf value = .error (.wrongKind (.noObject (kindName value))) := by
  cases value with
  | obj all => exact absurd rfl (h all)
  | _ => rfl

theorem fieldOf_of_ne (h : ∀ inner, value ≠ .obj inner) (name : String) :
    fieldOf value name = .error (.wrongKind (noFields value)) := by
  cases value with
  | obj inner => exact absurd rfl (h inner)
  | _ => rfl

theorem textOf_of_ne (h : ∀ text, value ≠ .str text) :
    textOf value = .error (.wrongKind (.noString (kindName value))) := by
  cases value with
  | str text => exact absurd rfl (h text)
  | _ => rfl

theorem obj_or_ne (value : Json) : (∃ all, value = .obj all) ∨ ∀ all, value ≠ .obj all := by
  cases value with
  | obj all => exact .inl ⟨all, rfl⟩
  | _ => exact .inr fun _ h => Json.noConfusion h

theorem str_or_ne (value : Json) : (∃ text, value = .str text) ∨ ∀ text, value ≠ .str text := by
  cases value with
  | str text => exact .inl ⟨text, rfl⟩
  | _ => exact .inr fun _ h => Json.noConfusion h

/-- An object has a text under a name, or something else, or nothing. -/
theorem field_cases (inner : List (List Nat × Json)) (name : String) :
    (∃ text, Json.field? inner (Text.codePoints name) = some (.str text))
      ∨ (∃ key, Json.field? inner (Text.codePoints name) = some key ∧ ∀ text, key ≠ .str text)
      ∨ Json.field? inner (Text.codePoints name) = none := by
  cases Json.field? inner (Text.codePoints name) with
  | none => exact .inr (.inr rfl)
  | some key =>
      rcases str_or_ne key with ⟨text, rfl⟩ | hne
      · exact .inl ⟨text, rfl⟩
      · exact .inr (.inl ⟨key, rfl, hne⟩)

/-! ## The whole value -/

theorem Misfit.ofJson_eq {w : WrongKind} (h : Misfit primitive value w) :
    ofJson primitive value = .error (.wrongKind w) := by
  cases h with
  | whole h =>
      rw [ofJson, dataOf_of_ne h]
      rfl
  | data hdata h => simp [ofJson, dataOf, hdata, keysOf, fieldOf_of_ne h, bind, Except.bind]
  | privateKey hdata hkey h =>
      simp [ofJson, dataOf, hdata, keysOf, fieldOf, hkey, textOf_of_ne h, bind, Except.bind]
  | publicKey hdata hsecret hkeys hkey h =>
      simp only [ofJson, dataOf, hdata, Option.getD_some, keysOf, fieldOf, hsecret, textOf, hkeys,
        publicKeyOf, hkey, bind, Except.bind]

theorem Vouches.ofJson_eq (h : Vouches primitive value c) : ofJson primitive value = .ok c := by
  obtain ⟨all, inner, secret, claimed, rfl, hdata, hsecret, hclaimed, hkeys, hbytes, hmade⟩ := h
  simp [ofJson, dataOf, hdata, keysOf, publicKeyOf, fieldOf, hsecret, hclaimed, hkeys, hbytes, hmade,
    textOf, bind, Except.bind]

/-- A value whose two keys are texts has no wrong kind. -/
theorem ofJson_cases_of_texts {all inner : List (List Nat × Json)} {secret claimed : List Nat}
    (hdata : Json.field? all (Text.codePoints "data") = some (.obj inner))
    (hsecret : Json.field? inner (Text.codePoints "PrivateKey") = some (.str secret))
    (hclaimed : Json.field? inner (Text.codePoints "PublicKey") = some (.str claimed)) :
    (∃ c, Vouches primitive (.obj all) c)
      ∨ ofJson primitive (.obj all) = .error .mismatch
      ∨ ∃ r, ofJson primitive (.obj all) = .error (.rejected r) := by
  cases hkeys : KeyPair.ofSecret primitive secret with
  | error e =>
      refine .inr (.inr ⟨.secret e, ?_⟩)
      simp [ofJson, dataOf, hdata, keysOf, fieldOf, hsecret, hkeys, textOf, bind, Except.bind]
  | ok keys =>
      cases hbytes : Hex.decode claimed with
      | error e =>
          refine .inr (.inr ⟨.publicKey e, ?_⟩)
          simp [ofJson, dataOf, hdata, keysOf, publicKeyOf, fieldOf, hsecret, hclaimed, hkeys, hbytes,
            textOf, bind, Except.bind]
      | ok bytes =>
          by_cases hown : keys.publicKey = bytes
          · cases hmade : Candidate.ofKeys keys with
            | error e =>
                refine .inr (.inr ⟨.address e, ?_⟩)
                simp [ofJson, dataOf, hdata, keysOf, publicKeyOf, fieldOf, hsecret, hclaimed, hkeys,
                  hbytes, hown, hmade, textOf, bind, Except.bind]
            | ok c =>
                obtain ⟨rfl, -⟩ := Candidate.ofKeys_eq_ok_iff.mp hmade
                exact .inl ⟨c, all, inner, secret, claimed, rfl, hdata, hsecret, hclaimed, hkeys,
                  hown ▸ hbytes, hmade⟩
          · refine .inr (.inl ?_)
            simp [ofJson, dataOf, hdata, keysOf, publicKeyOf, fieldOf, hsecret, hclaimed, hkeys,
              hbytes, hown, textOf, bind, Except.bind]

/-- A value has the wrong kind, or it gives a candidate, or its public key is not the one of its
private key, or it is rejected for what it says. -/
theorem ofJson_cases (primitive : KeyPrimitive) (value : Json) :
    (∃ w, Misfit primitive value w) ∨ (∃ c, Vouches primitive value c)
      ∨ ofJson primitive value = .error .mismatch
      ∨ ∃ r, ofJson primitive value = .error (.rejected r) := by
  rcases obj_or_ne value with ⟨all, rfl⟩ | hne
  · cases hdata : Json.field? all (Text.codePoints "data") with
    | none =>
        rw [ofJson, dataOf, hdata]
        exact .inr (.inr (.inr ⟨.missingField "PrivateKey", rfl⟩))
    | some data =>
        rcases obj_or_ne data with ⟨inner, rfl⟩ | hne
        · rcases field_cases inner "PrivateKey" with ⟨secret, hsecret⟩ | ⟨key, hkey, hne⟩ | hnone
          · rcases field_cases inner "PublicKey" with ⟨claimed, hclaimed⟩ | ⟨key, hkey, hne⟩ | hnone
            · exact .inr (ofJson_cases_of_texts hdata hsecret hclaimed)
            · cases hkeys : KeyPair.ofSecret primitive secret with
              | error e =>
                  refine .inr (.inr (.inr ⟨.secret e, ?_⟩))
                  simp [ofJson, dataOf, hdata, keysOf, fieldOf, hsecret, hkeys, textOf, bind, Except.bind]
              | ok keys => exact .inl ⟨_, .publicKey hdata hsecret hkeys hkey hne⟩
            · refine .inr (.inr (.inr ?_))
              cases hkeys : KeyPair.ofSecret primitive secret <;>
                simp [ofJson, dataOf, hdata, keysOf, publicKeyOf, fieldOf, hsecret, hkeys, hnone,
                  textOf, bind, Except.bind]
          · exact .inl ⟨_, .privateKey hdata hkey hne⟩
          · refine .inr (.inr (.inr ⟨.missingField "PrivateKey", ?_⟩))
            simp [ofJson, dataOf, hdata, keysOf, fieldOf, hnone, bind, Except.bind]
        · exact .inl ⟨_, .data hdata hne⟩
  · exact .inl ⟨_, .whole hne⟩

/-! ## The bytes of a file -/

/-- What the bytes of a file are as JSON: a value, or why they are none. -/
def Reads (bytes : List UInt8) (result : Except Json.ReadError Json) : Prop :=
  ∃ text, Utf8.decode bytes = .ok text
    ∧ Json.read ((Text.unifyLineEnds text).map Char.toNat) = result

/-- The outcomes of the bytes of a file: they are JSON of the wrong kinds or too deep, or they give a
candidate, or they do not for a reason that is reported. -/
theorem ofBytes_cases (primitive : KeyPrimitive) (bytes : List UInt8) :
    (∃ e, Reads bytes (.error e) ∧ e.failure.fault.isDepth = true
        ∧ ofBytes primitive bytes = .error (.tooDeep e))
      ∨ (∃ value w, Reads bytes (.ok value) ∧ Misfit primitive value w
        ∧ ofBytes primitive bytes = .error (.wrongKind w))
      ∨ (∃ value c, Reads bytes (.ok value) ∧ Vouches primitive value c
        ∧ ofBytes primitive bytes = .ok c)
      ∨ ofBytes primitive bytes = .error .mismatch
      ∨ ∃ r, ofBytes primitive bytes = .error (.rejected r) := by
  cases hdecode : Utf8.decode bytes with
  | error e => exact .inr (.inr (.inr (.inr ⟨.undecodable e, by rw [ofBytes, hdecode]⟩)))
  | ok text =>
      cases hread : Json.read ((Text.unifyLineEnds text).map Char.toNat) with
      | error e =>
          have hbytes : ofBytes primitive bytes
              = .error (if e.failure.fault.isDepth then .tooDeep e else .rejected (.json e)) := by
            simp only [ofBytes, hdecode, hread]
          cases hdepth : e.failure.fault.isDepth with
          | true => exact .inl ⟨e, ⟨text, hdecode, hread⟩, hdepth, by rw [hbytes, if_pos hdepth]⟩
          | false =>
              refine .inr (.inr (.inr (.inr ⟨.json e, ?_⟩)))
              rw [hbytes, hdepth, if_neg Bool.false_ne_true]
      | ok value =>
          have hbytes : ofBytes primitive bytes = ofJson primitive value := by
            simp only [ofBytes, hdecode, hread]
          rw [hbytes]
          rcases ofJson_cases primitive value with ⟨w, hw⟩ | ⟨c, hc⟩ | hrest
          · exact .inr (.inl ⟨value, w, ⟨text, hdecode, hread⟩, hw, hw.ofJson_eq⟩)
          · exact .inr (.inr (.inl ⟨value, c, ⟨text, hdecode, hread⟩, hc, hc.ofJson_eq⟩))
          · exact .inr (.inr (.inr hrest))

theorem Reads.ofBytes_eq {bytes : List UInt8} {value : Json} (h : Reads bytes (.ok value)) :
    ofBytes primitive bytes = ofJson primitive value := by
  obtain ⟨text, hdecode, hread⟩ := h
  simp only [ofBytes, hdecode, hread]

theorem Reads.ofBytes_eq_tooDeep {bytes : List UInt8} {e : Json.ReadError} (h : Reads bytes (.error e))
    (hdepth : e.failure.fault.isDepth = true) : ofBytes primitive bytes = .error (.tooDeep e) := by
  obtain ⟨text, hdecode, hread⟩ := h
  simp only [ofBytes, hdecode, hread, hdepth, if_true]

/-! ## The file -/

variable {f : Files} {place : List Nat} {path : Path} {bytes : List UInt8}

theorem load_eq_of_file (hfile : f.locate place = some (path, .file bytes)) :
    load primitive f place
      = match ofBytes primitive bytes with
        | .ok c => .ok (some c, [])
        | .error (.rejected r) =>
          .ok (none, [Log.failure ("Error loading key from JSON: " ++ r.message)])
        | .error .mismatch =>
          .ok (none,
            [Log.failure ("Public key in " ++ Text.shown place ++ " does not match its private key")])
        | .error (.wrongKind w) => .error (.wrongKind w)
        | .error (.tooDeep e) => .error (.tooDeep e) := by
  unfold load
  exact hfile ▸ rfl

/-- Loading an existing file, whatever is in it, crashes on what stands too deep or has a wrong kind,
or gives the candidate that the file vouches for, or gives none and says why. -/
theorem load_cases (primitive : KeyPrimitive) (hfile : f.locate place = some (path, .file bytes)) :
    (∃ e, Reads bytes (.error e) ∧ e.failure.fault.isDepth = true
        ∧ load primitive f place = .error (.tooDeep e))
      ∨ (∃ value w, Reads bytes (.ok value) ∧ Misfit primitive value w
        ∧ load primitive f place = .error (.wrongKind w))
      ∨ (∃ value c, Reads bytes (.ok value) ∧ Vouches primitive value c
        ∧ load primitive f place = .ok (some c, []))
      ∨ ∃ message, load primitive f place = .ok (none, [Log.failure message]) := by
  rw [load_eq_of_file hfile]
  rcases ofBytes_cases primitive bytes with ⟨e, hread, hdepth, h⟩ | ⟨value, w, hread, hw, h⟩
      | ⟨value, c, hread, hc, h⟩ | h | ⟨r, h⟩ <;> rw [h]
  · exact .inl ⟨e, hread, hdepth, rfl⟩
  · exact .inr (.inl ⟨value, w, hread, hw, rfl⟩)
  · exact .inr (.inr (.inl ⟨value, c, hread, hc, rfl⟩))
  · exact .inr (.inr (.inr ⟨_, rfl⟩))
  · exact .inr (.inr (.inr ⟨_, rfl⟩))

theorem load_eq_wrongKind {w : WrongKind} (hfile : f.locate place = some (path, .file bytes))
    (hread : Reads bytes (.ok value)) (h : Misfit primitive value w) :
    load primitive f place = .error (.wrongKind w) := by
  rw [load_eq_of_file hfile, hread.ofBytes_eq, h.ofJson_eq]

theorem load_eq_tooDeep {e : Json.ReadError} (hfile : f.locate place = some (path, .file bytes))
    (hread : Reads bytes (.error e)) (h : e.failure.fault.isDepth = true) :
    load primitive f place = .error (.tooDeep e) := by
  rw [load_eq_of_file hfile, hread.ofBytes_eq_tooDeep h]

theorem load_eq_some (hfile : f.locate place = some (path, .file bytes))
    (hread : Reads bytes (.ok value)) (h : Vouches primitive value c) :
    load primitive f place = .ok (some c, []) := by
  rw [load_eq_of_file hfile, hread.ofBytes_eq, h.ofJson_eq]

/-- Loading an existing file has no answer exactly if its values stand too deep in one another or one
of them has a kind that its place does not allow for. It answers with a candidate exactly if the file
vouches for that one, and when it answers with none, one record says why. -/
theorem load_of_file (primitive : KeyPrimitive) (hfile : f.locate place = some (path, .file bytes)) :
    (∀ crash, load primitive f place = .error crash ↔
        (∃ e, Reads bytes (.error e) ∧ e.failure.fault.isDepth = true ∧ crash = .tooDeep e)
          ∨ ∃ value w, Reads bytes (.ok value) ∧ Misfit primitive value w ∧ crash = .wrongKind w)
      ∧ (∀ c log, load primitive f place = .ok (some c, log) ↔
          log = [] ∧ ∃ value, Reads bytes (.ok value) ∧ Vouches primitive value c)
      ∧ ∀ log, load primitive f place = .ok (none, log) → ∃ message, log = [Log.failure message] := by
  refine ⟨fun crash => ⟨fun h => ?_, ?_⟩, fun c log => ⟨fun h => ?_, ?_⟩, fun log h => ?_⟩
  · rcases load_cases primitive hfile with ⟨e, hread, hdepth, heq⟩ | ⟨value, w, hread, hw, heq⟩
      | ⟨value, c, hread, hc, heq⟩ | ⟨message, heq⟩ <;> cases heq.symm.trans h
    · exact .inl ⟨e, hread, hdepth, rfl⟩
    · exact .inr ⟨value, w, hread, hw, rfl⟩
  · rintro (⟨e, hread, hdepth, rfl⟩ | ⟨value, w, hread, hw, rfl⟩)
    · exact load_eq_tooDeep hfile hread hdepth
    · exact load_eq_wrongKind hfile hread hw
  · rcases load_cases primitive hfile with ⟨e, hread, hdepth, heq⟩ | ⟨value, w, hread, hw, heq⟩
      | ⟨value, c, hread, hc, heq⟩ | ⟨message, heq⟩ <;> cases heq.symm.trans h
    exact ⟨rfl, value, hread, hc⟩
  · rintro ⟨rfl, value, hread, hc⟩
    exact load_eq_some hfile hread hc
  · rcases load_cases primitive hfile with ⟨e, hread, hdepth, heq⟩ | ⟨value, w, hread, hw, heq⟩
      | ⟨value, c, hread, hc, heq⟩ | ⟨message, heq⟩ <;> cases heq.symm.trans h
    exact ⟨message, rfl⟩

/-- The path of a file in the working directory `w`. -/
def keyPath : Path := ["w", "k.json"]

/-- A working directory with one file in it. -/
def keyFile (content : String) : Files := ⟨["w"], [(keyPath, .file content.toUTF8.toList)]⟩

theorem load_of_file_emptyArray :
    (keyFile "[]").locate "k.json" = some (keyPath, .file "[]".toUTF8.toList)
      ∧ load .ed25519 (keyFile "[]") "k.json" = .error (.wrongKind (.noObject "list")) := by
  have hfile : (keyFile "[]").locate "k.json" = some (keyPath, .file "[]".toUTF8.toList) := by
    decide +kernel
  have hread : Reads "[]".toUTF8.toList (.ok (.arr [])) := ⟨['[', ']'], by decide +kernel, by rfl⟩
  exact ⟨hfile, ((load_of_file .ed25519 hfile).1 _).mpr
    (.inr ⟨.arr [], .noObject "list", hread, .whole (fun _ h => Json.noConfusion h), rfl⟩)⟩

/-- Not every existing file is answered for: one with an empty array in it is not. -/
theorem not_forall_load_eq_ok :
    ¬ ∀ (primitive : KeyPrimitive) (f : Files) (place : List Nat) (path : Path) (bytes : List UInt8),
      f.locate place = some (path, .file bytes) →
        ∃ answer log, load primitive f place = .ok (answer, log) := by
  intro hall
  obtain ⟨answer, log, hload⟩ := hall .ed25519 (keyFile "[]") "k.json" keyPath
    "[]".toUTF8.toList (by decide +kernel)
  have hcrash : load .ed25519 (keyFile "[]") "k.json" = .error (.wrongKind (.noObject "list")) := by
    decide +kernel
  cases hcrash.symm.trans hload

end KeySearch.SavedKey
