import KeySearch.Proofs.LoadAnswers
import KeySearch.Proofs.SecretTexts
import Mathlib.Logic.Relation

/-!
# What a saved key is trusted for

Anybody can edit the file of a saved key. A candidate that is loaded from it has nothing from the file
but a seed: `Attested` says how its keys follow from that, and which texts of the file agree with them.
All else that the file says is for the reader. It may be changed (`Edit`) as often as one likes, and
loading answers as before, be it with a candidate, with none or not at all.
-/

set_option autoImplicit false

namespace KeySearch

/-! ## One field of an object -/

namespace Json

/-- Two lists of fields differ in one field, whose name is none of those to be kept: it has another
value, or only one of the lists has it. -/
def DifferIn (kept : List String) (fields fields' : List (List Nat × Json)) : Prop :=
  ∃ front back name, ∃ old new : Option Json, name ∉ kept.map Text.codePoints
    ∧ fields = front ++ old.toList.map (name, ·) ++ back
    ∧ fields' = front ++ new.toList.map (name, ·) ++ back

/-- The fields in front matter only where those behind do not have the name. -/
theorem field?_append (front back : List (List Nat × Json)) (name : List Nat) :
    field? (front ++ back) name = (field? back name).or (field? front name) := by
  have hfold : ∀ (fields : List (List Nat × Json)) (found : Option Json),
      fields.foldl (fun found field => if field.1 = name then some field.2 else found) found
        = (field? fields name).or found := by
    intro fields
    induction fields with
    | nil => exact fun found => rfl
    | cons field rest ih =>
        intro found
        rw [field?, List.foldl_cons, List.foldl_cons, ih, ih (if field.1 = name then _ else none)]
        split <;> cases field? rest name <;> rfl
  rw [field?, List.foldl_append, hfold back]
  rfl

theorem field?_map_of_ne {name other : List Nat} (h : other ≠ name) (value : Option Json) :
    field? (value.toList.map (other, ·)) name = none := by
  cases value with
  | none => rfl
  | some v => exact if_neg h

theorem DifferIn.field?_eq {kept : List String} {fields fields' : List (List Nat × Json)}
    (h : DifferIn kept fields fields') {name : String} (hname : name ∈ kept) :
    field? fields (Text.codePoints name) = field? fields' (Text.codePoints name) := by
  obtain ⟨front, back, other, old, new, hother, rfl, rfl⟩ := h
  have hne : other ≠ Text.codePoints name := by
    rintro rfl
    exact hother (List.mem_map_of_mem hname)
  simp only [field?_append, field?_map_of_ne hne]

end Json

/-! ## The fields of a saved key -/

namespace SavedKey

variable {primitive : KeyPrimitive} {value other : Json} {c : Candidate}

/-- One change to a saved key that leaves its two keys alone: a field beside the data, or a field of the
data other than the keys, gets another value, is added or is taken away. -/
inductive Edit : Json → Json → Prop
  | beside {all all' : List (List Nat × Json)} (h : Json.DifferIn ["data"] all all') :
      Edit (.obj all) (.obj all')
  | within {front back inner inner' : List (List Nat × Json)}
      (h : Json.DifferIn ["PrivateKey", "PublicKey"] inner inner') :
      Edit (.obj (front ++ (Text.codePoints "data", .obj inner) :: back))
        (.obj (front ++ (Text.codePoints "data", .obj inner') :: back))

/-- Two saved keys say the same of the two keys: to ask for a key gives the same value in both, or the
same fault. -/
def SameKeys (value other : Json) : Prop :=
  ∃ data data', dataOf value = .ok data ∧ dataOf other = .ok data'
    ∧ fieldOf data "PrivateKey" = fieldOf data' "PrivateKey"
    ∧ fieldOf data "PublicKey" = fieldOf data' "PublicKey"

/-- A field of the data that is a text. -/
def keyText? (data : Json) (name : String) : Option (List Nat) :=
  (fieldOf data name).toOption.bind fun key => (textOf key).toOption

/-- The texts of the two keys of a saved key, the private one first. -/
def keyTexts? (value : Json) : Option (List Nat × List Nat) := do
  let data ← (dataOf value).toOption
  return (← keyText? data "PrivateKey", ← keyText? data "PublicKey")

/-- What a saved key and its candidate have to do with each other. The private key of the file is the
seed of the candidate, alone or with the public key behind it, the keys are those of the seed, the public
key of the file is the same once more, and the rest of the candidate is computed. -/
def Attested (primitive : KeyPrimitive) (value : Json) (c : Candidate) : Prop :=
  ∃ secret claimed bytes, keyTexts? value = some (secret, claimed)
    ∧ Hex.decode secret = .ok bytes
    ∧ (bytes = c.keys.seed ∨ bytes = c.keys.seed ++ c.keys.publicKey)
    ∧ c.keys.seed.length = 32 ∧ KeyPair.derive primitive c.keys.seed = .ok c.keys
    ∧ Hex.decode claimed = .ok c.keys.publicKey
    ∧ Candidate.ofKeys c.keys = .ok c

theorem keyText?_eq_some_iff {data : Json} {name : String} {text : List Nat} :
    keyText? data name = some text ↔ fieldOf data name = .ok (.str text) := by
  unfold keyText?
  cases fieldOf data name with
  | error e => simp [Except.toOption]
  | ok key => cases key <;> simp [Except.toOption, textOf]

theorem keyTexts?_eq_some_iff {secret claimed : List Nat} :
    keyTexts? value = some (secret, claimed) ↔ ∃ data, dataOf value = .ok data
      ∧ fieldOf data "PrivateKey" = .ok (.str secret)
      ∧ fieldOf data "PublicKey" = .ok (.str claimed) := by
  unfold keyTexts?
  cases dataOf value with
  | error e => simp [Except.toOption]
  | ok data => simp [Except.toOption, Option.bind_eq_some_iff, keyText?_eq_some_iff]

theorem Vouches.attested (h : Vouches primitive value c) : Attested primitive value c := by
  obtain ⟨all, inner, secret, claimed, rfl, hdata, hsecret, hclaimed, hkeys, hown, hmade⟩ := h
  obtain ⟨bytes, hbytes, hseed, hderive, hspelled⟩ := KeyPair.ofSecret_eq_ok_iff.mp hkeys
  have hwhole : dataOf (.obj all) = .ok (.obj inner) := by
    rw [dataOf, hdata]
    rfl
  have htexts : keyTexts? (.obj all) = some (secret, claimed) :=
    keyTexts?_eq_some_iff.mpr ⟨.obj inner, hwhole, by rw [fieldOf, hsecret], by rw [fieldOf, hclaimed]⟩
  exact ⟨secret, claimed, bytes, htexts, hbytes, hspelled.imp_right And.right, hseed, hderive, hown,
    hmade⟩

/-- Saved keys whose keys are the same texts say the same of them. -/
theorem sameKeys_of_keyTexts? {texts : List Nat × List Nat} (h : keyTexts? value = some texts)
    (h' : keyTexts? other = some texts) : SameKeys value other := by
  obtain ⟨secret, claimed⟩ := texts
  obtain ⟨data, hdata, hsecret, hclaimed⟩ := keyTexts?_eq_some_iff.mp h
  obtain ⟨data', hdata', hsecret', hclaimed'⟩ := keyTexts?_eq_some_iff.mp h'
  exact ⟨data, data', hdata, hdata', hsecret.trans hsecret'.symm, hclaimed.trans hclaimed'.symm⟩

/-- Nothing but the two keys is asked for. -/
theorem SameKeys.ofJson_eq (h : SameKeys value other) :
    ofJson primitive value = ofJson primitive other := by
  obtain ⟨data, data', hdata, hdata', hprivate, hpublic⟩ := h
  have hkeys : keysOf primitive data = keysOf primitive data' := by
    rw [keysOf, keysOf, hprivate]
  have hclaimed : publicKeyOf data = publicKeyOf data' := by
    rw [publicKeyOf, publicKeyOf, hpublic]
  simp only [ofJson, hdata, hdata', bind, Except.bind, hkeys, hclaimed]

/-- A change of data inside an object: either it is the data that counts, or it makes no difference. -/
theorem dataOf_insert (front back inner : List (List Nat × Json)) :
    dataOf (.obj (front ++ (Text.codePoints "data", .obj inner) :: back))
      = .ok ((Json.field? back (Text.codePoints "data")).getD (.obj inner)) := by
  have hhere : Json.field? ((Text.codePoints "data", .obj inner) :: back) (Text.codePoints "data")
      = (Json.field? back (Text.codePoints "data")).or (some (.obj inner)) :=
    Json.field?_append [(Text.codePoints "data", .obj inner)] back _
  rw [dataOf, Json.field?_append, hhere]
  cases Json.field? back (Text.codePoints "data") <;> rfl

theorem Edit.sameKeys (h : Edit value other) : SameKeys value other := by
  cases h with
  | beside h =>
      refine ⟨_, _, rfl, rfl, ?_, ?_⟩ <;> rw [h.field?_eq (List.mem_singleton_self "data")]
  | @within front back inner inner' h =>
      have hfield : ∀ name ∈ ["PrivateKey", "PublicKey"],
          fieldOf ((Json.field? back (Text.codePoints "data")).getD (.obj inner)) name
            = fieldOf ((Json.field? back (Text.codePoints "data")).getD (.obj inner')) name := by
        intro name hname
        cases Json.field? back (Text.codePoints "data") with
        | some data => rfl
        | none => simp only [Option.getD_none, fieldOf, h.field?_eq hname]
      exact ⟨_, _, dataOf_insert front back inner, dataOf_insert front back inner',
        hfield _ (by decide), hfield _ (by decide)⟩

/-- However often a saved key is edited, it gives what it gave. -/
theorem ofJson_eq_of_edits (h : Relation.ReflTransGen Edit value other) :
    ofJson primitive value = ofJson primitive other := by
  induction h with
  | refl => rfl
  | tail _ hedit ih => exact ih.trans hedit.sameKeys.ofJson_eq

/-! ## The file -/

variable {f g : Files} {place : List Nat} {path path' : Path} {bytes bytes' : List UInt8}

/-- Two files that read as saved keys with the same answer are loaded alike, records included. -/
theorem load_eq_of_ofJson_eq (hfile : f.locate place = some (path, .file bytes))
    (hread : Reads bytes (.ok value)) (hfile' : g.locate place = some (path', .file bytes'))
    (hread' : Reads bytes' (.ok other)) (h : ofJson primitive value = ofJson primitive other) :
    load primitive g place = load primitive f place := by
  rw [load_eq_of_file hfile, load_eq_of_file hfile', hread.ofBytes_eq, hread'.ofBytes_eq, h]

/-- **A saved key is trusted for its keys alone.** Whatever is in the file, a candidate that is loaded
from it is attested by the two keys of the file. And whatever loading the file answers, another file
whose two keys are the same is answered alike, however its other fields are changed. -/
theorem load_trusts_keys_only (primitive : KeyPrimitive)
    (hfile : f.locate place = some (path, .file bytes)) :
    (∀ c log, load primitive f place = .ok (some c, log) →
        ∃ value, Reads bytes (.ok value) ∧ Attested primitive value c)
      ∧ ∀ value, Reads bytes (.ok value) → ∀ g path' bytes' other,
          g.locate place = some (path', .file bytes') → Reads bytes' (.ok other) →
            SameKeys value other ∨ Relation.ReflTransGen Edit value other →
              load primitive g place = load primitive f place := by
  refine ⟨fun c log h => ?_, fun value hread g path' bytes' other hfile' hread' hsame => ?_⟩
  · rcases load_cases primitive hfile with ⟨e, -, -, heq⟩ | ⟨value, w, -, -, heq⟩
      | ⟨value, c', hread, hvouches, heq⟩ | ⟨message, heq⟩ <;> cases heq.symm.trans h
    exact ⟨value, hread, hvouches.attested⟩
  · refine load_eq_of_ofJson_eq hfile hread hfile' hread' ?_
    rcases hsame with hkeys | hedits
    · exact hkeys.ofJson_eq
    · exact ofJson_eq_of_edits hedits

theorem eq_ok_of_toOption {ε α : Type} {result : Except ε α} {a : α} (h : result.toOption = some a) :
    result = .ok a := by
  cases result with
  | error e => cases h
  | ok b => exact congrArg Except.ok (Option.some.inj h)

theorem locate_keyFile (content : String) :
    (keyFile content).locate "k.json" = some (keyPath, .file content.toUTF8.toList) := by
  have hfault : Files.placeFault? "k.json" = none := by decide +kernel
  have hnames : Files.names "k.json" = [Text.codePoints "k.json"] := by decide +kernel
  have horigin : (keyFile content).origin "k.json" = [Text.codePoints "w"] := by
    rw [Files.origin, if_neg (by decide +kernel)]
    rfl
  rw [Files.locate, hfault, hnames, horigin, if_neg (by decide +kernel)]
  rfl

/-- A text without a carriage return reads as its JSON. -/
theorem reads_ofList {text : List Char} {result : Except Json.ReadError Json} (hplain : '\r' ∉ text)
    (h : Json.read (text.map Char.toNat) = result) :
    Reads (String.ofList text).toUTF8.toList result := by
  refine ⟨text, ?_, ?_⟩
  · rw [Utf8.decode_toUTF8, String.toList_ofList]
  · rw [Text.unifyLineEnds_of_not_mem hplain]
    exact h

/-- The public key of the seed zero. -/
def zeroPublicKey : List UInt8 := Ed25519.publicKey (List.replicate 32 0)

/-- A file with the two keys of the seed zero, the private one as a seed, the public one in upper case,
with more fields in the data and more beside it. -/
def zeroKeyText (more beside : String) : List Char :=
  "\x7b\"data\": \x7b\"PrivateKey\": \"".toList ++ List.replicate 64 '0' ++ "\", \"PublicKey\": \" ".toList
    ++ (Hex.encodeChars zeroPublicKey).map Char.toUpper ++ "\"".toList ++ more.toList ++ "\x7d".toList
    ++ beside.toList ++ "\x7d".toList

/-- The file of a key is loaded as its candidate, and so it is with an address of another key and a list
in the place of the time. -/
theorem load_trusts_keys_only_zeroKey :
    ∃ c : Candidate, KeyPair.derive .ed25519 (List.replicate 32 0) = .ok c.keys
      ∧ ∀ text ∈ [zeroKeyText "" "", zeroKeyText ", \"Address\": \"200::1\"" ", \"timestamp\": []"],
        load .ed25519 (keyFile (String.ofList text)) "k.json" = .ok (some c, []) := by
  have htexts : ∀ text ∈ [zeroKeyText "" "",
      zeroKeyText ", \"Address\": \"200::1\"" ", \"timestamp\": []"], '\r' ∉ text
        ∧ (Json.read (text.map Char.toNat)).toOption.map (fun value => (keyTexts? value,
            (ofJson .ed25519 value).toOption.map Candidate.keys))
          = some (some (List.replicate 64 0x30,
              (' ' :: (Hex.encodeChars zeroPublicKey).map Char.toUpper).map Char.toNat),
            some ⟨List.replicate 32 0, zeroPublicKey⟩) := by
    decide +kernel
  obtain ⟨hplain, hvalue⟩ := htexts _ List.mem_cons_self
  obtain ⟨value, hvalue, hfound⟩ := Option.map_eq_some_iff.mp hvalue
  obtain ⟨hkeys, hmade⟩ := Prod.mk.inj hfound
  obtain ⟨c, hmade, hpair⟩ := Option.map_eq_some_iff.mp hmade
  have hread := reads_ofList hplain (eq_ok_of_toOption hvalue)
  have hload : load .ed25519 (keyFile (String.ofList (zeroKeyText "" ""))) "k.json"
      = .ok (some c, []) := by
    rw [load_eq_of_file (locate_keyFile _), hread.ofBytes_eq, eq_ok_of_toOption hmade]
  obtain ⟨hattested, hsame⟩ := load_trusts_keys_only .ed25519 (locate_keyFile _)
  obtain ⟨_, -, _, _, _, -, -, -, -, hderive, -⟩ := hattested c [] hload
  rw [hpair] at hderive
  refine ⟨c, hpair ▸ hderive, fun text htext => ?_⟩
  obtain ⟨hplain', hvalue'⟩ := htexts text htext
  obtain ⟨other, hvalue', hfound'⟩ := Option.map_eq_some_iff.mp hvalue'
  have hread' := reads_ofList hplain' (eq_ok_of_toOption hvalue')
  rw [← hload]
  exact hsame value hread _ _ _ other (locate_keyFile _) hread'
    (.inl (sameKeys_of_keyTexts? hkeys (Prod.mk.inj hfound').1))

end SavedKey

end KeySearch
