import KeySearch.Proofs.CandidateScores
import KeySearch.Proofs.FilePlaces
import KeySearch.Proofs.JsonText
import KeySearch.Proofs.SecretTexts

/-!
# A saved key is loaded as it was saved

`SavedKey.save` writes a candidate into a directory and `SavedKey.load` makes the candidate again from
what the file says of its keys. Both go through several encodings: the keys are written in hexadecimal,
into strings of a JSON object, into a file that the text of its path names. Each of them is undone by
its reader, so the candidate comes back whole.
-/

set_option autoImplicit false

namespace KeySearch

/-! ## The fields of an object -/

namespace Json

theorem foldl_field?_of_not_mem {fields : List (List Nat × Json)} {name : List Nat}
    (h : name ∉ fields.map Prod.fst) (found : Option Json) :
    fields.foldl (fun found field => if field.1 = name then some field.2 else found) found
      = found := by
  induction fields generalizing found with
  | nil => rfl
  | cons field rest ih =>
      have hfield : field.1 ≠ name := fun heq => h (by simp [heq])
      rw [List.foldl_cons, if_neg hfield]
      exact ih (fun hmem => h (List.mem_cons_of_mem _ hmem)) found

/-- An object whose names are all different has each of its fields. -/
theorem field?_of_mem {fields : List (List Nat × Json)} (hnames : (fields.map Prod.fst).Nodup)
    {name : List Nat} {value : Json} (h : (name, value) ∈ fields) :
    field? fields name = some value := by
  obtain ⟨front, back, rfl⟩ := List.append_of_mem h
  rw [List.map_append, List.map_cons, List.nodup_append, List.nodup_cons] at hnames
  rw [field?, List.foldl_append, List.foldl_cons, if_pos rfl]
  exact foldl_field?_of_not_mem hnames.2.1.1 _

end Json

/-! ## What is written of a candidate -/

namespace SavedKey

/-- A character that a JSON string holds without an escape. -/
def plainChar (c : Char) : Bool := 0x1f < c.toNat && c.toNat != 0x22 && c.toNat != 0x5c

theorem plain_codePoints {text : String} (h : text.toList.all plainChar = true) :
    Json.Plain (Text.codePoints text) := by
  intro code hcode
  obtain ⟨c, hc, rfl⟩ := List.mem_map.mp hcode
  simpa [plainChar, and_assoc] using List.all_eq_true.mp h c hc

theorem plainChar_digitChar : ∀ d < 16, plainChar (Nat.digitChar d) = true := by decide

theorem all_plain_encodeChars (bytes : List UInt8) : (Hex.encodeChars bytes).all plainChar = true := by
  rw [List.all_eq_true]
  intro c hc
  obtain ⟨n, hn, rfl⟩ := Hex.exists_hexDigit hc
  exact plainChar_digitChar n hn

theorem plain_hex (bytes : List UInt8) : Json.Plain (Text.codePoints (Hex.encode bytes)) :=
  plain_codePoints (by rw [Hex.encode, String.toList_ofList, all_plain_encodeChars])

theorem all_plain_toDigits {base : Nat} (hbase : 1 < base) (hle : base ≤ 16) (n : Nat) :
    (Nat.toDigits base n).all plainChar = true := by
  induction n using Nat.strongRecOn with
  | _ n ih =>
      rcases Nat.lt_or_ge n base with hlt | hge
      · simp [Nat.toDigits_of_lt_base hlt, plainChar_digitChar n (by omega)]
      · have hlast : n % base < base := Nat.mod_lt n (by omega)
        have hfront := ih (n / base) (Nat.div_lt_self (by omega) hbase)
        rw [Nat.toDigits_of_base_le hbase hge, List.all_append, hfront]
        simp [plainChar_digitChar (n % base) (by omega)]

theorem all_intercalate {sep : List Char} {parts : List (List Char)}
    (hsep : sep.all plainChar = true) (hparts : ∀ part ∈ parts, part.all plainChar = true) :
    (List.intercalate sep parts).all plainChar = true := by
  induction parts with
  | nil => rfl
  | cons part rest ih =>
      have hrest := ih fun other hother => hparts other (List.mem_cons_of_mem part hother)
      cases rest with
      | nil => simpa using hparts part List.mem_cons_self
      | cons next rest =>
          rw [List.intercalate_cons_cons, List.all_append, List.all_append, hsep, hrest,
            hparts part List.mem_cons_self]
          rfl

theorem plain_address (a : Address) : Json.Plain (Text.codePoints a.text) := by
  refine plain_codePoints ?_
  rw [Address.text, String.toList_intercalate]
  refine all_intercalate (by decide) fun part hpart => ?_
  rw [List.map_map] at hpart
  obtain ⟨group, -, rfl⟩ := List.mem_map.mp hpart
  rw [Function.comp_apply, String.toList_ofList]
  exact all_plain_toDigits (by decide) (by decide) group

theorem all_plain_lastDigits (width n : Nat) : (Decimal.lastDigits width n).all plainChar = true := by
  induction width generalizing n with
  | zero => rfl
  | succ width ih =>
      have hlast : n % 10 < 10 := Nat.mod_lt n (by decide)
      rw [Decimal.lastDigits, List.all_append, ih]
      simp [plainChar_digitChar (n % 10) (by omega)]

theorem plain_timestamp (t : Timestamp) : Json.Plain (Text.codePoints t.text) := by
  have hmark : ∀ c ∈ ['-', 'T', ':', '.'], plainChar c = true := List.all_eq_true.mp (by decide)
  refine plain_codePoints ?_
  rw [Timestamp.text, String.toList_ofList, Timestamp.chars]
  simp only [List.all_append, all_plain_lastDigits, List.all_cons, List.all_nil, Bool.and_true,
    Bool.true_and, hmark '-' (by decide), hmark 'T' (by decide), hmark ':' (by decide)]
  split
  · rfl
  · rw [List.all_cons, all_plain_lastDigits, hmark '.' (by decide)]
    rfl

/-! ## The text of the file -/

/-- The data of a candidate as it is read. -/
def dataFields (c : Candidate) : List (List Nat × Json) :=
  [(Text.codePoints "PublicKey", .str (Text.codePoints c.keys.publicHex)),
   (Text.codePoints "PrivateKey", .str (Text.codePoints c.keys.secretHex)),
   (Text.codePoints "Seed", .str (Text.codePoints c.keys.seedHex)),
   (Text.codePoints "Address", .str (Text.codePoints c.address.text)),
   (Text.codePoints "LeadingZeroBits", .int c.zeroBits),
   (Text.codePoints "ZeroBlocks", .int c.zeroBlocks)]

/-- The whole file of a candidate as it is read. -/
def savedValue (time : Timestamp) (c : Candidate) : Json :=
  .obj [(Text.codePoints "timestamp", .str (Text.codePoints time.text)),
    (Text.codePoints "data", .obj (dataFields c))]

theorem spells_jsonString {depth : Nat} {text : String} (h : Json.Plain (Text.codePoints text)) :
    Json.Spells depth (Text.codePoints (jsonString text)) (.str (Text.codePoints text)) := by
  rw [Json.codePoints_jsonString]
  exact Json.spells_string h

theorem spells_fields {depth : Nat} {c : Candidate}
    (hbits : (Nat.toDigits 10 c.zeroBits).length ≤ Literal.maxDigits)
    (hblocks : (Nat.toDigits 10 c.zeroBlocks).length ≤ Literal.maxDigits) :
    Json.SpellsFields depth (fields c) (dataFields c) :=
  .cons (by decide) (spells_jsonString (plain_hex _)) <|
  .cons (by decide) (spells_jsonString (plain_hex _)) <|
  .cons (by decide) (spells_jsonString (plain_hex _)) <|
  .cons (by decide) (spells_jsonString (plain_address _)) <|
  .cons (by decide) (Json.spells_number hbits) <|
  .cons (by decide) (Json.spells_number hblocks) .nil

theorem read_render {c : Candidate}
    (hbits : (Nat.toDigits 10 c.zeroBits).length ≤ Literal.maxDigits)
    (hblocks : (Nat.toDigits 10 c.zeroBlocks).length ≤ Literal.maxDigits) (time : Timestamp) :
    Json.read (Text.codePoints (render time c)) = .ok (savedValue time c) := by
  -- the data stands inside of the whole object, so it is read with one level less
  have hdata : Json.Spells 987 (Text.codePoints (jsonObject "  " (fields c))) (.obj (dataFields c)) :=
    Json.spells_object (spells_fields hbits hblocks) (List.cons_ne_nil _ _) (by decide)
  have hwhole : Json.Spells 988 (Text.codePoints (render time c)) (savedValue time c) :=
    Json.spells_object
      (.cons (by decide) (spells_jsonString (plain_timestamp time)) (.cons (by decide) hdata .nil))
      (List.cons_ne_nil _ _) (by decide)
  refine hwhole.read ?_
  rw [render, Json.codePoints_jsonObject]
  simp

theorem not_mem_of_plain {codes : List Nat} (h : Json.Plain codes) : 0x0d ∉ codes :=
  fun hmem => absurd (h _ hmem).1 (by decide)

theorem not_mem_jsonString {text : String} (h : Json.Plain (Text.codePoints text)) :
    0x0d ∉ Text.codePoints (jsonString text) := by
  rw [Json.codePoints_jsonString]
  simp [Json.quoted, not_mem_of_plain h]

theorem plain_toString (n : Nat) : Json.Plain (Text.codePoints (toString n)) := by
  refine plain_codePoints ?_
  rw [Nat.toString_eq_ofList_toDigits, String.toList_ofList]
  exact all_plain_toDigits (by decide) (by decide) n

theorem not_mem_data (c : Candidate) :
    0x0d ∉ Text.codePoints (jsonObject "  " (fields c)) := by
  have hnames : ∀ name ∈ (fields c).map Prod.fst, 0x0d ∉ Text.codePoints name := by
    show ∀ name ∈ ["PublicKey", "PrivateKey", "Seed", "Address", "LeadingZeroBits", "ZeroBlocks"], _
    decide
  refine Json.not_mem_jsonObject hnames (fun text htext => ?_) (by decide)
  simp only [fields, List.map_cons, List.map_nil, List.mem_cons, List.not_mem_nil, or_false] at htext
  rcases htext with rfl | rfl | rfl | rfl | rfl | rfl
  · exact not_mem_jsonString (plain_hex _)
  · exact not_mem_jsonString (plain_hex _)
  · exact not_mem_jsonString (plain_hex _)
  · exact not_mem_jsonString (plain_address _)
  · exact not_mem_of_plain (plain_toString _)
  · exact not_mem_of_plain (plain_toString _)

theorem not_mem_toList {text : String} (h : 0x0d ∉ Text.codePoints text) : '\r' ∉ text.toList :=
  fun hmem => h (List.mem_map_of_mem hmem)

/-- The text of the file has no carriage return. -/
theorem not_mem_render (time : Timestamp) (c : Candidate) : '\r' ∉ (render time c).toList := by
  refine not_mem_toList (Json.not_mem_jsonObject ?_ (fun text htext => ?_) (by decide))
  · show ∀ name ∈ ["timestamp", "data"], _
    decide
  simp only [List.map_cons, List.map_nil, List.mem_cons, List.not_mem_nil, or_false] at htext
  rcases htext with rfl | rfl
  · exact not_mem_jsonString (plain_timestamp time)
  · exact not_mem_data c

/-- Reading the file of a candidate gives its fields. -/
theorem ofBytes_render (primitive : KeyPrimitive) {c : Candidate}
    (hbits : (Nat.toDigits 10 c.zeroBits).length ≤ Literal.maxDigits)
    (hblocks : (Nat.toDigits 10 c.zeroBlocks).length ≤ Literal.maxDigits) (time : Timestamp) :
    ofBytes primitive (render time c).toUTF8.toList = ofJson primitive (savedValue time c) := by
  have hread := read_render hbits hblocks time
  unfold Text.codePoints at hread
  rw [ofBytes, Utf8.decode_toUTF8]
  dsimp only
  rw [Text.unifyLineEnds_of_not_mem (not_mem_render time c), hread]

/-! ## The candidate of the fields -/

theorem fieldOf_dataFields (c : Candidate) {name : String} {value : Json}
    (h : (Text.codePoints name, value) ∈ dataFields c) :
    fieldOf (.obj (dataFields c)) name = .ok value := by
  have hnames : ((dataFields c).map Prod.fst).Nodup := by
    show [Text.codePoints "PublicKey", Text.codePoints "PrivateKey", Text.codePoints "Seed",
      Text.codePoints "Address", Text.codePoints "LeadingZeroBits",
      Text.codePoints "ZeroBlocks"].Nodup
    decide
  rw [fieldOf, Json.field?_of_mem hnames h]

theorem dataOf_savedValue (time : Timestamp) (c : Candidate) :
    dataOf (savedValue time c) = .ok (.obj (dataFields c)) := by
  have hdata : Json.field? [(Text.codePoints "timestamp", .str (Text.codePoints time.text)),
      (Text.codePoints "data", .obj (dataFields c))] (Text.codePoints "data")
        = some (.obj (dataFields c)) := by
    refine Json.field?_of_mem ?_ (by simp)
    show [Text.codePoints "timestamp", Text.codePoints "data"].Nodup
    decide
  rw [savedValue, dataOf, hdata]
  rfl

/-- The fields of a candidate give it back. -/
theorem ofJson_savedValue {primitive : KeyPrimitive} {c : Candidate}
    (hseed : c.keys.seed.length = 32) (hpublic : c.keys.publicKey.length = 32)
    (hkey : primitive c.keys.seed = .ok c.keys.publicKey) (hmade : Candidate.ofKeys c.keys = .ok c)
    (time : Timestamp) : ofJson primitive (savedValue time c) = .ok c := by
  have hkeys : keysOf primitive (.obj (dataFields c)) = .ok c.keys := by
    have hfield : fieldOf (.obj (dataFields c)) "PrivateKey"
        = .ok (.str (Text.codePoints c.keys.secretHex)) :=
      fieldOf_dataFields c (by simp [dataFields])
    simp only [keysOf, hfield, textOf, KeyPair.ofSecret_secretHex hseed hpublic hkey, bind, Except.bind]
  have hclaimed : publicKeyOf (.obj (dataFields c)) = .ok c.keys.publicKey := by
    have hfield : fieldOf (.obj (dataFields c)) "PublicKey"
        = .ok (.str (Text.codePoints c.keys.publicHex)) :=
      fieldOf_dataFields c (by simp [dataFields])
    simp only [publicKeyOf, hfield, textOf, KeyPair.publicHex, Hex.decode_encode, bind, Except.bind]
  simp only [ofJson, dataOf_savedValue, hkeys, hclaimed, hmade, bind, Except.bind, ne_eq,
    not_true_eq_false, if_false]

/-! ## The file in its directory -/

theorem not_slash_hexDigit : ∀ n < 16, (Text.hexDigit n).toNat ≠ 0x2f := by decide

theorem fileName_eq (c : Candidate) : fileName c
    = Text.codePoints "ygg_" ++ ((Hex.encodeChars c.keys.publicKey).take 8).map Char.toNat
      ++ Text.codePoints ".json" := by
  simp only [fileName, Text.codePoints, String.toList_append, String.toList_ofList, List.map_append]

theorem isName_fileName (c : Candidate) : Files.IsName (fileName c) := by
  -- its first letter tells the name apart from those that are special in a path
  have hhead : (fileName c).head? = some 0x79 := by
    rw [fileName_eq]
    rfl
  have hne : ∀ other : List Nat, other.head? ≠ some 0x79 → fileName c ≠ other := by
    rintro _ hother rfl
    exact hother hhead
  refine ⟨hne [] (by decide), hne Files.dot (by decide), hne Files.dots (by decide), ?_⟩
  rw [fileName_eq]
  simp only [List.mem_append, not_or]
  refine ⟨⟨by decide, fun hmem => ?_⟩, by decide⟩
  obtain ⟨digit, hmem, hslash⟩ := List.mem_map.mp hmem
  obtain ⟨n, hn, rfl⟩ := Hex.exists_hexDigit (List.mem_of_mem_take hmem)
  exact not_slash_hexDigit n hn hslash

/-- A directory in which a candidate can be saved: it can be made, the text of the file's path is not
too long, and neither a directory nor a device has the name of the file. The working directory has a
path of names. -/
structure Usable (f : Files) (dir : Option (List Nat)) (c : Candidate) : Prop where
  here : ∀ part ∈ f.here, Files.IsName part
  fits : Files.placeFault? (file f dir c).text = none
  free : ∃ made, f.makeDirectory (directory f dir) = .ok made
    ∧ ∀ node, made.node? (file f dir c).path = some node → ∃ old, node = .file old

theorem isName_directory {f : Files} (hhere : ∀ part ∈ f.here, Files.IsName part)
    (dir : Option (List Nat)) : ∀ part ∈ (directory f dir).path, Files.IsName part := by
  cases dir with
  | none => exact hhere
  | some text =>
      rw [directory]
      split
      · exact hhere
      · exact Files.isName_resolve hhere text

theorem isName_file {f : Files} (hhere : ∀ part ∈ f.here, Files.IsName part) (dir : Option (List Nat))
    (c : Candidate) : ∀ part ∈ (file f dir c).path, Files.IsName part := by
  intro part hpart
  rcases List.mem_append.mp hpart with hdir | hname
  · exact isName_directory hhere dir part hdir
  · rw [List.mem_singleton.mp hname]
    exact isName_fileName c

theorem file_path (f : Files) (dir : Option (List Nat)) (c : Candidate) :
    (file f dir c).path = (directory f dir).path ++ [fileName c] := rfl

/-- The file of a candidate leads on from its directory, not to it. -/
theorem not_prefix_directory (home : Path) (name : List Nat) : ¬ home ++ [name] <+: home := by
  intro h
  have hle := h.length_le
  rw [List.length_append, List.length_singleton] at hle
  omega

/-- What is there after a candidate was saved: its directory, its file, and all that was there before;
nothing is new but directories that lead to the file. -/
structure Saved (f : Files) (dir : Option (List Nat)) (time : Timestamp) (c : Candidate) (saved : Files) :
    Prop where
  here : saved.here = f.here
  leads : ∀ k ≤ (directory f dir).path.length,
    saved.node? ((directory f dir).path.take k) = some .directory
  file : saved.node? (file f dir c).path = some (.file (render time c).toUTF8.toList)
  others : ∀ path ≠ (SavedKey.file f dir c).path, saved.node? path = f.node? path
    ∨ f.node? path = none ∧ saved.node? path = some .directory ∧ path <+: (directory f dir).path

theorem Usable.exists_saved {f : Files} {dir : Option (List Nat)} {c : Candidate} (h : Usable f dir c)
    (time : Timestamp) :
    ∃ saved, save f dir time c = .ok saved ∧ Saved f dir time c saved := by
  obtain ⟨made, hmade, hfree⟩ := h.free
  obtain ⟨hwithin, hdirs⟩ := Files.makeDirectory_eq_ok hmade
  obtain ⟨hwrite, hfile⟩ := Files.write_eq_ok h.fits hfree (render time c).toUTF8.toList
  refine ⟨made.put (file f dir c).path (.file (render time c).toUTF8.toList), ?_, hwithin.here,
    fun k hk => ?_, hfile, fun path hpath => ?_⟩
  · rw [save, hmade]
    exact hwrite
  · have hshort : (directory f dir).path.take k ≠ (file f dir c).path := by
      intro heq
      refine not_prefix_directory (directory f dir).path (fileName c) ?_
      rw [← file_path, ← heq]
      exact List.take_prefix k _
    rw [Files.node?_put_of_ne _ hshort]
    exact hdirs k hk
  · rw [Files.node?_put_of_ne _ hpath]
    exact Files.makeDirectory_changes hmade path

/-- Where a candidate was saved, and not to a device, the directory was usable. -/
theorem usable_of_save {f saved : Files} {dir : Option (List Nat)} {time : Timestamp} {c : Candidate}
    (hhere : ∀ part ∈ f.here, Files.IsName part) (hsave : save f dir time c = .ok saved)
    (hdevice : ∀ bytes, saved.node? (file f dir c).path ≠ some (.device bytes)) : Usable f dir c := by
  unfold save at hsave
  cases hmade : f.makeDirectory (directory f dir) with
  | error e =>
      rw [hmade] at hsave
      cases hsave
  | ok made =>
      rw [hmade] at hsave
      obtain ⟨hfits, hnodes⟩ := Files.of_write_eq_ok hsave
      refine ⟨hhere, hfits, made, hmade, fun node hnode => ?_⟩
      rcases hnodes node hnode with hfile | ⟨rfl, bytes, rfl⟩
      · exact hfile
      · exact absurd hnode (hdevice bytes)

/-- What stands where the file of a candidate is to be is found by the text of that place. -/
theorem Usable.locate_file {f g : Files} {dir : Option (List Nat)} {c : Candidate} {node : FileNode}
    (h : Usable f dir c) (hleads : ∀ k ≤ (directory f dir).path.length,
      g.node? ((directory f dir).path.take k) = some .directory)
    (hnode : g.node? (file f dir c).path = some node) :
    g.locate (file f dir c).text = some ((file f dir c).path, node) := by
  refine Files.locate_text ?_ (isName_file h.here dir c) (fun k hk => ?_) h.fits hnode
  · rw [file_path]
    exact List.append_ne_nil_of_right_ne_nil _ (List.cons_ne_nil _ _)
  · -- the paths that lead to the file are those that lead to its directory
    rw [file_path, List.length_append, List.length_singleton] at hk
    rw [file_path, List.take_append_of_le_length (Nat.le_of_lt_succ hk)]
    exact hleads k (Nat.le_of_lt_succ hk)

/-- A candidate can be saved in a usable directory, and its file is found there. -/
theorem save_eq_ok {f : Files} {dir : Option (List Nat)} {c : Candidate} (h : Usable f dir c)
    (time : Timestamp) :
    ∃ saved, save f dir time c = .ok saved
      ∧ saved.locate (file f dir c).text
        = some ((file f dir c).path, .file (render time c).toUTF8.toList) := by
  obtain ⟨saved, hsave, hsaved⟩ := h.exists_saved time
  exact ⟨saved, hsave, h.locate_file hsaved.leads hsaved.file⟩

/-- The scores of a candidate are short numbers. -/
theorem length_scores_le {c : Candidate} (hmade : Candidate.ofKeys c.keys = .ok c) :
    (Nat.toDigits 10 c.zeroBits).length ≤ Literal.maxDigits
      ∧ (Nat.toDigits 10 c.zeroBlocks).length ≤ Literal.maxDigits := by
  have hshort : ∀ n < 128, (Nat.toDigits 10 n).length ≤ Literal.maxDigits := by decide
  obtain ⟨-, haddress, hbits, hblocks⟩ := Candidate.ofKeys_eq_ok_iff.mp hmade
  constructor
  · rw [hbits, Bytes.leadingZeroBits_eq_zeroRun]
    have hle := (Address.exists_ofPublicKey_iff.mp ⟨_, haddress⟩).2
    exact hshort _ (by omega)
  · rw [hblocks]
    have hle := c.address.zeroBlocks_le
    exact hshort _ (by omega)

/-- The file of a candidate that belongs to its seed is loaded as the candidate. -/
theorem load_eq_ok {primitive : KeyPrimitive} {c : Candidate} (hseed : c.keys.seed.length = 32)
    (hkey : primitive c.keys.seed = .ok c.keys.publicKey) (hmade : Candidate.ofKeys c.keys = .ok c)
    {f : Files} {place : List Nat} {path : Path} {time : Timestamp}
    (hfile : f.locate place = some (path, .file (render time c).toUTF8.toList)) :
    load primitive f place = .ok (some c, []) := by
  have haddress := (Candidate.ofKeys_eq_ok_iff.mp hmade).2.1
  have hpublic := (Address.exists_ofPublicKey_iff.mp ⟨_, haddress⟩).1
  obtain ⟨hbits, hblocks⟩ := length_scores_le hmade
  have hread : ofBytes primitive (render time c).toUTF8.toList = .ok c :=
    (ofBytes_render primitive hbits hblocks time).trans (ofJson_savedValue hseed hpublic hkey hmade time)
  rw [load, hfile]
  dsimp only [Option.map_some, FileNode.content?]
  rw [hread]

/-- **A saved key is loaded as it was saved.** Let a seed of 32 bytes have a public key of 32 bytes
with at most 127 zero bits in front. Then it has a candidate, and wherever and whenever that is saved,
loading the file that was written gives the same candidate back, with all its fields. -/
theorem load_save {primitive : KeyPrimitive} {seed publicKey : List UInt8}
    (hseed : seed.length = 32) (hkey : primitive seed = .ok publicKey)
    (hpublic : publicKey.length = 32) (hzeros : zeroRun (Bytes.bits publicKey) ≤ 127) :
    ∃ c, Candidate.ofSeed primitive seed = .ok c ∧ c.keys = ⟨seed, publicKey⟩
      ∧ ∀ f dir, Usable f dir c → ∀ time, ∃ saved, save f dir time c = .ok saved
        ∧ load primitive saved (file f dir c).text = .ok (some c, []) := by
  obtain ⟨address, haddress⟩ := Address.exists_ofPublicKey_iff.mpr ⟨hpublic, hzeros⟩
  have hmade : Candidate.ofKeys ⟨seed, publicKey⟩ = .ok ⟨⟨seed, publicKey⟩, address,
      Bytes.leadingZeroBits publicKey, address.zeroBlocks⟩ :=
    Candidate.ofKeys_eq_ok_iff.mpr ⟨rfl, haddress, rfl, rfl⟩
  refine ⟨_, Candidate.ofSeed_eq_ok_iff.mpr ⟨publicKey, hkey, hmade⟩, rfl,
    fun f dir husable time => ?_⟩
  obtain ⟨saved, hsave, hfile⟩ := save_eq_ok husable time
  exact ⟨saved, hsave, load_eq_ok hseed hkey hmade hfile⟩

/-- Files of which nothing is known but the working directory. -/
def homeFiles : Files := ⟨["home", "user"], []⟩

/-- The key of the seed zero is saved in a directory that is not there yet, at noon. -/
theorem load_save_zeroSeed :
    ∃ c saved, Candidate.ofSeed .ed25519 (List.replicate 32 0) = .ok c
      ∧ save homeFiles (some "out/../keys") ⟨2026, 7, 31, 12, 0, 0, 0⟩ c = .ok saved
      ∧ load .ed25519 saved "/home/user/keys/ygg_3b6a27bc.json" = .ok (some c, []) := by
  obtain ⟨c, hc, hkeys, hload⟩ := @load_save .ed25519 (List.replicate 32 0)
    (Ed25519.publicKey (List.replicate 32 0)) (by decide) (by decide +kernel) (by decide +kernel)
    (by decide +kernel)
  have hfile : file homeFiles (some "out/../keys") c
      = ⟨["home", "user", "keys", "ygg_3b6a27bc.json"], false⟩ := by
    rw [file, fileName, hkeys]
    decide +kernel
  have hname : ∀ part ∈ homeFiles.here, Files.IsName part := by decide
  obtain ⟨made, hmade, hnew⟩ : ∃ made,
      homeFiles.makeDirectory (directory homeFiles (some "out/../keys")) = .ok made
        ∧ made.node? ["home", "user", "keys", "ygg_3b6a27bc.json"] = none :=
    ⟨⟨["home", "user"], [(["home", "user", "keys"], .directory)]⟩, by decide +kernel,
      by decide +kernel⟩
  have husable : Usable homeFiles (some "out/../keys") c := by
    refine ⟨hname, ?_, made, hmade, ?_⟩
    · rw [hfile]
      decide +kernel
    · intro node hnode
      rw [hfile, hnew] at hnode
      cases hnode
  obtain ⟨saved, hsave, hloaded⟩ := hload homeFiles _ husable ⟨2026, 7, 31, 12, 0, 0, 0⟩
  rw [hfile] at hloaded
  exact ⟨c, saved, hc, hsave, hloaded⟩

end SavedKey

end KeySearch
