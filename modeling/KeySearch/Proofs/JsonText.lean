import KeySearch.SavedKey

/-!
# JSON is read as it is written

`Json.Spells` says of a text that it is read as a value wherever it stands in a longer text, as long
as nothing follows it that would go on with a number. Strings without escapes spell themselves, the
digits of a number spell the number, and an object spells its fields if every field spells its value.
From these `Json.read` gives back what `SavedKey.jsonObject` has put into a text.
-/

set_option autoImplicit false

namespace KeySearch

theorem Text.codePoints_append (s t : String) :
    Text.codePoints (s ++ t) = Text.codePoints s ++ Text.codePoints t := by
  rw [codePoints, String.toList_append, List.map_append]
  rfl

namespace Json

variable {depth : Nat} {text codes : List Nat} {value : Json}

/-! ## Texts that spell a value -/

/-- A text that a number does not go on with. -/
def Ends (rest : List Nat) : Prop :=
  ∀ c ∈ rest.head?, isDigit c = false ∧ c ≠ 0x2e ∧ c ≠ 0x65 ∧ c ≠ 0x45

/-- A text that is read as a value, whatever follows it but the rest of a number. A reader needs no
more fuel than the text is long. -/
structure Spells (depth : Nat) (text : List Nat) (value : Json) : Prop where
  visible : ∃ c rest, text = c :: rest ∧ isSpace c = false
  reads : ∀ fuel rest, text.length ≤ fuel → Ends rest →
    readValue depth fuel (text ++ rest) = .ok (value, rest)

theorem Spells.skip_append (h : Spells depth text value) (rest : List Nat) :
    skip (text ++ rest) = text ++ rest := by
  obtain ⟨c, more, rfl, hvisible⟩ := h.visible
  rw [skip, List.cons_append, List.dropWhile_cons, hvisible, if_neg Bool.false_ne_true]

/-- A text that holds nothing but a value is read as that value. -/
theorem Spells.read (h : Spells maxDepth text value) (hmark : text.head? ≠ some 0xfeff) :
    read text = .ok value := by
  have hskip := h.skip_append []
  have hreads := h.reads (2 * text.length + 2) [] (by omega) (by simp [Ends])
  rw [List.append_nil] at hskip hreads
  rw [Json.read, if_neg hmark, hskip, hreads]
  rfl

/-! ## Strings -/

/-- A text that needs no escape in a string. -/
def Plain (codes : List Nat) : Prop := ∀ c ∈ codes, 0x1f < c ∧ c ≠ 0x22 ∧ c ≠ 0x5c

instance (codes : List Nat) : Decidable (Plain codes) :=
  inferInstanceAs (Decidable (∀ c ∈ codes, 0x1f < c ∧ c ≠ 0x22 ∧ c ≠ 0x5c))

/-- A text between quotes. -/
def quoted (codes : List Nat) : List Nat := 0x22 :: (codes ++ [0x22])

theorem readString_plain (h : Plain codes) {fuel : Nat} (hfuel : codes.length < fuel)
    (opening rest : List Nat) :
    readString opening fuel (codes ++ 0x22 :: rest) = .ok (codes, rest) := by
  induction codes generalizing fuel with
  | nil =>
      obtain ⟨fuel, rfl⟩ := Nat.exists_eq_succ_of_ne_zero (Nat.ne_of_gt hfuel)
      rfl
  | cons c codes ih =>
      obtain ⟨fuel, rfl⟩ := Nat.exists_eq_succ_of_ne_zero (Nat.ne_zero_of_lt hfuel)
      obtain ⟨hcontrol, hquote, hescape⟩ := h c List.mem_cons_self
      have hrest := ih (fun d hd => h d (List.mem_cons_of_mem c hd)) (Nat.lt_of_succ_lt_succ hfuel)
      rw [readString.eq_def]
      dsimp only [List.cons_append]
      rw [if_neg hquote, if_neg hescape, if_neg (Nat.not_le.mpr hcontrol), hrest]

theorem spells_string (h : Plain codes) : Spells depth (quoted codes) (.str codes) := by
  refine ⟨⟨0x22, _, rfl, rfl⟩, fun fuel rest hfuel _ => ?_⟩
  obtain ⟨fuel, rfl⟩ := Nat.exists_eq_succ_of_ne_zero (Nat.ne_zero_of_lt hfuel)
  have hshape : quoted codes ++ rest = 0x22 :: (codes ++ 0x22 :: rest) := by
    simp [quoted]
  have hlong : codes.length < (codes ++ 0x22 :: rest).length + 1 := by
    rw [List.length_append]
    omega
  have hstring := readString_plain h hlong (0x22 :: (codes ++ 0x22 :: rest)) rest
  rw [hshape, readValue.eq_def]
  dsimp only
  rw [if_pos rfl, hstring]

/-! ## Numbers -/

theorem toNat_digitChar : ∀ d < 10, (Nat.digitChar d).toNat = 0x30 + d := by decide

theorem isDigit_add {d : Nat} (h : d < 10) : isDigit (0x30 + d) = true := by
  simp only [isDigit, Bool.and_eq_true, decide_eq_true_eq]
  omega

theorem ofDigits_concat (digits : List Nat) (d : Nat) :
    Literal.ofDigits (digits ++ [d]) = Literal.ofDigits digits * 10 + d := by
  rw [Literal.ofDigits, List.foldl_append]
  rfl

/-- The digits of a number do not begin with a zero, unless there is no other one, and they have the
value of the number. -/
theorem numeral (n : Nat) : ∃ first more, (Nat.toDigits 10 n).map Char.toNat = first :: more
    ∧ (∀ c ∈ first :: more, isDigit c = true) ∧ (first = 0x30 → more = [])
    ∧ Literal.ofDigits ((first :: more).map (· - 0x30)) = n := by
  induction n using Nat.strongRecOn with
  | _ n ih =>
      rcases Nat.lt_or_ge n 10 with hlt | hge
      · refine ⟨0x30 + n, [], ?_, ?_, fun _ => rfl, ?_⟩
        · rw [Nat.toDigits_of_lt_base hlt, List.map_singleton, toNat_digitChar n hlt]
        · rintro c hc
          rw [List.mem_singleton.mp hc]
          exact isDigit_add hlt
        · simp [Literal.ofDigits]
      · have hlast : n % 10 < 10 := Nat.mod_lt n (by decide)
        obtain ⟨first, more, hdigits, hall, hzero, hvalue⟩ := ih (n / 10) (by omega)
        refine ⟨first, more ++ [0x30 + n % 10], ?_, ?_, ?_, ?_⟩
        · rw [Nat.toDigits_of_base_le (by decide) hge, List.map_append, hdigits, List.map_singleton,
            toNat_digitChar _ hlast, List.cons_append]
        · intro c hc
          rw [← List.cons_append, List.mem_append, List.mem_singleton] at hc
          rcases hc with hfront | rfl
          · exact hall c hfront
          · exact isDigit_add hlast
        · -- a number below ten has been left out, so no zero stands in front
          intro hfirst
          rw [hzero hfirst, hfirst] at hvalue
          have : n / 10 = 0 := hvalue.symm
          omega
        · rw [← List.cons_append, List.map_append, List.map_singleton, ofDigits_concat, hvalue,
            Nat.add_sub_cancel_left]
          omega

theorem not_isDigit_words : ∀ entry ∈ wordValues,
    ((Text.codePoints entry.1).head?.any fun c => !isDigit c) = true := by
  decide

/-- No word begins with a digit. -/
theorem readAtom_of_digit {c : Nat} (h : isDigit c = true) (rest : List Nat) :
    readAtom (c :: rest) = readNumber (c :: rest) := by
  rw [readAtom, List.findSome?_eq_none_iff.mpr]
  intro entry hentry
  have hword := not_isDigit_words entry hentry
  cases hcodes : Text.codePoints entry.1 with
  | nil => simp [hcodes] at hword
  | cons d word =>
      have hne : d ≠ c := by
        rintro rfl
        simp [hcodes, h] at hword
      simp [dropWord?, hcodes, hne]

theorem readWhole_numeral {first : Nat} {more rest : List Nat}
    (hall : ∀ c ∈ first :: more, isDigit c = true) (hzero : first = 0x30 → more = [])
    (hrest : Ends rest) : readWhole (first :: more ++ rest) = (first :: more, rest) := by
  have hstop : rest.takeWhile isDigit = [] ∧ rest.dropWhile isDigit = rest := by
    cases rest with
    | nil => exact ⟨rfl, rfl⟩
    | cons c rest => simp [(hrest c rfl).1]
  rw [List.cons_append, readWhole]
  by_cases hfirst : first = 0x30
  · rw [if_pos hfirst, hzero hfirst, List.nil_append]
  · rw [if_neg hfirst, ← List.cons_append, List.takeWhile_append_of_pos hall,
      List.dropWhile_append_of_pos hall, hstop.1, hstop.2, List.append_nil]

theorem readFraction_of_ends {rest : List Nat} (h : Ends rest) : readFraction rest = (false, rest) := by
  cases rest with
  | nil => rfl
  | cons c rest =>
      have hpoint := (h c rfl).2.1
      simp [readFraction, hpoint]

theorem readExponent_of_ends {rest : List Nat} (h : Ends rest) : readExponent rest = (false, rest) := by
  cases rest with
  | nil => rfl
  | cons c rest =>
      obtain ⟨-, -, hsmall, hcapital⟩ := h c rfl
      simp [readExponent, hsmall, hcapital]

theorem spells_number {n : Nat} (h : (Nat.toDigits 10 n).length ≤ Literal.maxDigits) :
    Spells depth (Text.codePoints (toString n)) (.int n) := by
  obtain ⟨first, more, hcodes, hall, hzero, hvalue⟩ := numeral n
  have htext : Text.codePoints (toString n) = first :: more := by
    rw [← hcodes, Text.codePoints, Nat.toString_eq_ofList_toDigits, String.toList_ofList]
  have hlength : (first :: more).length ≤ Literal.maxDigits := by
    rw [← hcodes, List.length_map]
    exact h
  have hfirst := hall first List.mem_cons_self
  have hbounds : 0x30 ≤ first ∧ first ≤ 0x39 := by simpa [isDigit] using hfirst
  rw [htext]
  refine ⟨⟨first, more, rfl, ?_⟩, fun fuel rest hfuel hrest => ?_⟩
  · simp only [isSpace, Bool.or_eq_false_iff, beq_eq_false_iff_ne]
    omega
  · obtain ⟨fuel, rfl⟩ := Nat.exists_eq_succ_of_ne_zero (Nat.ne_zero_of_lt hfuel)
    have hminus : readMinus (first :: more ++ rest) = (false, first :: more ++ rest) := by
      have : first ≠ 0x2d := by omega
      simp [readMinus, this]
    -- the digits are all of the number: neither a fraction nor an exponent follows them
    have hnumber : readNumber (first :: more ++ rest) = .ok (.int n, rest) := by
      rw [readNumber, hminus]
      dsimp only
      rw [readWhole_numeral hall hzero hrest]
      dsimp only
      rw [readFraction_of_ends hrest]
      dsimp only
      rw [readExponent_of_ends hrest, List.isEmpty_cons, if_neg Bool.false_ne_true, Bool.or_false,
        if_neg Bool.false_ne_true, if_neg (Nat.not_lt.mpr hlength), hvalue]
      rfl
    rw [List.cons_append, readValue.eq_def]
    dsimp only
    rw [if_neg (by omega), if_neg (by omega), if_neg (by omega), readAtom_of_digit hfirst]
    exact hnumber

/-! ## Objects -/

/-- Fields as they are written, each a name and a text, and as they are read. -/
inductive SpellsFields (depth : Nat) : List (String × String) → List (List Nat × Json) → Prop
  | nil : SpellsFields depth [] []
  | cons {name text : String} {value : Json} {all : List (String × String)}
      {fields : List (List Nat × Json)} (hname : Plain (Text.codePoints name))
      (hvalue : Spells depth (Text.codePoints text) value) (hrest : SpellsFields depth all fields) :
      SpellsFields depth ((name, text) :: all) ((Text.codePoints name, value) :: fields)

theorem skip_spaces {front : List Nat} (h : ∀ c ∈ front, isSpace c = true) (rest : List Nat) :
    skip (front ++ rest) = skip rest :=
  List.dropWhile_append_of_pos h

theorem ends_cons {c : Nat} (hc : c = 0x0a ∨ c = 0x2c) (rest : List Nat) : Ends (c :: rest) := by
  rintro _ ⟨⟩
  rcases hc with rfl | rfl <;> decide

theorem readFields_quote (depth fuel : Nat) (rest : List Nat) :
    readFields depth (fuel + 1) (0x22 :: rest) =
      match readString (0x22 :: rest) (rest.length + 1) rest with
      | .error e => .error e
      | .ok (name, rest) =>
        match skip rest with
        | 0x3a :: rest =>
          match readValue depth fuel (skip rest) with
          | .error e => .error e
          | .ok (value, rest) =>
            match skip rest with
            | 0x7d :: rest => .ok ([(name, value)], rest)
            | 0x2c :: rest =>
              match readFields depth fuel (skip rest) with
              | .error e => .error e
              | .ok (fields, rest) => .ok ((name, value) :: fields, rest)
            | rest => .error ⟨.expectedComma, rest⟩
        | rest => .error ⟨.expectedColon, rest⟩ :=
  readFields.eq_def ..

/-- Reads one field; what comes behind its value decides how it goes on. -/
theorem readFields_field {name : List Nat} {fuel : Nat} (hname : Plain name)
    (hvalue : Spells depth text value) (hfuel : text.length ≤ fuel) {tail : List Nat}
    (hends : Ends tail) :
    readFields depth (fuel + 1) (quoted name ++ 0x3a :: 0x20 :: (text ++ tail)) =
      match skip tail with
      | 0x7d :: rest => .ok ([(name, value)], rest)
      | 0x2c :: rest =>
        match readFields depth fuel (skip rest) with
        | .error e => .error e
        | .ok (fields, rest) => .ok ((name, value) :: fields, rest)
      | rest => .error ⟨.expectedComma, rest⟩ := by
  have hshape : quoted name ++ 0x3a :: 0x20 :: (text ++ tail)
      = 0x22 :: (name ++ 0x22 :: 0x3a :: 0x20 :: (text ++ tail)) := by
    simp [quoted]
  have hlong : name.length < (name ++ 0x22 :: 0x3a :: 0x20 :: (text ++ tail)).length + 1 := by
    rw [List.length_append]
    omega
  have hstring := readString_plain hname hlong
    (0x22 :: (name ++ 0x22 :: 0x3a :: 0x20 :: (text ++ tail))) (0x3a :: 0x20 :: (text ++ tail))
  have hcolon : skip (0x3a :: 0x20 :: (text ++ tail)) = 0x3a :: 0x20 :: (text ++ tail) := rfl
  have hspace : skip (0x20 :: (text ++ tail)) = text ++ tail := hvalue.skip_append tail
  rw [hshape, readFields_quote, hstring]
  simp only [hcolon, hspace, hvalue.reads fuel tail hfuel hends]

/-- One line of an object. -/
def fieldCodes (indent name text : String) : List Nat :=
  Text.codePoints indent ++ (quoted (Text.codePoints name) ++ 0x3a :: 0x20 :: Text.codePoints text)

theorem codePoints_jsonString (text : String) :
    Text.codePoints (SavedKey.jsonString text) = quoted (Text.codePoints text) := by
  rw [SavedKey.jsonString, Text.codePoints_append, Text.codePoints_append]
  rfl

theorem codePoints_line (indent name text : String) :
    Text.codePoints (indent ++ SavedKey.jsonString name ++ ": " ++ text)
      = fieldCodes indent name text := by
  rw [Text.codePoints_append, Text.codePoints_append, Text.codePoints_append, codePoints_jsonString]
  simp [fieldCodes, Text.codePoints]

theorem fieldLines_singleton (indent name text : String) :
    Text.codePoints (SavedKey.fieldLines indent [(name, text)]) = fieldCodes indent name text := by
  rw [SavedKey.fieldLines, List.map_singleton, String.intercalate_singleton, codePoints_line]

theorem fieldLines_cons_cons (indent name text : String) (next : String × String)
    (all : List (String × String)) :
    Text.codePoints (SavedKey.fieldLines indent ((name, text) :: next :: all))
      = fieldCodes indent name text
        ++ 0x2c :: 0x0a :: Text.codePoints (SavedKey.fieldLines indent (next :: all)) := by
  rw [SavedKey.fieldLines, List.map_cons, List.map_cons, String.intercalate_cons_cons,
    Text.codePoints_append, Text.codePoints_append, codePoints_line, List.append_assoc]
  rfl

theorem skip_fieldCodes {indent : String} (hindent : ∀ c ∈ Text.codePoints indent, isSpace c = true)
    (name text : String) (tail : List Nat) :
    skip (fieldCodes indent name text ++ tail)
      = quoted (Text.codePoints name) ++ 0x3a :: 0x20 :: (Text.codePoints text ++ tail) := by
  rw [fieldCodes, List.append_assoc, skip_spaces hindent]
  simp [quoted, skip, isSpace]

theorem readFields_fieldLines {all : List (String × String)} {fields : List (List Nat × Json)}
    (h : SpellsFields depth all fields) (hne : all ≠ []) {indent : String}
    (hindent : ∀ c ∈ Text.codePoints indent, isSpace c = true) {gap : List Nat}
    (hgap : ∀ c ∈ gap, isSpace c = true) (rest : List Nat) {fuel : Nat}
    (hfuel : (Text.codePoints (SavedKey.fieldLines indent all)).length ≤ fuel) :
    readFields depth fuel (skip (Text.codePoints (SavedKey.fieldLines indent all)
      ++ 0x0a :: (gap ++ 0x7d :: rest))) = .ok (fields, rest) := by
  induction h generalizing fuel with
  | nil => exact absurd rfl hne
  | @cons name text value all fields hname hvalue hrest ih =>
      -- the last field is followed by the brace, any other one by a comma
      cases hrest with
      | nil =>
          rw [fieldLines_singleton] at hfuel ⊢
          have hlength : (Text.codePoints text).length < fuel := by
            simp only [fieldCodes, quoted, List.length_append, List.length_cons] at hfuel
            omega
          obtain ⟨fuel, rfl⟩ := Nat.exists_eq_succ_of_ne_zero (Nat.ne_zero_of_lt hlength)
          have hclose : skip (0x0a :: (gap ++ 0x7d :: rest)) = 0x7d :: rest :=
            (skip_spaces hgap _).trans rfl
          rw [skip_fieldCodes hindent, Nat.succ_eq_add_one, readFields_field hname hvalue
            (Nat.le_of_lt_succ hlength) (ends_cons (.inl rfl) _), hclose]
          rfl
      | @cons name' text' value' all' fields' hname' hvalue' hrest' =>
          rw [fieldLines_cons_cons] at hfuel ⊢
          have hlength : (Text.codePoints text).length < fuel
              ∧ (Text.codePoints (SavedKey.fieldLines indent ((name', text') :: all'))).length
                < fuel := by
            simp only [fieldCodes, quoted, List.length_append, List.length_cons] at hfuel
            omega
          obtain ⟨fuel, rfl⟩ := Nat.exists_eq_succ_of_ne_zero (Nat.ne_zero_of_lt hlength.1)
          have hothers := ih (List.cons_ne_nil _ _) (Nat.le_of_lt_succ hlength.2)
          have hcomma : ∀ more : List Nat, skip (0x2c :: more) = 0x2c :: more := fun _ => rfl
          have hline : ∀ more : List Nat, skip (0x0a :: more) = skip more := fun _ => rfl
          rw [List.append_assoc, skip_fieldCodes hindent, Nat.succ_eq_add_one, List.cons_append,
            List.cons_append,
            readFields_field hname hvalue (Nat.le_of_lt_succ hlength.1) (ends_cons (.inr rfl) _)]
          simp only [hcomma, hline, hothers]

/-- An object that has fields is read field by field. -/
theorem readValue_brace {rest more : List Nat} (h : skip rest = 0x22 :: more) (depth fuel : Nat) :
    readValue (depth + 1) (fuel + 1) (0x7b :: rest) =
      match readFields depth fuel (0x22 :: more) with
      | .error e => .error e
      | .ok (fields, rest) => .ok (.obj fields, rest) := by
  rw [readValue.eq_def]
  dsimp only
  rw [if_neg (by decide), if_pos rfl, h]
  rfl

/-- The lines of an object begin with the quote of a name. -/
theorem skip_fieldLines {all : List (String × String)} (hne : all ≠ []) {indent : String}
    (hindent : ∀ c ∈ Text.codePoints indent, isSpace c = true) (tail : List Nat) :
    ∃ rest, skip (Text.codePoints (SavedKey.fieldLines indent all) ++ tail) = 0x22 :: rest := by
  obtain ⟨⟨name, text⟩, others, rfl⟩ := List.exists_cons_of_ne_nil hne
  cases others with
  | nil =>
      rw [fieldLines_singleton, skip_fieldCodes hindent]
      exact ⟨_, rfl⟩
  | cons next others =>
      rw [fieldLines_cons_cons, List.append_assoc, skip_fieldCodes hindent]
      exact ⟨_, rfl⟩

theorem codePoints_jsonObject (indent : String) (all : List (String × String)) :
    Text.codePoints (SavedKey.jsonObject indent all)
      = 0x7b :: 0x0a :: (Text.codePoints (SavedKey.fieldLines (indent ++ "  ") all)
        ++ 0x0a :: (Text.codePoints indent ++ [0x7d])) := by
  rw [SavedKey.jsonObject, Text.codePoints_append, Text.codePoints_append, Text.codePoints_append,
    Text.codePoints_append]
  simp [Text.codePoints]

/-- **An object is read as it was written.** -/
theorem spells_object {all : List (String × String)} {fields : List (List Nat × Json)}
    (h : SpellsFields depth all fields) (hne : all ≠ []) {indent : String}
    (hindent : ∀ c ∈ Text.codePoints indent, isSpace c = true) :
    Spells (depth + 1) (Text.codePoints (SavedKey.jsonObject indent all)) (.obj fields) := by
  have hdeeper : ∀ c ∈ Text.codePoints (indent ++ "  "), isSpace c = true := by
    intro c hc
    rw [Text.codePoints_append, List.mem_append] at hc
    rcases hc with hfront | hback
    · exact hindent c hfront
    · have hspaces : ∀ c ∈ Text.codePoints "  ", isSpace c = true := by decide
      exact hspaces c hback
  rw [codePoints_jsonObject]
  refine ⟨⟨0x7b, _, rfl, rfl⟩, fun fuel rest hfuel _ => ?_⟩
  obtain ⟨fuel, rfl⟩ := Nat.exists_eq_succ_of_ne_zero (Nat.ne_zero_of_lt hfuel)
  have hline : ∀ more : List Nat, skip (0x0a :: more) = skip more := fun _ => rfl
  obtain ⟨more, hquote⟩ :=
    skip_fieldLines hne hdeeper (0x0a :: (Text.codePoints indent ++ 0x7d :: rest))
  have hlines : (Text.codePoints (SavedKey.fieldLines (indent ++ "  ") all)).length ≤ fuel := by
    simp only [List.length_cons, List.length_append] at hfuel
    omega
  have hfields := readFields_fieldLines h hne hdeeper hindent rest hlines
  rw [hquote] at hfields
  rw [← hline] at hquote
  rw [Nat.succ_eq_add_one, List.cons_append, List.cons_append, List.append_assoc, List.cons_append,
    List.append_assoc, List.singleton_append, readValue_brace hquote, hfields]

/-! ## Line ends -/

/-- An object has no carriage return if its fields have none. -/
theorem not_mem_jsonObject {all : List (String × String)}
    (hnames : ∀ name ∈ all.map Prod.fst, 0x0d ∉ Text.codePoints name)
    (htexts : ∀ text ∈ all.map Prod.snd, 0x0d ∉ Text.codePoints text) {indent : String}
    (hindent : 0x0d ∉ Text.codePoints indent) :
    0x0d ∉ Text.codePoints (SavedKey.jsonObject indent all) := by
  have hdeeper : 0x0d ∉ Text.codePoints (indent ++ "  ") := by
    rw [Text.codePoints_append, List.mem_append, not_or]
    exact ⟨hindent, by decide⟩
  have hlines : 0x0d ∉ Text.codePoints (SavedKey.fieldLines (indent ++ "  ") all) := by
    induction all with
    | nil =>
        rw [SavedKey.fieldLines, List.map_nil, String.intercalate_nil]
        exact List.not_mem_nil
    | cons field rest ih =>
        rw [List.map_cons, List.forall_mem_cons] at hnames htexts
        have hfield : 0x0d ∉ fieldCodes (indent ++ "  ") field.1 field.2 := by
          simp [fieldCodes, quoted, hdeeper, hnames.1, htexts.1]
        have hrest := ih hnames.2 htexts.2
        cases rest with
        | nil =>
            rw [fieldLines_singleton]
            exact hfield
        | cons next rest =>
            rw [fieldLines_cons_cons, List.mem_append, not_or]
            exact ⟨hfield, by simpa using hrest⟩
  rw [codePoints_jsonObject]
  simp [hlines, hindent]

end Json

end KeySearch
