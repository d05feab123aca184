import KeySearch.Ini.Expansion
import Mathlib.Tactic.Basic

/-!
# What the raw value of an option stands for

`Expands` is the grammar of raw values: characters that stand for themselves, doubled percent signs, and
references to options whose own raw values stand for texts. `Document.get?` finds a text exactly if the
grammar gives one (`get?_eq_some_iff`), and its only fault is that there is none
(`exists_get?_eq_error_iff`).
-/

set_option autoImplicit false

namespace KeySearch.Ini

/-- A raw value stands for a text, with references at most so many levels deep. What has no percent sign
stands for itself, at every level. -/
inductive Expands (value? : String → Option String) : Nat → List Char → List Char → Prop
  | plain {levels : Nat} {raw : List Char} (h : '%' ∉ raw) : Expands value? levels raw raw
  | char {levels : Nat} {c : Char} {rest text : List Char} (hc : c ≠ '%')
      (h : Expands value? (levels + 1) rest text) : Expands value? (levels + 1) (c :: rest) (c :: text)
  | percent {levels : Nat} {rest text : List Char} (h : Expands value? (levels + 1) rest text) :
      Expands value? (levels + 1) ('%' :: '%' :: rest) ('%' :: text)
  | reference {levels : Nat} {key rest inner text : List Char} {raw : String} (hkey : key ≠ [])
      (hclosed : ')' ∉ key) (hraw : value? (Text.lowercaseString (String.ofList key)) = some raw)
      (hinner : Expands value? levels raw.toList inner) (h : Expands value? (levels + 1) rest text) :
      Expands value? (levels + 1) ('%' :: '(' :: (key ++ ')' :: 's' :: rest)) (inner ++ text)

variable {value? : String → Option String} {levels : Nat} {c : Char} {rest raw out : List Char}

/-! ## The name of a reference -/

theorem takeReference?_eq_some_iff {text key rest : List Char} :
    takeReference? text = some (key, rest) ↔
      key ≠ [] ∧ ')' ∉ key ∧ text = key ++ ')' :: 's' :: rest := by
  constructor
  · intro h
    have hsplit := List.takeWhile_append_dropWhile (p := (· != ')')) (l := text)
    have hfree : ')' ∉ text.takeWhile (· != ')') := fun hmem => by
      simpa using List.all_eq_true.mp (List.all_takeWhile (p := (· != ')'))) _ hmem
    unfold takeReference? at h
    split at h
    · next c more rest' htake hdrop =>
      cases h
      rw [htake] at hfree
      rw [htake, hdrop] at hsplit
      exact ⟨List.cons_ne_nil _ _, hfree, hsplit.symm⟩
    · cases h
  · rintro ⟨hkey, hclosed, rfl⟩
    have hall : ∀ c ∈ key, (c != ')') = true := by
      intro c hc
      simp only [bne_iff_ne, ne_eq]
      rintro rfl
      exact hclosed hc
    obtain ⟨c, more, rfl⟩ := List.exists_cons_of_ne_nil hkey
    rw [takeReference?, List.takeWhile_append_of_pos hall, List.dropWhile_append_of_pos hall]
    simp

/-! ## The grammar, read from the front of a raw value -/

theorem expands_nil_iff : Expands value? levels [] out ↔ out = [] := by
  constructor
  · intro h
    cases h
    rfl
  · rintro rfl
    exact .plain List.not_mem_nil

theorem expands_zero_iff : Expands value? 0 raw out ↔ '%' ∉ raw ∧ out = raw := by
  constructor
  · intro h
    cases h with
    | plain h => exact ⟨h, rfl⟩
  · rintro ⟨h, rfl⟩
    exact .plain h

theorem expands_char_iff (hc : c ≠ '%') : Expands value? (levels + 1) (c :: rest) out ↔
    ∃ text, out = c :: text ∧ Expands value? (levels + 1) rest text := by
  constructor
  · intro h
    cases h with
    | plain h => exact ⟨rest, rfl, .plain fun hmem => h (List.mem_cons_of_mem c hmem)⟩
    | char _ h => exact ⟨_, rfl, h⟩
    | percent h => exact absurd rfl hc
    | reference => exact absurd rfl hc
  · rintro ⟨text, rfl, h⟩
    exact .char hc h

theorem expands_percent_iff : Expands value? (levels + 1) ('%' :: '%' :: rest) out ↔
    ∃ text, out = '%' :: text ∧ Expands value? (levels + 1) rest text := by
  constructor
  · intro h
    cases h with
    | plain h => exact absurd List.mem_cons_self h
    | char hc => exact absurd rfl hc
    | percent h => exact ⟨_, rfl, h⟩
  · rintro ⟨text, rfl, h⟩
    exact .percent h

theorem expands_reference_iff : Expands value? (levels + 1) ('%' :: '(' :: rest) out ↔
    ∃ key more raw inner text, takeReference? rest = some (key, more)
      ∧ value? (Text.lowercaseString (String.ofList key)) = some raw
      ∧ Expands value? levels raw.toList inner ∧ Expands value? (levels + 1) more text
      ∧ out = inner ++ text := by
  constructor
  · intro h
    cases h with
    | plain h => exact absurd List.mem_cons_self h
    | char hc => exact absurd rfl hc
    | reference hkey hclosed hraw hinner h =>
        exact ⟨_, _, _, _, _, takeReference?_eq_some_iff.mpr ⟨hkey, hclosed, rfl⟩, hraw, hinner, h, rfl⟩
  · rintro ⟨key, more, raw, inner, text, htake, hraw, hinner, h, rfl⟩
    obtain ⟨hkey, hclosed, rfl⟩ := takeReference?_eq_some_iff.mp htake
    exact .reference hkey hclosed hraw hinner h

/-- A percent sign does not stand alone, nor before a character of any other kind. -/
theorem not_expands_stray (hdouble : ∀ more, rest ≠ '%' :: more) (hopen : ∀ more, rest ≠ '(' :: more) :
    ¬ Expands value? (levels + 1) ('%' :: rest) out := by
  intro h
  cases h with
  | plain h => exact h List.mem_cons_self
  | char hc => exact hc rfl
  | percent => exact hdouble _ rfl
  | reference => exact hopen _ rfl

/-! ## The pieces of a raw value -/

theorem expandPieces_plain_iff {expand : List Char → Except ExpansionFault (List Char)}
    {more : List Piece} : expandPieces expand value? (.plain c :: more) = .ok out ↔
      ∃ text, out = c :: text ∧ expandPieces expand value? more = .ok text := by
  rw [expandPieces]
  cases expandPieces expand value? more <;> simp [eq_comm]

theorem expandPieces_reference_iff {expand : List Char → Except ExpansionFault (List Char)}
    {key : String} {more : List Piece} :
    expandPieces expand value? (.reference key :: more) = .ok out ↔
      ∃ raw, value? key = some raw ∧ ∃ inner text,
        (if raw.toList.contains '%' then expand raw.toList else .ok raw.toList) = .ok inner
          ∧ expandPieces expand value? more = .ok text ∧ out = inner ++ text := by
  rw [expandPieces]
  cases value? key with
  | none => simp
  | some raw =>
      simp only [Option.some.injEq, exists_eq_left']
      cases if raw.toList.contains '%' then expand raw.toList else .ok raw.toList with
      | error f => simp
      | ok inner => cases expandPieces expand value? more <;> simp [eq_comm]

/-- The pieces of a raw value are put together to the text that it stands for, if the values that it
refers to are expanded as the grammar says. -/
theorem expandPieces_pieces_iff {expand : List Char → Except ExpansionFault (List Char)}
    (hvalue : ∀ (raw : String) (inner : List Char),
      (if raw.toList.contains '%' then expand raw.toList else .ok raw.toList) = .ok inner ↔
        Expands value? levels raw.toList inner)
    (fuel : Nat) (raw : List Char) (hfuel : raw.length ≤ fuel) (out : List Char) :
    expandPieces expand value? (pieces fuel raw) = .ok out ↔ Expands value? (levels + 1) raw out := by
  fun_induction pieces fuel raw generalizing out with
  | case1 raw =>
      rw [List.length_eq_zero_iff.mp (Nat.le_zero.mp hfuel), expands_nil_iff, expandPieces]
      simp [eq_comm]
  | case2 fuel =>
      rw [expands_nil_iff, expandPieces]
      simp [eq_comm]
  | case3 fuel rest ih =>
      rw [expands_percent_iff, expandPieces_plain_iff]
      simp only [List.length_cons] at hfuel
      exact exists_congr fun text => and_congr_right' (ih (by omega) text)
  | case4 fuel rest key more htake ih =>
      -- what follows the reference is shorter than what begins with it
      have hmore : more.length ≤ fuel := by
        have hrest := congrArg List.length (takeReference?_eq_some_iff.mp htake).2.2
        simp only [List.length_append, List.length_cons] at hrest hfuel
        omega
      rw [expands_reference_iff, expandPieces_reference_iff]
      simp only [htake, hvalue, ih hmore]
      grind
  | case5 fuel rest htake =>
      rw [expands_reference_iff, expandPieces]
      simp [htake]
  | case6 fuel rest hdouble hopen =>
      rw [expandPieces]
      exact iff_of_false (by simp) (not_expands_stray hdouble hopen)
  | case7 fuel c rest _ _ hc ih =>
      rw [expands_char_iff hc, expandPieces_plain_iff]
      exact exists_congr fun text => and_congr_right' (ih (by simpa using hfuel) text)

/-- A raw value without a percent sign stands for itself alone. -/
theorem expands_of_not_mem (h : '%' ∉ raw) : Expands value? levels raw out ↔ out = raw := by
  constructor
  · intro hexpands
    induction hexpands with
    | plain => rfl
    | char hc _ ih => rw [ih fun hmem => h (List.mem_cons_of_mem _ hmem)]
    | percent => exact absurd List.mem_cons_self h
    | reference => exact absurd List.mem_cons_self h
  · rintro rfl
    exact .plain h

/-- Only a value with a percent sign needs to be expanded. -/
theorem expandIfNeeded_iff {expand : List Char → Except ExpansionFault (List Char)}
    (hexpand : ∀ raw inner : List Char, '%' ∈ raw →
      (expand raw = .ok inner ↔ Expands value? levels raw inner)) (raw inner : List Char) :
    (if raw.contains '%' then expand raw else .ok raw) = .ok inner ↔
      Expands value? levels raw inner := by
  by_cases hmem : '%' ∈ raw
  · rw [if_pos (List.contains_iff_mem.mpr hmem)]
    exact hexpand raw inner hmem
  · rw [if_neg (mt List.contains_iff_mem.mp hmem), expands_of_not_mem hmem]
    simp [eq_comm]

/-- **Expanding follows the grammar.** A raw value is expanded to a text exactly if it stands for it. -/
theorem expandWithin_eq_ok_iff :
    expandWithin value? (levels + 1) raw = .ok out ↔ Expands value? (levels + 1) raw out := by
  induction levels generalizing raw out with
  | zero =>
      have hnone : ∀ raw inner : List Char, '%' ∈ raw →
          (expandWithin value? 0 raw = .ok inner ↔ Expands value? 0 raw inner) := by
        intro raw inner hmem
        simp [expandWithin, expands_zero_iff, hmem]
      exact expandPieces_pieces_iff (fun raw => expandIfNeeded_iff hnone raw.toList) raw.length raw
        (Nat.le_refl _) out
  | succ levels ih =>
      exact expandPieces_pieces_iff (fun raw => expandIfNeeded_iff (fun _ _ _ => ih) raw.toList)
        raw.length raw (Nat.le_refl _) out

/-! ## The values of a document -/

namespace Document

variable {d : Document} {sectionName option text : String}

/-- An option has a raw value in a section, its own or a default. -/
def HasRaw (d : Document) (sectionName option : String) (options : Options) (raw : String) : Prop :=
  d.section? sectionName = some options ∧ d.lookup? options option = some raw

/-- An option has no raw value in a section, be it that the section does not exist. -/
def Unset (d : Document) (sectionName option : String) : Prop :=
  ∀ options raw, ¬ d.HasRaw sectionName option options raw

/-- The raw value of an option in a section stands for a text. -/
def StandsFor (d : Document) (sectionName option text : String) : Prop :=
  ∃ options raw, d.HasRaw sectionName option options raw
    ∧ Expands (d.lookup? options) maxLevels raw.toList text.toList

/-- An option has a raw value in a section that stands for nothing. -/
def StandsForNothing (d : Document) (sectionName option : String) : Prop :=
  ∃ options raw, d.HasRaw sectionName option options raw
    ∧ ∀ text, ¬ Expands (d.lookup? options) maxLevels raw.toList text

theorem expand_eq_ok_iff {options : Options} {raw : String} :
    d.expand sectionName options option raw = .ok text ↔
      Expands (d.lookup? options) maxLevels raw.toList text.toList := by
  rw [maxLevels, ← expandWithin_eq_ok_iff, expand, maxLevels]
  cases expandWithin (d.lookup? options) 10 raw.toList with
  | error fault => simp
  | ok out => simp [← String.toList_inj]

theorem HasRaw.unique {options options' : Options} {raw raw' : String}
    (h : d.HasRaw sectionName option options raw) (h' : d.HasRaw sectionName option options' raw') :
    options = options' ∧ raw = raw' := by
  obtain rfl := Option.some.inj (h.1.symm.trans h'.1)
  exact ⟨rfl, Option.some.inj (h.2.symm.trans h'.2)⟩

theorem unset_or_exists_hasRaw (d : Document) (sectionName option : String) :
    d.Unset sectionName option ∨ ∃ options raw, d.HasRaw sectionName option options raw := by
  by_cases h : d.Unset sectionName option
  · exact .inl h
  · simp only [Unset, Classical.not_forall, Classical.not_not] at h
    exact .inr h

/-- Without a raw value there is nothing to expand. -/
theorem get?_of_unset (h : d.Unset sectionName option) :
    d.get? sectionName option = .ok none := by
  unfold get?
  split
  · rfl
  · next options hsection =>
    split
    · rfl
    · next raw hraw => exact absurd ⟨hsection, hraw⟩ (h options raw)

theorem get?_of_raw {options : Options} {raw : String}
    (h : d.HasRaw sectionName option options raw) :
    d.get? sectionName option = (d.expand sectionName options option raw).map some := by
  simp only [get?, h.1, h.2]
  cases d.expand sectionName options option raw <;> rfl

theorem standsFor_iff {options : Options} {raw : String}
    (h : d.HasRaw sectionName option options raw) :
    d.StandsFor sectionName option text ↔
      Expands (d.lookup? options) maxLevels raw.toList text.toList := by
  constructor
  · rintro ⟨options', raw', h', hexpands⟩
    obtain ⟨rfl, rfl⟩ := h.unique h'
    exact hexpands
  · exact fun hexpands => ⟨options, raw, h, hexpands⟩

theorem standsForNothing_iff {options : Options} {raw : String}
    (h : d.HasRaw sectionName option options raw) :
    d.StandsForNothing sectionName option ↔
      ∀ text, ¬ Expands (d.lookup? options) maxLevels raw.toList text := by
  constructor
  · rintro ⟨options', raw', h', hexpands⟩
    obtain ⟨rfl, rfl⟩ := h.unique h'
    exact hexpands
  · exact fun hexpands => ⟨options, raw, h, hexpands⟩

/-- What stands for a text does not stand for nothing. -/
theorem StandsFor.not_standsForNothing (h : d.StandsFor sectionName option text) :
    ¬ d.StandsForNothing sectionName option := by
  obtain ⟨options, raw, hraw, hexpands⟩ := h
  rw [standsForNothing_iff hraw]
  exact fun hnone => hnone _ hexpands

theorem Unset.not_standsFor (h : d.Unset sectionName option) :
    ¬ d.StandsFor sectionName option text :=
  fun ⟨options, raw, hraw, _⟩ => h options raw hraw

theorem Unset.not_standsForNothing (h : d.Unset sectionName option) :
    ¬ d.StandsForNothing sectionName option :=
  fun ⟨options, raw, hraw, _⟩ => h options raw hraw

/-- There is no value exactly if none is set. -/
theorem get?_eq_none_iff : d.get? sectionName option = .ok none ↔ d.Unset sectionName option := by
  rcases d.unset_or_exists_hasRaw sectionName option with hunset | ⟨options, raw, hraw⟩
  · exact iff_of_true (get?_of_unset hunset) hunset
  · rw [get?_of_raw hraw]
    refine iff_of_false (fun h => ?_) fun hunset => hunset options raw hraw
    cases hexpand : d.expand sectionName options option raw <;> simp [hexpand, Except.map] at h

/-- **The value of an option** is the text that its raw value stands for. -/
theorem get?_eq_some_iff :
    d.get? sectionName option = .ok (some text) ↔ d.StandsFor sectionName option text := by
  rcases d.unset_or_exists_hasRaw sectionName option with hunset | ⟨options, raw, hraw⟩
  · rw [get?_of_unset hunset]
    exact iff_of_false (by simp) hunset.not_standsFor
  · rw [get?_of_raw hraw, standsFor_iff hraw, ← expand_eq_ok_iff]
    cases d.expand sectionName options option raw <;> simp [Except.map]

/-- **An option has no value for one reason only**: its raw value stands for nothing. -/
theorem exists_get?_eq_error_iff :
    (∃ e, d.get? sectionName option = .error e) ↔ d.StandsForNothing sectionName option := by
  rcases d.unset_or_exists_hasRaw sectionName option with hunset | ⟨options, raw, hraw⟩
  · rw [get?_of_unset hunset]
    exact iff_of_false (by simp) hunset.not_standsForNothing
  · rw [get?_of_raw hraw, standsForNothing_iff hraw]
    cases hexpand : d.expand sectionName options option raw with
    | error e =>
        refine iff_of_true ⟨e, rfl⟩ fun text hexpands => ?_
        rw [← @String.toList_ofList text,
          ← expand_eq_ok_iff, hexpand] at hexpands
        cases hexpands
    | ok text =>
        exact iff_of_false (by simp [Except.map]) fun h => h _ (expand_eq_ok_iff.mp hexpand)

theorem StandsFor.unique {text' : String} (h : d.StandsFor sectionName option text)
    (h' : d.StandsFor sectionName option text') : text = text' := by
  simpa using (get?_eq_some_iff.mpr h).symm.trans (get?_eq_some_iff.mpr h')

/-- An option is unset, or its raw value stands for a text or for nothing. -/
theorem unset_or_standsFor_or_standsForNothing (d : Document) (sectionName option : String) :
    d.Unset sectionName option ∨ (∃ text, d.StandsFor sectionName option text)
      ∨ d.StandsForNothing sectionName option := by
  simp only [← get?_eq_none_iff, ← get?_eq_some_iff, ← exists_get?_eq_error_iff]
  rcases d.get? sectionName option with e | _ | text <;> simp

end Document

end KeySearch.Ini
