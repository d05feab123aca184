import KeySearch.Json.Reader
import KeySearch.Proofs.QuotedTexts

/-!
# The strings of a JSON text

An escape can name any code unit, and a pair of them a code point beyond the units; it can name nothing
else. So whatever is read from code points holds code points in its strings (`encoded_read`). Each
reader leaves an end of its text, which carries this on from one reader to the next.
-/

set_option autoImplicit false

namespace KeySearch.Json

open Text (Encoded)

variable {text rest : List Nat}

/-- Every string among the values of a value consists of code points. -/
inductive EncodedStrings : Json → Prop
  | null : EncodedStrings .null
  | bool (value : Bool) : EncodedStrings (.bool value)
  | int (value : Int) : EncodedStrings (.int value)
  | float : EncodedStrings .float
  | str {text : List Nat} (h : Encoded text) : EncodedStrings (.str text)
  | arr {items : List Json} (h : ∀ item ∈ items, EncodedStrings item) : EncodedStrings (.arr items)
  | obj {fields : List (List Nat × Json)} (h : ∀ field ∈ fields, EncodedStrings field.2) :
      EncodedStrings (.obj fields)

theorem encoded_of_suffix (h : Encoded text) (hrest : rest <:+ text) : Encoded rest :=
  fun c hc => h c (hrest.subset hc)

theorem skip_suffix (text : List Nat) : skip text <:+ text := List.dropWhile_suffix _

/-! ## Escapes -/

theorem hexValue?_lt {c n : Nat} (h : hexValue? c = some n) : n < 16 := by
  unfold hexValue? at h
  simp only [Bool.and_eq_true, decide_eq_true_iff] at h
  split_ifs at h with hdecimal hlower hupper
  · cases h
    omega
  · cases h
    omega
  · cases h
    omega

theorem hexUnit?_lt {a b c d unit : Nat} (h : hexUnit? a b c d = some unit) : unit < 0x10000 := by
  unfold hexUnit? at h
  split at h
  · next a b c d ha hb hc hd =>
    have hvalues := And.intro (And.intro (hexValue?_lt ha) (hexValue?_lt hb))
      (And.intro (hexValue?_lt hc) (hexValue?_lt hd))
    cases h
    omega
  · cases h

theorem readUnit_eq_ok {unit : Nat} (h : readUnit text = .ok (unit, rest)) :
    unit < 0x10000 ∧ rest <:+ text := by
  unfold readUnit at h
  split at h
  · next u a b c d next more =>
    cases hunit : hexUnit? a b c d with
    | none =>
        rw [hunit] at h
        cases h
    | some value =>
        rw [hunit] at h
        cases h
        exact ⟨hexUnit?_lt hunit, [u, a, b, c, d], rfl⟩
  · cases h

/-- The halves of a surrogate pair leave no room for more than a code point. -/
theorem readUnicodeEscape_eq_ok {value : Nat} (h : readUnicodeEscape text = .ok (value, rest)) :
    value < 0x110000 ∧ rest <:+ text := by
  unfold readUnicodeEscape at h
  cases hunit : readUnit text with
  | error e =>
      rw [hunit] at h
      cases h
  | ok first =>
      obtain ⟨unit, behind⟩ := first
      obtain ⟨hsmall, hbehind⟩ := readUnit_eq_ok hunit
      have hsingle : unit < 0x110000 := by omega
      rw [hunit] at h
      dsimp only at h
      split at h
      · next more =>
        split at h
        · next hhigh =>
          split at h
          · cases h
          · next low after hlow =>
            split at h
            · next hpair =>
              have hafter : after <:+ 0x75 :: more := (readUnit_eq_ok hlow).2
              have hmore : 0x75 :: more <:+ 0x5c :: 0x75 :: more := List.suffix_cons _ _
              simp only [isHighSurrogate, isLowSurrogate, Bool.and_eq_true, decide_eq_true_eq]
                at hhigh hpair
              rw [Except.ok.injEq, Prod.mk.injEq] at h
              obtain ⟨rfl, rfl⟩ := h
              exact ⟨by omega, (hafter.trans hmore).trans hbehind⟩
            · cases h
              exact ⟨hsingle, hbehind⟩
        · cases h
          exact ⟨hsingle, hbehind⟩
      · cases h
        exact ⟨hsingle, hbehind⟩

theorem simpleEscape?_lt {c value : Nat} (h : simpleEscape? c = some value) : value < 0x80 := by
  unfold simpleEscape? at h
  split_ifs at h with hself
  · simp only [Bool.or_eq_true, decide_eq_true_eq] at hself
    cases h
    omega
  all_goals
    cases h
    decide

/-! ## Strings -/

theorem encoded_cons {c : Nat} (hc : c < 0x110000) (h : Encoded text) : Encoded (c :: text) := by
  intro d hd
  rcases List.mem_cons.mp hd with rfl | hd
  · exact hc
  · exact h d hd

theorem readString_eq_ok {opening value : List Nat} {fuel : Nat} (htext : Encoded text)
    (h : readString opening fuel text = .ok (value, rest)) : Encoded value ∧ rest <:+ text := by
  induction fuel generalizing text value rest with
  | zero => cases h
  | succ fuel ih =>
      -- the string goes on behind one code point, be it an escape or not
      have hmore : ∀ {c : Nat} {behind tail after : List Nat}, c < 0x110000 → behind <:+ text →
          readString opening fuel behind = .ok (tail, after) →
          Encoded (c :: tail) ∧ after <:+ text := by
        intro c behind tail after hc hbehind htail
        obtain ⟨hencoded, hafter⟩ := ih (encoded_of_suffix htext hbehind) htail
        exact ⟨encoded_cons hc hencoded, hafter.trans hbehind⟩
      cases text with
      | nil => cases h
      | cons c behind =>
          have hbehind : behind <:+ c :: behind := List.suffix_cons c behind
          unfold readString at h
          dsimp only at h
          split at h
          · cases h
            exact ⟨fun c hc => absurd hc List.not_mem_nil, hbehind⟩
          split at h
          · cases behind with
            | nil => cases h
            | cons e after =>
                dsimp only at h
                split at h
                · cases h
                · next code left hescape =>
                  have hcode : code < 0x110000 ∧ left <:+ e :: after := by
                    split at hescape
                    · exact readUnicodeEscape_eq_ok hescape
                    · cases hsimple : simpleEscape? e with
                      | none =>
                          rw [hsimple] at hescape
                          cases hescape
                      | some simple =>
                          have hsmall := simpleEscape?_lt hsimple
                          rw [hsimple] at hescape
                          cases hescape
                          exact ⟨by omega, List.suffix_cons e _⟩
                  split at h
                  · cases h
                  · next tail final htail =>
                    cases h
                    exact hmore hcode.1 (hcode.2.trans hbehind) htail
          split at h
          · cases h
          · split at h
            · cases h
            · next tail final htail =>
              cases h
              exact hmore (htext c List.mem_cons_self) hbehind htail

/-! ## Numbers and words -/

theorem readMinus_suffix (text : List Nat) : (readMinus text).2 <:+ text := by
  unfold readMinus
  split
  · exact List.suffix_cons _ _
  · exact List.suffix_rfl

theorem readWhole_suffix (text : List Nat) : (readWhole text).2 <:+ text := by
  unfold readWhole
  split
  · exact List.suffix_rfl
  · split
    · exact List.suffix_cons _ _
    · exact List.dropWhile_suffix _

theorem readFraction_suffix (text : List Nat) : (readFraction text).2 <:+ text := by
  unfold readFraction
  split
  · next d rest =>
    split
    · have hdigits : rest.dropWhile isDigit <:+ rest := List.dropWhile_suffix _
      exact hdigits.trans ⟨[0x2e, d], rfl⟩
    · exact List.suffix_rfl
  · exact List.suffix_rfl

theorem dropSign_suffix (text : List Nat) : dropSign text <:+ text := by
  unfold dropSign
  split
  · exact List.suffix_cons _ _
  · exact List.suffix_cons _ _
  · exact List.suffix_rfl

theorem readExponent_suffix (text : List Nat) : (readExponent text).2 <:+ text := by
  unfold readExponent
  split
  · exact List.suffix_rfl
  · next e rest =>
    split
    · split
      · next d more hmore =>
        split
        · have hdigits : more.dropWhile isDigit <:+ more := List.dropWhile_suffix _
          have hsign : d :: more <:+ rest := hmore ▸ dropSign_suffix rest
          exact ((hdigits.trans (List.suffix_cons d more)).trans hsign).trans (List.suffix_cons e rest)
        · exact List.suffix_rfl
      · exact List.suffix_rfl
    · exact List.suffix_rfl

theorem readNumber_eq_ok {value : Json} (h : readNumber text = .ok (value, rest)) :
    EncodedStrings value ∧ rest <:+ text := by
  have hbody := readMinus_suffix text
  have hwhole := readWhole_suffix (readMinus text).2
  have hfraction := readFraction_suffix (readWhole (readMinus text).2).2
  have hexponent := readExponent_suffix (readFraction (readWhole (readMinus text).2).2).2
  have hrest := ((hexponent.trans hfraction).trans hwhole).trans hbody
  unfold readNumber at h
  dsimp only at h
  split_ifs at h
  · cases h
    exact ⟨.float, hrest⟩
  · cases h
    exact ⟨.int _, hrest⟩
  · cases h
    exact ⟨.int _, hrest⟩

theorem encodedStrings_wordValues : ∀ entry ∈ wordValues, EncodedStrings entry.2 := by
  intro entry hentry
  simp only [wordValues, List.mem_cons, List.not_mem_nil, or_false] at hentry
  rcases hentry with rfl | rfl | rfl | rfl | rfl | rfl
  · exact .null
  · exact .bool true
  · exact .bool false
  · exact .float
  · exact .float
  · exact .float

theorem readAtom_eq_ok {value : Json} (h : readAtom text = .ok (value, rest)) :
    EncodedStrings value ∧ rest <:+ text := by
  unfold readAtom at h
  split at h
  · next result hword =>
    cases h
    obtain ⟨⟨word, found⟩, hentry, hdrop⟩ := List.exists_of_findSome?_eq_some hword
    obtain ⟨behind, hbehind, heq⟩ := Option.map_eq_some_iff.mp hdrop
    cases heq
    unfold dropWord? at hbehind
    split at hbehind
    · cases hbehind
      exact ⟨encodedStrings_wordValues _ hentry, List.drop_suffix _ _⟩
    · cases hbehind
  · exact readNumber_eq_ok h

/-! ## Values -/

/-- A reader of values leaves an end of the text, and what it makes of a text of code points is as `P`
says. -/
def Faithful {α : Type} (P : α → Prop) (reader : List Nat → Step α) : Prop :=
  ∀ {text value rest}, Encoded text → reader text = .ok (value, rest) → P value ∧ rest <:+ text

/-- The three readers of values take their strings from the text, as far as they get with so much
fuel. -/
structure TakeStrings (fuel : Nat) : Prop where
  value : ∀ depth, Faithful EncodedStrings (readValue depth fuel)
  items : ∀ depth, Faithful (fun items => ∀ item ∈ items, EncodedStrings item) (readItems depth fuel)
  fields : ∀ depth,
    Faithful (fun fields => ∀ field ∈ fields, EncodedStrings field.2) (readFields depth fuel)

variable {fuel : Nat}

theorem TakeStrings.value_succ (h : TakeStrings fuel) (depth : Nat) :
    Faithful EncodedStrings (readValue depth (fuel + 1)) := by
  intro text value rest htext hread
  unfold readValue at hread
  split at hread
  · cases hread
  · next c behind =>
    have hbehind : behind <:+ c :: behind := List.suffix_cons c behind
    have hskip : skip behind <:+ c :: behind := (skip_suffix behind).trans hbehind
    -- a string, then an object and an array, each of them empty or not, then what has no quotes
    split at hread
    · split at hread
      · cases hread
      · next string after hstring =>
        obtain ⟨hencoded, hafter⟩ := readString_eq_ok (encoded_of_suffix htext hbehind) hstring
        cases hread
        exact ⟨.str hencoded, hafter.trans hbehind⟩
    split at hread
    · split at hread
      · cases hread
      · next hclosed =>
        cases hread
        refine ⟨.obj fun field hfield => absurd hfield List.not_mem_nil, ?_⟩
        exact (List.suffix_cons 0x7d _).trans (hclosed ▸ hskip)
      · split at hread
        · cases hread
        · next fields after hfields =>
          obtain ⟨hencoded, hafter⟩ := h.fields _ (encoded_of_suffix htext hskip) hfields
          cases hread
          exact ⟨.obj hencoded, hafter.trans hskip⟩
    split at hread
    · split at hread
      · cases hread
      · next hclosed =>
        cases hread
        refine ⟨.arr fun item hitem => absurd hitem List.not_mem_nil, ?_⟩
        exact (List.suffix_cons 0x5d _).trans (hclosed ▸ hskip)
      · split at hread
        · cases hread
        · next items after hitems =>
          obtain ⟨hencoded, hafter⟩ := h.items _ (encoded_of_suffix htext hskip) hitems
          cases hread
          exact ⟨.arr hencoded, hafter.trans hskip⟩
    · exact readAtom_eq_ok hread

/-- What stands behind a separator is an end of the text. -/
theorem skip_suffix_of_cons {c : Nat} {after behind : List Nat} (hafter : after <:+ text)
    (hsep : skip after = c :: behind) : behind <:+ text ∧ skip behind <:+ text := by
  have hbehind : behind <:+ text :=
    (List.suffix_cons c behind).trans (hsep ▸ (skip_suffix after).trans hafter)
  exact ⟨hbehind, (skip_suffix behind).trans hbehind⟩

theorem TakeStrings.items_succ (h : TakeStrings fuel) (depth : Nat) :
    Faithful (fun items => ∀ item ∈ items, EncodedStrings item) (readItems depth (fuel + 1)) := by
  intro text items rest htext hread
  unfold readItems at hread
  split at hread
  · cases hread
  · next value after hvalue =>
    obtain ⟨hencoded, hafter⟩ := h.value _ htext hvalue
    split at hread
    · next behind hsep =>
      cases hread
      exact ⟨List.forall_mem_singleton.mpr hencoded, (skip_suffix_of_cons hafter hsep).1⟩
    · next behind hsep =>
      obtain ⟨-, hnext⟩ := skip_suffix_of_cons hafter hsep
      split at hread
      · cases hread
      · next more final hmore =>
        obtain ⟨hall, hfinal⟩ := h.items _ (encoded_of_suffix htext hnext) hmore
        cases hread
        exact ⟨List.forall_mem_cons.mpr ⟨hencoded, hall⟩, hfinal.trans hnext⟩
    · cases hread

theorem TakeStrings.fields_succ (h : TakeStrings fuel) (depth : Nat) :
    Faithful (fun fields => ∀ field ∈ fields, EncodedStrings field.2)
      (readFields depth (fuel + 1)) := by
  intro text fields rest htext hread
  unfold readFields at hread
  split at hread
  · next behind =>
    have hbehind : behind <:+ 0x22 :: behind := List.suffix_cons _ _
    split at hread
    · cases hread
    · next name after hname =>
      have hafter := (readString_eq_ok (encoded_of_suffix htext hbehind) hname).2.trans hbehind
      split at hread
      · next colon hcolon =>
        obtain ⟨-, hnext⟩ := skip_suffix_of_cons hafter hcolon
        split at hread
        · cases hread
        · next value afterValue hvalue =>
          obtain ⟨hencoded, hleft⟩ := h.value _ (encoded_of_suffix htext hnext) hvalue
          have hafterValue := hleft.trans hnext
          split at hread
          · next final hsep =>
            cases hread
            exact ⟨List.forall_mem_singleton.mpr hencoded, (skip_suffix_of_cons hafterValue hsep).1⟩
          · next final hsep =>
            obtain ⟨-, hrest⟩ := skip_suffix_of_cons hafterValue hsep
            split at hread
            · cases hread
            · next more last hmore =>
              obtain ⟨hall, hlast⟩ := h.fields _ (encoded_of_suffix htext hrest) hmore
              cases hread
              exact ⟨List.forall_mem_cons.mpr ⟨hencoded, hall⟩, hlast.trans hrest⟩
          · cases hread
      · cases hread
  · cases hread

theorem takeStrings (fuel : Nat) : TakeStrings fuel := by
  induction fuel with
  | zero =>
      refine ⟨?_, ?_, ?_⟩ <;> intro depth text value rest htext hread
      · unfold readValue at hread
        cases hread
      · unfold readItems at hread
        cases hread
      · unfold readFields at hread
        cases hread
  | succ fuel ih => exact ⟨ih.value_succ, ih.items_succ, ih.fields_succ⟩

/-- **A text of code points gives a value whose strings consist of code points.** -/
theorem encoded_read {value : Json} (htext : Encoded text) (h : read text = .ok value) :
    EncodedStrings value := by
  unfold read at h
  split_ifs at h
  split at h
  · cases h
  · next found after hread =>
    have hfound : EncodedStrings found :=
      ((takeStrings _).value _ (encoded_of_suffix htext (skip_suffix text)) hread).1
    split at h
    · cases h
      exact hfound
    · cases h

end KeySearch.Json
