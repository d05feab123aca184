import KeySearch.Text.Quoted

/-!
# Surrogates in a text

A text that is no `String` may hold surrogates. In the words of a command line and the names of files
those from `U+DC80` to `U+DCFF` stand for the bytes 80 to ff wherever these encode no character, and
only these can be turned into bytes again. A text with any surrogate in it is not printed. Messages and
records show a surrogate by its number.
-/

set_option autoImplicit false

namespace KeySearch.Text

/-- Whether a code point is a surrogate. -/
def isSurrogate (c : Nat) : Bool := 0xd800 ≤ c && c ≤ 0xdfff

/-- Whether a code point stands for a byte that encodes no character. -/
def isStrayByte (c : Nat) : Bool := 0xdc80 ≤ c && c ≤ 0xdcff

/-- How many bytes a code point is written as, in a text that can be written. -/
def codePointSize (c : Nat) : Nat :=
  if c < 0x80 || isStrayByte c then 1
  else if c < 0x800 then 2
  else if c < 0x10000 then 3
  else 4

/-- How many bytes a text is written as. -/
def byteSize (text : List Nat) : Nat := text.foldr (fun c size => codePointSize c + size) 0

/-- A surrogate that cannot be written, the place where it stands in its text and how many surrogates
there are from it on. -/
structure EncodingError where
  surrogate : Nat
  position : Nat
  count : Nat
  deriving Repr, DecidableEq

/-- The message of an error. -/
def EncodingError.message (e : EncodingError) : String :=
  let place :=
    if e.count = 1 then
      "character '\\u" ++ String.ofList (hexDigits 4 e.surrogate) ++ "' in position "
        ++ toString e.position
    else
      "characters in position " ++ toString e.position ++ "-" ++ toString (e.position + e.count - 1)
  "'utf-8' codec can't encode " ++ place ++ ": surrogates not allowed"

/-- The first surrogate of a text that is not among those that can be written. -/
def encodingError? (writable : Nat → Bool) (text : List Nat) : Option EncodingError :=
  let fits (c : Nat) : Bool := !isSurrogate c || writable c
  match text.dropWhile fits with
  | [] => none
  | c :: rest =>
    some ⟨c, (text.takeWhile fits).length, (rest.takeWhile isSurrogate).length + 1⟩

/-- Why a text cannot be the name of a file, if it holds a surrogate that stands for no byte. -/
def nameError? (text : List Nat) : Option EncodingError := encodingError? isStrayByte text

/-- The characters of a text. -/
def ofCodePoints (text : List Nat) : String := String.ofList (text.map Char.ofNat)

/-- A text as it is printed, which it is not if it holds a surrogate. -/
def printed (text : List Nat) : Except EncodingError String :=
  match encodingError? (fun _ => false) text with
  | some e => .error e
  | none => .ok (ofCodePoints text)

/-- A text without surrogates. -/
def Printable (text : List Nat) : Prop := ∀ c ∈ text, isSurrogate c = false

instance (text : List Nat) : Decidable (Printable text) :=
  inferInstanceAs (Decidable (∀ c ∈ text, isSurrogate c = false))

theorem printable_append {front back : List Nat} (hfront : Printable front) (hback : Printable back) :
    Printable (front ++ back) := by
  intro c hc
  rcases List.mem_append.mp hc with hc | hc
  · exact hfront c hc
  · exact hback c hc

/-- No character is a surrogate. -/
theorem printable_codePoints (s : String) : Printable (codePoints s) := by
  intro c hc
  obtain ⟨char, -, rfl⟩ := List.mem_map.mp hc
  have hvalid : char.toNat < 0xd800 ∨ 0xdfff < char.toNat ∧ char.toNat < 0x110000 := char.valid
  simp only [isSurrogate, Bool.and_eq_false_iff, decide_eq_false_iff_not]
  omega

theorem encodingError?_eq_none_iff {writable : Nat → Bool} {text : List Nat} :
    encodingError? writable text = none
      ↔ ∀ c ∈ text, isSurrogate c = false ∨ writable c = true := by
  have hfits : text.dropWhile (fun c => !isSurrogate c || writable c) = []
      ↔ ∀ c ∈ text, isSurrogate c = false ∨ writable c = true := by
    induction text with
    | nil => simp
    | cons c rest ih =>
        rw [List.dropWhile_cons, List.forall_mem_cons, ← ih]
        by_cases hfits : isSurrogate c = false ∨ writable c = true
        · rw [if_pos (by simpa using hfits), and_iff_right hfits]
        · rw [if_neg (by simpa using hfits)]
          exact iff_of_false (List.cons_ne_nil c rest) fun h => hfits h.1
  rw [← hfits, encodingError?]
  split
  · next hall => exact iff_of_true rfl hall
  · next c rest hfirst =>
      rw [hfirst]
      exact iff_of_false (Option.some_ne_none _) (List.cons_ne_nil c rest)

theorem printed_eq_ok_iff {text : List Nat} {line : String} :
    printed text = .ok line ↔ Printable text ∧ ofCodePoints text = line := by
  have hnone : encodingError? (fun _ => false) text = none ↔ Printable text := by
    rw [encodingError?_eq_none_iff]
    simp [Printable]
  rw [← hnone, printed]
  split
  · next e he => simp [he]
  · next h => simp [h]

theorem ofCodePoints_append (front back : List Nat) :
    ofCodePoints (front ++ back) = ofCodePoints front ++ ofCodePoints back := by
  rw [ofCodePoints, List.map_append, String.ofList_append]
  rfl

@[simp] theorem ofCodePoints_codePoints (s : String) : ofCodePoints (codePoints s) = s := by
  have hchars : (s.toList.map Char.toNat).map Char.ofNat = s.toList := by
    simp [Function.comp_def]
  rw [ofCodePoints, codePoints, hchars, String.ofList_toList]

@[simp] theorem printed_codePoints (s : String) : printed (codePoints s) = .ok s :=
  printed_eq_ok_iff.mpr ⟨printable_codePoints s, ofCodePoints_codePoints s⟩

/-- A code point as messages and records show it. -/
def shownCodePoint (c : Nat) : List Char :=
  if isSurrogate c then '\\' :: 'u' :: hexDigits 4 c else [Char.ofNat c]

/-- A text as messages and records show it. -/
def shown (text : List Nat) : String := String.ofList (text.flatMap shownCodePoint)

end KeySearch.Text
