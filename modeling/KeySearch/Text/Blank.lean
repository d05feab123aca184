/-!
# White space

`isBlank` is the white space of Unicode texts: the ASCII controls that move the cursor, the four
information separators, and the spaces and line breaks beyond ASCII. `isAsciiBlank` is its narrow
form. `strip` removes blanks at both ends and nothing between them.
-/

set_option autoImplicit false

namespace KeySearch.Text

/-- The code points of a text. A code point is a number, so that a surrogate standing on its own,
which an escape sequence can name and no `Char` can hold, has a place too. -/
def codePoints (s : String) : List Nat := s.toList.map Char.toNat

/-- A text of characters stands for its code points. -/
instance instCoeText : Coe String (List Nat) := ⟨codePoints⟩

/-- Space, tab, line feed, vertical tab, form feed and carriage return. -/
def isAsciiBlank (c : Nat) : Bool := c == 0x20 || (0x09 ≤ c && c ≤ 0x0d)

/-- White space in any script. -/
def isBlank (c : Nat) : Bool :=
  isAsciiBlank c || (0x1c ≤ c && c ≤ 0x1f) || c == 0x85 || c == 0xa0 || c == 0x1680
    || (0x2000 ≤ c && c ≤ 0x200a) || c == 0x2028 || c == 0x2029 || c == 0x202f || c == 0x205f
    || c == 0x3000

/-- A list without the elements of a kind that stand at its front or its back. -/
def trim {α : Type} (drop : α → Bool) (xs : List α) : List α :=
  ((xs.dropWhile drop).reverse.dropWhile drop).reverse

/-- A list without the elements of a kind that stand at its back. -/
def trimEnd {α : Type} (drop : α → Bool) (xs : List α) : List α :=
  (xs.reverse.dropWhile drop).reverse

/-- A text without the white space at its ends. -/
def strip (text : List Nat) : List Nat := trim isBlank text

/-- Whether a character is white space in any script. -/
def isBlankChar (c : Char) : Bool := isBlank c.toNat

/-- A character text without the white space at its ends. -/
def stripChars (text : List Char) : List Char := trim isBlankChar text

end KeySearch.Text
