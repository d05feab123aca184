import KeySearch.Text.Casing

/-!
# Lower case

`lowercase` turns every letter into its small form. Two letters need more than a table: a capital I
with a dot becomes two code points, and a capital sigma takes its final form at the end of a word.
-/

set_option autoImplicit false

namespace KeySearch.Text

/-- Whether the nearest code point that counts as a neighbour has case. -/
def meetsLetter (neighbours : List Nat) : Bool :=
  match neighbours.dropWhile (inRanges passedOverRanges) with
  | [] => false
  | c :: _ => inRanges casedRanges c

/-- Lower-cases a text whose beginning, last code point first, is already known. -/
def lowercaseAfter (before : List Nat) : List Nat → List Nat
  | [] => []
  | c :: rest =>
    let small :=
      if c = 0x130 then [0x69, 0x307]
      else if c = 0x3a3 then
        (if meetsLetter before && !meetsLetter rest then [0x3c2] else [0x3c3])
      else [smallLetter c]
    small ++ lowercaseAfter (c :: before) rest

/-- A text with every letter in its small form. -/
def lowercase (text : List Nat) : List Nat := lowercaseAfter [] text

/-- A character text with every letter in its small form. -/
def lowercaseString (text : String) : String :=
  String.ofList ((lowercase (text.toList.map Char.toNat)).map Char.ofNat)

end KeySearch.Text
