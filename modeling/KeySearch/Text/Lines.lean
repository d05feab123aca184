/-!
# Lines

Texts in files end their lines with a line feed, a carriage return or both; `unifyLineEnds` turns
all three into a line feed. `splitLines` cuts a text behind every line feed, and `completeLines`
gives those lines that are known to be complete before the rest of a text is known.
-/

set_option autoImplicit false

namespace KeySearch.Text

/-- Replaces every carriage return, together with a line feed right behind it, by a line feed. -/
def unifyLineEnds : List Char → List Char
  | [] => []
  | '\r' :: '\n' :: rest => '\n' :: unifyLineEnds rest
  | '\r' :: rest => '\n' :: unifyLineEnds rest
  | c :: rest => c :: unifyLineEnds rest

/-- Adds a character to the front of the first line. -/
def consLine (c : Char) : List (List Char) → List (List Char)
  | [] => [[c]]
  | line :: lines => (c :: line) :: lines

/-- The lines of a text, each with the line feed that ends it. The last line may have none. -/
def splitLines : List Char → List (List Char)
  | [] => []
  | c :: rest => if c = '\n' then [c] :: splitLines rest else consLine c (splitLines rest)

/-- The lines at the beginning of a text that are complete whatever follows. A carriage return at
the end completes no line, since a line feed may follow it. -/
def completeLines (text : List Char) : List (List Char) :=
  let settled := if text.getLast? = some '\r' then text.dropLast else text
  (splitLines (unifyLineEnds settled)).filter fun line => line.getLast? == some '\n'

end KeySearch.Text
