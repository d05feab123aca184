import KeySearch.Text.Blank
import KeySearch.Text.Printable

/-!
# Quoted texts

Messages show a text that somebody typed as a quoted literal, so that blanks and unprintable code
points in it can be seen. The literal stands between single quotes, or between double quotes when
the text holds a single quote and no double one.
-/

set_option autoImplicit false

namespace KeySearch.Text

/-- The lower-case digit of a value below sixteen. -/
def hexDigit (n : Nat) : Char := (Nat.digitChar n)

/-- The last `width` hexadecimal digits of a number. -/
def hexDigits : Nat → Nat → List Char
  | 0, _ => []
  | width + 1, n => hexDigits width (n / 16) ++ [hexDigit (n % 16)]

/-- One code point inside a literal that ends at `quote`: a backslash, the quote and the three usual
line controls are written behind a backslash, what is not printable by its number. -/
def quotedCodePoint (quote : Char) (c : Nat) : List Char :=
  if c = 0x5c then ['\\', '\\']
  else if c = quote.toNat then ['\\', quote]
  else if c = 0x09 then ['\\', 't']
  else if c = 0x0a then ['\\', 'n']
  else if c = 0x0d then ['\\', 'r']
  else if isPrintable c then [Char.ofNat c]
  else if c < 0x100 then '\\' :: 'x' :: hexDigits 2 c
  else if c < 0x10000 then '\\' :: 'u' :: hexDigits 4 c
  else '\\' :: 'U' :: hexDigits 8 c

/-- The quote that a text's literal is written with. -/
def quoteFor (text : List Nat) : Char :=
  if text.contains 0x27 && !text.contains 0x22 then '\x22' else '\x27'

/-- The literal of a text, as characters. -/
def quotedChars (text : List Nat) : List Char :=
  let quote := quoteFor text
  quote :: text.flatMap (quotedCodePoint quote) ++ [quote]

/-- The literal of a text. -/
def quoted (text : List Nat) : String := String.ofList (quotedChars text)

/-- The literal of a character text. -/
def quotedString (text : String) : String := quoted (codePoints text)

end KeySearch.Text
