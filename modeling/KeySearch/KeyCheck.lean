import KeySearch.SavedKey

/-!
# Checking a key

A key is checked by deriving it again: the text of a seed or secret key, or the file of a saved key,
gives a candidate whose data is printed, or a line that says why it does not. That line may name the
file, so it is printed only if no surrogate is in it.
-/

set_option autoImplicit false

namespace KeySearch.KeyCheck

/-- The outcome of a check: whether the key is in order, what is printed and what is reported. -/
structure Verdict where
  accepted : Bool
  lines : List (List Nat)
  log : List Log.Record
  deriving Repr, DecidableEq

/-- The data of a candidate. -/
def describe (c : Candidate) : List String :=
  ["Priv: " ++ c.keys.secretHex,
   "Pub: " ++ c.keys.publicHex,
   "IP: " ++ c.address.text,
   "Leading zero bits: " ++ toString c.zeroBits,
   "Zero blocks: " ++ toString c.zeroBlocks]

/-- A key that is not in order, and why. -/
def reject (reason : List Nat) (log : List Log.Record) : Verdict :=
  ⟨false, [Text.codePoints "Error: " ++ reason], log⟩

/-- A key that is in order. -/
def accept (c : Candidate) : Verdict := ⟨true, (describe c).map Text.codePoints, []⟩

/-- Checks a key that is given as a text. -/
def ofText (primitive : KeyPrimitive) (text : List Nat) : Verdict :=
  match KeyPair.ofSecret primitive text with
  | .error e => reject (Text.codePoints e.message) []
  | .ok keys =>
    match Candidate.ofKeys keys with
    | .error e => reject (Text.codePoints e.message) []
    | .ok c => accept c

/-- Why a file is refused that gives no candidate. -/
def noKeyText (place : List Nat) : List Nat := place ++ Text.codePoints " does not hold a valid key"

/-- Checks a key that is given as a text or as the file of a saved key. -/
def run (primitive : KeyPrimitive) (f : Files) (key : List Nat) : Except SavedKey.Crash Verdict :=
  if f.isFile key then
    match SavedKey.load primitive f key with
    | .error e => .error e
    | .ok (some c, log) => .ok { accept c with log := log }
    | .ok (none, log) => .ok (reject (noKeyText key) log)
  else .ok (ofText primitive key)

end KeySearch.KeyCheck
