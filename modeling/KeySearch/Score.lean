/-!
# Scores

Two numbers say how rare a key is: the zero bits at the front of the public key and the zero blocks
of its address. A search ranks by the first of them, or by the second with the first breaking ties.
Whatever has a score can be searched for, so the search itself never looks at keys.
-/

set_option autoImplicit false

namespace KeySearch

/-- The two numbers that a find is ranked by. -/
structure Score where
  zeroBits : Int
  zeroBlocks : Int
  deriving Repr, DecidableEq

namespace Score

/-- Whether a score ranks strictly above another: by zero blocks first when `byBlocks` is set, else
by zero bits alone. -/
def beats (byBlocks : Bool) (s t : Score) : Bool :=
  if byBlocks && s.zeroBlocks != t.zeroBlocks then t.zeroBlocks < s.zeroBlocks
  else t.zeroBits < s.zeroBits

/-- Whether a score ranks strictly above what has been found so far. Nothing found ranks lowest. -/
def improves (byBlocks : Bool) (s : Score) : Option Score → Bool
  | none => true
  | some t => s.beats byBlocks t

end Score

/-- What a search can rank. -/
class Scored (α : Type) where
  score : α → Score

instance : Scored Score := ⟨id⟩

end KeySearch
