import KeySearch.Candidate
import KeySearch.Report.Duration
import KeySearch.Snapshot

/-!
# The best key so far

The lines that are printed whenever a better key turns up, and once more at the end.
-/

set_option autoImplicit false

namespace KeySearch.Report

/-- A text of lines. -/
def joinLines (lines : List String) : String := "\n".intercalate lines

/-- How long the search has taken and how fast it was, once a second has gone by. -/
def speedLines {α : Type} (s : Snapshot α) (verbose : Bool) :
    Except Quantity.Error (List String) :=
  match s.elapsed.truncate with
  | .error e => .error e
  | .ok seconds =>
    if seconds ≤ 0 then .ok []
    else
      match Duration.text s.elapsed with
      | .error e => .error e
      | .ok duration =>
        .ok (("----- " ++ duration ++ " --- " ++ toString s.generated ++ " keys tried") ::
          (if verbose then
            ["----- generation speed " ++ toString (Int.fdiv s.generated seconds)
              ++ " keys per second"]
           else []))

/-- The lines that describe a candidate. -/
def candidateLines (c : Candidate) (verbose : Bool) : List String :=
  ["Priv: " ++ c.keys.secretHex, "Pub: " ++ c.keys.publicHex, "IP: " ++ c.address.text]
    ++ (if verbose then
          ["Zero bits: " ++ toString c.zeroBits ++ " | Zero blocks: " ++ toString c.zeroBlocks]
        else [])

/-- The lines of a snapshot. -/
def bestLines (s : Snapshot Candidate) (verbose : Bool) : Except Quantity.Error (List String) :=
  match speedLines s verbose with
  | .error e => .error e
  | .ok speed =>
    .ok (speed ++
      match s.best with
      | none => ["No key found yet"]
      | some c => candidateLines c verbose)

/-- The text of a snapshot. -/
def bestText (s : Snapshot Candidate) (verbose : Bool) : Except Quantity.Error String :=
  (bestLines s verbose).map joinLines

end KeySearch.Report
