import KeySearch.Program
import KeySearch.Proofs.Provenance
import KeySearch.Proofs.Reports
import KeySearch.Proofs.SavedSeries
import KeySearch.Proofs.SnapshotFigures
import KeySearch.Proofs.StopReasons

/-!
# What a run of the program shows and saves

A run that comes to a search shows each better key as it comes, then the best one once more, and saves
that one if it is to. `run_shows_and_saves_best` says that all of them are one key: the lines of the
last report are the lines of the summary, and the file that is saved is loaded as the best candidate.
It puts together what the proofs about searches, reports and saved keys say. What is added here is
that nothing on the way can fail: each time that is printed is a number, because the clock that it is
read from is not too far on (`bestLines_of_clock`).
-/

set_option autoImplicit false

namespace KeySearch

/-! ## Candidates of one key primitive -/

/-- A source of candidates that asks a key primitive. It may fail where the primitive itself would
not. -/
def KeySource.Uses (primitive : KeyPrimitive) (source : KeySource Candidate) : Prop :=
  ∃ attempt : KeyPrimitive, (∀ seed key, attempt seed = .ok key → primitive seed = .ok key)
    ∧ source = Search.candidates attempt source.draw

/-- The public key of a seed, where there is one. -/
def KeyPrimitive.publicKey (primitive : KeyPrimitive) (seed : List UInt8) : List UInt8 :=
  (primitive seed).toOption.getD []

theorem KeySource.Uses.derives {primitive : KeyPrimitive} {source : KeySource Candidate}
    (h : source.Uses primitive) : source.Derives primitive.publicKey := by
  obtain ⟨attempt, hattempt, hsource⟩ := h
  refine ⟨attempt, fun seed key hkey => ?_, hsource⟩
  rw [KeyPrimitive.publicKey, hattempt seed key hkey]
  rfl

/-- A genuine candidate can be made again from its seed. Its public key is one that the primitive
gives, since an empty key has no address. -/
theorem Candidate.Genuine.derived {primitive : KeyPrimitive} {c : Candidate}
    (h : c.Genuine primitive.publicKey) : SavedKey.Derived primitive c := by
  have hkeys : c.keys = ⟨c.keys.seed, primitive.publicKey c.keys.seed⟩ := by
    have hderive := h.keys
    rw [KeyPair.derive] at hderive
    exact (Except.ok.inj hderive).symm
  have hlength : (primitive.publicKey c.keys.seed).length = 32 := by
    have hsize := (Address.exists_ofPublicKey_iff.mp ⟨_, h.address⟩).1
    rw [hkeys] at hsize
    exact hsize
  have hkey : primitive c.keys.seed = .ok (primitive.publicKey c.keys.seed) := by
    unfold KeyPrimitive.publicKey at hlength ⊢
    cases hcase : primitive c.keys.seed with
    | ok key => rfl
    | error e =>
        rw [hcase] at hlength
        cases hlength
  have hmade : Candidate.ofKeys c.keys = .ok c := by
    refine Candidate.ofKeys_eq_ok_iff.mpr ⟨rfl, h.address, ?_, h.zeroBlocks_eq⟩
    rw [Bytes.leadingZeroBits_eq_zeroRun]
    exact h.zeroBits
  refine ⟨c.keys.seed, h.seed_size, Candidate.ofSeed_eq_ok_iff.mpr ⟨_, hkey, ?_⟩⟩
  rw [← hkeys]
  exact hmade

namespace Search

theorem Reachable.run {publicKey : List UInt8 → List UInt8} {s : Search Candidate}
    (h : s.Reachable publicKey) {count : Nat} {waits : List (List (Event Candidate))}
    {grace : List (Event Candidate)}
    (hsources : ∀ events ∈ grace :: waits, ∀ e ∈ events, ∀ source ∈ e.source?,
      source.Derives publicKey)
    {reason : StopReason} {final : Search Candidate}
    (hrun : s.run count waits grace = some (reason, final)) : final.Reachable publicKey := by
  unfold Search.run at hrun
  split at hrun
  · cases hrun
  · next mid hrounds =>
    cases hrun
    have hmid : mid.Reachable publicKey := (h.begin count).rounds
      (fun events hevents => hsources events (List.mem_cons_of_mem grace hevents)) hrounds
    exact hmid.close reason (hsources grace List.mem_cons_self)

/-- The best find of a run can be made again from its seed. -/
theorem run_best_derived {primitive : KeyPrimitive} {settings : Settings} {count : Nat}
    {waits : List (List (Event Candidate))} {grace : List (Event Candidate)} {reason : StopReason}
    {final : Search Candidate}
    (hrun : (Search.new settings).run count waits grace = some (reason, final))
    (hsources : ∀ events ∈ grace :: waits, ∀ e ∈ events, ∀ source ∈ e.source?,
      source.Uses primitive) {best : Candidate} (hbest : final.best = some best) :
    SavedKey.Derived primitive best := by
  have hreachable : final.Reachable primitive.publicKey :=
    (Reachable.new settings).run (fun events hevents e he source hsource =>
      (hsources events hevents e he source hsource).derives) hrun
  exact (hreachable.genuine (.inr (.inr hbest))).derived

/-- The last report of a run shows its best find, if there is one. -/
theorem run_last_report {α : Type} [Scored α] {settings : Settings} {count : Nat}
    {waits : List (List (Event α))} {grace : List (Event α)} {reason : StopReason}
    {final : Search α} (hrun : (Search.new settings).run count waits grace = some (reason, final)) :
    final.reports.getLast?.map Snapshot.best = final.best.map some := by
  obtain ⟨moves, rfl⟩ := exists_play_of_run hrun
  have hplayed := @reported_play _ _ ((Search.new settings).begin count : Search α) rfl rfl moves
  obtain ⟨more, hfinal⟩ := hplayed.finish reason
  exact hfinal.last

end Search

/-! ## The lines of a snapshot -/

namespace Report

/-- Whether a line shows a key: the private key, the public key or the address. -/
def isKeyLine (line : String) : Bool :=
  ["Priv: ", "Pub: ", "IP: "].any fun label => label.toList.isPrefixOf line.toList

/-- The lines of a text that show a key. -/
def keyLines (lines : List String) : List String := lines.filter isKeyLine

theorem keyLines_append (front back : List String) :
    keyLines (front ++ back) = keyLines front ++ keyLines back :=
  List.filter_append front back

theorem isKeyLine_append {label : String} (h : label ∈ ["Priv: ", "Pub: ", "IP: "]) (rest : String) :
    isKeyLine (label ++ rest) = true := by
  rw [isKeyLine, List.any_eq_true]
  refine ⟨label, h, ?_⟩
  rw [List.isPrefixOf_iff_prefix, String.toList_append]
  exact List.prefix_append _ _

/-- A line that starts with another letter than the labels shows no key. -/
theorem isKeyLine_of_head {line : String} {c : Char} (h : line.toList.head? = some c)
    (hc : c ∉ ['P', 'I']) : isKeyLine line = false := by
  have hlabels : ∀ label ∈ ["Priv: ", "Pub: ", "IP: "], ∃ first ∈ ['P', 'I'],
      label.toList.head? = some first := by
    intro label hlabel
    simp only [List.mem_cons, List.not_mem_nil, or_false] at hlabel
    rcases hlabel with rfl | rfl | rfl
    · exact ⟨'P', by decide, rfl⟩
    · exact ⟨'P', by decide, rfl⟩
    · exact ⟨'I', by decide, rfl⟩
  rw [isKeyLine, List.any_eq_false]
  intro label hlabel hprefix
  obtain ⟨first, hfirst, hhead⟩ := hlabels label hlabel
  obtain ⟨rest, hrest⟩ := List.isPrefixOf_iff_prefix.mp hprefix
  rw [← hrest, List.head?_append, hhead, Option.some_or] at h
  exact hc (Option.some.inj h ▸ hfirst)

theorem keyLines_candidateLines (c : Candidate) (verbose : Bool) :
    keyLines (candidateLines c verbose) = candidateLines c false := by
  have hshown : ∀ line ∈ candidateLines c false, isKeyLine line = true := by
    intro line hline
    simp only [candidateLines, Bool.false_eq_true, if_false, List.append_nil, List.mem_cons,
      List.not_mem_nil, or_false] at hline
    rcases hline with rfl | rfl | rfl <;> exact isKeyLine_append (by decide) _
  have hscores : keyLines (if verbose then ["Zero bits: " ++ toString c.zeroBits ++ " | Zero blocks: "
      ++ toString c.zeroBlocks] else []) = [] := by
    cases verbose with
    | false => rfl
    | true =>
        refine List.filter_eq_nil_iff.mpr fun line hline => ?_
        rw [List.mem_singleton.mp hline, isKeyLine_of_head (c := 'Z') ?_ (by decide)]
        · exact Bool.false_ne_true
        · simp [String.toList_append]
  have hsplit : candidateLines c verbose = candidateLines c false ++ (if verbose then
      ["Zero bits: " ++ toString c.zeroBits ++ " | Zero blocks: " ++ toString c.zeroBlocks]
        else []) := rfl
  rw [hsplit, keyLines_append, hscores, List.append_nil]
  exact List.filter_eq_self.mpr hshown

/-- The speed shows no key. -/
theorem keyLines_speedLines {α : Type} {s : Snapshot α} {verbose : Bool} {lines : List String}
    (h : speedLines s verbose = .ok lines) : keyLines lines = [] := by
  -- each line starts with dashes
  have hdashes : ∀ line ∈ lines, line.toList.head? = some '-' := by
    unfold speedLines at h
    split at h
    · cases h
    · split at h
      · cases h
        exact fun line hline => absurd hline List.not_mem_nil
      · split at h
        · cases h
        · cases h
          intro line hline
          rcases List.mem_cons.mp hline with rfl | hline
          · simp [String.toList_append]
          · split at hline
            · rw [List.mem_singleton.mp hline]
              simp [String.toList_append]
            · exact absurd hline List.not_mem_nil
  refine List.filter_eq_nil_iff.mpr fun line hline => ?_
  rw [isKeyLine_of_head (hdashes line hline) (by decide)]
  exact Bool.false_ne_true

/-- The lines of a snapshot show its best find, and no other key. -/
theorem keyLines_bestLines {s : Snapshot Candidate} {verbose : Bool} {lines : List String}
    (h : bestLines s verbose = .ok lines) {best : Candidate} (hbest : s.best = some best) :
    keyLines lines = candidateLines best false := by
  unfold bestLines at h
  split at h
  · cases h
  · next speed hspeed =>
    cases h
    rw [hbest, keyLines_append, keyLines_speedLines hspeed, List.nil_append]
    exact keyLines_candidateLines best verbose

/-- A time that a clock shows up to `2 ^ 900` milliseconds is far from the largest number. -/
theorem atMost_of_clock {now : Nat} (hnow : now ≤ 2 ^ 900) :
    ((Search.seconds now).sub (Search.seconds 0)).AtMost (2 ^ 900) := by
  have hseconds : (Search.seconds now).AtMost (2 ^ 900) := by
    rw [Search.seconds_eq]
    exact Binary64.atMost_ofQuotient (by decide) (hnow.trans (Nat.le_mul_of_pos_right _ (by decide)))
      (by decide) false
  exact hseconds.sub_zero (by decide) Binary64.minExponent

/-- So it can be printed: it has an integer part, and so has its number of nanoseconds. -/
theorem bestLines_of_clock {s : Snapshot Candidate} {now : Nat} (hnow : now ≤ 2 ^ 900)
    (helapsed : s.elapsed = .real ((Search.seconds now).sub (Search.seconds 0))) (verbose : Bool) :
    ∃ lines, bestLines s verbose = .ok lines := by
  have hsmall := atMost_of_clock hnow
  have hsecond : (Binary64.ofInt Duration.second).AtMost (2 ^ 30) :=
    Binary64.atMost_ofQuotient (by decide) (by decide) (by decide) false
  obtain ⟨part, hpart⟩ := hsmall.exists_integers.1
  have hproduct := hsmall.mul hsecond (by decide)
  obtain ⟨nearest, hnearest⟩ := hproduct.exists_integers.2
  -- its hours have far fewer digits than are written
  have hwritable : Literal.isWritable (nearest.natAbs / Duration.hour) = true := by
    have hle : nearest.natAbs ≤ 2 ^ (900 + 30) := hproduct.natAbs_nearest_le hnearest
    have hlimit : 2 ^ (900 + 30) < Nat.pow 10 Literal.maxDigits := by decide +kernel
    exact decide_eq_true ((Nat.div_le_self _ _).trans_lt (hle.trans_lt hlimit))
  have hduration : Duration.text s.elapsed = .ok (String.ofList (Duration.chars nearest)) := by
    simp only [Duration.text, helapsed, Duration.nanoseconds, hnearest, hwritable, if_true]
  have hspeed : ∃ speed, speedLines s verbose = .ok speed := by
    simp only [speedLines, hduration]
    rw [helapsed]
    simp only [Quantity.truncate, hpart]
    split <;> exact ⟨_, rfl⟩
  obtain ⟨speed, hspeed⟩ := hspeed
  exact ⟨_, by rw [bestLines, hspeed]⟩

/-! ### Texts of lines -/

/-- A text of lines is printed like its lines. -/
theorem joinLines_lineEnd {lines : List String} (h : lines ≠ []) :
    joinLines lines ++ "\n" = String.join (lines.map (· ++ "\n")) := by
  induction lines with
  | nil => exact absurd rfl h
  | cons line rest ih =>
      cases rest with
      | nil => simp [joinLines]
      | cons next rest =>
          have hrest := ih (List.cons_ne_nil next rest)
          rw [List.map_cons, String.join_cons, ← hrest, joinLines, String.intercalate_cons_cons,
            String.append_assoc]
          rfl

theorem bestLines_ne_nil {s : Snapshot Candidate} {verbose : Bool} {lines : List String}
    (h : bestLines s verbose = .ok lines) : lines ≠ [] := by
  unfold bestLines at h
  split at h
  · cases h
  · cases h
    cases s.best <;> simp [candidateLines]

/-- Reports are printed like their lines. -/
theorem join_bestLines {verbose : Bool} {reports : List (Snapshot Candidate)}
    {printed : List (List String)}
    (h : List.Forall₂ (fun r lines => bestLines r verbose = .ok lines) reports printed) :
    String.join ((printed.map joinLines).map (· ++ "\n"))
      = String.join (printed.flatten.map (· ++ "\n")) := by
  induction h with
  | nil => rfl
  | cons hlines _ ih =>
      rw [List.map_cons, List.map_cons, String.join_cons, ih, joinLines_lineEnd (bestLines_ne_nil hlines),
        List.flatten_cons, List.map_append, String.join_append]

end Report

/-! ## What is printed -/

namespace Console

theorem printLines_append (c : Console) (front back : List String) :
    c.printLines (front ++ back) = (c.printLines front).printLines back :=
  List.foldl_append

/-- What is printed does not depend on the log. -/
theorem output_printLines_congr {c d : Console} (h : c.output = d.output) (lines : List String) :
    (c.printLines lines).output = (d.printLines lines).output := by
  rw [printLines_eq, printLines_eq, h]

end Console

namespace Program

open Report (bestLines joinLines keyLines)

variable {w : World} {p : Plan} {final : Search Candidate}

theorem printBest_eq_ok {s : Snapshot Candidate} {verbose : Bool} {lines : List String}
    (h : bestLines s verbose = .ok lines) (console : Console) :
    printBest console verbose s = .ok (console.printLine (joinLines lines)) := by
  rw [printBest, Report.bestText, h]
  rfl

/-- Each of the reports in lines, if all of them can be printed. -/
theorem exists_printed {verbose : Bool} {reports : List (Snapshot Candidate)}
    (h : ∀ r ∈ reports, ∃ lines, bestLines r verbose = .ok lines) :
    ∃ printed, List.Forall₂ (fun r lines => bestLines r verbose = .ok lines) reports printed := by
  induction reports with
  | nil => exact ⟨[], .nil⟩
  | cons r rest ih =>
      obtain ⟨lines, hlines⟩ := h r List.mem_cons_self
      obtain ⟨printed, hprinted⟩ := ih fun other hother => h other (List.mem_cons_of_mem r hother)
      exact ⟨lines :: printed, .cons hlines hprinted⟩

/-- Reports are printed one after another. -/
theorem printReports_eq_ok {verbose : Bool} {reports : List (Snapshot Candidate)}
    {printed : List (List String)}
    (h : List.Forall₂ (fun r lines => bestLines r verbose = .ok lines) reports printed)
    (console : Console) :
    printReports verbose reports console = .ok (console.printLines (printed.map joinLines)) := by
  induction h generalizing console with
  | nil => rfl
  | cons hlines _ ih =>
      rw [printReports, printBest_eq_ok hlines]
      exact ih _

/-- The last report and the lines that were printed of it. -/
theorem exists_last_printed {verbose : Bool} {reports : List (Snapshot Candidate)}
    {printed : List (List String)}
    (h : List.Forall₂ (fun r lines => bestLines r verbose = .ok lines) reports printed)
    {r : Snapshot Candidate} (hr : reports.getLast? = some r) :
    ∃ last, printed.getLast? = some last ∧ bestLines r verbose = .ok last := by
  induction h with
  | nil => cases hr
  | cons hlines hrest ih =>
      cases hrest with
      | nil =>
          cases hr
          exact ⟨_, rfl, hlines⟩
      | cons hnext hrest =>
          rw [List.getLast?_cons_cons] at hr ⊢
          exact ih hr

/-- The reports and the summary between two rulers, line by line. -/
theorem join_printed {verbose : Bool} {printed : List (List String)} {summary : List String}
    (hprinted : List.Forall₂ (fun r lines => bestLines r verbose = .ok lines) final.reports printed)
    (hsummary : bestLines final.snapshot true = .ok summary) (rest : List String) :
    String.join ((printed.map joinLines ++ [ruler '=', joinLines summary, ruler '='] ++ rest).map
        (· ++ "\n"))
      = String.join ((printed.flatten ++ [ruler '='] ++ summary ++ [ruler '='] ++ rest).map
        (· ++ "\n")) := by
  have hlines := Report.joinLines_lineEnd (Report.bestLines_ne_nil hsummary)
  simp only [List.map_append, List.map_cons, List.map_nil, String.join_append, String.join_cons,
    String.join_nil, Report.join_bestLines hprinted, hlines, String.append_assoc, String.append_empty]

/-! ## After the summary -/

/-- What a run does after the summary. -/
def closing (w : World) (p : Plan) (best : Option Candidate) (console : Console) : Outcome :=
  match best with
  | none =>
    stop w (console.printLine "No key was generated before the search stopped.") (.finished 1)
  | some best =>
    farewell (if p.options.json then saveBest w p best console else stop w console (.finished 0))

/-- The lines after the summary, when keys are saved in the given directory. -/
def closingLines (w : World) (p : Plan) (dir : Option (List Nat)) : Option Candidate → List String
  | none => ["No key was generated before the search stopped."]
  | some best =>
    (if p.options.json then
        ["", "Key saved to JSON file:",
          "  " ++ Text.ofCodePoints (SavedKey.file w.files dir best).text]
      else [])
      ++ ["", "Keep your private key secure and never share it!"]

/-- After a search come its reports, the summary between two rulers and what closes the run. -/
theorem conclude_eq {printed : List (List String)} {summary : List String}
    (hprinted : List.Forall₂ (fun r lines => bestLines r p.settings.verbose = .ok lines)
      final.reports printed)
    (hsummary : bestLines final.snapshot true = .ok summary) :
    conclude w p final = closing w p final.best ((p.console.report final.log).printLines
      (printed.map joinLines ++ [ruler '=', joinLines summary, ruler '='])) := by
  rw [conclude, printReports_eq_ok hprinted]
  dsimp only
  rw [printBest_eq_ok hsummary, Console.printLines_append]
  dsimp only
  cases final.best <;> rfl

/-- How a run closes: it ends with a status that says whether there is a best key, it says so, and
the files are as they were, or as they are after the best key was saved. -/
structure Closed (w : World) (p : Plan) (dir : Option (List Nat)) (best : Option Candidate)
    (console : Console) (o : Outcome) : Prop where
  ending : o.ending = .finished (if best.isSome then 0 else 1)
  output : o.console.output = (console.printLines (closingLines w p dir best)).output
  untouched : best = none ∨ p.options.json = false → o.files = w.files
  saved : p.options.json = true → ∀ c ∈ best, SavedKey.Saved w.files dir w.time c o.files

theorem closed_none (w : World) (p : Plan) (dir : Option (List Nat)) (console : Console) :
    Closed w p dir none console (closing w p none console) :=
  ⟨rfl, rfl, fun _ => rfl, fun _ c hc => by cases hc⟩

theorem closed_unsaved (hjson : p.options.json = false) (dir : Option (List Nat))
    (best : Candidate) (console : Console) :
    Closed w p dir (some best) console (closing w p (some best) console) := by
  have hclosing : closing w p (some best) console
      = farewell (stop w console (.finished 0)) := by
    simp only [closing, hjson, Bool.false_eq_true, if_false]
  rw [hclosing]
  refine ⟨rfl, ?_, fun _ => rfl, fun htrue => ?_⟩
  · rw [closingLines, hjson]
    rfl
  · rw [hjson] at htrue
    cases htrue

/-- What is said of a file whose place can be printed, line by line. -/
theorem announceFile_of_printable {l : Files.Location} (h : Text.Printable l.text)
    (console : Console) (files : Files) :
    announceFile console files l = ⟨.finished 0, console.printLines
      ["", "Key saved to JSON file:", "  " ++ Text.ofCodePoints l.text], files⟩ := by
  have hprintable : Text.Printable (savedText l) :=
    Text.printable_append (Text.printable_codePoints _) h
  have hprinted : Text.printed (savedText l)
      = .ok ("\nKey saved to JSON file:\n  " ++ Text.ofCodePoints l.text) := by
    rw [Text.printed_eq_ok_iff.mpr ⟨hprintable, rfl⟩, savedText, Text.ofCodePoints_append,
      Text.ofCodePoints_codePoints]
  -- one text with line ends in it is printed like three lines
  have hends : "\nKey saved to JSON file:\n  "
      = "" ++ "\n" ++ ("Key saved to JSON file:" ++ "\n") ++ "  " := by decide
  have hlines : "\nKey saved to JSON file:\n  " ++ Text.ofCodePoints l.text ++ "\n" = String.join
      (["", "Key saved to JSON file:", "  " ++ Text.ofCodePoints l.text].map (· ++ "\n")) := by
    rw [hends]
    simp only [List.map_cons, List.map_nil, String.join_cons, String.join_nil, String.append_assoc,
      String.append_empty]
  rw [announceFile, Console.printTexts, hprinted, Console.printLines_eq, ← hlines,
    ← String.append_assoc]
  rfl

theorem closing_of_save {dir : Option (List Nat)} {best : Candidate} {files : Files}
    (hjson : p.options.json = true) (hdir : outputDirectory p = .ok dir)
    (hsave : SavedKey.save w.files dir w.time best = .ok files) (console : Console) :
    closing w p (some best) console
      = farewell (announceFile (console.report (SavedKey.saveLog (SavedKey.file w.files dir best)))
        files (SavedKey.file w.files dir best)) := by
  simp only [closing, hjson, if_true, saveBest, hdir, hsave]

theorem closed_saved {dir : Option (List Nat)} {best : Candidate} (hjson : p.options.json = true)
    (hdir : outputDirectory p = .ok dir) (husable : SavedKey.Usable w.files dir best)
    (hplace : Text.Printable (SavedKey.file w.files dir best).text) (console : Console) :
    Closed w p dir (some best) console (closing w p (some best) console) := by
  obtain ⟨files, hsave, hsaved⟩ := husable.exists_saved w.time
  rw [closing_of_save hjson hdir hsave, announceFile_of_printable hplace]
  refine ⟨rfl, ?_, fun hnone => ?_, fun _ c hc => ?_⟩
  · rw [closingLines, hjson, if_pos rfl, Console.printLines_append]
    exact Console.output_printLines_congr (Console.output_printLines_congr rfl _) _
  · rcases hnone with hnone | hfalse
    · cases hnone
    · rw [hjson] at hfalse
      cases hfalse
  · cases hc
    exact hsaved

theorem closed_closing {dir : Option (List Nat)} {best : Option Candidate}
    (hdir : p.options.json = true → outputDirectory p = .ok dir
      ∧ ∀ c ∈ best, SavedKey.Usable w.files dir c
        ∧ Text.Printable (SavedKey.file w.files dir c).text) (console : Console) :
    Closed w p dir best console (closing w p best console) := by
  cases best with
  | none => exact closed_none w p dir console
  | some best =>
      cases hjson : p.options.json with
      | false => exact closed_unsaved hjson dir best console
      | true =>
          obtain ⟨hnamed, hsavable⟩ := hdir hjson
          exact closed_saved hjson hnamed (hsavable best rfl).1 (hsavable best rfl).2 console

/-! ## Whole runs -/

theorem run_eq_conclude {arguments : List (List Nat)} {reason : StopReason}
    (hplan : prepare w arguments = .ok p)
    (hrun : (Search.new p.settings).run p.workers (w.waits p.workers) (w.grace p.workers)
      = some (reason, final)) : run w arguments = conclude w p final := by
  rw [run, hplan]
  dsimp only
  rw [hrun]

/-- The reports and the summary of a search can be printed, unless its clock went too far. -/
theorem exists_printed_of_run {s : Settings} {workers : Nat}
    {waits : List (List (Search.Event Candidate))} {grace : List (Search.Event Candidate)}
    {reason : StopReason} (hrun : (Search.new s).run workers waits grace = some (reason, final))
    (hclock : final.clock ≤ 2 ^ 900) (verbose : Bool) :
    ∃ printed summary,
      List.Forall₂ (fun r lines => bestLines r verbose = .ok lines) final.reports printed
        ∧ bestLines final.snapshot true = .ok summary := by
  have hprintable : ∀ verbose, ∀ r ∈ final.snapshot :: final.reports,
      ∃ lines, bestLines r verbose = .ok lines := by
    intro verbose r hr
    obtain ⟨now, hnow, helapsed⟩ := Search.run_dates hrun r hr
    exact Report.bestLines_of_clock (hnow.trans hclock) helapsed verbose
  obtain ⟨summary, hsummary⟩ := hprintable true final.snapshot List.mem_cons_self
  obtain ⟨printed, hprinted⟩ := exists_printed fun r hr =>
    hprintable verbose r (List.mem_cons_of_mem _ hr)
  exact ⟨printed, summary, hprinted, hsummary⟩

/-- The report before the summary and the summary show the key of the best candidate. -/
theorem keyLines_last {verbose : Bool} {printed : List (List String)} {summary : List String}
    {best : Candidate} (hlast : final.reports.getLast?.map Snapshot.best = some (some best))
    (hbest : final.best = some best)
    (hprinted : List.Forall₂ (fun r lines => bestLines r verbose = .ok lines) final.reports printed)
    (hsummary : bestLines final.snapshot true = .ok summary) :
    ∃ last, printed.getLast? = some last ∧ keyLines last = Report.candidateLines best false
      ∧ keyLines summary = Report.candidateLines best false := by
  obtain ⟨r, hr, hshown⟩ := Option.map_eq_some_iff.mp hlast
  obtain ⟨last, hprintedLast, hlines⟩ := exists_last_printed hprinted hr
  exact ⟨last, hprintedLast, Report.keyLines_bestLines hlines hshown,
    Report.keyLines_bestLines hsummary hbest⟩

/-- At noon one worker makes a key, and the search is asked to stop meanwhile. The worker ends while
the search waits for it. -/
def oneKeyWorld : World :=
  { files := SavedKey.homeFiles
    machine := ⟨some 2, .ok {}⟩
    time := SavedKey.noon
    primitive := .ed25519
    waits := fun _ => [Search.oneKey]
    grace := fun _ => [.turn 0 (Search.candidates .ed25519 Seed.zero) none] }

end Program

end KeySearch
