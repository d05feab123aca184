import KeySearch.Proofs.ExpandedValues
import KeySearch.Proofs.LoadedSections
import KeySearch.Proofs.ProgramRuns

/-!
# The directory of the configuration

A run that saves its key and is told no directory asks the configuration for one, and it asks after the
search. `run_saves_or_crashes` says what becomes of the key then: it is saved, in the directory that is
named or in the working directory, unless the raw value stands for no text. In that case, and in no
other, the run ends in the fault and the key is lost.
-/

set_option autoImplicit false

namespace KeySearch.Program

variable {w : World} {p : Plan} {final : Search Candidate} {arguments : List (List Nat)}

/-! ## What a plan is made from -/

theorem prepareSearch_eq_ok {o : CommandLine.Options} {d : Ini.Document} {console : Console}
    (h : prepareSearch w o d console = .ok p) :
    p.options = o ∧ p.document = d ∧ o.settings d = .ok p.settings := by
  unfold prepareSearch at h
  dsimp only at h
  split at h
  · cases h
  · cases h
  · cases h
  · cases h
  · next s hsettings =>
    split at h
    · cases h
    · split_ifs at h
      split at h
      · cases h
      · cases h
        exact ⟨rfl, rfl, hsettings⟩

theorem prepareFromConfig_eq_ok {o : CommandLine.Options} {console : Console}
    (h : prepareFromConfig w o console = .ok p) :
    p.options = o ∧ o.settings p.document = .ok p.settings
      ∧ ∃ place log, o.config = .value place
        ∧ Ini.load w.files place = (.document p.document, log) := by
  unfold prepareFromConfig at h
  split at h
  · cases h
  · cases h
  · next place hplace =>
    cases hload : Ini.load w.files place with
    | mk loaded log =>
        rw [hload] at h
        cases loaded with
        | refused => cases h
        | undecodable e => cases h
        | document d =>
            obtain ⟨hoptions, rfl, hsettings⟩ := prepareSearch_eq_ok h
            exact ⟨hoptions, hsettings, place, log, hplace, hload⟩

/-- A plan has the options of the arguments, the document that these name, and their settings for it. -/
theorem prepare_eq_ok (h : prepare w arguments = .ok p) :
    CommandLine.read arguments = .ok (.options p.options)
      ∧ (∃ place log, p.options.config = .value place
        ∧ Ini.load w.files place = (.document p.document, log))
      ∧ p.options.settings p.document = .ok p.settings := by
  unfold prepare at h
  split at h
  · cases h
  · cases h
  · next o hread =>
    dsimp only at h
    split at h
    · cases h
    · split at h
      · cases h
      · cases h
      · obtain ⟨rfl, hsettings, hload⟩ := prepareFromConfig_eq_ok h
        exact ⟨hread, hload, hsettings⟩

/-! ## The directory -/

/-- The directory that a configuration names for saved keys, none if the option is unset. -/
def NamesDirectory (d : Ini.Document) : Option String → Prop
  | none => d.Unset Settings.sectionName "output_dir"
  | some text => d.StandsFor Settings.sectionName "output_dir" text

theorem get?_eq_ok_iff {d : Ini.Document} {named : Option String} :
    d.get? Settings.sectionName "output_dir" = .ok named ↔ NamesDirectory d named := by
  cases named with
  | none => exact Ini.Document.get?_eq_none_iff
  | some text => exact Ini.Document.get?_eq_some_iff

theorem outputDirectory_eq_ok_iff {dir : Option (List Nat)}
    (habsent : p.options.outputDir.text? = none) :
    outputDirectory p = .ok dir
      ↔ ∃ named, NamesDirectory p.document named ∧ named.map Text.codePoints = dir := by
  rw [outputDirectory, habsent]
  dsimp only
  constructor
  · intro h
    cases hget : p.document.get? Settings.sectionName "output_dir" with
    | error e =>
        rw [hget] at h
        cases h
    | ok named =>
        rw [hget] at h
        exact ⟨named, get?_eq_ok_iff.mp hget, Except.ok.inj h⟩
  · rintro ⟨named, hnamed, rfl⟩
    rw [get?_eq_ok_iff.mpr hnamed]
    rfl

theorem exists_outputDirectory_eq_error_iff (habsent : p.options.outputDir.text? = none) :
    (∃ e, outputDirectory p = .error e) ↔
      p.document.StandsForNothing Settings.sectionName "output_dir" := by
  rw [outputDirectory, habsent, ← Ini.Document.exists_get?_eq_error_iff]
  dsimp only
  cases p.document.get? Settings.sectionName "output_dir" <;> simp [Except.map]

/-! ## The end of a run -/

/-- A run that comes to the end of its search comes to what is after the summary. -/
theorem run_eq_closing {reason : StopReason} (hplan : prepare w arguments = .ok p)
    (hrun : (Search.new p.settings).run p.workers (w.waits p.workers) (w.grace p.workers)
      = some (reason, final)) (hclock : final.clock ≤ 2 ^ 900) :
    ∃ console, run w arguments = closing w p final.best console := by
  obtain ⟨printed, summary, hprinted, hsummary⟩ :=
    exists_printed_of_run hrun hclock p.settings.verbose
  exact ⟨_, (run_eq_conclude hplan hrun).trans (conclude_eq hprinted hsummary)⟩

theorem closing_of_error {e : Ini.ExpansionError} {best : Candidate} (hjson : p.options.json = true)
    (hdir : outputDirectory p = .error e) (console : Console) :
    closing w p (some best) console = stop w console (.crashed (.expansion e)) := by
  simp only [closing, hjson, if_true, saveBest, hdir]
  rfl

theorem closing_not_expansion {dir : Option (List Nat)} {best : Candidate}
    (hjson : p.options.json = true) (hdir : outputDirectory p = .ok dir) (console : Console)
    (e : Ini.ExpansionError) : (closing w p (some best) console).ending ≠ .crashed (.expansion e) := by
  cases hsave : SavedKey.save w.files dir w.time best with
  | error fault =>
      simp only [closing, hjson, if_true, saveBest, hdir, hsave]
      simp [farewell, stop]
  | ok files =>
      rw [closing_of_save hjson hdir hsave, announceFile]
      split <;> simp [farewell]

/-- A key that can be saved is saved, also where the place of its file cannot be printed. -/
theorem closing_saved {dir : Option (List Nat)} {best : Candidate} (hjson : p.options.json = true)
    (hdir : outputDirectory p = .ok dir) (husable : SavedKey.Usable w.files dir best)
    (console : Console) :
    SavedKey.Saved w.files dir w.time best (closing w p (some best) console).files
      ∧ ∀ e, Text.printed (savedText (SavedKey.file w.files dir best)) = .error e →
        (closing w p (some best) console).ending = .crashed (.unprintable e) := by
  obtain ⟨files, hsave, hsaved⟩ := husable.exists_saved w.time
  rw [closing_of_save hjson hdir hsave, announceFile]
  -- the file is there by the time anything is said of it
  constructor
  · split <;> exact hsaved
  · intro e he
    rw [Console.printTexts, he]
    rfl

/-- **The best key is saved unless the directory of the configuration stands for nothing.** Let a search
come to its end with a best key that is to be saved, without a directory among the arguments and with
workers that ask the key primitive of the run. The document is the one that was loaded and the settings
were made of. If the raw value of the option for the directory stands for no text, the run ends in that
fault and the files stay as they are; no other run ends in such a fault. Otherwise one directory is
named, and if it can be used the key is saved in it and loaded from there. The run then ends well, unless
the place of the file cannot be printed: after that it ends in this fault. -/
theorem run_saves_or_crashes {reason : StopReason} {best : Candidate}
    (hplan : prepare w arguments = .ok p) (hjson : p.options.json = true)
    (habsent : p.options.outputDir.text? = none)
    (hrun : (Search.new p.settings).run p.workers (w.waits p.workers) (w.grace p.workers)
      = some (reason, final))
    (hsources : ∀ events ∈ w.grace p.workers :: w.waits p.workers, ∀ e ∈ events,
      ∀ source ∈ e.source?, source.Uses w.primitive)
    (hclock : final.clock ≤ 2 ^ 900) (hbest : final.best = some best) :
    (∃ place log, p.options.config = .value place
        ∧ Ini.load w.files place = (.document p.document, log)
        ∧ p.options.settings p.document = .ok p.settings)
      ∧ ((∃ e, (run w arguments).ending = .crashed (.expansion e)) ↔
          p.document.StandsForNothing Settings.sectionName "output_dir")
      ∧ (p.document.StandsForNothing Settings.sectionName "output_dir" →
          (run w arguments).files = w.files)
      ∧ (¬ p.document.StandsForNothing Settings.sectionName "output_dir" →
          ∃ named dir, NamesDirectory p.document named ∧ named.map Text.codePoints = dir
            ∧ (SavedKey.Usable w.files dir best →
              (Text.Printable (SavedKey.file w.files dir best).text →
                  (run w arguments).ending = .finished 0)
                ∧ (∀ e, Text.printed (savedText (SavedKey.file w.files dir best)) = .error e →
                  (run w arguments).ending = .crashed (.unprintable e))
                ∧ SavedKey.Saved w.files dir w.time best (run w arguments).files
                ∧ SavedKey.load w.primitive (run w arguments).files
                    (SavedKey.file w.files dir best).text = .ok (some best, []))) := by
  obtain ⟨-, ⟨place, log, hplace, hload⟩, hsettings⟩ := prepare_eq_ok hplan
  obtain ⟨console, hclosing⟩ := run_eq_closing hplan hrun hclock
  rw [hbest] at hclosing
  rw [hclosing]
  refine ⟨⟨place, log, hplace, hload, hsettings⟩, ?_⟩
  rw [← exists_outputDirectory_eq_error_iff habsent]
  cases hdir : outputDirectory p with
  | error e =>
      -- the key is not even tried to be saved
      rw [closing_of_error hjson hdir console]
      exact ⟨iff_of_true ⟨e, rfl⟩ ⟨e, rfl⟩, fun _ => rfl, fun h => absurd ⟨e, rfl⟩ h⟩
  | ok dir =>
      obtain ⟨named, hnamed, hsame⟩ := (outputDirectory_eq_ok_iff habsent).mp hdir
      refine ⟨iff_of_false ?_ (by simp), by simp, fun _ => ⟨named, dir, hnamed, hsame, ?_⟩⟩
      · rintro ⟨e, he⟩
        exact closing_not_expansion hjson hdir console e he
      · intro husable
        obtain ⟨hsaved, hunprintable⟩ := closing_saved hjson hdir husable console
        exact ⟨fun hplace => (closed_saved hjson hdir husable hplace console).ending, hunprintable,
          hsaved, hsaved.load_eq husable (Search.run_best_derived hrun hsources hbest)⟩

/-! ## One key and a configuration -/

/-- One worker makes one key, and a configuration is there. -/
def configuredWorld (config : String) : World :=
  { oneKeyWorld with files := Ini.configFile config.toUTF8.toList }

/-- The search of that worker has a best key. -/
theorem exists_oneKey_run : ∃ reason final best,
    (Search.new ⟨1, 0, false, false, 0⟩).run 1 (oneKeyWorld.waits 1) (oneKeyWorld.grace 1)
        = some (reason, final)
      ∧ final.best = some best ∧ final.clock ≤ 2 ^ 900 ∧ SavedKey.fileName best = "ygg_3b6a27bc.json" := by
  have hsearched : ((Search.new ⟨1, 0, false, false, 0⟩).run 1 (oneKeyWorld.waits 1)
      (oneKeyWorld.grace 1)).map (fun r => (r.2.best.map SavedKey.fileName, r.2.clock))
        = some (some (Text.codePoints "ygg_3b6a27bc.json"), 100) := by
    decide +kernel
  obtain ⟨⟨reason, final⟩, hrun, hresult⟩ := Option.map_eq_some_iff.mp hsearched
  simp only [Prod.mk.injEq] at hresult
  obtain ⟨hname, hclock⟩ := hresult
  obtain ⟨best, hbest, hname⟩ := Option.map_eq_some_iff.mp hname
  exact ⟨reason, final, best, hrun, hbest, hclock.trans_le (by decide +kernel), hname⟩

theorem oneKeyWorld_uses (count : Nat) : ∀ events ∈ oneKeyWorld.grace count :: oneKeyWorld.waits count,
    ∀ e ∈ events, ∀ source ∈ e.source?, source.Uses .ed25519 := by
  have huses : (Search.candidates .ed25519 Seed.zero).Uses .ed25519 := ⟨.ed25519, fun _ _ h => h, rfl⟩
  simp [oneKeyWorld, Search.oneKey, Search.Event.source?, huses]

/-- The plan of a run that saves the key of that worker. -/
theorem exists_plan {config : String} {dir : Except Ini.ExpansionError (Option (List Nat))}
    (h : (prepare (configuredWorld config) ["--threads", "1", "--json"]).toOption.map
      (fun p => (p.settings, p.workers, p.options.json && p.options.outputDir.text?.isNone,
        outputDirectory p)) = some (⟨1, 0, false, false, 0⟩, 1, true, dir)) :
    ∃ p, prepare (configuredWorld config) ["--threads", "1", "--json"] = .ok p
      ∧ p.settings = ⟨1, 0, false, false, 0⟩ ∧ p.workers = 1 ∧ p.options.json = true
      ∧ p.options.outputDir.text? = none ∧ outputDirectory p = dir := by
  cases hplan : prepare (configuredWorld config) ["--threads", "1", "--json"] with
  | error o =>
      rw [hplan] at h
      cases h
  | ok p =>
      rw [hplan] at h
      simp only [Except.toOption, Option.map_some, Option.some.injEq, Prod.mk.injEq, Bool.and_eq_true,
        Option.isNone_iff_eq_none, and_assoc] at h
      exact ⟨p, rfl, h⟩

/-- A configuration with a directory in which two percent signs stand for one. -/
def percentConfig : String := "[genkeys]\noutput_dir = 50%%"

/-- A configuration with a directory in which a percent sign stands alone. -/
def strayConfig : String := "[genkeys]\noutput_dir = 50%"

/-- The directory can be used, since nothing of its name is there. -/
theorem usable_percent {best : Candidate} (hname : SavedKey.fileName best = "ygg_3b6a27bc.json") :
    SavedKey.Usable (configuredWorld percentConfig).files (some "50%") best
      ∧ (SavedKey.file (configuredWorld percentConfig).files (some "50%") best).text
        = "/w/50%/ygg_3b6a27bc.json" := by
  have hfile : SavedKey.file (configuredWorld percentConfig).files (some "50%") best
      = ⟨["w", "50%", "ygg_3b6a27bc.json"], false⟩ := by
    rw [SavedKey.file, hname]
    decide +kernel
  have hhere : ∀ part ∈ (configuredWorld percentConfig).files.here, Files.IsName part := by
    decide
  obtain ⟨made, hmade, hnew⟩ : ∃ made,
      (configuredWorld percentConfig).files.makeDirectory
          (SavedKey.directory (configuredWorld percentConfig).files (some "50%")) = .ok made
        ∧ made.node? ["w", "50%", "ygg_3b6a27bc.json"] = none :=
    ⟨(configuredWorld percentConfig).files.put ["w", "50%"] .directory, by decide +kernel,
      by decide +kernel⟩
  refine ⟨⟨hhere, ?_, made, hmade, fun node hnode => ?_⟩, ?_⟩
  · rw [hfile]
    decide +kernel
  · rw [hfile, hnew] at hnode
    cases hnode
  · rw [hfile]
    decide +kernel

/-- Two percent signs stand for one, and the key is saved in the directory of that name. -/
theorem run_saves_or_crashes_percent :
    ∃ best, (run (configuredWorld percentConfig) ["--threads", "1", "--json"]).ending
        = .finished 0
      ∧ SavedKey.load .ed25519
          (run (configuredWorld percentConfig) ["--threads", "1", "--json"]).files
          "/w/50%/ygg_3b6a27bc.json" = .ok (some best, []) := by
  obtain ⟨p, hplan, hsettings, hworkers, hjson, habsent, hdir⟩ :=
    @exists_plan percentConfig (.ok (some "50%")) (by decide +kernel)
  obtain ⟨reason, final, best, hrun, hbest, hclock, hname⟩ := exists_oneKey_run
  rw [← hsettings, ← hworkers] at hrun
  obtain ⟨-, -, -, hsaved⟩ := run_saves_or_crashes hplan hjson habsent hrun
    (oneKeyWorld_uses p.workers) hclock hbest
  have hstands : ¬ p.document.StandsForNothing Settings.sectionName "output_dir" := by
    simp [← exists_outputDirectory_eq_error_iff habsent, hdir]
  obtain ⟨named, dir, hnamed, hnamedDir, hloaded⟩ := hsaved hstands
  have hsame := (outputDirectory_eq_ok_iff habsent).mpr ⟨named, hnamed, hnamedDir⟩
  rw [hdir] at hsame
  cases hsame
  obtain ⟨husable, hplace⟩ := usable_percent hname
  obtain ⟨hending, -, -, hload⟩ := hloaded husable
  rw [hplace] at hending hload
  exact ⟨best, hending (Text.printable_codePoints _), hload⟩

/-- The statement that is not so: no value of the option makes a run crash after its search. One percent
sign that nothing follows does. -/
theorem not_forall_run_saves :
    ¬ ∀ (w : World) (arguments : List (List Nat)) (p : Plan) (reason : StopReason)
        (final : Search Candidate) (best : Candidate),
      prepare w arguments = .ok p → p.options.json = true → p.options.outputDir.text? = none →
        (Search.new p.settings).run p.workers (w.waits p.workers) (w.grace p.workers)
          = some (reason, final) →
        final.best = some best → final.clock ≤ 2 ^ 900 →
          ∀ e, (run w arguments).ending ≠ .crashed (.expansion e) := by
  intro hall
  obtain ⟨p, hplan, hsettings, hworkers, hjson, habsent, hdir⟩ :=
    @exists_plan strayConfig
      (.error ⟨.strayPercent ['%'], "output_dir", "genkeys", "50%"⟩) (by decide +kernel)
  obtain ⟨reason, final, best, hrun, hbest, hclock, -⟩ := exists_oneKey_run
  rw [← hsettings, ← hworkers] at hrun
  obtain ⟨console, hclosing⟩ := run_eq_closing hplan hrun hclock
  rw [hbest, closing_of_error hjson hdir] at hclosing
  exact hall _ _ p reason final best hplan hjson habsent hrun hbest hclock _
    (congrArg Outcome.ending hclosing)

end KeySearch.Program
