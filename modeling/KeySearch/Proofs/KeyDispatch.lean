import KeySearch.Proofs.GivenKeys
import KeySearch.Proofs.KeyChecks

/-!
# A key to check instead of a search

A run with a key to check never comes to a search: it ends as the check of the key ends. Two texts are
taken for no key, the empty one and `--`, and with one of these a run searches as if no key had been
given, so the check never says what is wrong with them.
-/

set_option autoImplicit false

namespace KeySearch

/-- Options without what they say of a key. -/
def CommandLine.Options.withoutKey (o : Options) : Options := { o with checkKey := .absent }

namespace Program

open CommandLine (NoKey given? keyWord)

variable {w : World} {arguments other : List (List Nat)} {o : CommandLine.Options} {key : List Nat}

/-! ## A run with a key -/

theorem prepare_of_key (hread : CommandLine.read arguments = .ok (.options o))
    (hkey : o.checkKey.text? = some key) :
    prepare w arguments = .error (checkKey w (Console.start.setVerbose o.verbose) key) := by
  unfold prepare
  rw [hread]
  dsimp only
  rw [hkey]

/-- A command line that asks for help or is not understood comes to no search either. -/
theorem exists_prepare_eq_error (h : ∀ o, CommandLine.read arguments ≠ .ok (.options o)) :
    ∃ outcome, prepare w arguments = .error outcome := by
  unfold prepare
  cases hread : CommandLine.read arguments with
  | error e => exact ⟨_, rfl⟩
  | ok request =>
      cases request with
      | help => exact ⟨_, rfl⟩
      | options o => exact absurd hread (h o)

/-- How the check of a key ends: with the five lines of a candidate, with one line that says why there
is none, or in the fault of a file that is there: it holds values of a wrong kind, or no key and its
name cannot be printed. -/
inductive Checked (w : World) (console : Console) (key : List Nat) : Outcome → Prop
  | candidate (c : Candidate) (log : List Log.Record) :
      Checked w console key
        (stop w ((console.report log).printLines (KeyCheck.describe c)) (.finished 0))
  | refused (reason : String) (log : List Log.Record) :
      Checked w console key (refuse w (console.report log) reason)
  | crash (e : SavedKey.Crash) (hfile : w.files.isFile key = true)
      (hload : SavedKey.load w.primitive w.files key = .error e) :
      Checked w console key (stop w console (.crashed (.savedKey e)))
  | unprintable (e : Text.EncodingError) (log : List Log.Record) (hfile : w.files.isFile key = true)
      (hload : SavedKey.load w.primitive w.files key = .ok (none, log))
      (hline : Text.printed (Text.codePoints "Error: " ++ KeyCheck.noKeyText key) = .error e) :
      Checked w console key (stop w (console.report log) (.crashed (.unprintable e)))

theorem checked_ofText (w : World) (console : Console) (hfile : w.files.isFile key = false) :
    Checked w console key (checkKey w console key) := by
  rcases KeyCheck.accepted_or_refused w.primitive key with ⟨c, hc⟩ | ⟨reason, hreason⟩
  · have hchecked : Checked w console key _ := .candidate c []
    rw [Console.report_nil] at hchecked
    rw [checkKey_of_accepted hfile hc]
    exact hchecked
  · have hchecked : Checked w console key _ := .refused reason []
    rw [Console.report_nil] at hchecked
    rw [checkKey_of_refused hfile hreason]
    exact hchecked

theorem checked_of_candidate {c : Candidate} {log : List Log.Record}
    (h : KeyCheck.run w.primitive w.files key = .ok { KeyCheck.accept c with log := log })
    (console : Console) : Checked w console key (checkKey w console key) := by
  rw [checkKey, h]
  dsimp only [KeyCheck.accept]
  rw [Console.printTexts_codePoints]
  exact .candidate c log

theorem checked_of_none {log : List Log.Record} (hfile : w.files.isFile key = true)
    (hload : SavedKey.load w.primitive w.files key = .ok (none, log)) (console : Console) :
    Checked w console key (checkKey w console key) := by
  rw [checkKey, KeyCheck.run, if_pos hfile, hload]
  dsimp only [KeyCheck.reject]
  -- the line names the file, and a name may be one that cannot be printed
  cases hline : Text.printed (Text.codePoints "Error: " ++ KeyCheck.noKeyText key) with
  | error e =>
      rw [Console.printTexts, hline]
      exact .unprintable e log hfile hload hline
  | ok line =>
      rw [Console.printTexts, hline, ← (Text.printed_eq_ok_iff.mp hline).2, Text.ofCodePoints_append,
        Text.ofCodePoints_codePoints]
      exact .refused _ log

theorem checked_checkKey (w : World) (console : Console) (key : List Nat) :
    Checked w console key (checkKey w console key) := by
  cases hfile : w.files.isFile key with
  | false => exact checked_ofText w console hfile
  | true =>
      cases hload : SavedKey.load w.primitive w.files key with
      | error e =>
          rw [checkKey, KeyCheck.run, if_pos hfile, hload]
          exact .crash e hfile hload
      | ok answer =>
          obtain ⟨found, log⟩ := answer
          cases found with
          | some c => exact checked_of_candidate (by rw [KeyCheck.run, if_pos hfile, hload]) console
          | none => exact checked_of_none hfile hload console

/-! ## A run with a text that is no key -/

/-- A plan without what its options say of a key. -/
def Plan.withoutKey (p : Plan) : Plan := { p with options := p.options.withoutKey }

/-- What is prepared for a search does not depend on a key. -/
theorem prepareSearch_withoutKey (w : World) (o : CommandLine.Options) (d : Ini.Document)
    (console : Console) :
    prepareSearch w o.withoutKey d console = (prepareSearch w o d console).map Plan.withoutKey := by
  have hsettings : o.withoutKey.settings d = o.settings d := rfl
  have hbar : ∀ s, barFault? s o.withoutKey = barFault? s o := fun _ => rfl
  unfold prepareSearch
  simp only [hsettings, hbar]
  -- each fault is one and the same; the plans at the end differ in their options alone
  split
  · rfl
  · rfl
  · rfl
  · rfl
  · split
    · rfl
    · split_ifs
      · rfl
      · split
        · rfl
        · rfl

theorem prepareFromConfig_withoutKey (w : World) (o : CommandLine.Options) (console : Console) :
    prepareFromConfig w o.withoutKey console
      = (prepareFromConfig w o console).map Plan.withoutKey := by
  have hconfig : o.withoutKey.config = o.config := rfl
  unfold prepareFromConfig
  rw [hconfig]
  split
  · rfl
  · rfl
  · dsimp only
    split
    · rfl
    · rfl
    · exact prepareSearch_withoutKey w o _ _

/-- What is prepared with a text that is no key is what is prepared without one. -/
theorem prepare_withoutKey (w : World) (hread : CommandLine.read arguments = .ok (.options o))
    (hother : CommandLine.read other = .ok (.options o.withoutKey)) (hkey : o.checkKey.text? = none) :
    prepare w other = (prepare w arguments).map Plan.withoutKey := by
  have hcheck : o.withoutKey.check = o.check := rfl
  have hnone : o.withoutKey.checkKey.text? = none := rfl
  unfold prepare
  rw [hread, hother]
  dsimp only
  rw [hkey, hnone, hcheck]
  dsimp only
  split
  · rfl
  · rfl
  · exact prepareFromConfig_withoutKey w o _

/-- A search and what comes after it do not ask for a key. -/
theorem run_withoutKey (h : prepare w other = (prepare w arguments).map Plan.withoutKey) :
    run w arguments = run w other := by
  unfold run
  rw [h]
  cases prepare w arguments with
  | error outcome => rfl
  | ok p => rfl

/-! ## Every command line with a key -/

/-- **A command line with a key checks it, unless the key is taken for none.** Let a command line give
a value for the key, by its last use of the option. If that is neither empty nor `--`, the run never
comes to a search, whatever else is said; and if all is understood, the run is the check of this key
and ends with the status 0 or 1 after it printed something, or in the fault of a file that is there. If
the value is empty or `--`, the run is the same as without it: all that is prepared for a search is
prepared. Any text can be given, in a word behind any command line in which no `--` stands. -/
theorem run_given_key (w : World) :
    (∀ arguments key, given? .checkKey arguments = some key → ¬NoKey key →
      (∀ p, prepare w arguments ≠ .ok p)
        ∧ ∀ o, CommandLine.read arguments = .ok (.options o) →
          run w arguments = checkKey w (Console.start.setVerbose o.verbose) key
            ∧ Checked w (Console.start.setVerbose o.verbose) key (run w arguments))
    ∧ (∀ arguments other key o, given? .checkKey arguments = some key → NoKey key →
        CommandLine.read arguments = .ok (.options o) →
          CommandLine.read other = .ok (.options o.withoutKey) →
            run w arguments = run w other
              ∧ ((∃ p, prepare w arguments = .ok p) ↔ ∃ p, prepare w other = .ok p))
    ∧ ∀ front key o, Text.codePoints "--" ∉ front → CommandLine.read front = .ok (.options o) →
        given? .checkKey (front ++ [keyWord key]) = some key
          ∧ CommandLine.read (front ++ [keyWord key])
            = .ok (.options { o with checkKey := .ofText key }) := by
  refine ⟨?_, ?_, fun front key o hfront hread =>
    CommandLine.read_append_keyWord key hfront hread⟩
  · intro arguments key hgiven hsome
    have hprepare : ∀ o, CommandLine.read arguments = .ok (.options o) →
        prepare w arguments = .error (checkKey w (Console.start.setVerbose o.verbose) key) := by
      intro o hread
      apply prepare_of_key hread
      rw [CommandLine.checkKey_of_given hgiven hread, CommandLine.text?_ofText, if_neg hsome]
    constructor
    · intro p hp
      obtain ⟨o, hread⟩ : ∃ o, CommandLine.read arguments = .ok (.options o) := by
        -- what is not understood ends before the key is looked at
        by_contra hnone
        rw [not_exists] at hnone
        obtain ⟨outcome, houtcome⟩ := exists_prepare_eq_error hnone
        cases hp.symm.trans houtcome
      cases hp.symm.trans (hprepare o hread)
    · intro o hread
      have hrun : run w arguments = checkKey w (Console.start.setVerbose o.verbose) key := by
        rw [run, hprepare o hread]
      exact ⟨hrun, hrun ▸ checked_checkKey w _ key⟩
  · intro arguments other key o hgiven hnone hread hother
    have hkey : o.checkKey.text? = none := by
      rw [CommandLine.checkKey_of_given hgiven hread, CommandLine.text?_ofText, if_pos hnone]
    have hprepare := prepare_withoutKey w hread hother hkey
    refine ⟨run_withoutKey hprepare, ?_⟩
    rw [hprepare]
    cases prepare w arguments with
    | error outcome => simp [Except.map]
    | ok p => simp [Except.map]

/-- The seed zero is checked among other options, also after another key. With an empty key the search
begins, and it goes on for as long as nothing ends it. -/
theorem run_given_key_zeroSeed :
    (run quietWorld ["-v", "--check-key", "zz", "--check-key", KeyPair.zeroKeys.seedHex]).ending
        = .finished 0
      ∧ (run quietWorld ["--json", "--check-key="]).ending = .unfinished
      ∧ run quietWorld ["--json", "--check-key="] = run quietWorld ["--json"] := by
  obtain ⟨hkey, hnokey, -⟩ := run_given_key quietWorld
  have hchecked := (hkey ["-v", "--check-key", "zz", "--check-key", KeyPair.zeroKeys.seedHex]
    KeyPair.zeroKeys.seedHex (by decide +kernel) (by decide +kernel)).2
    { CommandLine.Options.defaults with
      verbose := true, checkKey := .value KeyPair.zeroKeys.seedHex } (by decide +kernel)
  have hsearched := hnokey ["--json", "--check-key="] ["--json"] ""
    { CommandLine.Options.defaults with json := true, checkKey := .value "" }
    (by decide +kernel) (.inl rfl) (by decide +kernel) (by decide +kernel)
  refine ⟨?_, ?_, hsearched.1⟩
  · rw [hchecked.1]
    decide +kernel
  · rw [hsearched.1]
    decide +kernel

/-- The statement that is not so: no run with a key comes to a search. The empty key is refused by the
check of keys, but the run never comes to it. -/
theorem not_forall_run_checkKey :
    ¬ ∀ (w : World) (arguments : List (List Nat)) (key : List Nat) (o : CommandLine.Options),
      given? .checkKey arguments = some key → CommandLine.read arguments = .ok (.options o) →
        (∀ p, prepare w arguments ≠ .ok p)
          ∧ (run w arguments).ending
            = (checkKey w (Console.start.setVerbose o.verbose) key).ending := by
  intro hall
  have hread : CommandLine.read ["--check-key", ""]
      = .ok (.options { CommandLine.Options.defaults with checkKey := .value "" }) := by
    decide +kernel
  obtain ⟨-, hending⟩ := hall quietWorld ["--check-key", ""] "" _ (by decide +kernel) hread
  have hsearches : (run quietWorld ["--check-key", ""]).ending = .unfinished := by decide +kernel
  have hrefused : (checkKey quietWorld (Console.start.setVerbose false) "").ending = .finished 1 := by
    decide +kernel
  rw [hsearches] at hending
  cases hending.trans hrefused

end Program

end KeySearch
