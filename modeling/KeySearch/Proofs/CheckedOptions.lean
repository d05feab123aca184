import KeySearch.CommandLine.Reader
import KeySearch.Proofs.SectionSettings

/-!
# Numbers of a command line are checked twice

`Options.check` looks at the numbers of a command line alone, before there is a configuration.
`Options.settings` puts them in the place of the values of the configuration and checks the result.
The two agree: settings come of the numbers that the first check accepts and of no others, and they
hold the value of the command line wherever it gives one, zero included. What the first check refuses
is refused by the second one for the same number. `settings_outcome` says so, and which error comes up.
-/

set_option autoImplicit false

namespace KeySearch

namespace Settings

variable {draft : Draft}

/-! ## The errors of settings -/

theorem check_of_workers (h : draft.workers < 0) :
    check draft = .error (.negativeWorkers draft.workers) :=
  if_pos h

theorem check_of_maxDuration (hworkers : 0 ≤ draft.workers) (h : draft.maxDuration < 0) :
    check draft = .error (.negativeDuration draft.maxDuration) := by
  rw [check, if_neg (Int.not_lt.mpr hworkers), if_pos h]

theorem check_of_targetZeroBits (hworkers : 0 ≤ draft.workers) (hduration : 0 ≤ draft.maxDuration)
    (h : draft.targetZeroBits < 0 ∨ maxTarget < draft.targetZeroBits) :
    check draft = .error (.targetOutOfRange draft.targetZeroBits) := by
  rw [check, if_neg (Int.not_lt.mpr hworkers), if_neg (Int.not_lt.mpr hduration), if_pos h]

end Settings

namespace CommandLine

/-- A number is left to the configuration, or it is given and has a property. -/
def Argument.Within (p : Int → Prop) : Argument Int → Prop
  | .absent => True
  | .blank => False
  | .value n => p n

/-- The number that holds in the end has the property. -/
theorem Argument.Within.getD {p : Int → Prop} {a : Argument Int} {default : Int} (h : a.Within p)
    (hdefault : p default) : p (a.value?.getD default) := by
  cases a with
  | absent => exact hdefault
  | blank => exact absurd h id
  | value n => exact h

namespace Options

/-- The numbers of a command line are in range. -/
structure InRange (o : Options) : Prop where
  threads : o.threads.Within fun n => 0 ≤ n
  timeout : o.timeout.Within fun n => 0 ≤ n
  targetZeros : o.targetZeros.Within fun n => 0 ≤ n ∧ n ≤ Settings.maxTarget

/-- The first number that is out of range, and the error of settings that have it. -/
inductive FirstOutOfRange (o : Options) : Flag → Int → Settings.Error → Prop
  | threads {n : Int} (h : o.threads = .value n) (hn : n < 0) :
    FirstOutOfRange o .threads n (.negativeWorkers n)
  | timeout {n : Int} (hthreads : o.threads.Within fun n => 0 ≤ n) (h : o.timeout = .value n)
    (hn : n < 0) : FirstOutOfRange o .timeout n (.negativeDuration n)
  | targetZeros {n : Int} (hthreads : o.threads.Within fun n => 0 ≤ n)
    (htimeout : o.timeout.Within fun n => 0 ≤ n) (h : o.targetZeros = .value n)
    (hn : n < 0 ∨ Settings.maxTarget < n) : FirstOutOfRange o .targetZeros n (.targetOutOfRange n)

/-- Settings that are those of a configuration but for what a command line gives. -/
structure Replaces (o : Options) (base s : Settings) : Prop where
  workers : (s.workers : Int) = o.threads.value?.getD base.workers
  maxDuration : (s.maxDuration : Int) = o.timeout.value?.getD base.maxDuration
  verbose : s.verbose = if o.verbose then true else base.verbose
  byBlocks : s.byBlocks = if o.byBlocks then true else base.byBlocks
  targetZeroBits : (s.targetZeroBits : Int) = o.targetZeros.value?.getD base.targetZeroBits

variable {o : Options} {d : Ini.Document} {base s : Settings} {flag : Flag} {n : Int}
  {e : Settings.Error}

/-! ## The check of the command line -/

section Number

variable {inRange : Int → Bool} {a : Argument Int}

theorem checkNumber_eq_ok_iff {u : Unit} :
    checkNumber flag inRange a = .ok u ↔ a.Within fun n => inRange n = true := by
  cases a <;> simp [checkNumber, Argument.Within]

theorem checkNumber_eq_outOfRange_iff {other : Flag} :
    checkNumber flag inRange a = .error (.outOfRange other) ↔
      other = flag ∧ ∃ n, a = .value n ∧ inRange n = false := by
  cases a with
  | absent => simp [checkNumber]
  | blank => simp [checkNumber]
  | value n =>
      rw [checkNumber]
      split_ifs with hn
      · simp [hn]
      · constructor
        · intro h
          cases h
          exact ⟨rfl, n, rfl, Bool.eq_false_iff.mpr hn⟩
        · rintro ⟨rfl, -⟩
          rfl

end Number

theorem check_eq_error_iff {r : Refusal} :
    o.check = .error r ↔
      checkNumber .threads (fun n => 0 ≤ n) o.threads = .error r
        ∨ checkNumber .threads (fun n => 0 ≤ n) o.threads = .ok ()
          ∧ (checkNumber .timeout (fun n => 0 ≤ n) o.timeout = .error r
            ∨ checkNumber .timeout (fun n => 0 ≤ n) o.timeout = .ok ()
              ∧ checkNumber .targetZeros (fun n => 0 ≤ n && n ≤ Settings.maxTarget) o.targetZeros
                = .error r) := by
  unfold check
  cases checkNumber .threads (fun n => 0 ≤ n) o.threads with
  | error r' => simp [bind, Except.bind]
  | ok _ => cases checkNumber .timeout (fun n => 0 ≤ n) o.timeout <;> simp [bind, Except.bind]

/-- The check accepts the numbers that are in range. -/
theorem check_eq_ok_iff : o.check = .ok () ↔ o.InRange := by
  unfold check
  simp only [Settings.bind_eq_ok_iff, checkNumber_eq_ok_iff, Bool.and_eq_true, decide_eq_true_eq]
  constructor
  · rintro ⟨_, hthreads, _, htimeout, htarget⟩
    exact ⟨hthreads, htimeout, htarget⟩
  · rintro ⟨hthreads, htimeout, htarget⟩
    exact ⟨(), hthreads, (), htimeout, htarget⟩

theorem not_inRange_of_check {r : Refusal} (h : o.check = .error r) : ¬ o.InRange := by
  rw [← check_eq_ok_iff, h]
  simp

/-- The check refuses the first number that is out of range. -/
theorem check_eq_outOfRange_iff :
    o.check = .error (.outOfRange flag) ↔ ∃ n e, FirstOutOfRange o flag n e := by
  simp only [check_eq_error_iff, checkNumber_eq_outOfRange_iff, checkNumber_eq_ok_iff,
    decide_eq_true_eq, decide_eq_false_iff_not, Bool.and_eq_false_iff, Int.not_le]
  constructor
  · rintro (⟨rfl, n, h, hn⟩ | ⟨hthreads, ⟨rfl, n, h, hn⟩ | ⟨htimeout, rfl, n, h, hn⟩⟩)
    · exact ⟨n, _, .threads h hn⟩
    · exact ⟨n, _, .timeout hthreads h hn⟩
    · exact ⟨n, _, .targetZeros hthreads htimeout h hn⟩
  · rintro ⟨n, e, ⟨h, hn⟩ | ⟨hthreads, h, hn⟩ | ⟨hthreads, htimeout, h, hn⟩⟩
    · exact .inl ⟨rfl, n, h, hn⟩
    · exact .inr ⟨hthreads, .inl ⟨rfl, n, h, hn⟩⟩
    · exact .inr ⟨hthreads, .inr ⟨htimeout, rfl, n, h, hn⟩⟩

/-- Numbers are in range, or there is a first one that is not, or one is left out before. -/
theorem check_cases (o : Options) :
    (o.check = .ok () ∧ o.InRange)
      ∨ (∃ flag n e, o.check = .error (.outOfRange flag) ∧ FirstOutOfRange o flag n e)
      ∨ ∃ flag, o.check = .error (.blank flag) := by
  rcases hcheck : o.check with (flag | flag) | _
  · obtain ⟨n, e, h⟩ := check_eq_outOfRange_iff.mp hcheck
    exact .inr (.inl ⟨flag, n, e, rfl, h⟩)
  · exact .inr (.inr ⟨flag, rfl⟩)
  · exact .inl ⟨rfl, check_eq_ok_iff.mp hcheck⟩

/-! ## The check of the settings -/

theorem replaces_iff : Replaces o base s ↔ s.draft = base.draft.override o.overrides := by
  have hswitch : ∀ on value : Bool, (switched on).getD value = if on then true else value := by
    decide
  constructor
  · intro h
    simp only [Settings.draft, Settings.Draft.override, overrides, hswitch, h.workers,
      h.maxDuration, h.verbose, h.byBlocks, h.targetZeroBits]
  · intro h
    simp only [Settings.draft, Settings.Draft.override, overrides, hswitch,
      Settings.Draft.mk.injEq] at h
    exact ⟨h.1, h.2.1, h.2.2.1, h.2.2.2.1, h.2.2.2.2⟩

/-- With numbers in range in the place of others that are, all are in range. -/
theorem InRange.override (h : o.InRange) (hbase : Settings.InRange base.draft) :
    Settings.InRange (base.draft.override o.overrides) :=
  ⟨h.threads.getD hbase.workers, h.timeout.getD hbase.maxDuration,
    (h.targetZeros.getD ⟨hbase.targetZeroBits, hbase.targetZeroBits_le⟩).1,
    (h.targetZeros.getD ⟨hbase.targetZeroBits, hbase.targetZeroBits_le⟩).2⟩

/-- Settings with the first number out of range are refused for it. -/
theorem FirstOutOfRange.withOverrides_eq (h : FirstOutOfRange o flag n e)
    (hbase : Settings.InRange base.draft) : base.withOverrides o.overrides = .error e := by
  have hgiven : ∀ {a : Argument Int} {n : Int} (default : Int), a = .value n →
      a.value?.getD default = n := by
    rintro _ n default rfl
    rfl
  cases h with
  | threads h hn =>
      have hworkers : (base.draft.override o.overrides).workers = n := hgiven _ h
      rw [← hworkers] at hn
      rw [Settings.withOverrides, Settings.check_of_workers hn, hworkers]
  | timeout hthreads h hn =>
      have hduration : (base.draft.override o.overrides).maxDuration = n := hgiven _ h
      rw [← hduration] at hn
      rw [Settings.withOverrides, Settings.check_of_maxDuration (hthreads.getD hbase.workers) hn,
        hduration]
  | targetZeros hthreads htimeout h hn =>
      have htarget : (base.draft.override o.overrides).targetZeroBits = n := hgiven _ h
      rw [← htarget] at hn
      rw [Settings.withOverrides, Settings.check_of_targetZeroBits (hthreads.getD hbase.workers)
        (htimeout.getD hbase.maxDuration) hn, htarget]

theorem FirstOutOfRange.ofSettings_eq (h : FirstOutOfRange o flag n e) :
    SettingsError.ofSettings e
      = if Literal.isWritable n then .config (.settings e) else .unwritable := by
  cases h <;> rfl

section Outcome

variable (hbase : Settings.ofConfig d Settings.sectionName = .ok base)
include hbase

theorem settings_of_inRange (h : o.InRange) : o.settings d = .ok s ↔ Replaces o base s := by
  have hrange := (Settings.ofConfig_eq_ok_iff.mp hbase).2
  have hcheck : base.withOverrides o.overrides = .ok s ↔ Replaces o base s := by
    rw [replaces_iff, Settings.withOverrides, Settings.check_eq_ok_iff]
    exact and_iff_left (h.override hrange)
  rw [settings, hbase, check_eq_ok_iff.mpr h, ← hcheck]
  dsimp only
  cases base.withOverrides o.overrides <;> simp

theorem settings_of_firstOutOfRange (h : FirstOutOfRange o flag n e) :
    o.settings d
      = .error (if Literal.isWritable n then .config (.settings e) else .unwritable) := by
  have hrange := (Settings.ofConfig_eq_ok_iff.mp hbase).2
  rw [settings, hbase, check_eq_outOfRange_iff.mpr ⟨n, e, h⟩]
  dsimp only
  rw [h.withOverrides_eq hrange, ← h.ofSettings_eq]

theorem settings_of_blank (h : o.check = .error (.blank flag)) :
    o.settings d = .error (.blank flag) := by
  rw [settings, hbase, h]

/-- Settings come of numbers in range only, and are those of the configuration but for what the
command line gives. -/
theorem settings_eq_ok_iff : o.settings d = .ok s ↔ o.InRange ∧ Replaces o base s := by
  rcases check_cases o with ⟨-, h⟩ | ⟨flag, n, e, hcheck, h⟩ | ⟨flag, hcheck⟩
  · rw [settings_of_inRange hbase h]
    exact (and_iff_right h).symm
  · refine iff_of_false ?_ fun h' => not_inRange_of_check hcheck h'.1
    rw [settings_of_firstOutOfRange hbase h]
    simp
  · refine iff_of_false ?_ fun h' => not_inRange_of_check hcheck h'.1
    rw [settings_of_blank hbase hcheck]
    simp

theorem exists_settings_iff : (∃ s, o.settings d = .ok s) ↔ o.InRange := by
  simp only [settings_eq_ok_iff hbase, replaces_iff]
  constructor
  · rintro ⟨s, h, -⟩
    exact h
  · intro h
    exact ⟨_, h, Settings.draft_toNat (h.override (Settings.ofConfig_eq_ok_iff.mp hbase).2)⟩

/-- A number that is left out is a fault of the settings exactly if the check comes to it. -/
theorem settings_eq_blank_iff :
    o.settings d = .error (.blank flag) ↔ o.check = .error (.blank flag) := by
  refine ⟨fun h => ?_, settings_of_blank hbase⟩
  rcases check_cases o with ⟨-, hrange⟩ | ⟨flag', n, e, -, hfirst⟩ | ⟨flag', hcheck⟩
  · obtain ⟨s, hs⟩ := (exists_settings_iff hbase).mpr hrange
    cases hs.symm.trans h
  · rw [settings_of_firstOutOfRange hbase hfirst] at h
    split_ifs at h <;> cases h
  · cases (settings_of_blank hbase hcheck).symm.trans h
    exact hcheck

/-- **The two checks agree.** Settings come of a command line exactly if its numbers pass the first
check, that is if they are in range, and then they are those of the configuration but for what the
command line gives, and in range. A number that was left out is the same fault in both. What the
first check refuses else is the first number that is out of range, and the settings are refused for
that number, with an error of settings if it can be written into the message. -/
theorem settings_outcome (o : Options) :
    (o.check = .ok () ↔ ∃ s, o.settings d = .ok s)
      ∧ (∀ s, o.settings d = .ok s ↔ o.InRange ∧ Replaces o base s)
      ∧ (∀ s, o.settings d = .ok s → Settings.InRange s.draft)
      ∧ (∀ flag, o.check = .error (.blank flag) ↔ o.settings d = .error (.blank flag))
      ∧ (∀ flag, o.check = .error (.outOfRange flag) ↔ ∃ n e, FirstOutOfRange o flag n e)
      ∧ ∀ flag n e, FirstOutOfRange o flag n e → o.settings d
          = .error (if Literal.isWritable n then .config (.settings e) else .unwritable) := by
  refine ⟨?_, fun s => settings_eq_ok_iff hbase, fun s hs => ?_,
    fun flag => (settings_eq_blank_iff hbase).symm, fun flag => check_eq_outOfRange_iff,
    fun flag n e h => settings_of_firstOutOfRange hbase h⟩
  · rw [check_eq_ok_iff, exists_settings_iff hbase]
  · obtain ⟨hrange, hreplaces⟩ := (settings_eq_ok_iff hbase).mp hs
    rw [replaces_iff.mp hreplaces]
    exact hrange.override (Settings.ofConfig_eq_ok_iff.mp hbase).2

end Outcome

/-- A configuration with three workers, a minute, and a ranking by blocks. -/
def minuteConfig : Ini.Document :=
  ⟨[], [⟨"genkeys", [("threads", "3"), ("timeout", "60"), ("ipv6_nice", "true")]⟩]⟩

/-- A command line with five workers and no limit of time. -/
def unlimited : Options := { defaults with threads := .value 5, timeout := .value 0 }

/-- A zero that is given replaces the minute of the configuration, and a ranking that is not given
is left as it is. -/
theorem settings_outcome_zeroGiven :
    Settings.ofConfig minuteConfig Settings.sectionName = .ok ⟨3, 60, false, true, 0⟩
      ∧ unlimited.settings minuteConfig = .ok ⟨5, 0, false, true, 0⟩
      ∧ Settings.InRange (⟨5, 0, false, true, 0⟩ : Settings).draft := by
  have hbase : Settings.ofConfig minuteConfig Settings.sectionName
      = .ok ⟨3, 60, false, true, 0⟩ := rfl
  obtain ⟨-, hok, hrange, -, -, -⟩ := settings_outcome hbase unlimited
  have hsettings : unlimited.settings minuteConfig = .ok ⟨5, 0, false, true, 0⟩ :=
    (hok _).mpr ⟨⟨Int.natCast_nonneg 5, Int.le_refl 0, trivial⟩, ⟨rfl, rfl, rfl, rfl, rfl⟩⟩
  exact ⟨hbase, hsettings, hrange _ hsettings⟩

/-- The statement that is not so: whatever is not in range is refused with an error of settings. The
value of `--threads=--` is no number at all, and both checks have another fault for it. -/
theorem not_forall_settings_refused :
    ¬ ∀ (arguments : List (List Nat)) (o : Options) (d : Ini.Document) (base : Settings),
      CommandLine.read arguments = .ok (.options o) →
        Settings.ofConfig d Settings.sectionName = .ok base →
          (o.check = .ok () ↔ ∃ s, o.settings d = .ok s)
            ∧ (o.check ≠ .ok () → ∃ e, o.settings d = .error (.config (.settings e))) := by
  intro h
  have hread : CommandLine.read ["--threads=--"]
      = .ok (.options { defaults with threads := .blank }) := rfl
  have hblank : ({ defaults with threads := .blank } : Options).check
      = .error (.blank .threads) := rfl
  obtain ⟨-, hrefused⟩ := h _ _ ⟨[], []⟩ _ hread rfl
  obtain ⟨e, he⟩ := hrefused (by rw [hblank]; simp)
  rw [settings_of_blank rfl hblank] at he
  cases he

end Options

end CommandLine

end KeySearch
