import KeySearch.Proofs.CheckedOptions
import KeySearch.Proofs.FirstFaults
import KeySearch.Proofs.References
import Mathlib.Tactic.MkIffOfInductiveProp

/-!
# What an overridden option of the configuration may do

A command line overrides options of the configuration, but the configuration is checked as a whole before
that. Its first fault is the error that comes up, whatever the command line gives. Short of that the
overridden options do nothing: two configurations that say the same where the command line says nothing
give the same settings or the same error, unless the first fault of one of them is at an overridden option
(`settings_ignores_overridden`). What an option says goes through its references, so an overridden option
still counts where another one refers to it.
-/

set_option autoImplicit false

namespace KeySearch.CommandLine

/-- A number that holds in the end is that of the configuration only if none is given. -/
theorem Argument.Within.getD_congr {p : Int → Prop} {a : Argument Int} {n n' : Int} (h : a.Within p)
    (hsame : a = .absent → n = n') : a.value?.getD n = a.value?.getD n' := by
  cases a with
  | absent => exact hsame rfl
  | blank => exact absurd h id
  | value => rfl

namespace Options

open Settings (sectionName demands FirstFault)

/-! ## Two configurations -/

/-- A command line gives an option of the configuration, be it without a value. -/
@[mk_iff]
inductive Gives (o : Options) : String → Prop
  | threads (h : o.threads ≠ .absent) : Gives o "threads"
  | timeout (h : o.timeout ≠ .absent) : Gives o "timeout"
  | verbose (h : o.verbose = true) : Gives o "verbose"
  | byBlocks (h : o.byBlocks = true) : Gives o "ipv6_nice"
  | targetZeros (h : o.targetZeros ≠ .absent) : Gives o "target_zeros"
  | outputDir (h : o.outputDir ≠ .absent) : Gives o "output_dir"

/-- Two configurations have the same raw values of all options that are not given. -/
def SameTexts (o : Options) (d d' : Ini.Document) : Prop :=
  ∀ option, ¬ o.Gives option → d.raw? sectionName option = d'.raw? sectionName option

/-- Two configurations have the same values of the options that settings are made of and that are not
given. -/
def SameValues (o : Options) (d d' : Ini.Document) : Prop :=
  ∀ asked ∈ Settings.options, ¬ o.Gives asked.1 →
    d.get? sectionName asked.1 = d'.get? sectionName asked.1

/-- No option that settings are made of leads to one that is given, unless it is given itself. -/
def Independent (o : Options) (d : Ini.Document) : Prop :=
  ∀ asked ∈ Settings.options, ¬ o.Gives asked.1 →
    ∀ key, Ini.Leads (d.raw? sectionName) asked.1 key → ¬ o.Gives key

/-- The first fault of a configuration is at no option that is given. -/
def FaultNotGiven (o : Options) (d : Ini.Document) : Prop :=
  ∀ option e, FirstFault d sectionName demands option e → ¬ o.Gives option

/-- Two settings are the same in what is not given. -/
structure SameLeft (o : Options) (base base' : Settings) : Prop where
  workers : o.threads = .absent → base.workers = base'.workers
  maxDuration : o.timeout = .absent → base.maxDuration = base'.maxDuration
  verbose : o.verbose = false → base.verbose = base'.verbose
  byBlocks : o.byBlocks = false → base.byBlocks = base'.byBlocks
  targetZeroBits : o.targetZeros = .absent → base.targetZeroBits = base'.targetZeroBits

variable {o : Options} {d d' : Ini.Document} {base base' s : Settings}

/-- The same raw values are the same values, but for references to what is given. -/
theorem SameTexts.sameValues (h : o.SameTexts d d') (hindependent : o.Independent d) :
    o.SameValues d d' :=
  fun asked hmem hleft => Ini.Document.get?_congr fun key hleads =>
    h key (hindependent asked hmem hleft key hleads)

theorem SameValues.sameLeft (h : o.SameValues d d') (hbase : Settings.ofConfig d sectionName = .ok base)
    (hbase' : Settings.ofConfig d' sectionName = .ok base') : o.SameLeft base base' := by
  obtain ⟨hholds, -⟩ := Settings.ofConfig_eq_ok_iff.mp hbase
  obtain ⟨hholds', -⟩ := Settings.ofConfig_eq_ok_iff.mp hbase'
  have hint := fun text n => @Ini.Document.readInt_eq_ok_iff text n
  have hbool := fun text b => @Ini.Document.readBool_eq_ok_iff text b
  constructor
  · intro habsent
    have hget := h ("threads", .integer) (by simp [Settings.options]) (by simp [gives_iff, habsent])
    exact Int.ofNat.inj (hholds.workers.unique hint hget hholds'.workers)
  · intro habsent
    have hget := h ("timeout", .integer) (by simp [Settings.options]) (by simp [gives_iff, habsent])
    exact Int.ofNat.inj (hholds.maxDuration.unique hint hget hholds'.maxDuration)
  · intro hoff
    have hget := h ("verbose", .boolean) (by simp [Settings.options]) (by simp [gives_iff, hoff])
    exact hholds.verbose.unique hbool hget hholds'.verbose
  · intro hoff
    have hget := h ("ipv6_nice", .boolean) (by simp [Settings.options]) (by simp [gives_iff, hoff])
    exact hholds.byBlocks.unique hbool hget hholds'.byBlocks
  · intro habsent
    have hget := h ("target_zeros", .integer) (by simp [Settings.options]) (by simp [gives_iff, habsent])
    exact Int.ofNat.inj (hholds.targetZeroBits.unique hint hget hholds'.targetZeroBits)

theorem Replaces.congr (h : Replaces o base s) (hrange : o.InRange) (hsame : o.SameLeft base base') :
    Replaces o base' s where
  workers := h.workers.trans
    (hrange.threads.getD_congr fun habsent => congrArg Int.ofNat (hsame.workers habsent))
  maxDuration := h.maxDuration.trans
    (hrange.timeout.getD_congr fun habsent => congrArg Int.ofNat (hsame.maxDuration habsent))
  verbose := by
    rw [h.verbose]
    cases hon : o.verbose with
    | true => rfl
    | false => exact hsame.verbose hon
  byBlocks := by
    rw [h.byBlocks]
    cases hon : o.byBlocks with
    | true => rfl
    | false => exact hsame.byBlocks hon
  targetZeroBits := h.targetZeroBits.trans
    (hrange.targetZeros.getD_congr fun habsent => congrArg Int.ofNat (hsame.targetZeroBits habsent))

/-! ## What comes of them -/

/-- A fault is the error that comes up, whatever is given. -/
theorem settings_of_error {e : Settings.ConfigError} (h : Settings.ofConfig d sectionName = .error e)
    (o : Options) : o.settings d = .error (.config e) := by
  rw [settings, h]

/-- A configuration without a fault has none at what is given. -/
theorem faultNotGiven_of_ok (h : Settings.ofConfig d sectionName = .ok base) : o.FaultNotGiven d := by
  intro option e hfault
  cases h.symm.trans (Settings.ofConfig_eq_error_iff.mpr ⟨option, hfault⟩)

theorem exists_base_of_settings (h : o.settings d = .ok s) :
    ∃ base, Settings.ofConfig d sectionName = .ok base := by
  cases hbase : Settings.ofConfig d sectionName with
  | error e => cases h.symm.trans (settings_of_error hbase o)
  | ok base => exact ⟨base, rfl⟩

theorem settings_congr_of_bases (h : o.SameValues d d')
    (hbase : Settings.ofConfig d sectionName = .ok base)
    (hbase' : Settings.ofConfig d' sectionName = .ok base') : o.settings d = o.settings d' := by
  -- without a fault of the configurations the command line alone decides whether there are settings
  rcases check_cases o with ⟨-, hrange⟩ | ⟨flag, n, e, -, hfirst⟩ | ⟨flag, hblank⟩
  · obtain ⟨s, hs⟩ := (exists_settings_iff hbase).mpr hrange
    have hreplaces : Replaces o base' s :=
      ((settings_of_inRange hbase hrange).mp hs).congr hrange (h.sameLeft hbase hbase')
    rw [hs, (settings_of_inRange hbase' hrange).mpr hreplaces]
  · rw [settings_of_firstOutOfRange hbase hfirst, settings_of_firstOutOfRange hbase' hfirst]
  · rw [settings_of_blank hbase hblank, settings_of_blank hbase' hblank]

theorem SameValues.shareFaults (h : o.SameValues d d') (hd : o.FaultNotGiven d)
    (hd' : o.FaultNotGiven d') :
    Settings.ShareFaults d d' sectionName demands fun option => ¬ o.Gives option where
  same := by
    intro demand hmem hleft
    obtain ⟨asked, hasked, hoption⟩ := Settings.exists_asked_of_mem_demands hmem
    rw [← hoption] at hleft ⊢
    exact h asked hasked hleft
  left := hd
  right := hd'

theorem settings_congr (h : o.SameValues d d') (hd : o.FaultNotGiven d) (hd' : o.FaultNotGiven d') :
    o.settings d = o.settings d' := by
  have herror : ∀ e, Settings.ofConfig d sectionName = .error e ↔
      Settings.ofConfig d' sectionName = .error e :=
    fun e => Settings.ofConfig_eq_error_congr (h.shareFaults hd hd')
  cases hbase : Settings.ofConfig d sectionName with
  | error e => rw [settings_of_error hbase, settings_of_error ((herror e).mp hbase)]
  | ok base =>
      cases hbase' : Settings.ofConfig d' sectionName with
      | error e => cases hbase.symm.trans ((herror e).mpr hbase')
      | ok base' => exact settings_congr_of_bases h hbase hbase'

/-- **What a command line overrides has no say but by a fault.** Configurations have the same values of what
is not given if they have the same texts of it, and none of that refers to what is given. Then they give the
same settings or the same error, unless the first fault of one of them is at an overridden option; and where
both give settings, these are the same. A value that is not usable is an error whatever is given, also if it
is overridden: a configuration is checked as a whole, and for itself. -/
theorem settings_ignores_overridden (o : Options) (d d' : Ini.Document) :
    (o.SameTexts d d' → o.Independent d → o.SameValues d d')
      ∧ (o.SameValues d d' → o.FaultNotGiven d → o.FaultNotGiven d' → o.settings d = o.settings d')
      ∧ (∀ s s', o.SameValues d d' → o.settings d = .ok s → o.settings d' = .ok s' → s = s')
      ∧ ∀ option e, FirstFault d sectionName demands option (.settings e) →
          ∀ o' : Options, o'.settings d = .error (.config (.settings e)) := by
  refine ⟨SameTexts.sameValues, settings_congr, fun s s' h hs hs' => ?_, fun option e hfault => ?_⟩
  · obtain ⟨base, hbase⟩ := exists_base_of_settings hs
    obtain ⟨base', hbase'⟩ := exists_base_of_settings hs'
    have hsame := settings_congr h (faultNotGiven_of_ok hbase) (faultNotGiven_of_ok hbase')
    exact Except.ok.inj (hs.symm.trans (hsame.trans hs'))
  · exact settings_of_error (Settings.ofConfig_eq_error_iff.mpr ⟨option, hfault⟩)

/-- A configuration with the one section that settings come of. -/
def sectionOf (options : Ini.Options) : Ini.Document := ⟨[], [⟨sectionName, options⟩]⟩

/-- A minute, by a reference, and a ranking by blocks, with a number of workers before them. -/
def minuteFor (threads : String) : Ini.Document :=
  sectionOf [("threads", threads), ("limit", "60"), ("timeout", "%(limit)s"), ("ipv6_nice", "true")]

/-- A command line with five workers. -/
def fiveWorkers : Options := { defaults with threads := .value 5 }

/-- A command line with a limit of five seconds. -/
def fiveSeconds : Options := { defaults with timeout := .value 5 }

theorem raw?_sectionOf (options : Ini.Options) (option : String) :
    (sectionOf options).raw? sectionName option = options.value? option := by
  have hsection : (sectionOf options).section? sectionName = some options := rfl
  rw [Ini.Document.raw?, hsection, Option.bind_some, Ini.Document.lookup?]
  cases options.value? option <;> rfl

/-- The text of an option that is given makes no difference to the others. -/
theorem sameTexts_sectionOf {option : String} (h : o.Gives option) (text text' : String)
    (rest : Ini.Options) :
    o.SameTexts (sectionOf ((option, text) :: rest)) (sectionOf ((option, text') :: rest)) := by
  intro other hleft
  have hother : (option == other) = false := by
    rw [beq_eq_false_iff_ne]
    rintro rfl
    exact hleft h
  rw [raw?_sectionOf, raw?_sectionOf]
  simp only [Ini.Options.value?, List.find?_cons, hother]

theorem gives_fiveWorkers_iff {option : String} : fiveWorkers.Gives option ↔ option = "threads" := by
  simp [gives_iff, fiveWorkers, defaults]

/-- Nothing leads to the number of workers but itself. -/
theorem independent_minuteFor : fiveWorkers.Independent (minuteFor "3") := by
  have hrefers : ∀ option key,
      Ini.Refers ((minuteFor "3").raw? sectionName) option key → key = "limit" := by
    rintro option key ⟨raw, hraw, hmem⟩
    rw [minuteFor, raw?_sectionOf] at hraw
    obtain ⟨⟨found, text⟩, hfind, rfl⟩ := Option.map_eq_some_iff.mp hraw
    have hentry := List.mem_of_find?_eq_some hfind
    simp only [List.mem_cons, Prod.mk.injEq, List.not_mem_nil, or_false] at hentry
    rcases hentry with ⟨-, rfl⟩ | ⟨-, rfl⟩ | ⟨-, rfl⟩ | ⟨-, rfl⟩
    · simp [Ini.pieces] at hmem
    · simp [Ini.pieces] at hmem
    · have hpieces : Ini.pieces "%(limit)s".toList.length "%(limit)s".toList = [.reference "limit"] := rfl
      have hlimit : .reference key ∈ Ini.pieces "%(limit)s".toList.length "%(limit)s".toList := hmem
      rw [hpieces] at hlimit
      simpa using hlimit
    · simp [Ini.pieces] at hmem
  intro asked hmem hleft key hleads
  rw [gives_fiveWorkers_iff] at hleft ⊢
  -- whatever has a reference before it is the limit
  cases hleads with
  | refl => exact hleft
  | tail _ hlast =>
      rw [hrefers _ _ hlast]
      decide

/-- The workers of a configuration that are given make no difference if they are a number that could be
had, and a negative number is refused in spite of being given. -/
theorem settings_ignores_overridden_workers :
    fiveWorkers.SameTexts (minuteFor "3") (minuteFor "8")
      ∧ fiveWorkers.Independent (minuteFor "3")
      ∧ fiveWorkers.settings (minuteFor "3") = .ok ⟨5, 60, false, true, 0⟩
      ∧ fiveWorkers.settings (minuteFor "8") = .ok ⟨5, 60, false, true, 0⟩
      ∧ fiveWorkers.settings (minuteFor "-1") = .error (.config (.settings (.negativeWorkers (-1)))) := by
  have htexts : fiveWorkers.SameTexts (minuteFor "3") (minuteFor "8") :=
    sameTexts_sectionOf (gives_fiveWorkers_iff.mpr rfl) "3" "8" _
  have hbase : Settings.ofConfig (minuteFor "3") sectionName = .ok ⟨3, 60, false, true, 0⟩ := rfl
  have hbase' : Settings.ofConfig (minuteFor "8") sectionName = .ok ⟨8, 60, false, true, 0⟩ := rfl
  have hsettings : fiveWorkers.settings (minuteFor "3") = .ok ⟨5, 60, false, true, 0⟩ := rfl
  obtain ⟨hvalues, hsame, -, -⟩ := settings_ignores_overridden fiveWorkers (minuteFor "3") (minuteFor "8")
  obtain ⟨-, -, -, hrefused⟩ := settings_ignores_overridden fiveWorkers (minuteFor "-1") (minuteFor "-1")
  have hfault : FirstFault (minuteFor "-1") sectionName demands "threads"
      (.settings (.negativeWorkers (-1))) :=
    .later rfl (.later rfl (.later rfl (.later rfl (.later rfl (.here rfl)))))
  refine ⟨htexts, independent_minuteFor, hsettings, ?_, hrefused _ _ hfault fiveWorkers⟩
  rw [← hsame (hvalues htexts independent_minuteFor) (faultNotGiven_of_ok hbase)
    (faultNotGiven_of_ok hbase'), hsettings]

/-- The statements that are not so: whatever the text of an overridden option is, it makes no difference.
It does by being refused, even where all that is not given has the same text and the same value, and it
does through a reference, even where nothing is refused. -/
theorem not_forall_settings_same :
    (¬ ∀ (arguments : List (List Nat)) (o : Options) (source : List Nat) (text text' : List Char)
        (d d' : Ini.Document), CommandLine.read arguments = .ok (.options o) →
      Ini.read source text = .ok d → Ini.read source text' = .ok d' →
        o.SameTexts d d' → o.SameValues d d' → o.settings d = o.settings d')
      ∧ ¬ ∀ (arguments : List (List Nat)) (o : Options) (source : List Nat) (text text' : List Char)
        (d d' : Ini.Document) (s s' : Settings), CommandLine.read arguments = .ok (.options o) →
      Ini.read source text = .ok d → Ini.read source text' = .ok d' →
        o.SameTexts d d' → o.settings d = .ok s → o.settings d' = .ok s' → s = s' := by
  constructor
  · -- a negative number of workers is refused, though another one is given
    intro h
    have hread : CommandLine.read ["--threads", "5"] = .ok (.options fiveWorkers) := rfl
    have hfaulty : Ini.read "config.ini" "[genkeys]\nthreads = -1".toList
        = .ok (sectionOf [("threads", "-1")]) := rfl
    have hsound : Ini.read "config.ini" "[genkeys]\nthreads = 2".toList
        = .ok (sectionOf [("threads", "2")]) := rfl
    have htexts : fiveWorkers.SameTexts (sectionOf [("threads", "-1")]) (sectionOf [("threads", "2")]) :=
      sameTexts_sectionOf (gives_fiveWorkers_iff.mpr rfl) _ _ _
    have hvalues : fiveWorkers.SameValues (sectionOf [("threads", "-1")]) (sectionOf [("threads", "2")]) := by
      intro asked hmem hleft
      simp only [Settings.options, List.mem_cons, List.not_mem_nil, or_false] at hmem
      rcases hmem with rfl | rfl | rfl | rfl | rfl
      · exact absurd (gives_fiveWorkers_iff.mpr rfl) hleft
      all_goals rfl
    have hrefused : fiveWorkers.settings (sectionOf [("threads", "-1")])
        = .error (.config (.settings (.negativeWorkers (-1)))) := rfl
    have hsettings : fiveWorkers.settings (sectionOf [("threads", "2")])
        = .ok ⟨5, 0, false, false, 0⟩ := rfl
    have hsame := h _ _ _ _ _ _ _ hread hfaulty hsound htexts hvalues
    rw [hrefused, hsettings] at hsame
    cases hsame
  · -- the number of workers is not given, and refers to the limit of time, which is
    intro h
    have hread : CommandLine.read ["--timeout", "5"] = .ok (.options fiveSeconds) := rfl
    have hminute : Ini.read "config.ini" "[genkeys]\ntimeout = 60\nthreads = %(timeout)s".toList
        = .ok (sectionOf [("timeout", "60"), ("threads", "%(timeout)s")]) := rfl
    have hhalf : Ini.read "config.ini" "[genkeys]\ntimeout = 30\nthreads = %(timeout)s".toList
        = .ok (sectionOf [("timeout", "30"), ("threads", "%(timeout)s")]) := rfl
    have htexts : fiveSeconds.SameTexts
        (sectionOf [("timeout", "60"), ("threads", "%(timeout)s")])
        (sectionOf [("timeout", "30"), ("threads", "%(timeout)s")]) :=
      sameTexts_sectionOf (.timeout (by decide)) _ _ _
    have hsame := h _ _ _ _ _ _ _ ⟨60, 5, false, false, 0⟩ ⟨30, 5, false, false, 0⟩ hread hminute hhalf
      htexts rfl rfl
    cases hsame

end Options

end KeySearch.CommandLine
