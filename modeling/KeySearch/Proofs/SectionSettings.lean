import KeySearch.Ini.Reader
import KeySearch.Proofs.ExpandedValues
import KeySearch.Settings
import Mathlib.Tactic.SplitIfs

/-!
# Settings from a section

Five options of a section make settings. They are asked for one after the other, and the first that
holds no value of its kind ends that, so it alone decides what comes of it. `ofConfig_outcome` says
exactly when there are settings, and which, when there is an error of settings and when another one:
if the raw value of that first option stands for no text.
-/

set_option autoImplicit false

namespace KeySearch

/-! ## Values of a kind -/

namespace Ini.Document

/-- What an option must hold. -/
inductive Kind
  | integer
  | boolean
  deriving Repr, DecidableEq

/-- A text spells an integer. -/
def SpellsInt (text : String) (n : Int) : Prop := Literal.readString text = .ok n

/-- A text is a word for yes or for no, whatever its case. -/
def SpellsBool (text : String) (b : Bool) : Prop := (Text.lowercaseString text, b) ∈ booleanWords

/-- A text spells a value of a kind. -/
def Kind.Admits : Kind → String → Prop
  | .integer, text => ∃ n, SpellsInt text n
  | .boolean, text => ∃ b, SpellsBool text b

/-- What an option of a section holds: what its value spells, or the given value if it is unset. -/
def Holds {α : Type} (d : Document) (Spells : String → α → Prop) (sectionName option : String)
    (default value : α) : Prop :=
  (d.Unset sectionName option ∧ value = default)
    ∨ ∃ text, d.StandsFor sectionName option text ∧ Spells text value

/-- An option of a section is unset or holds a value of the kind. -/
def Fits (d : Document) (sectionName : String) (option : String × Kind) : Prop :=
  d.Unset sectionName option.1
    ∨ ∃ text, d.StandsFor sectionName option.1 text ∧ option.2.Admits text

/-- The value of an option as a reader of texts takes it, or the given one if there is none. -/
def ask {α : Type} (d : Document) (reader : String → Except ValueError α)
    (sectionName option : String) (default : α) : Except ValueError α :=
  match d.get? sectionName option with
  | .error e => .error (.expansion e)
  | .ok none => .ok default
  | .ok (some text) => reader text

/-- Reads a text as an integer. -/
def readInt (text : String) : Except ValueError Int :=
  match Literal.readString text with
  | .ok n => .ok n
  | .error e => .error (.integer e)

/-- Reads a text as a yes or no. -/
def readBool (text : String) : Except ValueError Bool :=
  match booleanWords.find? fun word => word.1 == Text.lowercaseString text with
  | some word => .ok word.2
  | none => .error (.boolean text)

/-- Asks for an option of a kind, only to see whether there is an error. -/
def probe (d : Document) (sectionName : String) : String × Kind → Except ValueError Unit
  | (option, .integer) => (d.getInt sectionName option 0).map fun _ => ()
  | (option, .boolean) => (d.getBool sectionName option false).map fun _ => ()

/-- Asks for options one after the other, up to the first error. -/
def probeAll (d : Document) (sectionName : String) : List (String × Kind) → Except ValueError Unit
  | [] => .ok ()
  | asked :: rest =>
    match d.probe sectionName asked with
    | .ok () => d.probeAll sectionName rest
    | .error e => .error e

variable {d : Document} {sectionName option text : String}

/-! ### The two readers -/

theorem getInt_eq_ask (default : Int) :
    d.getInt sectionName option default = d.ask readInt sectionName option default := by
  unfold getInt ask readInt
  rcases d.get? sectionName option with e | _ | text <;> rfl

theorem getBool_eq_ask (default : Bool) :
    d.getBool sectionName option default = d.ask readBool sectionName option default := by
  unfold getBool ask readBool
  rcases d.get? sectionName option with e | _ | text <;> rfl

theorem readInt_eq_ok_iff {n : Int} : readInt text = .ok n ↔ SpellsInt text n := by
  unfold readInt SpellsInt
  cases Literal.readString text <;> simp

theorem readInt_ne_expansion (text : String) (e : ExpansionError) :
    readInt text ≠ .error (.expansion e) := by
  unfold readInt
  cases Literal.readString text <;> simp

theorem readBool_eq_ok_iff {b : Bool} : readBool text = .ok b ↔ SpellsBool text b := by
  unfold readBool SpellsBool
  generalize Text.lowercaseString text = word
  constructor
  · intro h
    cases hfind : booleanWords.find? fun entry => entry.1 == word with
    | none =>
        rw [hfind] at h
        cases h
    | some found =>
        rw [hfind] at h
        cases h
        have hword : found.1 = word := by simpa using List.find?_some hfind
        exact hword ▸ List.mem_of_find?_eq_some hfind
  · -- a word stands in the table once, for yes or for no
    intro h
    have hunique : ∀ entry ∈ booleanWords, booleanWords.find? (fun other => other.1 == entry.1)
        = some entry := by
      decide
    rw [hunique (word, b) h]

theorem readBool_ne_expansion (text : String) (e : ExpansionError) :
    readBool text ≠ .error (.expansion e) := by
  unfold readBool
  cases booleanWords.find? fun word => word.1 == Text.lowercaseString text <;> simp

/-! ### Asking -/

variable {α : Type} {reader : String → Except ValueError α} {Spells : String → α → Prop} {default : α}

theorem ask_eq_ok_iff (hreader : ∀ text value, reader text = .ok value ↔ Spells text value)
    {value : α} : d.ask reader sectionName option default = .ok value ↔
      d.Holds Spells sectionName option default value := by
  simp only [Holds, ← hreader, ← get?_eq_none_iff, ← get?_eq_some_iff, ask]
  rcases d.get? sectionName option with e | _ | text <;> simp [eq_comm]

/-- A reader of texts has other errors than a raw value that stands for none. -/
theorem exists_ask_eq_expansion_iff (hreader : ∀ text e, reader text ≠ .error (.expansion e)) :
    (∃ e, d.ask reader sectionName option default = .error (.expansion e)) ↔
      d.StandsForNothing sectionName option := by
  rw [← exists_get?_eq_error_iff, ask]
  rcases d.get? sectionName option with e | _ | text <;> simp [hreader]

theorem getInt_eq_ok_iff {default n : Int} :
    d.getInt sectionName option default = .ok n ↔ d.Holds SpellsInt sectionName option default n := by
  rw [getInt_eq_ask]
  exact ask_eq_ok_iff fun _ _ => readInt_eq_ok_iff

theorem getBool_eq_ok_iff {default b : Bool} :
    d.getBool sectionName option default = .ok b ↔
      d.Holds SpellsBool sectionName option default b := by
  rw [getBool_eq_ask]
  exact ask_eq_ok_iff fun _ _ => readBool_eq_ok_iff

theorem exists_holds_iff :
    (∃ value, d.Holds Spells sectionName option default value) ↔
      d.Unset sectionName option ∨ ∃ text, d.StandsFor sectionName option text ∧ ∃ v, Spells text v := by
  constructor
  · rintro ⟨value, ⟨hunset, -⟩ | ⟨text, htext, hspells⟩⟩
    · exact .inl hunset
    · exact .inr ⟨text, htext, value, hspells⟩
  · rintro (hunset | ⟨text, htext, value, hspells⟩)
    · exact ⟨default, .inl ⟨hunset, rfl⟩⟩
    · exact ⟨value, .inr ⟨text, htext, hspells⟩⟩

/-- An option is in order exactly if it fits. -/
theorem probe_eq_ok_iff {asked : String × Kind} :
    d.probe sectionName asked = .ok () ↔ d.Fits sectionName asked := by
  have hmap : ∀ {α : Type} (found : Except ValueError α),
      (found.map fun _ => ()) = .ok () ↔ ∃ value, found = .ok value := by
    intro α found
    cases found <;> simp [Except.map]
  obtain ⟨option, kind⟩ := asked
  cases kind with
  | integer => simp only [probe, hmap, getInt_eq_ok_iff, exists_holds_iff, Fits, Kind.Admits]
  | boolean => simp only [probe, hmap, getBool_eq_ok_iff, exists_holds_iff, Fits, Kind.Admits]

theorem exists_probe_eq_expansion_iff {asked : String × Kind} :
    (∃ e, d.probe sectionName asked = .error (.expansion e)) ↔
      d.StandsForNothing sectionName asked.1 := by
  have hmap : ∀ {α : Type} (found : Except ValueError α) (e : ValueError),
      (found.map fun _ => ()) = .error e ↔ found = .error e := by
    intro α found e
    cases found <;> simp [Except.map]
  obtain ⟨option, kind⟩ := asked
  cases kind with
  | integer =>
      simp only [probe, hmap, getInt_eq_ask]
      exact exists_ask_eq_expansion_iff readInt_ne_expansion
  | boolean =>
      simp only [probe, hmap, getBool_eq_ask]
      exact exists_ask_eq_expansion_iff readBool_ne_expansion

/-- An option that does not fit holds a text of another kind, or nothing. -/
theorem not_fits_iff {asked : String × Kind} :
    ¬ d.Fits sectionName asked ↔
      (∃ text, d.StandsFor sectionName asked.1 text ∧ ¬ asked.2.Admits text)
        ∨ d.StandsForNothing sectionName asked.1 := by
  constructor
  · intro h
    rcases d.unset_or_standsFor_or_standsForNothing sectionName asked.1 with
      hunset | ⟨text, htext⟩ | hnothing
    · exact absurd (.inl hunset) h
    · exact .inl ⟨text, htext, fun hadmits => h (.inr ⟨text, htext, hadmits⟩)⟩
    · exact .inr hnothing
  · rintro (⟨text, htext, hunfit⟩ | hnothing) (hunset | ⟨text', htext', hadmits⟩)
    · exact hunset.not_standsFor htext
    · exact hunfit (htext.unique htext' ▸ hadmits)
    · exact hunset.not_standsForNothing hnothing
    · exact htext'.not_standsForNothing hnothing

/-- The other errors are about a text of another kind. -/
theorem exists_probe_eq_other_iff {asked : String × Kind} :
    (∃ e, d.probe sectionName asked = .error e ∧ ∀ e', e ≠ .expansion e') ↔
      ∃ text, d.StandsFor sectionName asked.1 text ∧ ¬ asked.2.Admits text := by
  constructor
  · rintro ⟨e, hprobe, hother⟩
    have hunfit : ¬ d.Fits sectionName asked := by
      simp [← probe_eq_ok_iff, hprobe]
    rcases not_fits_iff.mp hunfit with htext | hnothing
    · exact htext
    · obtain ⟨e', he'⟩ := exists_probe_eq_expansion_iff.mpr hnothing
      exact absurd (Except.error.inj (hprobe.symm.trans he')) (hother e')
  · rintro ⟨text, htext, hunfit⟩
    cases hprobe : d.probe sectionName asked with
    | ok _ => exact absurd (probe_eq_ok_iff.mp hprobe) (not_fits_iff.mpr (.inl ⟨text, htext, hunfit⟩))
    | error e =>
        refine ⟨e, rfl, ?_⟩
        rintro e' rfl
        exact htext.not_standsForNothing (exists_probe_eq_expansion_iff.mp ⟨e', hprobe⟩)

theorem probeAll_eq_error_iff {asked : List (String × Kind)} {e : ValueError} :
    d.probeAll sectionName asked = .error e ↔
      ∃ before first after, asked = before ++ first :: after
        ∧ (∀ fit ∈ before, d.Fits sectionName fit) ∧ d.probe sectionName first = .error e := by
  induction asked with
  | nil => simp [probeAll]
  | cons option rest ih =>
      simp only [probeAll]
      cases hprobe : d.probe sectionName option with
      | error e' =>
          constructor
          · intro h
            cases h
            exact ⟨[], option, rest, rfl, by simp, hprobe⟩
          · rintro ⟨_ | ⟨head, before⟩, first, after, hasked, hfit, hfirst⟩
            · cases hasked
              exact hprobe.symm.trans hfirst
            · cases hasked
              have hhead := probe_eq_ok_iff.mpr (hfit option List.mem_cons_self)
              rw [hprobe] at hhead
              cases hhead
      | ok _ =>
          rw [ih]
          constructor
          · rintro ⟨before, first, after, rfl, hfit, hfirst⟩
            exact ⟨option :: before, first, after, rfl,
              List.forall_mem_cons.mpr ⟨probe_eq_ok_iff.mp hprobe, hfit⟩, hfirst⟩
          · rintro ⟨_ | ⟨head, before⟩, first, after, hasked, hfit, hfirst⟩
            · cases hasked
              rw [hprobe] at hfirst
              cases hfirst
            · cases hasked
              exact ⟨before, first, after, rfl, fun fit hmem => hfit fit (List.mem_cons_of_mem _ hmem),
                hfirst⟩

end Ini.Document

namespace Settings

open Ini.Document (Kind SpellsInt SpellsBool)

/-- The options that settings are made of, in the order in which they are asked for. -/
def options : List (String × Kind) :=
  [("threads", .integer), ("timeout", .integer), ("verbose", .boolean), ("ipv6_nice", .boolean),
   ("target_zeros", .integer)]

/-- The first option that does not fit. -/
def FirstUnfit (d : Ini.Document) (name : String) (option : String × Kind) : Prop :=
  ∃ before after, options = before ++ option :: after ∧ (∀ fit ∈ before, d.Fits name fit)
    ∧ ¬ d.Fits name option

/-- A section holds the values of a draft. -/
structure Says (d : Ini.Document) (name : String) (draft : Draft) : Prop where
  workers : d.Holds SpellsInt name "threads" 0 draft.workers
  maxDuration : d.Holds SpellsInt name "timeout" 0 draft.maxDuration
  verbose : d.Holds SpellsBool name "verbose" false draft.verbose
  byBlocks : d.Holds SpellsBool name "ipv6_nice" false draft.byBlocks
  targetZeroBits : d.Holds SpellsInt name "target_zeros" 0 draft.targetZeroBits

/-- A draft with values that a search can be run with. -/
structure InRange (draft : Draft) : Prop where
  workers : 0 ≤ draft.workers
  maxDuration : 0 ≤ draft.maxDuration
  targetZeroBits : 0 ≤ draft.targetZeroBits
  targetZeroBits_le : draft.targetZeroBits ≤ maxTarget

variable {d : Ini.Document} {name : String} {draft : Draft} {s : Settings}

theorem draft_toNat (h : InRange draft) :
    (⟨draft.workers.toNat, draft.maxDuration.toNat, draft.verbose, draft.byBlocks,
      draft.targetZeroBits.toNat⟩ : Settings).draft = draft := by
  simp only [Settings.draft, Int.toNat_of_nonneg h.workers, Int.toNat_of_nonneg h.maxDuration,
    Int.toNat_of_nonneg h.targetZeroBits]

/-- Settings come of a draft in range, and of no other. -/
theorem check_eq_ok_iff : check draft = .ok s ↔ s.draft = draft ∧ InRange draft := by
  constructor
  · intro h
    unfold check at h
    split_ifs at h with hworkers hduration htarget
    cases h
    have hrange : InRange draft := ⟨by omega, by omega, by omega, by omega⟩
    exact ⟨draft_toNat hrange, hrange⟩
  · rintro ⟨rfl, hrange⟩
    have hworkers := hrange.workers
    have hduration := hrange.maxDuration
    have htarget := hrange.targetZeroBits
    have hle := hrange.targetZeroBits_le
    rw [check, if_neg (by omega), if_neg (by omega), if_neg (by omega)]
    rfl

theorem bind_eq_ok_iff {ε α β : Type} {found : Except ε α} {next : α → Except ε β} {result : β} :
    found >>= next = .ok result ↔ ∃ value, found = .ok value ∧ next value = .ok result := by
  cases found <;> simp [bind, Except.bind]

theorem draftOfSection_eq_ok_iff : draftOfSection d name = .ok draft ↔ Says d name draft := by
  rw [draftOfSection]
  simp only [bind_eq_ok_iff, Ini.Document.getInt_eq_ok_iff, Ini.Document.getBool_eq_ok_iff]
  constructor
  · rintro ⟨_, hworkers, _, hduration, _, hverbose, _, hblocks, _, htarget, hdraft⟩
    cases hdraft
    exact ⟨hworkers, hduration, hverbose, hblocks, htarget⟩
  · rintro ⟨hworkers, hduration, hverbose, hblocks, htarget⟩
    exact ⟨_, hworkers, _, hduration, _, hverbose, _, hblocks, _, htarget, rfl⟩

/-- The values of a section have the first error that one of the options has. -/
theorem draftOfSection_map :
    (draftOfSection d name).map (fun _ => ()) = d.probeAll name options := by
  simp only [options, Ini.Document.probeAll, Ini.Document.probe, draftOfSection]
  rcases d.getInt name "threads" 0 with _ | _
  · rfl
  rcases d.getInt name "timeout" 0 with _ | _
  · rfl
  rcases d.getBool name "verbose" false with _ | _
  · rfl
  rcases d.getBool name "ipv6_nice" false with _ | _
  · rfl
  rcases d.getInt name "target_zeros" 0 with _ | _ <;> rfl

theorem ofConfig_eq (d : Ini.Document) (name : String) :
    ofConfig d name =
      match draftOfSection d name with
      | .error e => .error (.ofValue name e)
      | .ok draft =>
        match check draft with
        | .ok s => .ok s
        | .error e => .error (.settings e) := by
  rw [ofConfig]
  split_ifs with hsection
  · -- without the section every option is unset, and the defaults are in range
    have hnone : d.section? name = none := by simpa [Ini.Document.hasSection] using hsection
    simp only [draftOfSection, Ini.Document.getInt, Ini.Document.getBool, Ini.Document.get?, hnone]
    rfl
  · rfl

theorem draftOfSection_eq_error_iff {e : Ini.Document.ValueError} :
    draftOfSection d name = .error e ↔
      ∃ option, FirstUnfit d name option ∧ d.probe name option = .error e := by
  have hmap : draftOfSection d name = .error e ↔ d.probeAll name options = .error e := by
    rw [← draftOfSection_map]
    cases draftOfSection d name <;> simp [Except.map]
  rw [hmap, Ini.Document.probeAll_eq_error_iff]
  -- an option with an error does not fit, and those before it do
  constructor
  · rintro ⟨before, option, after, hoptions, hfit, hprobe⟩
    refine ⟨option, ⟨before, after, hoptions, hfit, fun hfits => ?_⟩, hprobe⟩
    rw [Ini.Document.probe_eq_ok_iff.mpr hfits] at hprobe
    cases hprobe
  · rintro ⟨option, ⟨before, after, hoptions, hfit, -⟩, hprobe⟩
    exact ⟨before, option, after, hoptions, hfit, hprobe⟩

/-! ## What comes of a section -/

theorem ofConfig_eq_ok_iff : ofConfig d name = .ok s ↔ Says d name s.draft ∧ InRange s.draft := by
  have hcases : ofConfig d name = .ok s ↔
      ∃ draft, draftOfSection d name = .ok draft ∧ check draft = .ok s := by
    rw [ofConfig_eq]
    cases draftOfSection d name with
    | error e => simp
    | ok draft => cases hcheck : check draft <;> simp [hcheck]
  simp only [hcases, draftOfSection_eq_ok_iff, check_eq_ok_iff]
  constructor
  · rintro ⟨_, hvalues, rfl, hrange⟩
    exact ⟨hvalues, hrange⟩
  · rintro ⟨hvalues, hrange⟩
    exact ⟨s.draft, hvalues, rfl, hrange⟩

theorem exists_check_eq_error_iff : (∃ e, check draft = .error e) ↔ ¬ InRange draft := by
  constructor
  · rintro ⟨e, he⟩ hrange
    rw [check_eq_ok_iff.mpr ⟨draft_toNat hrange, hrange⟩] at he
    cases he
  · intro hrange
    cases hcheck : check draft with
    | error e => exact ⟨e, rfl⟩
    | ok s => exact absurd (check_eq_ok_iff.mp hcheck).2 hrange

/-- An error of settings is about a text of the wrong kind or about a value out of range. -/
theorem exists_ofConfig_eq_settings_iff :
    (∃ e, ofConfig d name = .error (.settings e)) ↔
      (∃ option text, FirstUnfit d name option ∧ d.StandsFor name option.1 text)
        ∨ ∃ draft, Says d name draft ∧ ¬ InRange draft := by
  have hcases : (∃ e, ofConfig d name = .error (.settings e)) ↔
      (∃ e, draftOfSection d name = .error e ∧ ∀ e', e ≠ .expansion e')
        ∨ ∃ draft, draftOfSection d name = .ok draft ∧ ∃ e, check draft = .error e := by
    rw [ofConfig_eq]
    cases draftOfSection d name with
    | error e => cases e <;> simp [ConfigError.ofValue]
    | ok draft => cases hcheck : check draft <;> simp [hcheck]
  simp only [hcases, draftOfSection_eq_ok_iff, exists_check_eq_error_iff, draftOfSection_eq_error_iff]
  refine or_congr_left ?_
  constructor
  · rintro ⟨e, ⟨option, hfirst, hprobe⟩, hother⟩
    obtain ⟨text, htext, -⟩ := Ini.Document.exists_probe_eq_other_iff.mp ⟨e, hprobe, hother⟩
    exact ⟨option, text, hfirst, htext⟩
  · rintro ⟨option, text, hfirst, htext⟩
    have hunfit : ¬ option.2.Admits text := by
      obtain ⟨before, after, -, -, hunfit⟩ := hfirst
      exact fun hadmits => hunfit (.inr ⟨text, htext, hadmits⟩)
    obtain ⟨e, hprobe, hother⟩ := Ini.Document.exists_probe_eq_other_iff.mpr ⟨text, htext, hunfit⟩
    exact ⟨e, ⟨option, hfirst, hprobe⟩, hother⟩

/-- The one error that is none of settings: a raw value that stands for nothing. -/
theorem exists_ofConfig_eq_expansion_iff :
    (∃ e, ofConfig d name = .error (.expansion e)) ↔
      ∃ option, FirstUnfit d name option ∧ d.StandsForNothing name option.1 := by
  have hcases : (∃ e, ofConfig d name = .error (.expansion e)) ↔
      ∃ e, draftOfSection d name = .error (.expansion e) := by
    rw [ofConfig_eq]
    cases draftOfSection d name with
    | error e => cases e <;> simp [ConfigError.ofValue]
    | ok draft => cases hcheck : check draft <;> simp [hcheck]
  simp only [hcases, draftOfSection_eq_error_iff]
  rw [exists_comm]
  simp only [exists_and_left, Ini.Document.exists_probe_eq_expansion_iff]

/-- **Settings, an error of settings, or another error.** A section gives settings exactly if they are
in range and what it says. It gives an error of settings exactly if the first option that does not fit
has a value, or if all fit and what they say is out of range. Another error comes up exactly if the raw
value of the first option that does not fit stands for nothing. -/
theorem ofConfig_outcome (d : Ini.Document) (name : String) :
    (∀ s, ofConfig d name = .ok s ↔ Says d name s.draft ∧ InRange s.draft)
      ∧ ((∃ e, ofConfig d name = .error (.settings e)) ↔
          (∃ option text, FirstUnfit d name option ∧ d.StandsFor name option.1 text)
            ∨ ∃ draft, Says d name draft ∧ ¬ InRange draft)
      ∧ ((∃ e, ofConfig d name = .error (.expansion e)) ↔
          ∃ option, FirstUnfit d name option ∧ d.StandsForNothing name option.1) :=
  ⟨fun _ => ofConfig_eq_ok_iff, exists_ofConfig_eq_settings_iff, exists_ofConfig_eq_expansion_iff⟩

/-- The statement that is not so: whatever a configuration says, a section of it gives settings or an
error of settings. A lone percent sign is no such error. -/
theorem not_forall_ofConfig_settings :
    ¬ ∀ (source : String) (text : List Char) (d : Ini.Document) (name : String),
      Ini.read source text = .ok d →
        (∃ s, ofConfig d name = .ok s ∧ InRange s.draft)
          ∨ ∃ e, ofConfig d name = .error (.settings e) := by
  intro h
  have hread : Ini.read "config.ini" "[genkeys]\nthreads = %".toList =
      .ok ⟨[], [⟨"genkeys", [("threads", "%")]⟩]⟩ := by
    rfl
  have herror : ofConfig ⟨[], [⟨"genkeys", [("threads", "%")]⟩]⟩ "genkeys" =
      .error (.expansion ⟨.strayPercent ['%'], "threads", "genkeys", "%"⟩) := by
    rfl
  rcases h _ _ _ "genkeys" hread with ⟨s, hs, -⟩ | ⟨e, he⟩
  · rw [herror] at hs
    cases hs
  · rw [herror] at he
    cases he

end Settings

end KeySearch
