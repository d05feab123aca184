import KeySearch.Proofs.SectionSettings

/-!
# The first fault of a section

What settings demand of a section is a list: every option is of its kind, and then every number is in
range. The first demand that is not met is the error that comes up (`ofConfig_eq_error_iff`), and it
belongs to one option. It depends on the values of the options alone, so two sections that have the same
values where their first faults are have the same one (`FirstFault.transfer`).
-/

set_option autoImplicit false

namespace KeySearch

/-! ## The same values -/

namespace Ini.Document

variable {d d' : Document} {sectionName option : String}

theorem getInt_congr (h : d.get? sectionName option = d'.get? sectionName option) (default : Int) :
    d.getInt sectionName option default = d'.getInt sectionName option default := by
  rw [getInt, getInt, h]

theorem getBool_congr (h : d.get? sectionName option = d'.get? sectionName option) (default : Bool) :
    d.getBool sectionName option default = d'.getBool sectionName option default := by
  rw [getBool, getBool, h]

theorem probe_congr {asked : String × Kind}
    (h : d.get? sectionName asked.1 = d'.get? sectionName asked.1) :
    d.probe sectionName asked = d'.probe sectionName asked := by
  obtain ⟨option, kind⟩ := asked
  cases kind with
  | integer => rw [probe, probe, getInt_congr h]
  | boolean => rw [probe, probe, getBool_congr h]

/-- Where the values of an option are the same, it holds the same. -/
theorem Holds.unique {α : Type} {reader : String → Except ValueError α} {Spells : String → α → Prop}
    {default value value' : α} (hreader : ∀ text value, reader text = .ok value ↔ Spells text value)
    (hget : d.get? sectionName option = d'.get? sectionName option)
    (h : d.Holds Spells sectionName option default value)
    (h' : d'.Holds Spells sectionName option default value') : value = value' := by
  rw [← ask_eq_ok_iff hreader, ask] at h h'
  rw [hget] at h
  exact Except.ok.inj (h.symm.trans h')

end Ini.Document

namespace Settings

open Ini.Document (Kind)

/-! ## The first fault of a section -/

/-- What is demanded of an option of a section. -/
inductive Demand
  /-- It holds a value of a kind, or none. -/
  | ofKind (option : String) (kind : Kind)
  /-- Its number is not refused. -/
  | inRange (option : String) (refusal? : Int → Option Error)

/-- The option that something is demanded of. -/
def Demand.option : Demand → String
  | .ofKind option _ => option
  | .inRange option _ => option

/-- The error of an option that does not meet a demand. One that holds no number meets every range. -/
def Demand.fault? (d : Ini.Document) (name : String) : Demand → Option ConfigError
  | .ofKind option kind =>
    match d.probe name (option, kind) with
    | .ok () => none
    | .error e => some (.ofValue name e)
  | .inRange option refusal? =>
    match d.getInt name option 0 with
    | .ok n => (refusal? n).map .settings
    | .error _ => none

/-- The ranges of numbers. -/
def ranges : List Demand :=
  [.inRange "threads" fun n => if n < 0 then some (.negativeWorkers n) else none,
   .inRange "timeout" fun n => if n < 0 then some (.negativeDuration n) else none,
   .inRange "target_zeros" fun n => if n < 0 ∨ maxTarget < n then some (.targetOutOfRange n) else none]

/-- All that is demanded, in the order in which it is looked at: first every kind, then the ranges. -/
def demands : List Demand := options.map (fun asked => .ofKind asked.1 asked.2) ++ ranges

theorem exists_asked_of_mem_demands {demand : Demand} (h : demand ∈ demands) :
    ∃ asked ∈ options, asked.1 = demand.option := by
  rcases List.mem_append.mp h with hkind | hrange
  · obtain ⟨asked, hasked, rfl⟩ := List.mem_map.mp hkind
    exact ⟨asked, hasked, rfl⟩
  · simp only [ranges, List.mem_cons, List.not_mem_nil, or_false] at hrange
    rcases hrange with rfl | rfl | rfl <;> simp [options, Demand.option]

/-- The first demand that is not met, by its option and its error. -/
inductive FirstFault (d : Ini.Document) (name : String) : List Demand → String → ConfigError → Prop
  | here {demand : Demand} {rest : List Demand} {e : ConfigError} (h : demand.fault? d name = some e) :
    FirstFault d name (demand :: rest) demand.option e
  | later {met : Demand} {rest : List Demand} {option : String} {e : ConfigError}
    (hmet : met.fault? d name = none) (h : FirstFault d name rest option e) :
    FirstFault d name (met :: rest) option e

variable {d d' : Ini.Document} {name : String} {all : List Demand} {e : ConfigError}

theorem findSome?_fault?_iff :
    all.findSome? (Demand.fault? d name) = some e ↔ ∃ option, FirstFault d name all option e := by
  induction all with
  | nil =>
      refine iff_of_false (by simp) ?_
      rintro ⟨option, ⟨⟩⟩
  | cons demand rest ih =>
      rw [List.findSome?_cons]
      cases hfault : demand.fault? d name with
      | some e' =>
          constructor
          · intro h
            cases h
            exact ⟨_, .here hfault⟩
          · rintro ⟨option, ⟨h⟩ | ⟨hmet, -⟩⟩
            · exact hfault.symm.trans h
            · cases hfault.symm.trans hmet
      | none =>
          dsimp only
          rw [ih]
          constructor
          · rintro ⟨option, h⟩
            exact ⟨option, .later hfault h⟩
          · rintro ⟨option, ⟨h⟩ | ⟨-, h⟩⟩
            · cases hfault.symm.trans h
            · exact ⟨option, h⟩

/-- The kinds of options are looked at as they are asked for. -/
theorem findSome?_kinds (asked : List (String × Kind)) :
    (asked.map fun option => .ofKind option.1 option.2).findSome? (Demand.fault? d name) =
      match d.probeAll name asked with
      | .ok () => none
      | .error e => some (.ofValue name e) := by
  induction asked with
  | nil => rfl
  | cons option rest ih =>
      rw [List.map_cons, List.findSome?_cons, ih, Demand.fault?, Ini.Document.probeAll]
      cases d.probe name option <;> rfl

/-- The ranges are those of the check. -/
theorem findSome?_ranges {draft : Draft} (h : Says d name draft) :
    ranges.findSome? (Demand.fault? d name) =
      match check draft with
      | .ok _ => none
      | .error e => some (.settings e) := by
  simp only [ranges, List.findSome?_cons, List.findSome?_nil, Demand.fault?,
    Ini.Document.getInt_eq_ok_iff.mpr h.workers, Ini.Document.getInt_eq_ok_iff.mpr h.maxDuration,
    Ini.Document.getInt_eq_ok_iff.mpr h.targetZeroBits, check]
  by_cases hworkers : draft.workers < 0
  · simp [hworkers]
  by_cases hduration : draft.maxDuration < 0
  · simp [hworkers, hduration]
  by_cases htarget : draft.targetZeroBits < 0 ∨ maxTarget < draft.targetZeroBits
  · simp [hworkers, hduration, htarget]
  · simp [hworkers, hduration, htarget]

/-- **A configuration is refused for its first fault.** -/
theorem ofConfig_eq_error_iff :
    ofConfig d name = .error e ↔ ∃ option, FirstFault d name demands option e := by
  have hprobe : (draftOfSection d name).map (fun _ => ()) = d.probeAll name options := draftOfSection_map
  rw [← findSome?_fault?_iff, demands, List.findSome?_append, findSome?_kinds, ← hprobe, ofConfig_eq]
  cases hdraft : draftOfSection d name with
  | error e' => simp [Except.map]
  | ok draft =>
      simp only [Except.map, Option.none_or, findSome?_ranges (draftOfSection_eq_ok_iff.mp hdraft)]
      cases check draft <;> simp

theorem Demand.fault?_congr {demand : Demand}
    (h : d.get? name demand.option = d'.get? name demand.option) :
    demand.fault? d name = demand.fault? d' name := by
  cases demand with
  | ofKind option kind => rw [fault?, fault?, Ini.Document.probe_congr h]
  | inRange option refusal? =>
      have hnumber : d.getInt name option 0 = d'.getInt name option 0 := Ini.Document.getInt_congr h 0
      rw [fault?, fault?, hnumber]

/-! ## The first faults of two sections -/

/-- Two sections have the same values of some options, and the first fault of each is at one of these. -/
structure ShareFaults (d d' : Ini.Document) (name : String) (all : List Demand)
    (shared : String → Prop) : Prop where
  same : ∀ demand ∈ all, shared demand.option → d.get? name demand.option = d'.get? name demand.option
  left : ∀ option e, FirstFault d name all option e → shared option
  right : ∀ option e, FirstFault d' name all option e → shared option

theorem ShareFaults.symm {shared : String → Prop} (h : ShareFaults d d' name all shared) :
    ShareFaults d' d name all shared :=
  ⟨fun demand hmem hshared => (h.same demand hmem hshared).symm, h.right, h.left⟩

/-- Then they have the same first fault: what the one meets before it, the other meets too. -/
theorem FirstFault.transfer {shared : String → Prop} {option : String}
    (h : FirstFault d name all option e) (hshare : ShareFaults d d' name all shared) :
    FirstFault d' name all option e := by
  induction h with
  | @here demand rest e h =>
      have hshared : shared demand.option := hshare.left _ _ (.here h)
      rw [Demand.fault?_congr (hshare.same demand List.mem_cons_self hshared)] at h
      exact .here h
  | @later met rest option e hmet h ih =>
      have hmet' : met.fault? d' name = none := by
        cases hfault : met.fault? d' name with
        | none => rfl
        | some e' =>
            -- a first fault of the other section is at an option that both have the same value of
            have hshared : shared met.option := hshare.right _ _ (.here hfault)
            rw [← Demand.fault?_congr (hshare.same met List.mem_cons_self hshared), hmet] at hfault
            cases hfault
      have hrest : ShareFaults d d' name rest shared :=
        ⟨fun demand hmem => hshare.same demand (List.mem_cons_of_mem _ hmem),
          fun option e h => hshare.left option e (.later hmet h),
          fun option e h => hshare.right option e (.later hmet' h)⟩
      exact .later hmet' (ih hrest)

theorem ofConfig_eq_error_congr {shared : String → Prop}
    (hshare : ShareFaults d d' name demands shared) :
    ofConfig d name = .error e ↔ ofConfig d' name = .error e := by
  rw [ofConfig_eq_error_iff, ofConfig_eq_error_iff]
  exact exists_congr fun option => ⟨fun h => h.transfer hshare, fun h => h.transfer hshare.symm⟩

end Settings

end KeySearch
