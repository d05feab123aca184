import KeySearch.Ini.Load
import KeySearch.Proofs.DecodedBytes
import Mathlib.Tactic.SplitIfs

/-!
# What a configuration file comes to

Lines are read one after the other, and each leaves the sections as they are or enters one
(`Progress.readLine_cases`), so a document has the sections whose headers stand in its text
(`read_holdsSections`). `load_outcome` says what comes of the bytes of a file, whatever they are: bytes
that are a text give a document or a refusal with a record, and bytes that are none give a refusal or
end the loading without one.
-/

set_option autoImplicit false

namespace KeySearch.Ini

/-! ## Section headers -/

/-- The name in a line that is a section header, unless it continues an option. -/
def headerOf? (line : List Char) : Option String :=
  match Statement.ofLine (Text.stripChars line) with
  | .header name => some name
  | _ => none

/-- No white space is in front of a line. -/
def Unindented (line : List Char) : Prop := line.takeWhile Text.isBlankChar = []

namespace Progress

/-- The sections that have been entered, last one first. -/
def entered (p : Progress) : List OpenSection :=
  match p.current with
  | none => p.closed
  | some s => s :: p.closed

/-- The names of the sections that have been entered, the default section left out. -/
def names (p : Progress) : List String :=
  ((p.entered.map OpenSection.name).filter (· != defaultSection)).reverse

variable {p q : Progress} {source : List Nat} {number : Nat} {line : List Char} {name : String}

theorem document_names (p : Progress) : p.document.sections.map Section.name = p.names := by
  have hdocument : p.document.sections =
      (p.entered.reverse.map OpenSection.close).filter fun s => s.name != defaultSection := by
    obtain ⟨closed, _ | s, continuable, indent, faults⟩ := p <;> rfl
  rw [hdocument, names, List.filter_map, List.filter_map, List.map_map, ← List.map_reverse,
    ← List.filter_reverse]
  rfl

/-- The sections after one is entered, given those before. -/
theorem enter_entered (p : Progress) (name : String) :
    (p.enter name).entered =
      if name = defaultSection then
        (p.entered.find? fun s => s.name == name).getD ⟨name, []⟩
          :: p.entered.filter fun s => s.name != name
      else ⟨name, []⟩ :: p.entered := by
  unfold enter
  by_cases hname : name = defaultSection
  · rw [if_pos hname, if_pos hname]
    split
    · next s hfind =>
      have hfound : p.entered.find? (fun s => s.name == name) = some s := hfind
      rw [hfound]
      rfl
    · next hfind =>
      have hnone : p.entered.find? (fun s => s.name == name) = none := hfind
      rw [hnone, Option.getD_none, List.filter_eq_self.mpr (by simpa using hnone)]
      rfl
  · rw [if_neg hname, if_neg hname]
    rfl

theorem enter_current_ne (p : Progress) (name : String) : (p.enter name).current ≠ none := by
  unfold enter
  dsimp only
  split
  · split <;> exact Option.some_ne_none _
  · exact Option.some_ne_none _

theorem enter_names (p : Progress) (name : String) :
    (p.enter name).names = if name = defaultSection then p.names else p.names ++ [name] := by
  rw [names, enter_entered]
  by_cases hname : name = defaultSection
  · subst hname
    have hfirst : ((p.entered.find? fun s => s.name == defaultSection).getD ⟨defaultSection, []⟩).name
        = defaultSection := by
      cases hfind : p.entered.find? fun s => s.name == defaultSection with
      | none => rfl
      | some s => simpa using List.find?_some hfind
    simp [names, hfirst, List.filter_map, Function.comp_def]
  · simp [names, hname]

theorem knows_iff (hname : name ≠ defaultSection) : p.knows name = true ↔ name ∈ p.names := by
  have hentered : p.knows name = p.entered.any fun s => s.name == name := by
    unfold knows entered
    cases p.current <;> simp [Bool.or_comm]
  simp [hentered, names, hname]

/-- The sections that have been entered are still the same, up to their options. -/
def SameSections (p q : Progress) : Prop :=
  q.closed = p.closed ∧ q.current.map OpenSection.name = p.current.map OpenSection.name

theorem SameSections.names_eq (h : p.SameSections q) : q.names = p.names := by
  obtain ⟨closed, current, continuable, indent, faults⟩ := p
  obtain ⟨closed', current', continuable', indent', faults'⟩ := q
  obtain ⟨rfl, hcurrent⟩ := h
  dsimp only at hcurrent
  cases current <;> cases current' <;> simp_all [names, entered]

theorem extend_name (s : OpenSection) (line : List Char) : (s.extend line).name = s.name := by
  unfold OpenSection.extend
  split <;> rfl

/-- A line that begins with a comment character is no header. -/
theorem headerOf?_of_comment {first : Char} {rest : List Char}
    (hbody : Text.stripChars line = first :: rest) (hfirst : (first == '#' || first == ';') = true) :
    headerOf? line = none := by
  have hname : headerName? (first :: rest) = none := by
    unfold headerName?
    split
    · next heq =>
      cases heq
      simp at hfirst
    · rfl
  rw [headerOf?, hbody, Statement.ofLine, hname]
  dsimp only
  cases (first :: rest).dropWhile fun c => !isDelimiter c <;> rfl

/-- What a line does to the sections: it leaves them as they are, or it enters one. -/
theorem readLine_cases (h : p.readLine source number line = .ok q) :
    (p.SameSections q ∧ (Unindented line → headerOf? line = none))
      ∨ ∃ name, headerOf? line = some name
        ∧ (p.current = none ∨ name = defaultSection ∨ p.knows name = false)
        ∧ q.names = (p.enter name).names ∧ q.current ≠ none := by
  unfold readLine at h
  dsimp only at h
  split at h
  · -- a blank line, which may be part of a value
    next hbody =>
    have hnone : headerOf? line = none := by
      rw [headerOf?, hbody]
      rfl
    refine .inl ⟨?_, fun _ => hnone⟩
    split at h
    · next s hcurrent =>
      cases h
      split
      · exact ⟨rfl, by simp [hcurrent, extend_name]⟩
      · exact ⟨rfl, rfl⟩
    · cases h
      exact ⟨rfl, rfl⟩
  · next first rest hbody =>
    split at h
    · next hcomment =>
      cases h
      exact .inl ⟨⟨rfl, rfl⟩, fun _ => headerOf?_of_comment hbody hcomment⟩
    split at h
    · -- the first line that counts has to be a header
      next hcurrent =>
      split at h
      · next name hheader =>
        cases h
        refine .inr ⟨name, by rw [headerOf?, hheader], .inl hcurrent, rfl, enter_current_ne p name⟩
      · cases h
    · next s hcurrent =>
      split at h
      · -- only an indented line continues an option, be it a header by its looks
        next hcontinued =>
        cases h
        refine .inl ⟨⟨rfl, by simp [hcurrent, extend_name]⟩, fun hunindented => ?_⟩
        rw [hunindented] at hcontinued
        simp at hcontinued
      split at h
      · next name hheader =>
        split at h
        · cases h
        · next hknown =>
          cases h
          refine .inr ⟨name, by rw [headerOf?, hheader], .inr ?_, rfl, ?_⟩
          · simpa [Classical.or_iff_not_imp_left] using hknown
          · exact enter_current_ne p name
      · next name value hoption =>
        have hnone : headerOf? line = none := by rw [headerOf?, hoption]
        split at h
        · cases h
        · cases h
          exact .inl ⟨⟨rfl, by simp [hcurrent]⟩, fun _ => hnone⟩
      · next hother =>
        cases h
        have hnone : headerOf? line = none := by rw [headerOf?, hother]
        exact .inl ⟨⟨rfl, rfl⟩, fun _ => hnone⟩

/-- Nothing is closed before a section is entered. -/
def Begun (p : Progress) : Prop := p.current = none → p.closed = []

/-- What some lines add to the sections: those whose headers stand in them, in their order, and each
unindented header is among these. -/
structure Adds (p q : Progress) (lines : List (List Char)) : Prop where
  begun : q.Begun
  added : ∃ new, q.names = p.names ++ new ∧ new.Sublist (lines.filterMap headerOf?)
  unindented : ∀ line ∈ lines, Unindented line → ∀ name, headerOf? line = some name →
    name ≠ defaultSection → name ∈ q.names
  nodup : p.names.Nodup → q.names.Nodup

theorem Adds.rfl (hbegun : p.Begun) : p.Adds p [] :=
  ⟨hbegun, ⟨[], (List.append_nil _).symm, List.Sublist.refl _⟩, by simp, id⟩

theorem Adds.trans {r : Progress} {lines more : List (List Char)} (hpq : p.Adds q lines)
    (hqr : q.Adds r more) : p.Adds r (lines ++ more) := by
  obtain ⟨new, hq, hnew⟩ := hpq.added
  obtain ⟨new', hr, hnew'⟩ := hqr.added
  refine ⟨hqr.begun, ⟨new ++ new', by rw [hr, hq, List.append_assoc], ?_⟩, ?_, hqr.nodup ∘ hpq.nodup⟩
  · rw [List.filterMap_append]
    exact hnew.append hnew'
  · intro line hline hunindented name hname hne
    rcases List.mem_append.mp hline with hline | hline
    · rw [hr]
      exact List.mem_append_left _ (hpq.unindented line hline hunindented name hname hne)
    · exact hqr.unindented line hline hunindented name hname hne

theorem Adds.same (hbegun : q.Begun) (hnames : q.names = p.names)
    (hline : Unindented line → ∀ name, headerOf? line = some name → name = defaultSection) :
    p.Adds q [line] := by
  refine ⟨hbegun, ⟨[], by rw [hnames, List.append_nil], List.nil_sublist _⟩, ?_,
    fun hnodup => hnames ▸ hnodup⟩
  intro other hother hunindented name hname hne
  obtain rfl := List.mem_singleton.mp hother
  exact absurd (hline hunindented name hname) hne

theorem Adds.entered (hbegun : q.Begun) (hnames : q.names = p.names ++ [name])
    (hname : headerOf? line = some name) (hfresh : name ∉ p.names) : p.Adds q [line] := by
  have hheaders : [line].filterMap headerOf? = [name] := by simp [hname]
  refine ⟨hbegun, ⟨[name], hnames, hheaders ▸ List.Sublist.refl _⟩, ?_, fun hnodup => ?_⟩
  · intro other hother _ name' hname' _
    obtain rfl := List.mem_singleton.mp hother
    cases hname.symm.trans hname'
    rw [hnames]
    exact List.mem_append_right _ (List.mem_singleton_self name)
  · rw [hnames]
    refine List.nodup_append.mpr ⟨hnodup, List.nodup_cons.mpr ⟨List.not_mem_nil, List.nodup_nil⟩, ?_⟩
    rintro a ha b hb rfl
    exact hfresh (List.mem_singleton.mp hb ▸ ha)

/-- One line adds the section whose header it is, if it is one. -/
theorem readLine_adds (h : p.readLine source number line = .ok q) (hbegun : p.Begun) :
    p.Adds q [line] := by
  rcases readLine_cases h with ⟨hsame, hunindented⟩ | ⟨name, hname, hnew, hnames, hcurrent⟩
  · refine .same (fun hq => ?_) hsame.names_eq fun hline name hname => ?_
    · rw [hsame.1]
      exact hbegun (by simpa [hq] using hsame.2.symm)
    · rw [hunindented hline] at hname
      cases hname
  · have hbegun' : q.Begun := fun hq => absurd hq hcurrent
    rw [enter_names] at hnames
    by_cases hdefault : name = defaultSection
    · rw [if_pos hdefault] at hnames
      refine .same hbegun' hnames fun _ other hother => ?_
      rwa [← Option.some.inj (hname.symm.trans hother)]
    · rw [if_neg hdefault] at hnames
      refine .entered hbegun' hnames hname ?_
      rcases hnew with hnone | hname | hknown
      · -- nothing has been entered yet
        have hempty : p.names = [] := by simp [names, Progress.entered, hnone, hbegun hnone]
        rw [hempty]
        exact List.not_mem_nil
      · exact absurd hname hdefault
      · rw [← knows_iff hdefault, hknown]
        exact Bool.false_ne_true

theorem readLines_adds {lines : List (List Char)} (h : readLines source p number lines = .ok q)
    (hbegun : p.Begun) : p.Adds q lines := by
  induction lines generalizing p number with
  | nil =>
      cases h
      exact Adds.rfl hbegun
  | cons line lines ih =>
      rw [readLines] at h
      cases hline : p.readLine source number line with
      | error e =>
          rw [hline] at h
          cases h
      | ok next =>
          rw [hline] at h
          have hfirst := readLine_adds hline hbegun
          exact hfirst.trans (ih h hfirst.begun)

end Progress

/-! ## The sections of a document -/

/-- A document has the sections that lines head: each of its sections has a header among the lines, in
their order, and each unindented header is that of a section. Only the default section is none. -/
structure HoldsSections (d : Document) (lines : List (List Char)) : Prop where
  headed : (d.sections.map Section.name).Sublist (lines.filterMap headerOf?)
  unindented : ∀ line ∈ lines, Unindented line → ∀ name, headerOf? line = some name →
    name ≠ defaultSection → d.hasSection name = true
  nodup : (d.sections.map Section.name).Nodup

theorem Document.hasSection_iff {d : Document} {name : String} :
    d.hasSection name = true ↔ name ∈ d.sections.map Section.name := by
  simp [Document.hasSection, Document.section?]

theorem read_holdsSections {source : List Nat} {text : List Char} {d : Document}
    (h : read source text = .ok d) : HoldsSections d (Text.splitLines text) := by
  rw [read] at h
  cases hlines : readLines source Progress.start 1 (Text.splitLines text) with
  | error e =>
      rw [hlines] at h
      cases h
  | ok p =>
      have hfinish : p.finish source = .ok d := by rwa [hlines] at h
      obtain ⟨-, ⟨new, hnew, hsub⟩, hunindented, hnodup⟩ := Progress.readLines_adds hlines fun _ => rfl
      obtain rfl : p.document = d := by
        unfold Progress.finish at hfinish
        split_ifs at hfinish
        exact Except.ok.inj hfinish
      have hstart : Progress.start.names = [] := rfl
      rw [hstart, List.nil_append] at hnew
      refine ⟨?_, ?_, ?_⟩
      · rwa [Progress.document_names, hnew]
      · intro line hline hline' name hname hne
        rw [Document.hasSection_iff, Progress.document_names]
        exact hunindented line hline hline' name hname hne
      · rw [Progress.document_names]
        exact hnodup List.nodup_nil

/-! ## Loading -/

/-- The record of a configuration that is loaded. -/
def loadedRecord : Log.Record := Log.info "Configuration loaded successfully"

/-- The record of a configuration that is not. -/
def failedRecord (e : ReadError) : Log.Record :=
  Log.failure ("Failed to load configuration: " ++ e.message)

variable {f : Files} {place : List Nat} {path : Path} {bytes : List UInt8}

theorem load_of_text {text : List Char} (hfile : f.locate place = some (path, .file bytes))
    (hbytes : bytes = Utf8.encode text) :
    load f place =
      match read place (Text.unifyLineEnds text) with
      | .ok d => (.document d, [loadedRecord])
      | .error e => (.refused, [failedRecord e]) := by
  have hdecode := Utf8.decodeBlocks_eq_iff.mpr hbytes
  cases hread : read place (Text.unifyLineEnds text) <;>
    simp [load, hfile, FileNode.content?, readFile, hdecode, hread, loadedRecord, failedRecord]

theorem load_of_fault {text : List Char} {e : Utf8.Error}
    (hfile : f.locate place = some (path, .file bytes))
    (hbytes : Utf8.decodeBlocks (Utf8.blockCount bytes) [] bytes = (text, some e)) :
    load f place =
      match readLines place Progress.start 1 (Text.completeLines text) with
      | .ok _ => (.undecodable e, [])
      | .error fault => (.refused, [failedRecord fault]) := by
  cases hlines : readLines place Progress.start 1 (Text.completeLines text) <;>
    simp [load, hfile, FileNode.content?, readFile, hbytes, hlines, failedRecord]

/-- **Loading an existing configuration file.** If its bytes are a text, then the text is in order and
loading gives a document with the sections of the text, or it is not, and then the file is refused
with one record of the error. If they are none, the lines before the fault decide: the file is refused for
an error in one of them, and else loading ends in the fault itself, without a record. -/
theorem load_outcome (hfile : f.locate place = some (path, .file bytes)) :
    (∀ text, bytes = Utf8.encode text →
        (∃ d, load f place = (.document d, [loadedRecord])
            ∧ read place (Text.unifyLineEnds text) = .ok d
            ∧ HoldsSections d (Text.splitLines (Text.unifyLineEnds text)))
          ∨ ∃ e, load f place = (.refused, [failedRecord e])
            ∧ read place (Text.unifyLineEnds text) = .error e)
      ∧ ((¬ ∃ text, bytes = Utf8.encode text) →
        ∃ front rest e, bytes = Utf8.encode front ++ rest
          ∧ Utf8.decodeBlocks (Utf8.blockCount bytes) [] bytes = (front, some e)
          ∧ ((∃ p, load f place = (.undecodable e, [])
                ∧ readLines place Progress.start 1 (Text.completeLines front) = .ok p)
            ∨ ∃ fault, load f place = (.refused, [failedRecord fault])
                ∧ readLines place Progress.start 1 (Text.completeLines front) = .error fault)) := by
  constructor
  · intro text hbytes
    have hload := load_of_text hfile hbytes
    cases hread : read place (Text.unifyLineEnds text) with
    | ok d =>
        rw [hread] at hload
        exact .inl ⟨d, hload, rfl, read_holdsSections hread⟩
    | error e =>
        rw [hread] at hload
        exact .inr ⟨e, hload, rfl⟩
  · intro hnone
    obtain ⟨front, rest, e, hprefix, hdecode⟩ := Utf8.exists_decodeBlocks_eq hnone
    refine ⟨front, rest, e, hprefix, hdecode, ?_⟩
    have hload := load_of_fault hfile hdecode
    cases hlines : readLines place Progress.start 1 (Text.completeLines front) with
    | ok p =>
        rw [hlines] at hload
        exact .inl ⟨p, hload, rfl⟩
    | error fault =>
        rw [hlines] at hload
        exact .inr ⟨fault, hload, rfl⟩

/-- The path of a configuration in the working directory `w`. -/
def configPath : Path := ["w", "config.ini"]

/-- A working directory with a configuration of the given bytes in it. -/
def configFile (bytes : List UInt8) : Files := ⟨["w"], [(configPath, .file bytes)]⟩

theorem load_outcome_oneByte :
    (configFile [0xff]).locate "config.ini" = some (configPath, .file [0xff])
      ∧ (¬ ∃ text, [0xff] = Utf8.encode text)
      ∧ load (configFile [0xff]) "config.ini" = (.undecodable ⟨.invalidStart, 0, [0xff]⟩, []) := by
  have hfile : (configFile [0xff]).locate "config.ini" = some (configPath, .file [0xff]) := by
    decide +kernel
  have hnone : ¬ ∃ text, [0xff] = Utf8.encode text := by
    rintro ⟨text, htext⟩
    have hdecode := Utf8.decodeBlocks_eq_iff.mpr htext
    cases hdecode
  refine ⟨hfile, hnone, ?_⟩
  obtain ⟨front, rest, e, -, hdecode, h⟩ := (load_outcome hfile).2 hnone
  cases hdecode
  rcases h with ⟨p, hload, -⟩ | ⟨fault, -, hlines⟩
  · exact hload
  · cases hlines

/-- The statement that is not so: an existing file gives a document, or is refused with a record of an
error. A byte that begins no character is neither. -/
theorem not_forall_load_refused :
    ¬ ∀ (f : Files) (place : List Nat) (path : Path) (bytes : List UInt8),
      f.locate place = some (path, .file bytes) →
        (∃ d log, load f place = (.document d, log))
          ∨ ∃ message, load f place = (.refused, [Log.failure message]) := by
  intro hall
  have hcrash : load (configFile [0xff]) "config.ini" = (.undecodable ⟨.invalidStart, 0, [0xff]⟩, []) := by
    decide +kernel
  rcases hall (configFile [0xff]) "config.ini" configPath [0xff] (by decide +kernel) with
    ⟨d, log, hload⟩ | ⟨message, hload⟩
  · cases hcrash.symm.trans hload
  · cases hcrash.symm.trans hload

end KeySearch.Ini
