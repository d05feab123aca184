import KeySearch.Files

/-!
# A file is found where it was written

A file is written at a path, and it is found again by the text of that path. `Files.names` gives back
the names that `Files.absolute` put between slashes, and `Files.walk` follows them through the
directories that `Files.makeDirectory` has made, so `Files.locate` comes to the file. New directories
are all that making one changes (`Files.makeDirectory_changes`).
-/

set_option autoImplicit false

namespace KeySearch.Files

/-! ## Names in a text -/

/-- No name that a text is split into has a slash. -/
theorem not_mem_of_mem_names {place part : List Nat} (h : part ∈ names place) : 0x2f ∉ part := by
  unfold names at h
  induction place generalizing part with
  | nil =>
      rw [List.splitOn_nil] at h
      rw [List.mem_singleton.mp h]
      exact List.not_mem_nil
  | cons c rest ih =>
      obtain ⟨first, parts, hsplit⟩ := List.exists_cons_of_ne_nil (List.splitOn_ne_nil 0x2f rest)
      rw [hsplit] at ih
      rw [List.splitOn_cons_eq_if_modifyHead, hsplit, List.modifyHead_cons] at h
      split at h
      · rcases List.mem_cons.mp h with rfl | h
        · exact List.not_mem_nil
        · exact ih h
      · next hc =>
        rcases List.mem_cons.mp h with rfl | h
        · rw [List.mem_cons, not_or]
          exact ⟨fun hslash => hc (beq_iff_eq.mpr hslash.symm), ih List.mem_cons_self⟩
        · exact ih (List.mem_cons_of_mem _ h)

/-! ## Names of files and directories -/

/-- A name that leads from a directory to something in it. -/
structure IsName (name : List Nat) : Prop where
  not_empty : name ≠ []
  not_here : name ≠ dot
  not_back : name ≠ dots
  no_slash : 0x2f ∉ name

instance (name : List Nat) : Decidable (IsName name) :=
  decidable_of_iff (name ≠ [] ∧ name ≠ dot ∧ name ≠ dots ∧ 0x2f ∉ name)
    ⟨fun h => ⟨h.1, h.2.1, h.2.2.1, h.2.2.2⟩, fun h => ⟨h.1, h.2, h.3, h.4⟩⟩

/-- Names that are put between slashes come apart again. -/
theorem names_absolute {path : Path} (hne : path ≠ []) (h : ∀ name ∈ path, IsName name) :
    names (absolute path) = [] :: path := by
  have hparts : ∀ part ∈ [] :: path, 0x2f ∉ part := by
    intro part hpart
    rcases List.mem_cons.mp hpart with rfl | hpart
    · exact List.not_mem_nil
    · exact (h part hpart).no_slash
  obtain ⟨first, rest, rfl⟩ := List.exists_cons_of_ne_nil hne
  have htext : absolute (first :: rest) = [0x2f].intercalate ([] :: first :: rest) := by
    rw [List.intercalate_cons_cons]
    rfl
  rw [names, htext]
  exact List.splitOn_intercalate 0x2f hparts (List.cons_ne_nil _ _)

/-- The path that a text spells has names in it, whatever the text is. -/
theorem isName_lexicalPath {path : Path} (hpath : ∀ name ∈ path, IsName name)
    {parts : List (List Nat)} (hparts : ∀ part ∈ parts, 0x2f ∉ part) :
    ∀ name ∈ lexicalPath path parts, IsName name := by
  induction parts generalizing path with
  | nil => exact hpath
  | cons part rest ih =>
      have hrest : ∀ part ∈ rest, 0x2f ∉ part := fun other hother =>
        hparts other (List.mem_cons_of_mem part hother)
      rw [lexicalPath]
      split
      · exact ih hpath hrest
      · next hstay =>
        split
        · exact ih (fun name hname => hpath name (List.dropLast_subset path hname)) hrest
        · next hback =>
          -- a part that is none of the special ones is put at the end of the path
          refine ih (fun name hname => ?_) hrest
          rcases List.mem_append.mp hname with hold | hnew
          · exact hpath name hold
          · rw [List.mem_singleton.mp hnew]
            simp only [Bool.or_eq_true, List.isEmpty_iff, decide_eq_true_eq, not_or] at hstay
            exact ⟨hstay.1, hstay.2, hback, hparts part List.mem_cons_self⟩

theorem isName_resolve {f : Files} (hhere : ∀ name ∈ f.here, IsName name) (place : List Nat) :
    ∀ name ∈ (f.resolve place).path, IsName name := by
  refine isName_lexicalPath (fun name hname => ?_) fun part hpart => not_mem_of_mem_names hpart
  unfold origin at hname
  split at hname
  · exact absurd hname List.not_mem_nil
  · exact hhere name hname

/-! ## Following names -/

/-- All that leads to a path are directories. -/
def Leads (f : Files) (path : Path) : Prop :=
  ∀ k < path.length, f.node? (path.take k) = some .directory

theorem walk_names {f : Files} {path names : Path} {node : FileNode}
    (hdirs : ∀ k < names.length, f.node? (path ++ names.take k) = some .directory)
    (hnames : ∀ name ∈ names, IsName name) (hnode : f.node? (path ++ names) = some node) :
    f.walk path names = some (path ++ names, node) := by
  induction names generalizing path with
  | nil =>
      rw [List.append_nil] at hnode ⊢
      rw [walk, hnode]
      rfl
  | cons name rest ih =>
      have hhere : f.node? path = some .directory := by simpa using hdirs 0 (by simp)
      have hname := hnames name List.mem_cons_self
      have hrest := @ih (path ++ [name]) (fun k hk => by simpa using hdirs (k + 1) (by simpa using hk))
        (fun other hother => hnames other (List.mem_cons_of_mem name hother)) (by simpa using hnode)
      rw [walk, hhere]
      dsimp only
      rw [if_neg (by simp [hname.not_empty, hname.not_here]), if_neg hname.not_back, hrest,
        List.append_assoc, List.singleton_append]

theorem walk_empty {f : Files} {path : Path} (h : f.node? path = some .directory)
    (names : List (List Nat)) : f.walk path ([] :: names) = f.walk path names := by
  rw [walk, h]
  rfl

theorem node?_root (f : Files) : f.node? [] = some .directory := rfl

theorem names_text {l : Location} (hne : l.path ≠ []) (h : ∀ name ∈ l.path, IsName name) :
    names l.text = if l.doubled then [] :: [] :: l.path else [] :: l.path := by
  unfold Location.text
  cases l.doubled with
  | false => exact names_absolute hne h
  | true =>
      rw [if_pos rfl, if_pos rfl, ← names_absolute hne h]
      exact List.splitOn_cons_eq_if_modifyHead 0x2f (absolute l.path)

/-- The text of a location starts at the root. -/
theorem head_text (l : Location) : l.text.head? = some 0x2f := by
  unfold Location.text absolute
  cases l.doubled <;> rfl

/-- What stands at a location is found by its text. -/
theorem locate_text {f : Files} {l : Location} {node : FileNode} (hne : l.path ≠ [])
    (hnames : ∀ name ∈ l.path, IsName name) (hleads : f.Leads l.path)
    (hfits : placeFault? l.text = none) (hnode : f.node? l.path = some node) :
    f.locate l.text = some (l.path, node) := by
  have hempty : l.text.isEmpty = false := by
    rw [Bool.eq_false_iff, ne_eq, List.isEmpty_iff]
    intro hnil
    have hhead := head_text l
    rw [hnil] at hhead
    cases hhead
  have hwalk : f.walk [] l.path = some (l.path, node) :=
    walk_names (fun k hk => hleads k hk) hnames hnode
  rw [locate, hempty, hfits, origin, if_pos (head_text l), names_text hne hnames]
  cases l.doubled with
  | false => exact (walk_empty f.node?_root _).trans hwalk
  | true => exact ((walk_empty f.node?_root _).trans (walk_empty f.node?_root _)).trans hwalk

/-! ## Making directories and writing files -/

/-- What stands in one file system stands in another one, too. -/
structure Within (f g : Files) : Prop where
  here : g.here = f.here
  nodes : ∀ path node, f.node? path = some node → g.node? path = some node

theorem within_rfl (f : Files) : f.Within f := ⟨rfl, fun _ _ => id⟩

theorem Within.trans {f g h : Files} (hfg : f.Within g) (hgh : g.Within h) : f.Within h :=
  ⟨hgh.here.trans hfg.here, fun path node hnode => hgh.nodes path node (hfg.nodes path node hnode)⟩

/-- Something can be put where nothing is. -/
theorem put_of_none {f : Files} {path : Path} (h : f.node? path = none) (node : FileNode) :
    f.Within (f.put path node) ∧ (f.put path node).node? path = some node := by
  have hhere : path.isPrefixOf f.here = false := by
    rw [Bool.eq_false_iff]
    intro hprefix
    rw [node?, if_pos hprefix] at h
    cases h
  refine ⟨⟨rfl, fun other old hold => ?_⟩, node?_put_self node hhere⟩
  rw [node?_put_of_ne node, hold]
  rintro rfl
  rw [h] at hold
  cases hold

theorem makeIn_eq_ok {f made : Files} {l : Location} {name : List Nat}
    (h : f.makeIn l name = .ok made) : made = f.put (l.child name).path .directory := by
  unfold makeIn at h
  dsimp only at h
  split at h
  · cases h
  · split at h
    · cases h
    · exact (Except.ok.inj h).symm

/-- Making directories goes on from the next one, which is there or is put where nothing is. -/
theorem makeFrom_cons_eq_ok {f made : Files} {l : Location} {name : List Nat}
    {rest : List (List Nat)}
    (h : f.makeFrom l (name :: rest) = .ok made) :
    ∃ g, g.makeFrom (l.child name) rest = .ok made
      ∧ (g = f ∧ f.node? (l.child name).path = some .directory
        ∨ g = f.put (l.child name).path .directory ∧ f.node? (l.child name).path = none) := by
  rw [makeFrom.eq_def] at h
  dsimp only at h
  cases hnode : f.node? (l.child name).path with
  | none =>
      rw [hnode] at h
      dsimp only at h
      cases hmade : f.makeIn l name with
      | error e =>
          rw [hmade] at h
          cases h
      | ok g =>
          rw [hmade] at h
          exact ⟨g, h, .inr ⟨makeIn_eq_ok hmade, rfl⟩⟩
  | some node =>
      rw [hnode] at h
      cases node with
      | directory => exact ⟨f, h, .inl ⟨rfl, rfl⟩⟩
      | file bytes => cases rest <;> cases h
      | device bytes => cases rest <;> cases h

/-- The directories that are made lead to the last one, and nothing that was there is touched. -/
theorem makeFrom_eq_ok {f made : Files} {l : Location} {names : List (List Nat)}
    (h : f.makeFrom l names = .ok made) (hhere : f.node? l.path = some .directory) :
    f.Within made ∧ ∀ k ≤ names.length, made.node? (l.path ++ names.take k) = some .directory := by
  induction names generalizing f l with
  | nil =>
      cases h
      refine ⟨within_rfl made, fun k hk => ?_⟩
      rw [List.take_nil, List.append_nil, hhere]
  | cons name rest ih =>
      obtain ⟨g, hmake, hnext⟩ := makeFrom_cons_eq_ok h
      obtain ⟨hwithin, hself⟩ : f.Within g ∧ g.node? (l.child name).path = some .directory := by
        rcases hnext with ⟨rfl, hnode⟩ | ⟨rfl, hnode⟩
        · exact ⟨within_rfl g, hnode⟩
        · exact put_of_none hnode .directory
      -- what leads on from the next directory leads on from here
      obtain ⟨hkept, hdirs⟩ := ih hmake hself
      refine ⟨hwithin.trans hkept, fun k hk => ?_⟩
      cases k with
      | zero =>
          rw [List.take_zero, List.append_nil]
          exact (hwithin.trans hkept).nodes _ _ hhere
      | succ k => simpa [Location.child] using hdirs k (Nat.le_of_succ_le_succ hk)

/-- All that making directories changes is that some of them stand where nothing stood. -/
theorem makeFrom_changes {f made : Files} {l : Location} {names : List (List Nat)}
    (h : f.makeFrom l names = .ok made) (path : Path) :
    made.node? path = f.node? path
      ∨ f.node? path = none ∧ made.node? path = some .directory ∧ path <+: l.path ++ names := by
  induction names generalizing f l with
  | nil =>
      cases h
      exact .inl rfl
  | cons name rest ih =>
      have hpath : (l.child name).path ++ rest = l.path ++ name :: rest := by simp [Location.child]
      obtain ⟨g, hmake, hnext⟩ := makeFrom_cons_eq_ok h
      have hlater := ih hmake
      rw [hpath] at hlater
      rcases hnext with ⟨rfl, -⟩ | ⟨rfl, hnode⟩
      · exact hlater
      · by_cases hnew : path = (l.child name).path
        · -- this directory is new, and what comes after it leaves it there
          subst hnew
          have hself := (put_of_none hnode .directory).2
          rcases hlater with hsame | ⟨hnone, -, -⟩
          · exact .inr ⟨hnode, hsame.trans hself, hpath ▸ List.prefix_append _ _⟩
          · rw [hself] at hnone
            cases hnone
        · rwa [node?_put_of_ne _ hnew] at hlater

theorem makeDirectory_changes {f made : Files} {l : Location} (h : f.makeDirectory l = .ok made)
    (path : Path) :
    made.node? path = f.node? path
      ∨ f.node? path = none ∧ made.node? path = some .directory ∧ path <+: l.path := by
  unfold makeDirectory at h
  split at h
  · cases h
  · exact makeFrom_changes h path

theorem makeFrom_of_directories {f : Files} {l : Location} {names : List (List Nat)}
    (h : ∀ k ≤ names.length, f.node? (l.path ++ names.take k) = some .directory) :
    f.makeFrom l names = .ok f := by
  induction names generalizing l with
  | nil => rfl
  | cons name rest ih =>
      have hnext : f.node? (l.child name).path = some .directory := by
        simpa [Location.child] using h 1 (by simp)
      rw [makeFrom.eq_def]
      dsimp only
      rw [hnext]
      exact ih fun k hk => by
        simpa [Location.child] using h (k + 1) (Nat.succ_le_succ hk)

/-- A directory that is there is made without a change. -/
theorem makeDirectory_of_directories {f : Files} {l : Location}
    (h : ∀ k ≤ l.path.length, f.node? (l.path.take k) = some .directory) :
    f.makeDirectory l = .ok f := by
  have hmissing : f.missingBefore l.path = 0 := by
    rw [missingBefore, List.countP_eq_zero]
    intro k hk
    rw [h k (Nat.le_of_lt (List.mem_range.mp hk))]
    exact Bool.false_ne_true
  rw [makeDirectory, hmissing, if_neg (Nat.not_lt_zero _)]
  exact makeFrom_of_directories h

theorem makeDirectory_eq_ok {f made : Files} {l : Location} (h : f.makeDirectory l = .ok made) :
    f.Within made ∧ ∀ k ≤ l.path.length, made.node? (l.path.take k) = some .directory := by
  unfold makeDirectory at h
  split at h
  · cases h
  · exact makeFrom_eq_ok h f.node?_root

/-- A file can be written where nothing or another file is, and then its bytes are there. -/
theorem write_eq_ok {f : Files} {l : Location} (hfits : placeFault? l.text = none)
    (hfree : ∀ node, f.node? l.path = some node → ∃ old, node = .file old) (bytes : List UInt8) :
    f.write l bytes = .ok (f.put l.path (.file bytes))
      ∧ (f.put l.path (.file bytes)).node? l.path = some (.file bytes) := by
  have hhere : l.path.isPrefixOf f.here = false := by
    rw [Bool.eq_false_iff]
    intro hprefix
    obtain ⟨old, hold⟩ := hfree .directory (by rw [node?, if_pos hprefix])
    cases hold
  refine ⟨?_, node?_put_self _ hhere⟩
  rw [write, hfits]
  cases hnode : f.node? l.path with
  | none => rfl
  | some node =>
      obtain ⟨old, rfl⟩ := hfree node hnode
      rfl

/-- What was written is not in place of a directory, and a device takes it without a change. -/
theorem of_write_eq_ok {f g : Files} {l : Location} {bytes : List UInt8}
    (h : f.write l bytes = .ok g) :
    placeFault? l.text = none ∧ ∀ node, f.node? l.path = some node →
      (∃ old, node = .file old) ∨ g = f ∧ ∃ read, node = .device read := by
  unfold write at h
  cases hfault : placeFault? l.text with
  | some e =>
      rw [hfault] at h
      cases h
  | none =>
      rw [hfault] at h
      refine ⟨rfl, fun node hnode => ?_⟩
      rw [hnode] at h
      cases node with
      | file old => exact .inl ⟨old, rfl⟩
      | directory => cases h
      | device read =>
          cases h
          exact .inr ⟨rfl, read, rfl⟩

end KeySearch.Files
