import KeySearch.Proofs.SavedKeys

/-!
# A series of saved keys

Keys that are saved in one directory share it by their names, and a name has only the first four bytes
of a public key in it. Saving touches one file, `Saved`, so the file of a call stays what it is until
a key with the same four bytes in front is saved, and from then on it has that key. `keptBy` follows
the owner of a file through the later calls.
-/

set_option autoImplicit false

namespace KeySearch

namespace Hex

theorem take_encodeChars (bytes : List UInt8) (n : Nat) :
    (encodeChars bytes).take (2 * n) = encodeChars (bytes.take n) := by
  induction bytes generalizing n with
  | nil => simp [encodeChars]
  | cons byte bytes ih =>
      cases n with
      | zero => rfl
      | succ n =>
          show Text.hexDigit _ :: Text.hexDigit _ :: (encodeChars bytes).take (2 * n) = _
          rw [ih n]
          rfl

theorem encodeChars_injective : Function.Injective encodeChars := by
  intro bytes other h
  have hpairs := pairs_encodeChars bytes
  rw [h, pairs_encodeChars] at hpairs
  exact (Option.some.inj hpairs).symm

end Hex

namespace SavedKey

variable {f g saved : Files} {dir dir' : Option (List Nat)} {time : Timestamp} {c d : Candidate}

/-- Two candidates are saved under one name exactly if their public keys start alike. -/
theorem fileName_eq_iff :
    fileName c = fileName d ↔ c.keys.publicKey.take 4 = d.keys.publicKey.take 4 := by
  have hdigits : ∀ e : Candidate, fileName e
      = Text.codePoints "ygg_" ++ (Hex.encodeChars (e.keys.publicKey.take 4)).map Char.toNat
        ++ Text.codePoints ".json" := by
    intro e
    rw [fileName_eq, ← Hex.take_encodeChars]
  rw [hdigits, hdigits]
  constructor
  · intro h
    rw [List.append_cancel_right_eq, List.append_cancel_left_eq] at h
    exact Hex.encodeChars_injective ((List.map_inj_right fun _ _ => Char.toNat_inj.mp).mp h)
  · intro h
    rw [h]

/-! ## A directory after a call -/

theorem directory_congr (h : g.here = f.here) (dir : Option (List Nat)) :
    directory g dir = directory f dir := by
  simp [directory, Files.resolve, Files.origin, h]

theorem file_congr (h : g.here = f.here) (dir : Option (List Nat)) (c : Candidate) :
    file g dir c = file f dir c := by
  rw [file, file, directory_congr h]

/-- A place in the directory other than the file is not touched. -/
theorem Saved.child (h : Saved f dir time c saved) {name : List Nat} (hne : name ≠ fileName c) :
    saved.node? ((directory f dir).path ++ [name]) = f.node? ((directory f dir).path ++ [name]) := by
  have hpath : (directory f dir).path ++ [name] ≠ (SavedKey.file f dir c).path := by
    rw [file_path]
    intro heq
    exact hne (List.singleton_inj.mp (List.append_cancel_left heq))
  rcases h.others _ hpath with hsame | ⟨-, -, hprefix⟩
  · exact hsame
  · exact absurd hprefix (not_prefix_directory _ name)

/-- Where the file of a candidate is to be, there is nothing yet or another file. -/
theorem Usable.occupied (h : Usable f dir c) {node : FileNode}
    (hnode : f.node? (file f dir c).path = some node) : ∃ old, node = .file old := by
  obtain ⟨made, hmade, hfree⟩ := h.free
  exact hfree node ((Files.makeDirectory_eq_ok hmade).1.nodes _ _ hnode)

/-- A directory stays usable when a candidate is saved in it. -/
theorem Usable.of_saved (h : Usable f dir' d) (hsaved : Saved f dir time c saved)
    (hhome : (directory f dir').path = (directory f dir).path) : Usable saved dir' d := by
  have hpath : (file saved dir' d).path = (directory f dir).path ++ [fileName d] := by
    rw [file_path, directory_congr hsaved.here, hhome]
  refine ⟨?_, ?_, saved, Files.makeDirectory_of_directories ?_, fun node hnode => ?_⟩
  · rw [hsaved.here]
    exact h.here
  · rw [file_congr hsaved.here]
    exact h.fits
  · rw [directory_congr hsaved.here, hhome]
    exact hsaved.leads
  · rw [hpath] at hnode
    by_cases hname : fileName d = fileName c
    · rw [hname, ← file_path, hsaved.file] at hnode
      exact ⟨_, (Option.some.inj hnode).symm⟩
    · rw [hsaved.child hname, ← hhome, ← file_path] at hnode
      exact h.occupied hnode

/-! ## One call after another -/

/-- A call that saves a candidate. -/
structure Call where
  dir : Option (List Nat)
  time : Timestamp
  candidate : Candidate

/-- The bytes of the public key that the name of the file tells. -/
def Call.start (call : Call) : List UInt8 := call.candidate.keys.publicKey.take 4

/-- Saves one candidate after another, and gives the texts of their files. -/
def saveAll (f : Files) : List Call → Except Files.Error (Files × List (List Nat))
  | [] => .ok (f, [])
  | call :: rest =>
    match save f call.dir call.time call.candidate with
    | .error e => .error e
    | .ok saved =>
      match saveAll saved rest with
      | .error e => .error e
      | .ok (last, places) => .ok (last, (file f call.dir call.candidate).text :: places)

/-- Whose key the file of a call has after later calls. -/
def keptBy (call : Call) : List Call → Call
  | [] => call
  | next :: rest => keptBy (if next.start = call.start then next else call) rest

theorem start_keptBy (call : Call) (later : List Call) : (keptBy call later).start = call.start := by
  induction later generalizing call with
  | nil => rfl
  | cons next rest ih =>
      rw [keptBy, ih]
      split
      · assumption
      · rfl

theorem keptBy_mem (call : Call) (later : List Call) : keptBy call later ∈ call :: later := by
  induction later generalizing call with
  | nil => exact List.mem_singleton_self call
  | cons next rest ih =>
      rw [keptBy]
      split
      · exact List.mem_cons_of_mem call (ih next)
      · rcases List.mem_cons.mp (ih call) with heq | hmem
        · rw [heq]
          exact List.mem_cons_self
        · exact List.mem_cons_of_mem call (List.mem_cons_of_mem next hmem)

theorem keptBy_of_ne {call : Call} {later : List Call} (h : ∀ other ∈ later, other.start ≠ call.start) :
    keptBy call later = call := by
  induction later with
  | nil => rfl
  | cons next rest ih =>
      rw [keptBy, if_neg (h next List.mem_cons_self)]
      exact ih fun other hother => h other (List.mem_cons_of_mem next hother)

/-- A later call with a key that starts alike takes the file. -/
theorem keptBy_mem_of_start_eq {call other : Call} {later : List Call} (hmem : other ∈ later)
    (hstart : other.start = call.start) : keptBy call later ∈ later := by
  induction later generalizing call with
  | nil => exact absurd hmem List.not_mem_nil
  | cons next rest ih =>
      rw [keptBy]
      split
      · exact keptBy_mem next rest
      · next hne =>
        rcases List.mem_cons.mp hmem with rfl | hmem
        · exact absurd hstart hne
        · exact List.mem_cons_of_mem next (ih hmem hstart)

/-- The file of a call, in its directory, has the key of that call. -/
structure Holds (f : Files) (home : Path) (call : Call) : Prop where
  leads : ∀ k ≤ home.length, f.node? (home.take k) = some .directory
  file : f.node? (home ++ [fileName call.candidate])
    = some (.file (render call.time call.candidate).toUTF8.toList)

/-- All calls save into one directory, which is usable for each of them. -/
def Into (f : Files) (home : Path) (calls : List Call) : Prop :=
  ∀ call ∈ calls, (directory f call.dir).path = home ∧ Usable f call.dir call.candidate

variable {home : Path} {call next : Call} {calls later : List Call}

theorem Into.tail (h : Into f home (call :: calls)) : Into f home calls := fun other hother =>
  h other (List.mem_cons_of_mem call hother)

/-- The calls that come after one still find a usable directory. -/
theorem Into.of_saved (h : Into f home (call :: calls))
    (hsaved : Saved f call.dir call.time call.candidate saved) : Into saved home calls := by
  intro other hother
  obtain ⟨hhome, husable⟩ := h.tail other hother
  have hsame := (h call List.mem_cons_self).1
  rw [directory_congr hsaved.here]
  exact ⟨hhome, husable.of_saved hsaved (hhome.trans hsame.symm)⟩

theorem Saved.holds (h : Saved f call.dir call.time call.candidate saved)
    (hhome : (directory f call.dir).path = home) : Holds saved home call := by
  subst hhome
  exact ⟨h.leads, h.file⟩

/-- One more call leaves a file to the call that had it, or takes it. -/
theorem Holds.of_saved (h : Holds f home call)
    (hsaved : Saved f next.dir next.time next.candidate saved)
    (hhome : (directory f next.dir).path = home) :
    Holds saved home (if next.start = call.start then next else call) := by
  split
  · exact hsaved.holds hhome
  · next hne =>
    subst hhome
    refine ⟨hsaved.leads, ?_⟩
    rw [hsaved.child fun hname => hne (fileName_eq_iff.mp hname).symm]
    exact h.file

theorem saveAll_holds {f last : Files} {call : Call} {places : List (List Nat)}
    (hall : saveAll f later = .ok (last, places)) (hinto : Into f home later)
    (h : Holds f home call) : Holds last home (keptBy call later) := by
  induction later generalizing f call places with
  | nil =>
      cases hall
      exact h
  | cons next rest ih =>
      obtain ⟨hhome, husable⟩ := hinto next List.mem_cons_self
      obtain ⟨saved, hsave, hsaved⟩ := husable.exists_saved next.time
      rw [saveAll, hsave] at hall
      dsimp only at hall
      cases hrest : saveAll saved rest with
      | error e =>
          rw [hrest] at hall
          cases hall
      | ok result =>
          rw [hrest] at hall
          cases hall
          exact ih hrest (hinto.of_saved hsaved) (h.of_saved hsaved hhome)

/-- A series of calls succeeds, and each file ends up with the key of the call that it is kept by. -/
theorem exists_saveAll {f : Files} (hinto : Into f home calls) :
    ∃ last, saveAll f calls
        = .ok (last, calls.map fun call => (file f call.dir call.candidate).text)
      ∧ ∀ before call after, calls = before ++ call :: after → Holds last home (keptBy call after) := by
  induction calls generalizing f with
  | nil =>
      refine ⟨f, rfl, fun before call after h => ?_⟩
      exact absurd h.symm (by simp)
  | cons first rest ih =>
      obtain ⟨hhome, husable⟩ := hinto first List.mem_cons_self
      obtain ⟨saved, hsave, hsaved⟩ := husable.exists_saved first.time
      obtain ⟨last, hrest, hkept⟩ := ih (hinto.of_saved hsaved)
      refine ⟨last, ?_, fun before call after h => ?_⟩
      · simp only [saveAll, hsave, hrest, List.map_cons, file_congr hsaved.here]
      · cases before with
        | nil =>
            cases h
            exact saveAll_holds hrest (hinto.of_saved hsaved) (hsaved.holds hhome)
        | cons other before =>
            rw [List.cons_append, List.cons.injEq] at h
            exact hkept before call after h.2

/-! ## Loading what was saved -/

/-- The keys of a candidate are those of a seed of 32 bytes. -/
def Derived (primitive : KeyPrimitive) (c : Candidate) : Prop :=
  ∃ seed : List UInt8, seed.length = 32 ∧ Candidate.ofSeed primitive seed = .ok c

theorem Derived.load_eq {primitive : KeyPrimitive} (h : Derived primitive c) {place : List Nat}
    {path : Path} (hfile : f.locate place = some (path, .file (render time c).toUTF8.toList)) :
    load primitive f place = .ok (some c, []) := by
  obtain ⟨seed, hseed, hmade⟩ := h
  obtain ⟨publicKey, hkey, hmade⟩ := Candidate.ofSeed_eq_ok_iff.mp hmade
  have hkeys := (Candidate.ofKeys_eq_ok_iff.mp hmade).1
  exact load_eq_ok (by rw [hkeys]; exact hseed) (by rw [hkeys]; exact hkey) (by rw [hkeys]; exact hmade)
    hfile

/-- The file that a call has is found under the path of any candidate with the same name. -/
theorem Holds.locate {last : Files} {kept : Call} (h : Holds last home kept)
    (hhome : (directory f dir).path = home) (husable : Usable f dir c)
    (hname : fileName kept.candidate = fileName c) :
    last.locate (SavedKey.file f dir c).text = some ((SavedKey.file f dir c).path,
      .file (render kept.time kept.candidate).toUTF8.toList) := by
  subst hhome
  refine husable.locate_file h.leads ?_
  rw [file_path, ← hname]
  exact h.file

/-- A key that was saved is loaded from its file. -/
theorem Saved.load_eq {primitive : KeyPrimitive} (h : Saved f dir time c saved)
    (husable : Usable f dir c) (hderived : Derived primitive c) :
    load primitive saved (SavedKey.file f dir c).text = .ok (some c, []) := by
  exact hderived.load_eq (husable.locate_file h.leads h.file)

/-- After a series of calls, the path that one of them gave leads to the key that its file is kept
by. -/
theorem exists_load_saveAll {primitive : KeyPrimitive} (hinto : Into f home calls)
    (hderived : ∀ call ∈ calls, Derived primitive call.candidate) :
    ∃ last places, saveAll f calls = .ok (last, places)
      ∧ ∀ before call after, calls = before ++ call :: after →
        ∃ place, places[before.length]? = some place
          ∧ load primitive last place = .ok (some (keptBy call after).candidate, []) := by
  obtain ⟨last, hall, hkept⟩ := exists_saveAll hinto
  refine ⟨last, _, hall, fun before call after h => ?_⟩
  have hmem : ∀ other ∈ call :: after, other ∈ calls := by
    intro other hother
    rw [h]
    exact List.mem_append_right before hother
  obtain ⟨hhome, husable⟩ := hinto call (hmem call List.mem_cons_self)
  refine ⟨(file f call.dir call.candidate).text, by simp [h], ?_⟩
  exact (hderived _ (hmem _ (keptBy_mem call after))).load_eq
    ((hkept before call after h).locate hhome husable (fileName_eq_iff.mpr (start_keptBy call after)))

/-- **The last key with a name is the one that is loaded.** Candidates of different public keys are
saved in one usable directory. All calls succeed, and afterwards the path that a call gave leads to
the key that its file is kept by: that of the last call from this one on whose key starts with the
same four bytes. So the candidate of a call is loaded exactly if no later call saved such a key. -/
theorem load_saveAll {primitive : KeyPrimitive} (hinto : Into f home calls)
    (hderived : ∀ call ∈ calls, Derived primitive call.candidate)
    (hdistinct : (calls.map fun call => call.candidate.keys.publicKey).Nodup) :
    ∃ last places, saveAll f calls = .ok (last, places)
      ∧ ∀ before call after, calls = before ++ call :: after →
        ∃ place, places[before.length]? = some place
          ∧ load primitive last place = .ok (some (keptBy call after).candidate, [])
          ∧ (load primitive last place = .ok (some call.candidate, []) ↔
              ∀ other ∈ after, other.start ≠ call.start) := by
  obtain ⟨last, places, hall, hload⟩ := exists_load_saveAll hinto hderived
  refine ⟨last, places, hall, fun before call after h => ?_⟩
  obtain ⟨place, hplace, hkept⟩ := hload before call after h
  refine ⟨place, hplace, hkept, ?_⟩
  rw [hkept]
  constructor
  · intro hown other hother hstart
    -- the file went to a later call, so its key is another one
    have hlater := keptBy_mem_of_start_eq hother hstart
    have hsame : (keptBy call after).candidate = call.candidate := by simpa using hown
    rw [h, List.map_append, List.map_cons, List.nodup_append, List.nodup_cons] at hdistinct
    refine hdistinct.2.1.1 (List.mem_map.mpr ⟨_, hlater, ?_⟩)
    rw [hsame]
  · intro hnone
    rw [keptBy_of_ne hnone]

def noon : Timestamp := ⟨2026, 7, 31, 12, 0, 0, 0⟩

theorem isName_homeFiles : ∀ part ∈ homeFiles.here, Files.IsName part := by decide

/-- The public keys of two seeds. They start with the same four bytes. -/
def firstKey : List UInt8 :=
  Bytes.ofNat 32 0xb9bccf82cfcd61699ecdc1817dd7ddfcf2c9723915ae56bbc95068a0b99ff3cf

def secondKey : List UInt8 :=
  Bytes.ofNat 32 0xb9bccf8278aba9d8600fc0aac72c4d4aaf51ebb35ffff62a90a26f51da720cbc

/-- A candidate can be saved in a working directory without files, if the path is not too long. -/
theorem usable_homeFiles {name : List Nat} (hname : fileName c = name)
    (hfits : Files.placeFault? (Files.Location.text ⟨["home", "user", name], false⟩) = none) :
    Usable homeFiles none c := by
  have hfile : file homeFiles none c = ⟨["home", "user", name], false⟩ := by
    rw [file, hname]
    rfl
  refine ⟨isName_homeFiles, ?_, homeFiles, by decide +kernel, fun node hnode => ?_⟩
  · rw [hfile]
    exact hfits
  · rw [hfile] at hnode
    cases hnode

theorem exists_candidate {primitive : KeyPrimitive} {seed key : List UInt8}
    (hkey : primitive seed = .ok key) (hlength : key.length = 32)
    (hzeros : zeroRun (Bytes.bits key) ≤ 127) :
    ∃ c, Candidate.ofSeed primitive seed = .ok c ∧ c.keys.publicKey = key := by
  obtain ⟨c, hmade⟩ := (@Candidate.exists_ofKeys_iff ⟨seed, key⟩).mpr ⟨hlength, hzeros⟩
  have hkeys : c.keys = ⟨seed, key⟩ := (Candidate.ofKeys_eq_ok_iff.mp hmade).1
  exact ⟨c, Candidate.ofSeed_eq_ok_iff.mpr ⟨key, hkey, hmade⟩, by rw [hkeys]⟩

/-- Two calls at noon save two keys under one name. -/
theorem exists_sameStart :
    ∃ c d : Candidate, Candidate.ofSeed .ed25519 (Bytes.ofNat 32 62285) = .ok c
      ∧ Candidate.ofSeed .ed25519 (Bytes.ofNat 32 70076) = .ok d
      ∧ c.keys.publicKey ≠ d.keys.publicKey
      ∧ (⟨none, noon, d⟩ : Call).start = (⟨none, noon, c⟩ : Call).start
      ∧ Into homeFiles ["home", "user"] [⟨none, noon, c⟩, ⟨none, noon, d⟩]
      ∧ ∀ call ∈ [(⟨none, noon, c⟩ : Call), ⟨none, noon, d⟩], Derived .ed25519 call.candidate := by
  obtain ⟨c, hc, hckey⟩ := exists_candidate
    (by decide +kernel : KeyPrimitive.ed25519 (Bytes.ofNat 32 62285) = .ok firstKey)
    (by decide +kernel) (by decide +kernel)
  obtain ⟨d, hd, hdkey⟩ := exists_candidate
    (by decide +kernel : KeyPrimitive.ed25519 (Bytes.ofNat 32 70076) = .ok secondKey)
    (by decide +kernel) (by decide +kernel)
  have hcname : fileName c = "ygg_b9bccf82.json" := by
    rw [fileName, hckey]
    decide +kernel
  have hdname : fileName d = "ygg_b9bccf82.json" := by
    rw [fileName, hdkey]
    decide +kernel
  have hcusable : Usable homeFiles none c := usable_homeFiles hcname (by decide +kernel)
  have hdusable : Usable homeFiles none d := usable_homeFiles hdname (by decide +kernel)
  refine ⟨c, d, hc, hd, ?_, ?_, fun call hcall => ?_, fun call hcall => ?_⟩
  · rw [hckey, hdkey]
    decide +kernel
  · exact fileName_eq_iff.mp (hdname.trans hcname.symm)
  · rw [List.mem_cons, List.mem_singleton] at hcall
    rcases hcall with rfl | rfl
    · exact ⟨rfl, hcusable⟩
    · exact ⟨rfl, hdusable⟩
  · rw [List.mem_cons, List.mem_singleton] at hcall
    rcases hcall with rfl | rfl
    · exact ⟨_, Bytes.length_ofNat 32 62285, hc⟩
    · exact ⟨_, Bytes.length_ofNat 32 70076, hd⟩

/-- The key that was saved first is gone, and its path leads to the other one. -/
theorem load_saveAll_sameStart :
    ∃ c d : Candidate, Candidate.ofSeed .ed25519 (Bytes.ofNat 32 62285) = .ok c
      ∧ Candidate.ofSeed .ed25519 (Bytes.ofNat 32 70076) = .ok d
      ∧ ∃ last places, saveAll homeFiles [⟨none, noon, c⟩, ⟨none, noon, d⟩] = .ok (last, places)
        ∧ ∃ place, places[0]? = some place ∧ load .ed25519 last place = .ok (some d, [])
          ∧ load .ed25519 last place ≠ .ok (some c, []) := by
  obtain ⟨c, d, hc, hd, hne, hstart, hinto, hderived⟩ := exists_sameStart
  obtain ⟨last, places, hall, hload⟩ := load_saveAll hinto hderived (by simp [hne])
  obtain ⟨place, hplace, hkept, hown⟩ := hload [] _ _ rfl
  refine ⟨c, d, hc, hd, last, places, hall, place, hplace, ?_, fun hsame => ?_⟩
  · rw [hkept, keptBy, if_pos hstart]
    rfl
  · exact hown.mp hsame _ (List.mem_singleton_self _) hstart

/-- Keys that are saved in one directory are not all there afterwards, even if they differ. -/
theorem not_forall_load_saveAll :
    ¬ ∀ (primitive : KeyPrimitive) (f : Files) (home : Path) (calls : List Call),
      Into f home calls → (∀ call ∈ calls, Derived primitive call.candidate) →
      (calls.map fun call => call.candidate.keys.publicKey).Nodup →
      ∃ last places, saveAll f calls = .ok (last, places)
        ∧ ∀ before call after, calls = before ++ call :: after →
          ∃ place, places[before.length]? = some place
            ∧ load primitive last place = .ok (some call.candidate, []) := by
  intro hforall
  obtain ⟨c, d, -, -, hne, hstart, hinto, hderived⟩ := exists_sameStart
  obtain ⟨last, places, hall, hown⟩ := hforall .ed25519 homeFiles _ _ hinto hderived (by simp [hne])
  obtain ⟨last', places', hall', hkept⟩ := exists_load_saveAll hinto hderived
  cases hall.symm.trans hall'
  -- the first path leads to both keys
  obtain ⟨place, hplace, hfirst⟩ := hown [] _ _ rfl
  obtain ⟨place', hplace', hsecond⟩ := hkept [] _ _ rfl
  cases hplace.symm.trans hplace'
  rw [keptBy, if_pos hstart, hfirst] at hsecond
  have hsame : c = d := by simpa [keptBy] using hsecond
  exact hne (by rw [hsame])

end SavedKey

end KeySearch
