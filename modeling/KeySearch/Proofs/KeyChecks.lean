import KeySearch.Program
import KeySearch.Proofs.SavedSeries
import KeySearch.Proofs.SecretTexts

/-!
# One key, three ways to give it

A key is checked by the text of its secret key, by that of its seed or by the file it was saved in. The
three are read by different parts of the program, and for one key they print the same lines. A text that
names no file is a secret key or it is refused: a check of it always comes to its end, and the one line
that it then prints says why, however many line ends the text has.
-/

set_option autoImplicit false

namespace KeySearch

/-! ## Texts of one line -/

namespace Text

/-- A text without a line end. -/
def OneLine (text : String) : Prop := '\n' ∉ text.toList

instance (text : String) : Decidable (OneLine text) :=
  inferInstanceAs (Decidable ('\n' ∉ text.toList))

theorem oneLine_append {front back : String} (hfront : OneLine front) (hback : OneLine back) :
    OneLine (front ++ back) := by
  rw [OneLine, String.toList_append, List.mem_append, not_or]
  exact ⟨hfront, hback⟩

/-- What needs no escapes in a JSON string has no line end. -/
theorem oneLine_of_plain {text : String} (h : Json.Plain (codePoints text)) : OneLine text := by
  intro hmem
  have hcontrol := (h _ (List.mem_map_of_mem hmem)).1
  exact absurd hcontrol (by decide)

theorem oneLine_toString (n : Nat) : OneLine (toString n) := oneLine_of_plain (SavedKey.plain_toString n)

theorem not_lineEnd_hexDigit : ∀ n < 16, hexDigit n ≠ '\n' := by decide

theorem not_mem_hexDigits (width n : Nat) : '\n' ∉ hexDigits width n := by
  induction width generalizing n with
  | zero => exact List.not_mem_nil
  | succ width ih =>
      have hlast := not_lineEnd_hexDigit (n % 16) (Nat.mod_lt n (by decide))
      rw [hexDigits, List.mem_append, List.mem_singleton, not_or]
      exact ⟨ih (n / 16), hlast.symm⟩

/-- A code point that is none of a character gives the null character. -/
theorem ofNat_ne_lineEnd {c : Nat} (h : c ≠ 0x0a) : Char.ofNat c ≠ '\n' := by
  by_cases hvalid : c.isValidChar
  · have hcode : (Char.ofNat c).toNat = c := by
      rw [Char.ofNat, dif_pos hvalid]
      rfl
    intro hend
    rw [hend] at hcode
    exact h hcode.symm
  · have hnull : Char.ofNat c = '\x00' := by
      rw [Char.ofNat, dif_neg hvalid]
      rfl
    rw [hnull]
    decide

/-- A line end is written as an escape, and so is all that is no character. -/
theorem not_mem_quotedCodePoint {quote : Char} (hquote : quote ≠ '\n') (c : Nat) :
    '\n' ∉ quotedCodePoint quote c := by
  unfold quotedCodePoint
  split
  · decide
  split
  · simp [hquote.symm]
  split
  · decide
  split
  · decide
  split
  · decide
  split
  · next hend _ _ =>
    rw [List.mem_singleton]
    exact (ofNat_ne_lineEnd hend).symm
  split
  · simp [not_mem_hexDigits]
  split
  · simp [not_mem_hexDigits]
  · simp [not_mem_hexDigits]

/-- **The literal of a text has no line end**, whatever the text has. -/
theorem oneLine_quoted (text : List Nat) : OneLine (quoted text) := by
  have hquote : quoteFor text ≠ '\n' := by
    unfold quoteFor
    split <;> decide
  rw [OneLine, quoted, String.toList_ofList, quotedChars]
  simp only [List.cons_append, List.mem_cons, List.mem_append, List.mem_flatMap, List.not_mem_nil,
    or_false, not_or, not_exists, not_and]
  exact ⟨hquote.symm, fun c _ => not_mem_quotedCodePoint hquote c, hquote.symm⟩

end Text

open Text (OneLine oneLine_append oneLine_of_plain oneLine_toString oneLine_quoted)

/-! ## The lines of a check -/

/-- What is said of a text that is no secret key fits on a line, if what the key primitive says does. -/
theorem KeyPair.SecretError.oneLine_message {e : SecretError}
    (h : ∀ fault, e = .derivation fault → OneLine fault.detail) : OneLine e.message := by
  cases e with
  | hex fault =>
      cases fault with
      | malformed text => exact oneLine_append (by decide) (oneLine_quoted text)
      | wrongSize expected actual =>
          exact oneLine_append (oneLine_append (oneLine_append (by decide) (oneLine_toString _))
            (by decide)) (oneLine_toString _)
  | wrongSize actual => exact oneLine_append (by decide) (oneLine_toString _)
  | mismatch =>
      show OneLine "Secret key does not match the public key derived from its seed"
      decide
  | derivation fault => exact oneLine_append (by decide) (h fault rfl)

theorem Address.KeyError.oneLine_message (e : KeyError) : OneLine e.message := by
  cases e with
  | wrongSize actual => exact oneLine_append (by decide) (oneLine_toString _)
  | tooManyOnes ones =>
      exact oneLine_append (oneLine_append (by decide) (oneLine_toString _)) (by decide)

namespace KeyCheck

/-- The data of a candidate takes five lines. -/
theorem oneLine_describe (c : Candidate) : ∀ line ∈ describe c, OneLine line := by
  simp only [describe, List.forall_mem_cons]
  refine ⟨?_, ?_, ?_, ?_, ?_, List.forall_mem_nil _⟩
  · exact oneLine_append (by decide) (oneLine_of_plain (SavedKey.plain_hex _))
  · exact oneLine_append (by decide) (oneLine_of_plain (SavedKey.plain_hex _))
  · exact oneLine_append (by decide) (oneLine_of_plain (SavedKey.plain_address _))
  · exact oneLine_append (by decide) (oneLine_toString _)
  · exact oneLine_append (by decide) (oneLine_toString _)

/-! ## What becomes of a text -/

variable {primitive : KeyPrimitive} {text : List Nat} {reason : String} {c : Candidate}

/-- A text spells the secret key of a candidate. -/
structure Accepted (primitive : KeyPrimitive) (text : List Nat) (c : Candidate) : Prop where
  keys : KeyPair.ofSecret primitive text = .ok c.keys
  made : Candidate.ofKeys c.keys = .ok c

/-- A text is refused for a reason: it spells no secret key, or its public key has no address. -/
inductive Refused (primitive : KeyPrimitive) (text : List Nat) : String → Prop
  | secret (e : KeyPair.SecretError) (h : KeyPair.ofSecret primitive text = .error e) :
      Refused primitive text e.message
  | address (keys : KeyPair) (e : Address.KeyError)
      (h : KeyPair.ofSecret primitive text = .ok keys)
      (hnone : Candidate.ofKeys keys = .error e) :
      Refused primitive text e.message

theorem accepted_or_refused (primitive : KeyPrimitive) (text : List Nat) :
    (∃ c, Accepted primitive text c) ∨ ∃ reason, Refused primitive text reason := by
  cases hkeys : KeyPair.ofSecret primitive text with
  | error e => exact .inr ⟨_, .secret e hkeys⟩
  | ok keys =>
      cases hmade : Candidate.ofKeys keys with
      | error e => exact .inr ⟨_, .address keys e hkeys hmade⟩
      | ok c =>
          obtain ⟨rfl, -⟩ := Candidate.ofKeys_eq_ok_iff.mp hmade
          exact .inl ⟨c, hkeys, hmade⟩

theorem Accepted.ofText (h : Accepted primitive text c) : ofText primitive text = accept c := by
  rw [KeyCheck.ofText, h.keys]
  dsimp only
  rw [h.made]

theorem Refused.ofText (h : Refused primitive text reason) :
    ofText primitive text = reject (Text.codePoints reason) [] := by
  cases h with
  | secret e h => rw [KeyCheck.ofText, h]
  | address keys e h hnone =>
      rw [KeyCheck.ofText, h]
      dsimp only
      rw [hnone]

/-- A reason for which a text is refused fits on a line. -/
theorem Refused.oneLine (h : Refused primitive text reason)
    (hdetail : ∀ seed detail, seed.length = 32 → primitive seed = .error detail → OneLine detail) :
    OneLine reason := by
  cases h with
  | secret e h =>
      refine e.oneLine_message ?_
      rintro ⟨detail⟩ rfl
      obtain ⟨seed, hseed, hfails⟩ := KeyPair.exists_of_derivation h
      exact hdetail seed detail hseed hfails
  | address keys e h hnone => exact e.oneLine_message

end KeyCheck

theorem Console.report_nil (console : Console) : console.report [] = console := by
  show { console with log := console.log ++ [] } = console
  rw [List.append_nil]

/-! ## A run that checks a key -/

namespace Program

variable {w : World} {key : List Nat} {reason : String} {c : Candidate}

theorem checkKey_of_accept (h : KeyCheck.run w.primitive w.files key = .ok (KeyCheck.accept c))
    (console : Console) :
    checkKey w console key = stop w (console.printLines (KeyCheck.describe c)) (.finished 0) := by
  rw [checkKey, h]
  dsimp only [KeyCheck.accept]
  rw [Console.report_nil, Console.printTexts_codePoints]
  rfl

theorem checkKey_of_reject
    (h : KeyCheck.run w.primitive w.files key = .ok (KeyCheck.reject (Text.codePoints reason) []))
    (console : Console) : checkKey w console key = refuse w console reason := by
  have hline : [Text.codePoints "Error: " ++ Text.codePoints reason]
      = ["Error: " ++ reason].map Text.codePoints := by
    rw [← Text.codePoints_append]
    rfl
  rw [checkKey, h]
  dsimp only [KeyCheck.reject]
  rw [Console.report_nil, hline, Console.printTexts_codePoints]
  rfl

theorem checkKey_of_accepted (hfile : w.files.isFile key = false)
    (h : KeyCheck.Accepted w.primitive key c) (console : Console) :
    checkKey w console key = stop w (console.printLines (KeyCheck.describe c)) (.finished 0) := by
  apply checkKey_of_accept
  rw [KeyCheck.run, hfile, if_neg Bool.false_ne_true, h.ofText]

theorem checkKey_of_refused (hfile : w.files.isFile key = false)
    (h : KeyCheck.Refused w.primitive key reason) (console : Console) :
    checkKey w console key = refuse w console reason := by
  apply checkKey_of_reject
  rw [KeyCheck.run, hfile, if_neg Bool.false_ne_true, h.ofText]

/-- The file of a candidate that belongs to its seed is in order. -/
theorem checkKey_of_saved (hseed : c.keys.seed.length = 32)
    (hkey : w.primitive c.keys.seed = .ok c.keys.publicKey) (hmade : Candidate.ofKeys c.keys = .ok c)
    {f : Files} {dir : Option (List Nat)} {time : Timestamp} (husable : SavedKey.Usable f dir c)
    (hsave : SavedKey.save f dir time c = .ok w.files) (console : Console) :
    checkKey w console (SavedKey.file f dir c).text
      = stop w (console.printLines (KeyCheck.describe c)) (.finished 0) := by
  obtain ⟨saved, hsaved, hfound⟩ := SavedKey.save_eq_ok husable time
  cases hsave.symm.trans hsaved
  have hload := SavedKey.load_eq_ok hseed hkey hmade hfound
  have hfile : w.files.isFile (SavedKey.file f dir c).text = true := by
    rw [Files.isFile, hfound]
  apply checkKey_of_accept
  rw [KeyCheck.run, if_pos hfile, hload]
  rfl

/-- A run that prints lines and ends here. -/
theorem stop_printLines (w : World) (console : Console) (shown : List String) (ending : Ending) :
    stop w (console.printLines shown) ending
      = ⟨ending, { console with output := console.output ++ String.join (shown.map (· ++ "\n")) },
        w.files⟩ := by
  rw [stop, Console.printLines_eq]

/-- **A key is checked alike in all three forms.** Let a seed of 32 bytes have a public key of 32 bytes
with at most 127 zero bits in front. It has a candidate, and a check prints the same five lines of that
and gives the status 0, be it given the secret key, the seed or the file in which the candidate was
saved. Any text that names no file is checked without a crash: it is the key of a candidate, or it is
refused, and just then the status is 1 and the only thing printed is an error, on one line. -/
theorem checkKey_outcome (w : World) (console : Console) :
    let lines (c : Candidate) : List String :=
      ["Priv: " ++ c.keys.secretHex, "Pub: " ++ c.keys.publicHex, "IP: " ++ c.address.text,
        "Leading zero bits: " ++ toString c.zeroBits, "Zero blocks: " ++ toString c.zeroBlocks]
    let showing (shown : List String) : Console :=
      { console with output := console.output ++ String.join (shown.map (· ++ "\n")) }
    (∀ seed publicKey, seed.length = 32 → w.primitive seed = .ok publicKey → publicKey.length = 32 →
      zeroRun (Bytes.bits publicKey) ≤ 127 →
      ∃ c, Candidate.ofSeed w.primitive seed = .ok c ∧ c.keys = ⟨seed, publicKey⟩
        ∧ (∀ line ∈ lines c, OneLine line)
        ∧ (w.files.isFile c.keys.secretHex = false →
            checkKey w console c.keys.secretHex = ⟨.finished 0, showing (lines c), w.files⟩)
        ∧ (w.files.isFile c.keys.seedHex = false →
            checkKey w console c.keys.seedHex = ⟨.finished 0, showing (lines c), w.files⟩)
        ∧ ∀ dir time saved, (∀ part ∈ w.files.here, Files.IsName part) →
            SavedKey.save w.files dir time c = .ok saved →
            (∀ bytes, saved.node? (SavedKey.file w.files dir c).path ≠ some (.device bytes)) →
            checkKey { w with files := saved } console (SavedKey.file w.files dir c).text
              = ⟨.finished 0, showing (lines c), saved⟩)
    ∧ ∀ key, w.files.isFile key = false →
        ((∃ c, KeyCheck.Accepted w.primitive key c
            ∧ checkKey w console key = ⟨.finished 0, showing (lines c), w.files⟩)
          ∨ ∃ reason, KeyCheck.Refused w.primitive key reason
            ∧ checkKey w console key = ⟨.finished 1, showing ["Error: " ++ reason], w.files⟩)
        ∧ ((checkKey w console key).ending = .finished 1
          ↔ ∃ reason, KeyCheck.Refused w.primitive key reason)
        ∧ ∀ reason, KeyCheck.Refused w.primitive key reason →
            (∀ seed detail, seed.length = 32 → w.primitive seed = .error detail → OneLine detail) →
            OneLine ("Error: " ++ reason) := by
  intro lines showing
  refine ⟨fun seed publicKey hseed hkey hpublic hzeros => ?_, fun key hfile => ⟨?_, ⟨?_, ?_⟩, ?_⟩⟩
  · obtain ⟨c, hmade⟩ := (@Candidate.exists_ofKeys_iff ⟨seed, publicKey⟩).mpr ⟨hpublic, hzeros⟩
    have hkeys : c.keys = ⟨seed, publicKey⟩ := (Candidate.ofKeys_eq_ok_iff.mp hmade).1
    have hown : Candidate.ofKeys c.keys = .ok c := by rw [hkeys, hmade]
    refine ⟨c, Candidate.ofSeed_eq_ok_iff.mpr ⟨publicKey, hkey, hmade⟩, hkeys,
      KeyCheck.oneLine_describe c, fun hfile => ?_, fun hfile => ?_, ?_⟩
    · rw [checkKey_of_accepted hfile ⟨?_, hown⟩ console]
      · exact stop_printLines w console (lines c) (.finished 0)
      · rw [hkeys]
        exact KeyPair.ofSecret_secretHex hseed hpublic hkey
    · rw [checkKey_of_accepted hfile ⟨?_, hown⟩ console]
      · exact stop_printLines w console (lines c) (.finished 0)
      · rw [hkeys]
        exact KeyPair.ofSecret_seedHex hseed hkey
    · intro dir time saved hhere hsave hdevice
      have husable := SavedKey.usable_of_save hhere hsave hdevice
      rw [@checkKey_of_saved { w with files := saved } c ?_ ?_ hown _ _ _ husable hsave console]
      · exact stop_printLines { w with files := saved } console (lines c) (.finished 0)
      · rw [hkeys, hseed]
      · rw [hkeys]
        exact hkey
  · rcases KeyCheck.accepted_or_refused w.primitive key with ⟨c, hc⟩ | ⟨reason, hreason⟩
    · refine .inl ⟨c, hc, ?_⟩
      rw [checkKey_of_accepted hfile hc console]
      exact stop_printLines w console (lines c) (.finished 0)
    · refine .inr ⟨reason, hreason, ?_⟩
      rw [checkKey_of_refused hfile hreason console]
      exact stop_printLines w console ["Error: " ++ reason] (.finished 1)
  · intro hending
    rcases KeyCheck.accepted_or_refused w.primitive key with ⟨c, hc⟩ | hrefused
    · rw [checkKey_of_accepted hfile hc console] at hending
      cases hending
    · exact hrefused
  · rintro ⟨reason, hreason⟩
    rw [checkKey_of_refused hfile hreason console]
    rfl
  · intro reason hreason hdetail
    exact oneLine_append (by decide) (hreason.oneLine hdetail)

/-- A world without a search. -/
def quietWorld : World :=
  { files := SavedKey.homeFiles
    machine := ⟨some 2, .ok {}⟩
    time := SavedKey.noon
    primitive := .ed25519
    waits := fun _ => []
    grace := fun _ => [] }

/-- The key of the seed zero is in order, also in the file that it is saved in. The literal of a text with
a line end is printed on one line. -/
theorem checkKey_outcome_zeroKey :
    (∃ saved, (checkKey quietWorld .start KeyPair.zeroKeys.secretHex).ending = .finished 0
      ∧ (checkKey quietWorld .start KeyPair.zeroKeys.seedHex).console
        = (checkKey quietWorld .start KeyPair.zeroKeys.secretHex).console
      ∧ (checkKey { quietWorld with files := saved } .start "/home/user/ygg_3b6a27bc.json").console
        = (checkKey quietWorld .start KeyPair.zeroKeys.secretHex).console)
    ∧ (checkKey quietWorld .start "z\nz").ending = .finished 1
    ∧ ∃ line, OneLine line
      ∧ (checkKey quietWorld .start "z\nz").console = Console.start.printLine line := by
  obtain ⟨hforms, hother⟩ := checkKey_outcome quietWorld .start
  constructor
  · obtain ⟨c, -, hkeys, -, hsecret, hseed, hsaved⟩ := hforms _ (Ed25519.publicKey
      (List.replicate 32 0)) List.length_replicate rfl (Ed25519.length_publicKey _) (by decide +kernel)
    change c.keys = KeyPair.zeroKeys at hkeys
    have hname : SavedKey.fileName c = "ygg_3b6a27bc.json" := by
      rw [SavedKey.fileName, hkeys]
      decide +kernel
    have hplace : (SavedKey.file quietWorld.files none c).text = "/home/user/ygg_3b6a27bc.json" := by
      rw [SavedKey.file, hname]
      decide +kernel
    have husable : SavedKey.Usable quietWorld.files none c :=
      SavedKey.usable_homeFiles hname (by decide +kernel)
    obtain ⟨saved, hsave, hfiles⟩ := husable.exists_saved SavedKey.noon
    have hfile := hsaved none SavedKey.noon saved SavedKey.isName_homeFiles hsave (by simp [hfiles.file])
    rw [hplace] at hfile
    rw [hkeys] at hsecret hseed
    have hsecret := hsecret (by decide +kernel)
    have hseed := hseed (by decide +kernel)
    exact ⟨saved, by rw [hsecret], by rw [hseed, hsecret], by rw [hfile, hsecret]⟩
  · have hrefused : ∃ reason, KeyCheck.Refused quietWorld.primitive "z\nz" reason :=
      ⟨_, .secret (.hex (.malformed (Text.codePoints "z\nz"))) rfl⟩
    obtain ⟨hcases, hstatus, hline⟩ := hother "z\nz" (by decide +kernel)
    have hending := hstatus.mpr hrefused
    rcases hcases with ⟨c, -, haccepted⟩ | ⟨reason, hreason, hcheck⟩
    · rw [haccepted] at hending
      cases hending
    · refine ⟨hending, "Error: " ++ reason, hline reason hreason ?_, by rw [hcheck]; rfl⟩
      intro seed detail hseed hfails
      obtain ⟨publicKey, hkey, -⟩ := KeyPrimitive.total_ed25519 seed hseed
      cases hkey.symm.trans hfails

end Program

end KeySearch
