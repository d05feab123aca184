import KeySearch.CommandLine.Reader

/-!
# The key that a command line gives

A command line may give a key in any spelling of the option and more than once. `given?` reads the last
value off the steps of the command line, and this is the key of the options that are read. Any text at
all can be given: a word with the option and the text attached to it may follow whatever was understood
without it.
-/

set_option autoImplicit false

namespace KeySearch

theorem exists_of_map_eq_ok {ε α β : Type} {result : Except ε α} {f : α → β} {b : β}
    (h : result.map f = .ok b) : ∃ a, result = .ok a ∧ f a = b := by
  cases result with
  | error e => cases h
  | ok a => exact ⟨a, rfl, Except.ok.inj h⟩

namespace CommandLine

variable {front arguments extras : List (List Nat)} {todo : List Step} {o o' o'' : Options}

/-! ## The last value -/

/-- The value that a step gives to an option. -/
def Step.value? (flag : Flag) : Step → Option (List Nat)
  | .assign other value => if other = flag then some value else none
  | .switch _ | .extra _ | .fault _ => none

/-- The values that steps give to an option, one after another. -/
def valuesOf (flag : Flag) (todo : List Step) : List (List Nat) := todo.filterMap (Step.value? flag)

/-- The last value that a command line gives to an option. -/
def given? (flag : Flag) (arguments : List (List Nat)) : Option (List Nat) :=
  match Word.ofTexts arguments with
  | .error _ => none
  | .ok words => (valuesOf flag (steps words)).getLast?

/-- What an option that takes any text makes of a value. -/
def Argument.ofText (value : List Nat) : Argument (List Nat) :=
  if value = Text.codePoints "--" then .blank else .value value

/-- A text that is taken for no key. -/
def NoKey (value : List Nat) : Prop := value = [] ∨ value = Text.codePoints "--"

instance (value : List Nat) : Decidable (NoKey value) :=
  inferInstanceAs (Decidable (value = [] ∨ value = Text.codePoints "--"))

theorem argument_ok (value : List Nat) : Options.argument .ok value = .ok (.ofText value) := by
  unfold Options.argument Argument.ofText
  split <;> rfl

theorem text?_ofText (value : List Nat) :
    (Argument.ofText value).text? = if NoKey value then none else some value := by
  unfold Argument.ofText
  by_cases hblank : value = Text.codePoints "--"
  · simp [NoKey, hblank, Argument.text?]
  · rw [if_neg hblank, Argument.text?]
    simp [NoKey, hblank]

/-! ## Steps that come to an end -/

/-- Steps that lead from options to options: each uses an option or gives it a value. -/
inductive Sets : List Step → Options → Options → Prop
  | done (o : Options) : Sets [] o o
  | switch {flag : Flag} {rest : List Step} {o o' : Options} (hflag : flag ≠ .help)
      (h : Sets rest (o.switchOn flag) o') : Sets (.switch flag :: rest) o o'
  | assign {flag : Flag} {value : List Nat} {rest : List Step} {o next o' : Options}
      (hnext : o.assign flag value = .ok next) (h : Sets rest next o') :
      Sets (.assign flag value :: rest) o o'

theorem carryOut_of_sets (h : Sets todo o o') : carryOut todo [] o = .ok (.options o') := by
  induction h with
  | done => rfl
  | switch hflag h ih =>
      rw [carryOut]
      · exact ih
      · exact hflag
  | assign hnext h ih =>
      rw [carryOut, hnext]
      exact ih

theorem sets_of_carryOut (h : carryOut todo extras o = .ok (.options o')) :
    extras = [] ∧ Sets todo o o' := by
  induction todo generalizing extras o with
  | nil =>
      cases extras with
      | nil =>
          cases h
          exact ⟨rfl, .done _⟩
      | cons word rest => cases h
  | cons step rest ih =>
      cases step with
      | switch flag =>
          by_cases hflag : flag = .help
          · subst hflag
            cases h
          · rw [carryOut] at h
            · exact ⟨(ih h).1, .switch hflag (ih h).2⟩
            · exact hflag
      | assign flag value =>
          rw [carryOut] at h
          cases hnext : o.assign flag value with
          | error e =>
              rw [hnext] at h
              cases h
          | ok next =>
              rw [hnext] at h
              exact ⟨(ih h).1, .assign hnext (ih h).2⟩
      | extra word =>
          -- a word that is left over is never forgotten
          have hextras : extras ++ [word] = [] := (ih h).1
          exact absurd hextras (List.append_ne_nil_of_right_ne_nil _ (List.cons_ne_nil _ _))
      | fault e => cases h

theorem Sets.append {more : List Step} (h : Sets todo o o') (hmore : Sets more o' o'') :
    Sets (todo ++ more) o o'' := by
  induction h with
  | done => exact hmore
  | switch hflag h ih => exact .switch hflag (ih hmore)
  | assign hnext h ih => exact .assign hnext (ih hmore)

theorem Sets.not_fault (h : Sets todo o o') : ∀ e, .fault e ∉ todo := by
  intro e
  induction h with
  | done => exact List.not_mem_nil
  | switch hflag h ih => simp [ih]
  | assign hnext h ih => simp [ih]

/-! ## What becomes of the key -/

theorem checkKey_switchOn (o : Options) (flag : Flag) : (o.switchOn flag).checkKey = o.checkKey := by
  cases flag <;> rfl

/-- The key that is known after a step. -/
def keyAfter (key : Argument (List Nat)) (step : Step) : Argument (List Nat) :=
  ((step.value? .checkKey).map Argument.ofText).getD key

theorem checkKey_assign {flag : Flag} {value : List Nat} (h : o.assign flag value = .ok o') :
    o'.checkKey = keyAfter o.checkKey (.assign flag value) := by
  cases flag with
  | checkKey =>
      simp only [Options.assign, argument_ok] at h
      cases h
      rfl
  | threads | timeout | targetZeros | config | outputDir =>
      -- the value of another option goes into a field of its own
      simp only [Options.assign] at h
      obtain ⟨a, -, rfl⟩ := exists_of_map_eq_ok h
      rfl
  | help | ipv6Nice | verbose | noProgress | json =>
      cases h
      rfl

theorem Sets.checkKey (h : Sets todo o o') : o'.checkKey = todo.foldl keyAfter o.checkKey := by
  induction h with
  | done => rfl
  | switch hflag h ih =>
      rw [ih, checkKey_switchOn]
      rfl
  | assign hnext h ih => rw [ih, checkKey_assign hnext, List.foldl_cons]

/-- Only the last value counts. -/
theorem foldl_keyAfter (todo : List Step) (key : Argument (List Nat)) :
    todo.foldl keyAfter key = ((valuesOf .checkKey todo).getLast?).elim key .ofText := by
  induction todo generalizing key with
  | nil => rfl
  | cons step rest ih =>
      rw [List.foldl_cons, ih, keyAfter]
      cases hvalue : step.value? .checkKey with
      | none => simp [valuesOf, hvalue]
      | some value =>
          have hvalues : valuesOf .checkKey (step :: rest) = value :: valuesOf .checkKey rest := by
            simp [valuesOf, hvalue]
          rw [hvalues, List.getLast?_cons]
          cases (valuesOf .checkKey rest).getLast? <;> rfl

/-- **The key of a command line is the last value that is given for it.** -/
theorem checkKey_of_given {key : List Nat} (hgiven : given? .checkKey arguments = some key)
    (hread : read arguments = .ok (.options o)) : o.checkKey = .ofText key := by
  unfold given? at hgiven
  unfold read at hread
  cases hwords : Word.ofTexts arguments with
  | error e =>
      rw [hwords] at hread
      cases hread
  | ok words =>
      rw [hwords] at hgiven hread
      dsimp only at hgiven hread
      rw [(sets_of_carryOut hread).2.checkKey, foldl_keyAfter, hgiven]
      rfl

/-! ## One more word -/

/-- The words of texts among which no `--` stands are told apart one by one. -/
theorem ofTexts_append {more : List (List Nat)} {words others : List Word}
    (hfront : Text.codePoints "--" ∉ front) (h : Word.ofTexts front = .ok words)
    (hmore : Word.ofTexts more = .ok others) :
    Word.ofTexts (front ++ more) = .ok (words ++ others) := by
  induction front generalizing words with
  | nil =>
      cases h
      exact hmore
  | cons text rest ih =>
      rw [List.mem_cons, not_or] at hfront
      obtain ⟨htext, hrest⟩ := hfront
      rw [Word.ofTexts, if_neg (Ne.symm htext)] at h
      rw [List.cons_append, Word.ofTexts, if_neg (Ne.symm htext)]
      cases hword : Word.ofText text with
      | error e =>
          rw [hword] at h
          cases h
      | ok word =>
          rw [hword] at h
          obtain ⟨tail, htail, rfl⟩ := exists_of_map_eq_ok h
          dsimp only
          rw [ih hrest htail]
          rfl

/-- Words that are understood to their end take nothing from the words behind them. -/
theorem steps_append {words : List Word} (more : List Word) (h : ∀ e, .fault e ∉ steps words) :
    steps (words ++ more) = steps words ++ steps more := by
  fun_induction steps words with
  | case1 => rfl
  | case2 text rest ih | case3 text rest ih =>
      rw [List.cons_append, steps, ih, List.cons_append]
      exact fun e he => h e (List.mem_cons_of_mem _ he)
  | case4 => exact absurd (List.mem_singleton_self _) (h _)
  | case5 flag short attached rest switches hcluster ih =>
      rw [List.cons_append, steps, hcluster]
      dsimp only
      rw [ih, List.append_assoc]
      exact fun e he => h e (List.mem_append_right _ he)
  | case6 flag short attached rest switches own value hcluster ih =>
      rw [List.cons_append, steps, hcluster]
      dsimp only
      rw [ih, List.append_assoc, List.cons_append]
      exact fun e he => h e (List.mem_append_right _ (List.mem_cons_of_mem _ he))
  | case7 flag short attached switches own hcluster text rest ih =>
      rw [List.cons_append, List.cons_append, steps, hcluster]
      dsimp only
      rw [ih, List.append_assoc, List.cons_append]
      exact fun e he => h e (List.mem_append_right _ (List.mem_cons_of_mem _ he))
  | case8 => exact absurd (List.mem_singleton_self _) (h _)

/-- No option is spelled with an equals sign. -/
theorem ofSpelling?_of_mem_equals {spelling : List Nat} (h : 0x3d ∈ spelling) :
    Flag.ofSpelling? spelling = none := by
  have hnone : ∀ entry ∈ Flag.allSpellings, 0x3d ∉ entry.1 := by decide +kernel
  rw [Flag.ofSpelling?, Option.map_eq_none_iff, List.find?_eq_none]
  intro entry hentry heq
  rw [beq_iff_eq] at heq
  exact hnone entry hentry (heq ▸ h)

/-- The word that gives a text as the key. -/
def keyWord (key : List Nat) : List Nat := Text.codePoints "--check-key=" ++ key

/-- Whatever the text is, the word names the option and has the text attached to it. -/
theorem ofTexts_keyWord (key : List Nat) :
    Word.ofTexts [keyWord key] = .ok [.named .checkKey false (some key)] := by
  have hequals : 0x3d ∈ keyWord key := List.mem_append_left _ (by decide)
  have hword : Word.ofText (keyWord key) = .ok (.named .checkKey false (some key)) := by
    have hdash : keyWord key = 0x2d :: (Text.codePoints "-check-key=" ++ key) := rfl
    have hspelling := ofSpelling?_of_mem_equals hequals
    rw [hdash] at hspelling ⊢
    rw [Word.ofText, hspelling]
    rfl
  have hdashes : keyWord key ≠ Text.codePoints "--" := by
    intro heq
    rw [heq] at hequals
    exact absurd hequals (by decide)
  rw [Word.ofTexts, if_neg hdashes, hword]
  rfl

/-- **Any text can be given as the key.** A command line that says something goes on to say the same
when a word with a key is put behind it, and the key is the text of the word, empty or not. -/
theorem read_append_keyWord (key : List Nat) (hfront : Text.codePoints "--" ∉ front)
    (hread : read front = .ok (.options o)) :
    given? .checkKey (front ++ [keyWord key]) = some key
      ∧ read (front ++ [keyWord key]) = .ok (.options { o with checkKey := .ofText key }) := by
  unfold read at hread
  cases hwords : Word.ofTexts front with
  | error e =>
      rw [hwords] at hread
      cases hread
  | ok words =>
      rw [hwords] at hread
      have hsets : Sets (steps words) .defaults o := (sets_of_carryOut hread).2
      have hall := ofTexts_append hfront hwords (ofTexts_keyWord key)
      have hsteps : steps (words ++ [.named .checkKey false (some key)])
          = steps words ++ [.assign .checkKey key] := by
        rw [steps_append _ hsets.not_fault]
        simp [steps, cluster, Flag.takesValue]
      have hlast : Sets [.assign .checkKey key] o { o with checkKey := .ofText key } := by
        refine .assign ?_ (.done _)
        rw [Options.assign, argument_ok]
        rfl
      constructor
      · rw [given?, hall]
        dsimp only
        rw [hsteps, valuesOf, List.filterMap_append, List.getLast?_append]
        rfl
      · rw [read, hall]
        dsimp only
        rw [hsteps]
        exact carryOut_of_sets (hsets.append hlast)

end CommandLine

end KeySearch
