import KeySearch.Ini.Expansion
import Mathlib.Logic.Relation

/-!
# The options that a value depends on

The raw value of an option refers to other options, and their raw values to further ones. `Leads` follows
such references any number of times. The value of an option depends on the raw values of the options that
it leads to, and on nothing else of the document: `Document.get?_congr`.
-/

set_option autoImplicit false

namespace KeySearch.Ini

/-- The raw value of an option holds a reference to another one. -/
def Refers (value? : String → Option String) (option key : String) : Prop :=
  ∃ raw, value? option = some raw ∧ .reference key ∈ pieces raw.toList.length raw.toList

/-- An option leads to the options that it refers to, and to those that they lead to. It leads to itself. -/
def Leads (value? : String → Option String) : String → String → Prop :=
  Relation.ReflTransGen (Refers value?)

variable {value? other? : String → Option String}

/-- Pieces are put together in the same way if the options that they refer to have the same raw values,
and these are expanded in the same way. -/
theorem expandPieces_congr {expand expand' : List Char → Except ExpansionFault (List Char)}
    {all : List Piece} (hvalue : ∀ key, .reference key ∈ all → value? key = other? key)
    (hexpand : ∀ key raw, .reference key ∈ all → value? key = some raw →
      expand raw.toList = expand' raw.toList) :
    expandPieces expand value? all = expandPieces expand' other? all := by
  induction all with
  | nil => rfl
  | cons piece rest ih =>
      have hrest : expandPieces expand value? rest = expandPieces expand' other? rest :=
        ih (fun key hmem => hvalue key (List.mem_cons_of_mem _ hmem))
          fun key raw hmem => hexpand key raw (List.mem_cons_of_mem _ hmem)
      cases piece with
      | plain c => rw [expandPieces, expandPieces, hrest]
      | fault f => rfl
      | reference key =>
          rw [expandPieces, expandPieces, ← hvalue key List.mem_cons_self]
          cases hraw : value? key with
          | none => rfl
          | some raw =>
              dsimp only
              rw [hexpand key raw List.mem_cons_self hraw, hrest]

/-- A raw value is expanded in the same way if the options that its references lead to have the same raw
values. -/
theorem expandWithin_congr {levels : Nat} {raw : List Char}
    (h : ∀ first, .reference first ∈ pieces raw.length raw →
      ∀ key, Leads value? first key → value? key = other? key) :
    expandWithin value? levels raw = expandWithin other? levels raw := by
  induction levels generalizing raw with
  | zero => rfl
  | succ levels ih =>
      refine expandPieces_congr (fun key hkey => h key hkey key .refl) fun key inner hkey hinner => ih ?_
      -- what the inner references lead to, the outer one leads to
      intro next hnext target hleads
      exact h key hkey target (.head ⟨inner, hinner, hnext⟩ hleads)

namespace Document

variable {d d' : Document} {sectionName option : String}

/-- The raw value of an option in a section, its own or a default, if there is one. -/
def raw? (d : Document) (sectionName option : String) : Option String :=
  (d.section? sectionName).bind fun options => d.lookup? options option

/-- The value of an option comes of the raw values of its section. -/
theorem get?_eq_raw? (d : Document) (sectionName option : String) :
    d.get? sectionName option =
      match d.raw? sectionName option with
      | none => .ok none
      | some raw =>
        match expandWithin (d.raw? sectionName) maxLevels raw.toList with
        | .ok text => .ok (some (String.ofList text))
        | .error fault => .error ⟨fault, option, sectionName, raw⟩ := by
  unfold get? raw?
  cases d.section? sectionName with
  | none => rfl
  | some options =>
      simp only [Option.bind_some]
      cases d.lookup? options option with
      | none => rfl
      | some raw =>
          simp only [expand]
          cases expandWithin (d.lookup? options) maxLevels raw.toList <;> rfl

/-- **The value of an option depends on what it leads to.** It is the same in two documents, and so is
its fault, if the options that it leads to have the same raw values there. -/
theorem get?_congr (h : ∀ key, Leads (d.raw? sectionName) option key →
      d.raw? sectionName key = d'.raw? sectionName key) :
    d.get? sectionName option = d'.get? sectionName option := by
  rw [get?_eq_raw?, get?_eq_raw?, ← h option .refl]
  cases hraw : d.raw? sectionName option with
  | none => rfl
  | some raw =>
      have hexpand : expandWithin (d.raw? sectionName) maxLevels raw.toList
          = expandWithin (d'.raw? sectionName) maxLevels raw.toList :=
        expandWithin_congr fun first hfirst key hleads => h key (.head ⟨raw, hraw, hfirst⟩ hleads)
      dsimp only
      rw [hexpand]

end Document

end KeySearch.Ini
