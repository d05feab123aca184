import KeySearch.Proofs.BitStream
import KeySearch.Proofs.CandidateScores
import KeySearch.Proofs.HexTexts

/-!
# Texts of addresses

An address is written as eight groups between colons, each with one to four digits in small letters
and without zeros in front. `Canonical` says this of a text, and `bytesOfText` reads the groups back,
each as two bytes. A number has one such group only, so a text of that form is written of one address
and of no other: the digits of a group are found again although groups differ in width, since no group
holds a colon.
-/

set_option autoImplicit false

namespace KeySearch.Address

/-! ## The form of a text -/

/-- One to four digits in small letters. Only the group of zero begins with a zero. -/
def IsGroup (digits : List Char) : Prop :=
  digits ≠ [] ∧ digits.length ≤ 4 ∧ (∀ c ∈ digits, c ∈ Hex.smallDigits)
    ∧ (digits.head? = some '0' → digits = ['0'])

instance (digits : List Char) : Decidable (IsGroup digits) :=
  -- by the digits that there are, not by all characters
  have : Decidable (∀ c ∈ digits, c ∈ Hex.smallDigits) := List.decidableBAll _ digits
  inferInstanceAs (Decidable (_ ∧ _ ∧ _ ∧ _))

/-- The parts of a text between colons. -/
def parts (t : String) : List (List Char) := t.toList.splitOn ':'

/-- A text of eight groups between colons. -/
def Canonical (t : String) : Prop := (parts t).length = 8 ∧ ∀ digits ∈ parts t, IsGroup digits

instance (t : String) : Decidable (Canonical t) := inferInstanceAs (Decidable (_ ∧ _))

/-- The number that digits stand for. -/
def groupValue (digits : List Char) : Nat :=
  digits.foldl (fun value c => value * 16 + Hex.smallDigits.idxOf c) 0

/-- The bytes that a text stands for: two for every part, the more significant one first. -/
def bytesOfText (t : String) : List UInt8 :=
  (parts t).flatMap fun digits => Bytes.ofNat 2 (groupValue digits)

/-! ## Groups and their numbers -/

variable {digits : List Char} {group : Nat}

theorem idxOf_digitChar : ∀ d < 16, Hex.smallDigits.idxOf (Nat.digitChar d) = d := by decide

theorem digitChar_mem : ∀ d < 16, Nat.digitChar d ∈ Hex.smallDigits := by decide

theorem digitChar_eq_getElem : ∀ d (h : d < 16), Nat.digitChar d = Hex.smallDigits[d] := by decide

theorem digitChar_idxOf {c : Char} (h : c ∈ Hex.smallDigits) :
    Hex.smallDigits.idxOf c < 16 ∧ Nat.digitChar (Hex.smallDigits.idxOf c) = c := by
  have hlt : Hex.smallDigits.idxOf c < 16 := List.idxOf_lt_length_of_mem h
  exact ⟨hlt, (digitChar_eq_getElem _ hlt).trans (List.getElem_idxOf hlt)⟩

theorem groupValue_append (front : List Char) (c : Char) :
    groupValue (front ++ [c]) = groupValue front * 16 + Hex.smallDigits.idxOf c := by
  rw [groupValue, List.foldl_append]
  rfl

theorem groupChars_ne_nil (group : Nat) : groupChars group ≠ [] := Nat.toDigits_ne_nil

/-- What holds of one digit, and of more digits if it holds of those before the last, holds of the
digits of every number. -/
theorem groupChars_induction {p : Nat → List Char → Prop} (one : ∀ d < 16, p d [Nat.digitChar d])
    (more : ∀ front d, 0 < front → d < 16 → p front (groupChars front) →
      p (front * 16 + d) (groupChars front ++ [Nat.digitChar d])) (group : Nat) :
    p group (groupChars group) := by
  induction group using Nat.strongRecOn with
  | _ group ih =>
      rcases Nat.lt_or_ge group 16 with hlt | hge
      · rw [groupChars, Nat.toDigits_of_lt_base hlt]
        exact one group hlt
      · have hfront := more (group / 16) (group % 16) (by omega) (by omega) (ih _ (by omega))
        rw [groupChars, Nat.toDigits_of_base_le (by decide) hge]
        rwa [Nat.div_add_mod'] at hfront

/-- The digits of a number stand for it. -/
theorem groupValue_groupChars (group : Nat) : groupValue (groupChars group) = group := by
  refine groupChars_induction (p := fun group digits => groupValue digits = group) ?_ ?_ group
  · intro d hd
    exact (Nat.zero_add _).trans (idxOf_digitChar d hd)
  · intro front d _ hd hfront
    rw [groupValue_append, hfront, idxOf_digitChar d hd]

theorem mem_groupChars (group : Nat) : ∀ c ∈ groupChars group, c ∈ Hex.smallDigits := by
  refine groupChars_induction (p := fun _ digits => ∀ c ∈ digits, c ∈ Hex.smallDigits) ?_ ?_ group
  · intro d hd
    exact List.forall_mem_singleton.mpr (digitChar_mem d hd)
  · intro front d _ hd hfront
    exact List.forall_mem_append.mpr ⟨hfront, List.forall_mem_singleton.mpr (digitChar_mem d hd)⟩

/-- Only the digits of zero begin with a zero. -/
theorem eq_zero_of_head_groupChars (group : Nat) :
    (groupChars group).head? = some '0' → group = 0 := by
  refine groupChars_induction (p := fun group digits => digits.head? = some '0' → group = 0) ?_ ?_
    group
  · intro d hd h
    rw [List.head?_cons, Option.some_inj] at h
    rw [← idxOf_digitChar d hd, h]
    rfl
  · intro front d hpos hd hfront h
    rw [List.head?_append_of_ne_nil _ (groupChars_ne_nil front)] at h
    have hzero := hfront h
    omega

/-- The digits of a number of 16 bits are a group. -/
theorem isGroup_groupChars (h : group < 256 ^ 2) : IsGroup (groupChars group) := by
  refine ⟨groupChars_ne_nil group, ?_, mem_groupChars group, fun hhead => ?_⟩
  · exact (Nat.length_toDigits_le_iff (by decide) (by decide)).mpr h
  · rw [eq_zero_of_head_groupChars group hhead]
    rfl

/-- Digits without a zero in front are those that are written of their number. -/
theorem groupChars_groupValue (hne : digits ≠ []) (hsmall : ∀ c ∈ digits, c ∈ Hex.smallDigits)
    (hhead : digits.head? = some '0' → digits = ['0']) :
    groupChars (groupValue digits) = digits := by
  induction digits using List.reverseRecOn with
  | nil => exact absurd rfl hne
  | append_singleton front c ih =>
      obtain ⟨hfront, hc⟩ := List.forall_mem_append.mp hsmall
      obtain ⟨hlt, hchar⟩ := digitChar_idxOf (hc c List.mem_cons_self)
      have hlast : Nat.toDigits 16 (Hex.smallDigits.idxOf c) = [c] := by
        rw [Nat.toDigits_of_lt_base hlt, hchar]
      rw [groupValue_append]
      by_cases hempty : front = []
      · subst hempty
        exact (congrArg groupChars (Nat.zero_add _)).trans hlast
      · -- with a digit behind it the first one is no zero, so the number in front is not zero either
        have hzero : front.head? ≠ some '0' := by
          intro h
          have hwhole := congrArg List.length
            (hhead (by rw [List.head?_append_of_ne_nil _ hempty, h]))
          have hpos := List.length_pos_of_ne_nil hempty
          simp only [List.length_append, List.length_cons, List.length_nil] at hwhole
          omega
        have hback : groupChars (groupValue front) = front :=
          ih hempty hfront fun h => absurd h hzero
        have hpos : 0 < groupValue front := by
          rw [Nat.pos_iff_ne_zero]
          intro h
          rw [h] at hback
          exact hzero (by rw [← hback]; rfl)
        rw [groupChars, Nat.mul_comm, ← Nat.toDigits_append_toDigits (by decide) hpos hlt, hlast]
        exact congrArg (· ++ [c]) hback

theorem IsGroup.groupChars_eq (h : IsGroup digits) : groupChars (groupValue digits) = digits :=
  groupChars_groupValue h.1 h.2.2.1 h.2.2.2

theorem IsGroup.groupValue_lt (h : IsGroup digits) : groupValue digits < 256 ^ 2 := by
  have hlength := h.2.1
  rw [← h.groupChars_eq, groupChars, Nat.length_toDigits_le_iff (by decide) (by decide)] at hlength
  exact hlength

/-! ## Pairs of bytes and their numbers -/

theorem pairs_lt (bytes : List UInt8) : ∀ group ∈ pairs bytes, group < 256 ^ 2 := by
  fun_induction pairs bytes with
  | case1 high low rest ih =>
      refine List.forall_mem_cons.mpr ⟨?_, ih⟩
      have hhigh := high.toNat_lt
      have hlow := low.toNat_lt
      omega
  | case2 bytes hshort => simp

/-- The numbers of pairs are written with these pairs again. -/
theorem flatMap_pairs {bytes : List UInt8} (h : 2 ∣ bytes.length) :
    (pairs bytes).flatMap (Bytes.ofNat 2) = bytes := by
  fun_induction pairs bytes with
  | case1 high low rest ih =>
      have hpair : Bytes.ofNat 2 (high.toNat * 256 + low.toNat) = [high, low] := by
        have hvalue : Bytes.toNat [high, low] = high.toNat * 256 + low.toNat := by
          simp [Bytes.toNat]
        rw [← hvalue]
        exact Bytes.ofNat_toNat [high, low]
      rw [List.flatMap_cons, hpair, ih (by simp only [List.length_cons] at h; omega)]
      rfl
  | case2 bytes hshort =>
      cases bytes with
      | nil => rfl
      | cons high rest =>
          cases rest with
          | nil => simp at h
          | cons low rest => exact absurd rfl (hshort high low rest)

/-- Numbers of 16 bits are those of the pairs that they are written with. -/
theorem pairs_flatMap {groups : List Nat} (h : ∀ group ∈ groups, group < 256 ^ 2) :
    pairs (groups.flatMap (Bytes.ofNat 2)) = groups := by
  induction groups with
  | nil => rfl
  | cons group rest ih =>
      obtain ⟨hgroup, hrest⟩ := List.forall_mem_cons.mp h
      have hpair : pairs (Bytes.ofNat 2 group ++ rest.flatMap (Bytes.ofNat 2))
          = Bytes.toNat (Bytes.ofNat 2 group) :: pairs (rest.flatMap (Bytes.ofNat 2)) := by
        simp [Bytes.ofNat, pairs, Bytes.toNat]
      rw [List.flatMap_cons, hpair, ih hrest, Bytes.toNat_ofNat, Nat.mod_eq_of_lt hgroup]

/-! ## Texts and their parts -/

theorem not_mem_of_isGroup (h : IsGroup digits) : ':' ∉ digits :=
  fun hmem => absurd (h.2.2.1 ':' hmem) (by decide)

theorem toList_text (a : Address) :
    a.text.toList = [':'].intercalate (a.groups.map groupChars) := by
  rw [text, String.toList_intercalate, List.map_map]
  congr 1
  exact List.map_congr_left fun group _ => String.toList_ofList

theorem isGroup_of_mem_groups (a : Address) :
    ∀ digits ∈ a.groups.map groupChars, IsGroup digits := by
  intro digits hdigits
  obtain ⟨group, hgroup, rfl⟩ := List.mem_map.mp hdigits
  exact isGroup_groupChars (pairs_lt a.bytes group hgroup)

/-- The parts of the text of an address are its groups. -/
theorem parts_text (a : Address) : parts a.text = a.groups.map groupChars := by
  rw [parts, toList_text]
  refine List.splitOn_intercalate ':' ?_ ?_
  · exact fun digits hdigits => not_mem_of_isGroup (isGroup_of_mem_groups a digits hdigits)
  · rw [← List.length_pos_iff, List.length_map, length_groups]
    decide

theorem canonical_text (a : Address) : Canonical a.text := by
  rw [Canonical, parts_text]
  exact ⟨by simp, isGroup_of_mem_groups a⟩

/-- The groups of the text of an address are read back as its bytes. -/
theorem bytesOfText_text (a : Address) : bytesOfText a.text = a.bytes := by
  rw [bytesOfText, parts_text, List.flatMap_map]
  simp only [groupValue_groupChars]
  exact flatMap_pairs (by rw [a.size]; decide)

theorem eq_of_bytes {a b : Address} (h : a.bytes = b.bytes) : a = b := by
  obtain ⟨abytes, asize⟩ := a
  obtain ⟨bbytes, bsize⟩ := b
  cases h
  rfl

theorem text_injective : Function.Injective text := by
  intro a b h
  refine eq_of_bytes ?_
  rw [← bytesOfText_text a, ← bytesOfText_text b, h]

theorem length_bytesOfText {t : String} (h : Canonical t) : (bytesOfText t).length = 16 := by
  rw [bytesOfText, List.length_flatMap]
  simp [h.1]

/-- A text of the form is written of the address that its groups are read as. -/
theorem text_bytesOfText {t : String} (h : Canonical t) :
    text ⟨bytesOfText t, length_bytesOfText h⟩ = t := by
  have hgroups : groups ⟨bytesOfText t, length_bytesOfText h⟩ = (parts t).map groupValue := by
    have hlt : ∀ group ∈ (parts t).map groupValue, group < 256 ^ 2 := by
      intro group hgroup
      obtain ⟨digits, hdigits, rfl⟩ := List.mem_map.mp hgroup
      exact (h.2 digits hdigits).groupValue_lt
    have hpairs := pairs_flatMap hlt
    rwa [List.flatMap_map] at hpairs
  have hchars : ((parts t).map groupValue).map groupChars = parts t := by
    rw [List.map_map]
    exact (List.map_congr_left fun digits hdigits => (h.2 digits hdigits).groupChars_eq).trans
      (List.map_id _)
  rw [← String.toList_inj, toList_text, hgroups, hchars]
  exact List.intercalate_splitOn ':'

theorem ofBytes_eq_ok_iff {bytes : List UInt8} {a : Address} :
    ofBytes bytes = .ok a ↔ a.bytes = bytes := by
  unfold ofBytes
  split
  · next hsize =>
    rw [Except.ok.injEq]
    exact ⟨fun h => h ▸ rfl, fun h => eq_of_bytes h.symm⟩
  · next hsize =>
    refine iff_of_false (by simp) ?_
    rintro rfl
    exact hsize a.size

theorem ofBytes_eq_error_iff {bytes : List UInt8} {e : SizeError} :
    ofBytes bytes = .error e ↔ bytes.length ≠ 16 ∧ e = ⟨bytes.length⟩ := by
  unfold ofBytes
  split
  · next hsize => simp [hsize]
  · next hsize => simp [hsize, eq_comm]

/-- Two colons next to each other have an empty part between them. -/
theorem nil_mem_parts {t : String} (h : [':', ':'] <:+: t.toList) : [] ∈ parts t := by
  obtain ⟨front, back, hwhole⟩ := h
  have hsplit : ∀ xs ys : List Char,
      (xs ++ ':' :: ys).splitOn ':' = xs.splitOn ':' ++ ys.splitOn ':' := by
    intro xs ys
    simp only [List.splitOn_eq_splitOnP]
    exact List.splitOnP_append_cons xs ys rfl
  have hparts : parts t = front.splitOn ':' ++ ([].splitOn ':' ++ back.splitOn ':') := by
    rw [parts, ← hwhole, ← hsplit, ← hsplit]
    simp
  simp [hparts]

theorem Canonical.not_isInfix {t : String} (h : Canonical t) : ¬ [':', ':'] <:+: t.toList :=
  fun hinfix => (h.2 [] (nil_mem_parts hinfix)).1 rfl

/-- **The text of an address says the address**, in one way only. Bytes that are not 16 have no
text. All others have a text of eight groups, which never holds two colons in a row and whose groups
are read back as these bytes. Every text of that form is written of the bytes that its groups are read
as, so of one address. -/
theorem text_reads_back :
    (∀ bytes e, ofBytes bytes = .error e ↔ bytes.length ≠ 16 ∧ e = ⟨bytes.length⟩)
      ∧ (∀ bytes t, (ofBytes bytes).map text = .ok t ↔ Canonical t ∧ bytesOfText t = bytes)
      ∧ (∀ a : Address, Canonical a.text ∧ bytesOfText a.text = a.bytes
          ∧ ¬ [':', ':'] <:+: a.text.toList)
      ∧ Function.Injective text
      ∧ ∀ t, Canonical t ↔ ∃! a : Address, a.text = t := by
  refine ⟨fun _ _ => ofBytes_eq_error_iff, fun bytes t => ?_, fun a => ?_, text_injective,
    fun t => ⟨fun h => ?_, ?_⟩⟩
  · have hmap : (ofBytes bytes).map text = .ok t ↔ ∃ a, ofBytes bytes = .ok a ∧ a.text = t := by
      cases ofBytes bytes <;> simp [Except.map]
    simp only [hmap, ofBytes_eq_ok_iff]
    constructor
    · rintro ⟨a, rfl, rfl⟩
      exact ⟨canonical_text a, bytesOfText_text a⟩
    · rintro ⟨hcanonical, rfl⟩
      exact ⟨_, rfl, text_bytesOfText hcanonical⟩
  · exact ⟨canonical_text a, bytesOfText_text a, (canonical_text a).not_isInfix⟩
  · refine ⟨_, text_bytesOfText h, fun a ha => text_injective ?_⟩
    rw [ha, text_bytesOfText h]
  · rintro ⟨a, rfl, -⟩
    exact canonical_text a

/-- A group of zero is written as one zero, and a group with zeros in front without them. -/
example : bytesOfText "200:0:719f:309:cb74:4148:b11a:3c1"
    = [0x02, 0x00, 0x00, 0x00, 0x71, 0x9f, 0x03, 0x09, 0xcb, 0x74, 0x41, 0x48, 0xb1, 0x1a, 0x03, 0xc1]
    ∧ Canonical "200:0:719f:309:cb74:4148:b11a:3c1"
    ∧ ¬ Canonical "200::719f:309:cb74:4148:b11a:3c1" := by
  decide

end KeySearch.Address
