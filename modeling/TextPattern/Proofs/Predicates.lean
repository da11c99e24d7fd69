import TextPattern.Predicate
import TextPattern.Proofs.Utf8.RoundTrip

/-!
# What predicates accept

Sets of the runes of a text, and the classes of runes that have a range of their own. A set is
searched by halving, which finds exactly what it was made of.
-/

namespace TextPattern

namespace ValueSet

/-! ## Making sets -/

/-- A set has the values that it is made of. -/
theorem mem_members_ofList {values : List Nat} {value : Nat} :
    value ∈ (ofList values).members.toList ↔ value ∈ values := by
  rw [ofList, mem_unique, List.mem_mergeSort]

/-- What is collected from a position on are the runes of the rest. -/
theorem toList_collect (text : Bytes) (position : Nat) (values : Array Nat) :
    (collect text position values).toList = values.toList ++ Utf8.runes (text.drop position) := by
  induction position, values using collect.induct text with
  | case1 position values more decoded ih =>
    have some_left : text.drop position ≠ [] := by rwa [Ne, List.drop_eq_nil_iff, Nat.not_le]
    rw [collect, if_pos more, ih, Array.toList_push, List.append_assoc, Utf8.runes, Utf8.runes,
      Utf8.decodeAll_eq some_left, List.map_cons, List.drop_drop]
    rfl
  | case2 position values ended =>
    rw [collect, if_neg ended, List.drop_eq_nil_of_le (Nat.le_of_not_lt ended), Utf8.runes,
      Utf8.decodeAll, List.map_nil, List.append_nil]

/-- The set of a text is made of its runes. -/
theorem ofText_eq (text : Bytes) : ofText text = ofList (Utf8.runes text) := by
  rw [ofText, toList_collect, List.drop_zero, List.nil_append]

/-! ## Looking up -/

/-- What stands further on is not less. -/
theorem getElem_le (set : ValueSet) {left right : Nat} (before : left ≤ right)
    (inside : right < set.members.size) : set.members[left] ≤ set.members[right] := by
  rcases Nat.lt_or_eq_of_le before with further | rfl
  · have ordered := List.pairwise_iff_getElem.mp set.ascending left right
      (Nat.lt_trans further inside) inside further
    exact Nat.le_of_lt ordered
  · exact Nat.le_refl _

/-- The lower bound of a value parts the lesser members from the others, if the window that is left
to search does: what is before it is less, and what is behind it is not. -/
theorem getElem_lt_iff_lt_lowerBound (set : ValueSet) (value : Nat) {first length : Nat}
    (inside : first + length ≤ set.members.size)
    (lesser : ∀ place (here : place < set.members.size), place < first →
      set.members[place] < value)
    (others : ∀ place (here : place < set.members.size), first + length ≤ place →
      ¬ set.members[place] < value) (place : Nat) (here : place < set.members.size) :
    set.members[place] < value ↔ place < lowerBound set.members value first length inside := by
  induction first, length, inside using lowerBound.induct set.members value with
  | case1 first length inside more within less ih =>
    rw [lowerBound, dif_pos more]
    simp only [if_pos less]
    refine ih (fun place here before => ?_) (fun place here behind => ?_)
    · exact Nat.lt_of_le_of_lt (getElem_le set (Nat.le_of_lt_succ before) within) less
    · exact others place here (by omega)
  | case2 first length inside more within less ih =>
    rw [lowerBound, dif_pos more]
    simp only [if_neg less]
    refine ih lesser fun place here behind small => less ?_
    exact Nat.lt_of_le_of_lt (getElem_le set behind here) small
  | case3 first length inside ended =>
    rw [lowerBound, dif_neg ended]
    refine ⟨fun small => Nat.lt_of_not_le fun behind => ?_, lesser place here⟩
    exact others place here (by omega) small

/-- Halving finds a value exactly where the set has it. -/
theorem contains_iff (set : ValueSet) (value : Nat) :
    set.contains value = true ↔ value ∈ set.members.toList := by
  have whole : 0 + set.members.size = set.members.size := Nat.zero_add _
  have parts := getElem_lt_iff_lt_lowerBound set value (Nat.le_of_eq whole)
    (fun _ _ before => absurd before (Nat.not_lt_zero _))
    (fun _ here behind => absurd here (Nat.not_lt_of_le (whole ▸ behind)))
  rw [contains]
  generalize lowerBound set.members value 0 set.members.size _ = bound at parts
  rw [Option.any_eq_true]
  constructor
  · rintro ⟨member, found, least⟩
    obtain ⟨here, rfl⟩ := Array.getElem?_eq_some_iff.mp found
    have not_less : ¬ set.members[bound] < value :=
      fun small => Nat.lt_irrefl bound ((parts bound here).mp small)
    have not_greater : ¬ value < set.members[bound] := by simpa using least
    rw [show value = set.members[bound] by omega]
    exact Array.getElem_mem_toList here
  · intro among
    obtain ⟨place, here, rfl⟩ := List.getElem_of_mem among
    have before : bound ≤ place :=
      Nat.le_of_not_lt fun behind => Nat.lt_irrefl _ ((parts place here).mpr behind)
    have least := getElem_le set before here
    refine ⟨_, Array.getElem?_eq_getElem (Nat.lt_of_le_of_lt before here), ?_⟩
    simpa using least

end ValueSet

namespace ClassMask

/-- The mask of a class names that class alone. -/
theorem names_of (mine other : RuneClass) :
    (ClassMask.of mine).names other = decide (mine = other) := by
  cases mine <;> cases other <;> rfl

/-- The mask of a class holds the runes of that class. -/
theorem holds_of (runeClass : RuneClass) (rune : Nat) :
    (ClassMask.of runeClass).holds rune = runeClass.holds rune := by
  unfold ClassMask.holds
  simp only [names_of]
  cases runeClass <;> simp [RuneClass.all]

end ClassMask

namespace Predicate

/-- A set of the runes of a text accepts these runes. -/
theorem accepts_ofText {text : Bytes} {values : List Nat} (decoded : Utf8.runes text = values)
    (encoding : Encoding) (rune : Nat) :
    (Predicate.ofText text).accepts encoding rune = true ↔ rune ∈ values := by
  show (ValueSet.ofText text).contains rune = true ↔ _
  rw [ValueSet.contains_iff, ValueSet.ofText_eq, ValueSet.mem_members_ofList, decoded]

/-- A set of a text of octets below 128 accepts these. -/
theorem accepts_ofText_of_ascii {text octets : Bytes} (same : text = octets)
    (ascii : ∀ octet ∈ octets, octet < 0x80) (encoding : Encoding) (rune : Nat) :
    (Predicate.ofText text).accepts encoding rune = true ↔ rune ∈ octets.map UInt8.toNat :=
  accepts_ofText (Utf8.runes_eq_of_ascii same ascii) encoding rune

/-- The digits of the class. -/
theorem accepts_asciiDigit (rune : Nat) :
    Predicate.asciiDigit.accepts .utf8 rune = true ↔ 0x30 ≤ rune ∧ rune ≤ 0x39 := by
  show (ClassMask.of .asciiDigit).holds rune = true ↔ _
  rw [ClassMask.holds_of]
  simp [RuneClass.holds, Rune.isAsciiDigit]

/-- The hexadecimal digits of the class. -/
theorem accepts_asciiHexdigit (rune : Nat) :
    Predicate.asciiHexdigit.accepts .utf8 rune = true ↔
      (0x30 ≤ rune ∧ rune ≤ 0x39) ∨ (0x61 ≤ rune ∧ rune ≤ 0x66) ∨
        (0x41 ≤ rune ∧ rune ≤ 0x46) := by
  show (ClassMask.of .asciiHexdigit).holds rune = true ↔ _
  rw [ClassMask.holds_of]
  simp [RuneClass.holds, Rune.isAsciiHexdigit, Rune.isAsciiDigit, or_assoc]

/-- The small letters of the class. -/
theorem accepts_asciiLowercase (rune : Nat) :
    Predicate.asciiLowercase.accepts .utf8 rune = true ↔ 0x61 ≤ rune ∧ rune ≤ 0x7A := by
  show (ClassMask.of .asciiLowercase).holds rune = true ↔ _
  rw [ClassMask.holds_of]
  simp [RuneClass.holds, Rune.isAsciiLowercase]

end Predicate

end TextPattern
