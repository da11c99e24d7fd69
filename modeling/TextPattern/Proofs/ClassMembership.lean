import TextPattern.Predicate
import Mathlib.Data.Nat.Bitwise
import Mathlib.Data.Nat.Size

/-!
# Classes as sets of ranges

A lookup halves a window of the table; membership in a table mentions neither windows nor order. On
ascending tables the two agree, and every class, the letters and numbers below 128 included, is
membership in a list of ranges. A mask is read through the positions of its bits.
-/

namespace TextPattern

/-- A range holds what lies between its ends. -/
theorem RuneRange.holds_iff (range : RuneRange) (rune : Nat) :
    range.holds rune = true ↔ range.first ≤ rune ∧ rune ≤ range.last := by
  simp [RuneRange.holds]

namespace RangeTable

/-- Some range of the table holds the rune. -/
def Holds (table : RangeTable) (rune : Nat) : Prop :=
  ∃ range ∈ table.toList, range.holds rune = true

instance (table : RangeTable) (rune : Nat) : Decidable (Holds table rune) :=
  inferInstanceAs (Decidable (∃ range ∈ table.toList, range.holds rune = true))

/-- Some range of the entries from `low` up to but not including `high` holds the rune. -/
def HoldsWithin (table : RangeTable) (rune low high : Nat) : Prop :=
  ∃ index range, low ≤ index ∧ index < high ∧ table[index]? = some range ∧
    range.holds rune = true

/-- A search of the window from `low` up to but not including `high`, in some number of rounds, each
of which reads an entry that the table has, and with some answer. -/
inductive Halving (table : RangeTable) (rune : Nat) : Nat → Nat → Nat → Bool → Prop where
  | exhausted {low high : Nat} (empty : high ≤ low) : Halving table rune low high 0 false
  | lower {low high rounds : Nat} {answer : Bool} {range : RuneRange} (inside : low < high)
      (entry : table[low + (high - low) / 2]? = some range) (less : rune < range.first)
      (rest : Halving table rune low (low + (high - low) / 2) rounds answer) :
      Halving table rune low high (rounds + 1) answer
  | upper {low high rounds : Nat} {answer : Bool} {range : RuneRange} (inside : low < high)
      (entry : table[low + (high - low) / 2]? = some range) (greater : range.last < rune)
      (rest : Halving table rune (low + (high - low) / 2 + 1) high rounds answer) :
      Halving table rune low high (rounds + 1) answer
  | found {low high : Nat} {range : RuneRange} (inside : low < high)
      (entry : table[low + (high - low) / 2]? = some range) (held : range.holds rune = true) :
      Halving table rune low high 1 true

variable {table : RangeTable} {rune low high : Nat}

/-- A table without ranges holds nothing. -/
theorem not_holds_nil : ¬ Holds [].toArray rune :=
  fun ⟨_, member, _⟩ => List.not_mem_nil member

/-- A table holds what lies in its first range or what the others hold. -/
theorem holds_cons (range : RuneRange) (others : List RuneRange) :
    Holds (range :: others).toArray rune ↔
      (range.first ≤ rune ∧ rune ≤ range.last) ∨ Holds others.toArray rune := by
  simp only [Holds, List.mem_cons, exists_eq_or_imp, RuneRange.holds_iff]

/-- The whole table is the window of all its entries. -/
theorem holds_iff_within : table.Holds rune ↔ table.HoldsWithin rune 0 table.size := by
  constructor
  · rintro ⟨range, member, held⟩
    obtain ⟨index, inside, rfl⟩ := List.getElem_of_mem member
    exact ⟨index, _, Nat.zero_le index, inside, Array.getElem?_eq_getElem inside, held⟩
  · rintro ⟨index, range, -, -, entry, held⟩
    exact ⟨range, (Array.mem_of_getElem? entry).val, held⟩

/-- A range of an ascending table is in order. -/
theorem Ascending.ordered (ascending : table.Ascending) {index : Nat} {range : RuneRange}
    (entry : table[index]? = some range) : range.first ≤ range.last :=
  ascending.1 range (Array.mem_of_getElem? entry).val

/-- An earlier range of an ascending table ends before a later one begins. -/
theorem Ascending.apart (ascending : table.Ascending) {earlier later : Nat}
    {left right : RuneRange} (less : earlier < later) (first : table[earlier]? = some left)
    (second : table[later]? = some right) : left.last < right.first := by
  obtain ⟨leftInside, rfl⟩ := Array.getElem?_eq_some_iff.mp first
  obtain ⟨rightInside, rfl⟩ := Array.getElem?_eq_some_iff.mp second
  exact List.pairwise_iff_getElem.mp ascending.2 earlier later leftInside rightInside less

/-- A rune below an entry is held, if at all, before that entry. -/
theorem Ascending.within_before (ascending : table.Ascending) {middle : Nat} {range : RuneRange}
    (entry : table[middle]? = some range) (upto : middle ≤ high) (less : rune < range.first) :
    table.HoldsWithin rune low middle ↔ table.HoldsWithin rune low high := by
  constructor
  · rintro ⟨index, other, from_low, inside, at_index, held⟩
    exact ⟨index, other, from_low, Nat.lt_of_lt_of_le inside upto, at_index, held⟩
  · rintro ⟨index, other, from_low, -, at_index, held⟩
    refine ⟨index, other, from_low, Nat.lt_of_not_le fun behind => ?_, at_index, held⟩
    -- The entry itself and those behind it begin above the rune.
    have bounds := (other.holds_iff rune).mp held
    obtain equal | later := Nat.eq_or_lt_of_le behind
    · cases entry.symm.trans (equal ▸ at_index)
      omega
    · have apart := ascending.apart later entry at_index
      have ordered := ascending.ordered entry
      omega

/-- A rune above an entry is held, if at all, behind that entry. -/
theorem Ascending.within_behind (ascending : table.Ascending) {middle : Nat} {range : RuneRange}
    (entry : table[middle]? = some range) (downto : low ≤ middle) (greater : range.last < rune) :
    table.HoldsWithin rune (middle + 1) high ↔ table.HoldsWithin rune low high := by
  constructor
  · rintro ⟨index, other, behind, inside, at_index, held⟩
    exact ⟨index, other, by omega, inside, at_index, held⟩
  · rintro ⟨index, other, -, inside, at_index, held⟩
    refine ⟨index, other, Nat.lt_of_not_le fun before => ?_, inside, at_index, held⟩
    -- The entry itself and those before it end below the rune.
    have bounds := (other.holds_iff rune).mp held
    obtain equal | earlier := Nat.eq_or_lt_of_le before
    · cases entry.symm.trans (equal ▸ at_index)
      omega
    · have apart := ascending.apart earlier at_index entry
      have ordered := ascending.ordered entry
      omega

/-- On an ascending table a search answers for its whole window. -/
theorem Halving.answer_iff {rounds : Nat} {answer : Bool} (ascending : table.Ascending)
    (run : Halving table rune low high rounds answer) :
    answer = true ↔ table.HoldsWithin rune low high := by
  induction run with
  | exhausted empty =>
    refine iff_of_false Bool.false_ne_true ?_
    rintro ⟨index, range, from_low, inside, -⟩
    omega
  | lower inside entry less _ ih => exact ih.trans (ascending.within_before entry (by omega) less)
  | upper inside entry greater _ ih =>
    exact ih.trans (ascending.within_behind entry (by omega) greater)
  | found inside entry held =>
    exact iff_of_true rfl ⟨_, _, Nat.le_add_right _ _, by omega, entry, held⟩

/-- Half of a window has fewer binary digits. -/
theorem size_lt_of_halved {part whole : Nat} (halved : 2 * part ≤ whole) (positive : 0 < whole) :
    Nat.size part < Nat.size whole := by
  rw [Nat.lt_size]
  cases digits : Nat.size part with
  | zero => exact positive
  | succ fewer =>
    have power : 2 ^ fewer ≤ part := Nat.lt_size.mp (digits ▸ Nat.lt_succ_self fewer)
    calc
      2 ^ (fewer + 1) = 2 * 2 ^ fewer := Nat.pow_succ'
      _ ≤ 2 * part := Nat.mul_le_mul_left 2 power
      _ ≤ whole := halved

/-- The search of a window of the table reads no entry outside of it and ends, after no more rounds
than the number of its entries has binary digits. -/
theorem halving_searchWithin (upto : high ≤ table.size) :
    ∃ rounds ≤ Nat.size (high - low),
      Halving table rune low high rounds (table.searchWithin rune low high) := by
  fun_induction searchWithin table rune low high with
  | case1 low high inside middle absent =>
    rw [Array.getElem?_eq_none_iff] at absent
    omega
  | case2 low high inside middle range entry less ih =>
    obtain ⟨rounds, few, run⟩ := ih (by omega)
    have fewer : Nat.size (middle - low) < Nat.size (high - low) :=
      size_lt_of_halved (by omega) (by omega)
    exact ⟨rounds + 1, by omega, .lower inside entry less run⟩
  | case3 low high inside middle range entry not_less greater ih =>
    obtain ⟨rounds, few, run⟩ := ih upto
    have fewer : Nat.size (high - (middle + 1)) < Nat.size (high - low) :=
      size_lt_of_halved (by omega) (by omega)
    exact ⟨rounds + 1, by omega, .upper inside entry greater run⟩
  | case4 low high inside middle range entry not_less not_greater =>
    have held : range.holds rune = true := (range.holds_iff rune).mpr (by omega)
    have positive : 0 < Nat.size (high - low) := Nat.size_pos.mpr (by omega)
    exact ⟨1, positive, .found inside entry held⟩
  | case5 low high outside => exact ⟨0, Nat.zero_le _, .exhausted (Nat.le_of_not_lt outside)⟩

/-- A lookup is a search of the whole table. -/
theorem halving_search (rune : Nat) :
    ∃ rounds ≤ Nat.size table.size,
      Halving table rune 0 table.size rounds (table.search rune) :=
  @halving_searchWithin table rune 0 table.size (Nat.le_refl table.size)

/-- A lookup in an ascending table finds exactly what some range holds. -/
theorem search_iff (ascending : table.Ascending) (rune : Nat) :
    table.search rune = true ↔ table.Holds rune := by
  obtain ⟨_, -, run⟩ := @halving_search table rune
  exact (run.answer_iff ascending).trans holds_iff_within.symm

/-- Below a bound only the ranges that begin there matter. -/
theorem holds_iff_filter {bound : Nat} (small : rune < bound) :
    table.Holds rune ↔
      ∃ range ∈ table.toList.filter (·.first < bound), range.holds rune = true := by
  -- A range that holds the rune begins below the bound, since the rune does not lie before it.
  simp only [Holds, List.mem_filter, decide_eq_true_eq, and_assoc]
  refine exists_congr fun range => and_congr_right fun _ => ?_
  refine (and_iff_right_of_imp fun held => ?_).symm
  exact Nat.lt_of_le_of_lt ((range.holds_iff rune).mp held).1 small

end RangeTable

namespace RuneClass

/-- The runes of a class, as ranges. -/
def ranges : RuneClass → RangeTable
  | .alphabetic => Unicode.alphabeticTable
  | .numeric => Unicode.numericTable
  | .whitespace => Unicode.whitespaceTable
  | .control => #[⟨0x00, 0x1F⟩, ⟨0x7F, 0x9F⟩]
  | .ascii => #[⟨0x00, 0x7F⟩]
  | .asciiAlphabetic => #[⟨0x41, 0x5A⟩, ⟨0x61, 0x7A⟩]
  | .asciiDigit => #[⟨0x30, 0x39⟩]
  | .asciiHexdigit => #[⟨0x30, 0x39⟩, ⟨0x41, 0x46⟩, ⟨0x61, 0x66⟩]
  | .asciiLowercase => #[⟨0x61, 0x7A⟩]
  | .asciiUppercase => #[⟨0x41, 0x5A⟩]
  | .asciiPunctuation => #[⟨0x21, 0x2F⟩, ⟨0x3A, 0x40⟩, ⟨0x5B, 0x60⟩, ⟨0x7B, 0x7E⟩]
  | .asciiGraphic => #[⟨0x21, 0x7E⟩]
  | .asciiWhitespace => #[⟨0x09, 0x0A⟩, ⟨0x0C, 0x0D⟩, ⟨0x20, 0x20⟩]
  | .asciiControl => #[⟨0x00, 0x1F⟩, ⟨0x7F, 0x7F⟩]
  | .word => #[⟨0x30, 0x39⟩, ⟨0x41, 0x5A⟩, ⟨0x5F, 0x5F⟩, ⟨0x61, 0x7A⟩]

/-- The number of the bit that stands for a class. -/
def position (runeClass : RuneClass) : Nat := all.idxOf runeClass

/-- The ranges of every class ascend. -/
theorem ascending_ranges (runeClass : RuneClass) : runeClass.ranges.Ascending := by
  cases runeClass <;> decide +kernel

/-- Below 128 the tables of letters and numbers hold what a comparison decides. -/
theorem holds_ascii {rune : Nat} (small : rune < 0x80) :
    (Unicode.alphabeticTable.Holds rune ↔ Rune.isAsciiAlphabetic rune = true) ∧
      (Unicode.numericTable.Holds rune ↔ Rune.isAsciiDigit rune = true) := by
  have letters : Unicode.alphabeticTable.toList.filter (·.first < 0x80) =
      [⟨0x41, 0x5A⟩, ⟨0x61, 0x7A⟩] := by decide +kernel
  have digits : Unicode.numericTable.toList.filter (·.first < 0x80) = [⟨0x30, 0x39⟩] := by
    decide +kernel
  rw [RangeTable.holds_iff_filter small, RangeTable.holds_iff_filter small, letters, digits]
  simp [RuneRange.holds, Rune.isAsciiAlphabetic, Rune.isAsciiUppercase, Rune.isAsciiLowercase,
    Rune.isAsciiDigit]

/-- A comparison that agrees with a table below 128 may answer for the table there. -/
theorem shortcut_iff {table : RangeTable} {compare : Nat → Bool} {rune : Nat}
    (ascending : table.Ascending)
    (agrees : rune < 0x80 → (table.Holds rune ↔ compare rune = true)) :
    (if Rune.isAscii rune then compare rune else table.search rune) = true ↔
      table.Holds rune := by
  split
  next small => exact (agrees (of_decide_eq_true small)).symm
  next => exact RangeTable.search_iff ascending rune

/-- A class holds the runes of its ranges. -/
theorem holds_iff_ranges (runeClass : RuneClass) (rune : Nat) :
    runeClass.holds rune = true ↔ runeClass.ranges.Holds rune := by
  cases runeClass with
  | alphabetic =>
    exact shortcut_iff (ascending_ranges .alphabetic) fun small => (holds_ascii small).1
  | numeric => exact shortcut_iff (ascending_ranges .numeric) fun small => (holds_ascii small).2
  | whitespace => exact RangeTable.search_iff (ascending_ranges .whitespace) rune
  -- The other classes are comparisons, and so is membership in their ranges.
  | _ =>
    simp only [holds, ranges, RangeTable.holds_cons, RangeTable.not_holds_nil, Rune.isControl,
      Rune.isAscii, Rune.isAsciiAlphabetic, Rune.isAsciiDigit, Rune.isAsciiHexdigit,
      Rune.isAsciiLowercase, Rune.isAsciiUppercase, Rune.isAsciiPunctuation, Rune.isAsciiGraphic,
      Rune.isAsciiAlphanumeric, Rune.isAsciiWhitespace, Rune.isAsciiControl, Rune.isWord,
      Bool.or_eq_true, Bool.and_eq_true, Bool.not_eq_true', Bool.or_eq_false_iff,
      Bool.and_eq_false_iff, decide_eq_true_eq, decide_eq_false_iff_not, beq_iff_eq, or_false]
      <;> omega

end RuneClass

namespace ClassMask

/-- The mask of a class has the bit of that class and no other. -/
theorem toNat_of (runeClass : RuneClass) :
    (ClassMask.of runeClass).bits.toNat = 2 ^ runeClass.position := by
  cases runeClass <;> decide

/-- A mask names the classes whose bits are set in it. -/
theorem names_iff (mask : ClassMask) (runeClass : RuneClass) :
    mask.names runeClass = true ↔ mask.bits.toNat.testBit runeClass.position = true :=
  calc
    mask.names runeClass = true ↔ mask.bits &&& (ClassMask.of runeClass).bits ≠ 0 := by
      simp [ClassMask.names, ClassMask.intersection]
    _ ↔ mask.bits.toNat &&& 2 ^ runeClass.position ≠ 0 := by
      rw [← toNat_of, ← UInt16.toNat_and]
      exact not_congr UInt16.toNat_inj.symm
    _ ↔ mask.bits.toNat.testBit runeClass.position = true := by
      rw [Nat.and_two_pow]
      cases mask.bits.toNat.testBit runeClass.position <;> simp

/-- Every class has its place among all classes. -/
theorem mem_all (runeClass : RuneClass) : runeClass ∈ RuneClass.all := by
  cases runeClass <;> decide

/-- A mask holds what lies in the ranges of some class whose bit is set. -/
theorem holds_iff (mask : ClassMask) (rune : Nat) :
    mask.holds rune = true ↔
      ∃ runeClass : RuneClass, mask.bits.toNat.testBit runeClass.position = true ∧
        runeClass.ranges.Holds rune := by
  simp [ClassMask.holds, mem_all, names_iff, RuneClass.holds_iff_ranges]

/-- The bits of a union are those of either mask. -/
theorem testBit_union (left right : ClassMask) (index : Nat) :
    (left.union right).bits.toNat.testBit index =
      (left.bits.toNat.testBit index || right.bits.toNat.testBit index) := by
  simp [ClassMask.union, Nat.testBit_or]

/-- A union holds what either mask holds. -/
theorem holds_union (left right : ClassMask) (rune : Nat) :
    (left.union right).holds rune = true ↔ left.holds rune = true ∨ right.holds rune = true := by
  simp only [holds_iff, testBit_union, Bool.or_eq_true, or_and_right, exists_or]

end ClassMask

/-- The classes of a union accept a unit exactly when those of either mask do. -/
theorem Predicate.accepts_union (left right : ClassMask) (encoding : Encoding) (value : Nat) :
    (Predicate.ofMask (left.union right)).accepts encoding value = true ↔
      (Predicate.ofMask left).accepts encoding value = true ∨
        (Predicate.ofMask right).accepts encoding value = true := by
  cases encoding with
  | utf8 => exact ClassMask.holds_union left right value
  | octet =>
    simp only [Predicate.ofMask, Predicate.accepts, Bool.and_eq_true, ClassMask.holds_union,
      and_or_left]

/-- A lookup in any ascending table reads entries of the table only, ends, and finds exactly what
some range holds. The tables of letters, numbers and white space ascend and decide these classes,
also below 128. A mask holds what lies in the ranges of a class whose bit is set, and a union of
masks accepts what either mask accepts. -/
theorem class_lookup_is_membership :
    (∀ table : RangeTable, table.Ascending → ∀ rune,
      (∃ rounds ≤ Nat.size table.size,
        table.Halving rune 0 table.size rounds (table.search rune)) ∧
      (table.search rune = true ↔ table.Holds rune)) ∧
    (Unicode.alphabeticTable.Ascending ∧ Unicode.numericTable.Ascending ∧
      Unicode.whitespaceTable.Ascending) ∧
    (∀ rune, (Rune.isAlphabetic rune = true ↔ Unicode.alphabeticTable.Holds rune) ∧
      (Rune.isNumeric rune = true ↔ Unicode.numericTable.Holds rune) ∧
      (Rune.isWhitespace rune = true ↔ Unicode.whitespaceTable.Holds rune)) ∧
    (∀ (mask : ClassMask) rune, mask.holds rune = true ↔
      ∃ runeClass : RuneClass, mask.bits.toNat.testBit runeClass.position = true ∧
        runeClass.ranges.Holds rune) ∧
    (∀ (left right : ClassMask) encoding value,
      (Predicate.ofMask (left.union right)).accepts encoding value = true ↔
        (Predicate.ofMask left).accepts encoding value = true ∨
          (Predicate.ofMask right).accepts encoding value = true) :=
  ⟨fun _ ascending rune => ⟨RangeTable.halving_search rune, RangeTable.search_iff ascending rune⟩,
    ⟨RuneClass.ascending_ranges .alphabetic, RuneClass.ascending_ranges .numeric,
      RuneClass.ascending_ranges .whitespace⟩,
    fun rune => ⟨RuneClass.holds_iff_ranges .alphabetic rune,
      RuneClass.holds_iff_ranges .numeric rune, RuneClass.holds_iff_ranges .whitespace rune⟩,
    ClassMask.holds_iff, Predicate.accepts_union⟩

/-- The table of white space holds U+2029, which ends a range, and skips U+200B right behind
another. -/
theorem class_lookup_is_membership_spaces :
    Unicode.whitespaceTable.Ascending ∧ Unicode.whitespaceTable.search 0x2029 = true ∧
      Unicode.whitespaceTable.search 0x200B = false := by
  have ascending : Unicode.whitespaceTable.Ascending := by decide +kernel
  have lookup := class_lookup_is_membership.1 Unicode.whitespaceTable ascending
  have held : Unicode.whitespaceTable.Holds 0x2029 := by decide +kernel
  have skipped : ¬ Unicode.whitespaceTable.Holds 0x200B := by decide +kernel
  have missed : Unicode.whitespaceTable.search 0x200B ≠ true := mt (lookup 0x200B).2.mp skipped
  exact ⟨ascending, (lookup 0x2029).2.mpr held, Bool.eq_false_iff.mpr missed⟩

end TextPattern
