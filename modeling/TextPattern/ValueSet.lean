import TextPattern.Utf8

/-!
# Sets of values

A set lists its values in ascending order and each of them once: they are sorted, and of equal
neighbours one is kept. A value is looked up by halving the part of the list in which it may stand.
-/

namespace TextPattern

/-- Values in ascending order, each listed once. -/
structure ValueSet where
  /-- The listed values. -/
  members : Array Nat
  /-- Each is greater than all before it. -/
  ascending : members.toList.Pairwise (· < ·)

namespace ValueSet

/-! ## Sorting -/

/-- Keep one of each stretch of equal neighbours. -/
def unique : List Nat → List Nat
  | [] => []
  | [value] => [value]
  | value :: next :: later =>
    if value = next then unique (next :: later) else value :: unique (next :: later)

/-- No value is lost, and none is added. -/
theorem mem_unique {value : Nat} {values : List Nat} : value ∈ unique values ↔ value ∈ values := by
  induction values using unique.induct with
  | case1 => rfl
  | case2 => rfl
  | case3 next later ih =>
    rw [unique, if_pos rfl, ih, List.mem_cons, List.mem_cons, List.mem_cons, or_self_left]
  | case4 other next later differ ih =>
    rw [unique, if_neg differ, List.mem_cons, ih, List.mem_cons, List.mem_cons, List.mem_cons]

/-- What is left of values in order is in ascending order. -/
theorem pairwise_unique {values : List Nat} (sorted : values.Pairwise (· ≤ ·)) :
    (unique values).Pairwise (· < ·) := by
  induction values using unique.induct with
  | case1 => exact .nil
  | case2 value => exact List.pairwise_singleton _ _
  | case3 next later ih =>
    rw [unique, if_pos rfl]
    exact ih (List.pairwise_cons.mp sorted).2
  | case4 value next later differ ih =>
    obtain ⟨least, rest⟩ := List.pairwise_cons.mp sorted
    rw [unique, if_neg differ]
    refine List.pairwise_cons.mpr ⟨fun other among => ?_, ih rest⟩
    have before : value < next :=
      Nat.lt_of_le_of_ne (least next List.mem_cons_self) differ
    rcases List.mem_cons.mp (mem_unique.mp among) with rfl | later
    · exact before
    · exact Nat.lt_of_lt_of_le before ((List.pairwise_cons.mp rest).1 other later)

/-- Sorted values are in order. -/
theorem pairwise_mergeSort (values : List Nat) : values.mergeSort.Pairwise (· ≤ ·) := by
  have transitive (first second third : Nat) :
      decide (first ≤ second) = true → decide (second ≤ third) = true →
        decide (first ≤ third) = true := by
    simpa only [decide_eq_true_eq] using Nat.le_trans
  have total (left right : Nat) : (decide (left ≤ right) || decide (right ≤ left)) = true := by
    simpa only [Bool.or_eq_true, decide_eq_true_eq] using Nat.le_total left right
  exact (List.pairwise_mergeSort transitive total values).imp of_decide_eq_true

/-- The set of the listed values. -/
def ofList (values : List Nat) : ValueSet where
  members := (unique values.mergeSort).toArray
  ascending := pairwise_unique (pairwise_mergeSort values)

/-- Add the runes of a text from a position on, in the order of the text. -/
def collect (text : Bytes) (position : Nat) (values : Array Nat) : Array Nat :=
  if position < text.length then
    let decoded := Utf8.decode (text.drop position)
    collect text (position + decoded.2) (values.push decoded.1)
  else values
termination_by text.length - position
decreasing_by
  have wide := Utf8.decode_width_pos (text.drop position)
  omega

/-- The set of the runes of a text. -/
def ofText (text : Bytes) : ValueSet := ofList (collect text 0 #[]).toList

/-- How many values a set has. -/
def size (set : ValueSet) : Nat := set.members.size

/-! ## Looking up -/

/-- The place of the first of some members that is not less than a value, or the one behind them
all. -/
def lowerBound (members : Array Nat) (value first length : Nat)
    (inside : first + length ≤ members.size) : Nat :=
  if _more : 0 < length then
    have _within : first + length / 2 < members.size := by omega
    if members[first + length / 2] < value then
      lowerBound members value (first + length / 2 + 1) (length - length / 2 - 1) (by omega)
    else lowerBound members value first (length / 2) (by omega)
  else first
termination_by length

/-- Whether a value is in a set. -/
def contains (set : ValueSet) (value : Nat) : Bool :=
  let place := lowerBound set.members value 0 set.members.size (Nat.le_of_eq (Nat.zero_add _))
  (set.members[place]?).any fun found => !(decide (value < found))

end ValueSet

end TextPattern
