/-!
# Range tables

A range table lists runes as ascending, disjoint ranges. Looking a rune up halves the part of the
table that can still hold it, so a lookup ends after few steps whatever the table holds.
-/

namespace TextPattern

/-- The runes from one to another, both included. -/
structure RuneRange where
  /-- The least rune of the range. -/
  first : Nat
  /-- The greatest rune of the range. -/
  last : Nat
deriving DecidableEq, Repr

/-- Whether a rune lies in a range. -/
def RuneRange.holds (range : RuneRange) (rune : Nat) : Bool :=
  range.first ≤ rune && rune ≤ range.last

/-- A list of ranges that is meant to be searched by halving. -/
abbrev RangeTable := Array RuneRange

namespace RangeTable

/-- Every range is in order, and each ends before the next begins. -/
def Ascending (table : RangeTable) : Prop :=
  (∀ range ∈ table.toList, range.first ≤ range.last) ∧
    table.toList.Pairwise fun left right => left.last < right.first

instance (table : RangeTable) : Decidable (Ascending table) :=
  inferInstanceAs (Decidable (_ ∧ _))

/-- Search the entries from `low` up to but not including `high`. -/
def searchWithin (table : RangeTable) (rune low high : Nat) : Bool :=
  if _inside : low < high then
    let middle := low + (high - low) / 2
    match table[middle]? with
    | none => false
    | some range =>
      if rune < range.first then searchWithin table rune low middle
      else if range.last < rune then searchWithin table rune (middle + 1) high
      else true
  else false
termination_by high - low

/-- Whether some range of the table holds the rune. -/
def search (table : RangeTable) (rune : Nat) : Bool := searchWithin table rune 0 table.size

end RangeTable

end TextPattern
