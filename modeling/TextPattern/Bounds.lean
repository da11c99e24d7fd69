import TextPattern.Failure

/-!
# Repetition bounds

How often something may be repeated. A missing maximum sets no limit.
-/

namespace TextPattern

/-- The least and the greatest number of repetitions. -/
structure Bounds where
  /-- The least number. -/
  least : Nat
  /-- The greatest number, if there is a limit. -/
  greatest : Option Nat
  /-- The limit is not below the least number. -/
  ordered : (greatest.all fun greatest => least ≤ greatest) = true
deriving DecidableEq, Repr

namespace Bounds

/-- Any number of repetitions. -/
def any : Bounds := ⟨0, none, rfl⟩

/-- That number of repetitions and no other. -/
def exactly (count : Nat) : Bounds :=
  ⟨count, some count, decide_eq_true (Nat.le_refl count)⟩

/-- That number of repetitions or more. -/
def atLeast (count : Nat) : Bounds := ⟨count, none, rfl⟩

/-- That number of repetitions or fewer. -/
def atMost (count : Nat) : Bounds := ⟨0, some count, decide_eq_true (Nat.zero_le count)⟩

/-- Whether the limit is reached. -/
def reached (bounds : Bounds) (count : Nat) : Bool :=
  bounds.greatest.any fun greatest => greatest ≤ count

/-- Whether a number of repetitions lies within the bounds. -/
def contains (bounds : Bounds) (count : Nat) : Bool :=
  bounds.least ≤ count && bounds.greatest.all fun greatest => count ≤ greatest

/-- Both bounds, checked to be in order. -/
def ofLimits? (least : Nat) (greatest : Option Nat) : Except Misuse Bounds :=
  if ordered : (greatest.all fun greatest => least ≤ greatest) = true then
    .ok ⟨least, greatest, ordered⟩
  else .error .reversedBounds

/-- The least number is within the limit. -/
theorem least_le (bounds : Bounds) {limit : Nat} (greatest : bounds.greatest = some limit) :
    bounds.least ≤ limit := by
  have ordered := bounds.ordered
  rwa [greatest, Option.all_some, decide_eq_true_eq] at ordered

end Bounds

end TextPattern
