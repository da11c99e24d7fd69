import TextPattern.Matcher

/-!
# Conditions and tests

Conditions on the units of a repetition, and tests on what lies ahead of a branch.
-/

namespace TextPattern

namespace Condition

/-- Every unit. -/
def always : Condition := fun _ _ => true

/-- No unit. -/
def never : Condition := fun _ _ => false

/-- Units that begin before an offset. -/
def beginsBefore (offset : Nat) : Condition := fun _ unit => unit.offset < offset

/-- Units that end before an offset. -/
def endsBefore (offset : Nat) : Condition := fun _ unit => unit.next < offset

/-- Any unit of a repetition that began at an offset. -/
def startedAt (offset : Nat) : Condition := fun view _ => view.offset == offset

/-- Units that are followed by a unit of one value. -/
def followedBy (value : Nat) : Condition := fun view unit =>
  (view.unitAt unit.next).any fun next => next.value == value

/-- Units of one value only while a text occurs behind them; other units always. -/
def whileMore (value : Nat) (text : Bytes) : Condition := fun view unit =>
  unit.value != value || text.occursIn (view.restAt unit.next)

end Condition

namespace View

/-- Whether the position is at the start of the input. -/
def isAtStart (view : View) : Bool := view.offset == 0

/-- Whether nothing lies ahead. -/
def isAtEnd (view : View) : Bool := view.bytes.length ≤ view.offset

/-- Whether more than a number of octets lie ahead. -/
def hasMoreThan (count : Nat) (view : View) : Bool := count < view.remaining

/-- Whether the next unit has one value. -/
def nextIs (value : Nat) (view : View) : Bool := view.peek.any fun unit => unit.value == value

end View

end TextPattern
