import Mathlib.Logic.Relation
import TextPattern.Matcher

/-!
# What a matcher reaches

A matcher runs its operands, they run theirs, and calls run definitions. What can be reached in this
way is all that a run may come across, so a property of matchers that holds everywhere within reach
holds everywhere within reach of each part.
-/

namespace TextPattern.Matcher

/-- The matchers that a matcher runs itself: its operands, or the definition that it calls. -/
def parts (definitions : Definitions) : Matcher → List Matcher
  | .literal _ | .one _ | .empty | .atStart | .atEnd | .count .. | .undefined => []
  | .countAhead _ _ ahead => [ahead]
  | .repeated inner _ => [inner]
  | .collected inner _ => [inner]
  | .sequence first second => [first, second]
  | .choice first second => [first, second]
  | .longest first second => [first, second]
  | .sepOnce left separator right => [left, separator, right]
  | .separated item separator _ _ => [item, separator]
  | .enclosed head inner tail => [head, inner, tail]
  | .mapped inner _ => [inner]
  | .captured _ inner => [inner]
  | .branch probe accepted otherwise => [probe, accepted, otherwise]
  | .branchIf _ accepted otherwise => [accepted, otherwise]
  | .boxed inner => [inner]
  | .handle slot => (definitions.find? slot).toList
  | .reference slot => (definitions.find? slot).toList

/-- A matcher reaches itself, its parts, their parts, and so on. -/
def Reaches (definitions : Definitions) : Matcher → Matcher → Prop :=
  Relation.ReflTransGen fun whole part => part ∈ whole.parts definitions

/-- A property of all matchers within reach. -/
def Everywhere (definitions : Definitions) (holds : Matcher → Prop) (matcher : Matcher) : Prop :=
  ∀ part, matcher.Reaches definitions part → holds part

namespace Everywhere

variable {definitions : Definitions} {holds : Matcher → Prop} {whole : Matcher}

/-- The matcher itself is within reach. -/
theorem here (everywhere : whole.Everywhere definitions holds) : holds whole :=
  everywhere whole .refl

/-- What a part reaches is within reach. -/
theorem part {inner : Matcher} (everywhere : whole.Everywhere definitions holds)
    (among : inner ∈ whole.parts definitions) : inner.Everywhere definitions holds :=
  fun other reached => everywhere other (.head among reached)

/-- What holds of a matcher and passes from matchers to their parts holds everywhere. -/
theorem of_passes (here : holds whole)
    (passes : ∀ matcher, holds matcher → ∀ part ∈ matcher.parts definitions, holds part) :
    whole.Everywhere definitions holds := by
  intro part reached
  induction reached with
  | refl => exact here
  | tail _ among ih => exact passes _ ih _ among

/-- What holds of all matchers in a list that has the parts of each of them holds everywhere. -/
theorem of_closed (closed : List Matcher) (here : whole ∈ closed)
    (parts : ∀ matcher ∈ closed, matcher.parts definitions ⊆ closed)
    (each : ∀ matcher ∈ closed, holds matcher) : whole.Everywhere definitions holds := by
  have member := of_passes here fun matcher member part among => parts matcher member among
  exact fun part reached => each part (member part reached)

/-- What the definition of a handle reaches is within reach. -/
theorem ofHandle {slot : Nat} (everywhere : (Matcher.handle slot).Everywhere definitions holds)
    (target : Matcher) (defined : definitions.find? slot = some target) :
    target.Everywhere definitions holds :=
  everywhere.part (Option.mem_toList.mpr defined)

/-- What the definition of a reference reaches is within reach. -/
theorem ofReference {slot : Nat}
    (everywhere : (Matcher.reference slot).Everywhere definitions holds) (target : Matcher)
    (defined : definitions.find? slot = some target) : target.Everywhere definitions holds :=
  everywhere.part (Option.mem_toList.mpr defined)

end Everywhere

end TextPattern.Matcher
