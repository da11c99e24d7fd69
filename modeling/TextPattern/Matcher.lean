import TextPattern.Bounds
import TextPattern.Converter
import TextPattern.Predicate

/-!
# Matchers

A matcher is a description of what may stand in the input. Matchers may refer to definitions by
number, which makes recursive grammars possible: the definitions are supplied when a matcher is
run. Strong handles and weak references to a definition are run alike; they differ in what they
keep alive.
-/

namespace TextPattern

/-- A caller's condition on a unit, seen from where the repetition began. -/
abbrev Condition := View → InputUnit → Bool

/-- What may stand in the input. -/
inductive Matcher where
  /-- A given text. -/
  | literal (text : Bytes)
  /-- One unit. -/
  | one (predicate : Predicate)
  /-- Nothing. -/
  | empty
  /-- Nothing, at the start of the input. -/
  | atStart
  /-- Nothing, at the end of the input. -/
  | atEnd
  /-- As many units as a predicate and a condition accept. -/
  | count (predicate : Predicate) (bounds : Bounds) (condition : Condition)
  /-- As many units as a predicate accepts while a matcher would match at each of them. -/
  | countAhead (predicate : Predicate) (bounds : Bounds) (ahead : Matcher)
  /-- A matcher as often as it matches. -/
  | repeated (inner : Matcher) (bounds : Bounds)
  /-- A matcher as often as it matches, for the list of its values. -/
  | collected (inner : Matcher) (bounds : Bounds)
  /-- Two matchers one after the other. -/
  | sequence (first second : Matcher)
  /-- The first of two matchers that matches. -/
  | choice (first second : Matcher)
  /-- The longer match of two matchers. -/
  | longest (first second : Matcher)
  /-- Two matchers around a separator, for the pair of their values. -/
  | sepOnce (left separator right : Matcher)
  /-- Items between separators, for the list of their values. -/
  | separated (item separator : Matcher) (least : Nat) (terminated : Bool)
  /-- A matcher between a head and a tail, for its own value. -/
  | enclosed (head inner tail : Matcher)
  /-- A matcher whose value is converted. -/
  | mapped (inner : Matcher) (converter : Converter)
  /-- A matcher whose span is captured. -/
  | captured (slot : Nat) (inner : Matcher)
  /-- One of two matchers, according to whether a probe would match. -/
  | branch (probe accepted otherwise : Matcher)
  /-- One of two matchers, according to what lies ahead. -/
  | branchIf (test : View → Bool) (accepted otherwise : Matcher)
  /-- A matcher whose value is hidden behind its slice. -/
  | boxed (inner : Matcher)
  /-- A matcher without a definition. -/
  | undefined
  /-- The matcher defined under a number, which this handle keeps alive. -/
  | handle (slot : Nat)
  /-- The matcher defined under a number, as long as something else keeps it alive. -/
  | reference (slot : Nat)

namespace Matcher

/-- A unit of one value. -/
def ofValue (value : Nat) : Matcher := .one (.equal value)

/-- As many units as a predicate accepts. -/
def countAll (predicate : Predicate) (bounds : Bounds) : Matcher :=
  .count predicate bounds fun _ _ => true

/-- A matcher once or not at all. -/
def optional (inner : Matcher) : Matcher := .repeated inner (.atMost 1)

/-- A matcher any number of times. -/
def zeroOrMore (inner : Matcher) : Matcher := .repeated inner .any

/-- A matcher once or more. -/
def oneOrMore (inner : Matcher) : Matcher := .repeated inner (.atLeast 1)

/-- Matchers one after the other, grouped to the right. -/
def sequenceOf (first second : Matcher) : List Matcher → Matcher
  | [] => .sequence first second
  | third :: later => .sequence first (sequenceOf second third later)

/-- The first of several matchers that matches, grouped to the right. -/
def choiceOf (first second : Matcher) : List Matcher → Matcher
  | [] => .choice first second
  | third :: later => .choice first (choiceOf second third later)

/-- A matcher between a left and a right one. -/
def quoted (inner left right : Matcher) : Matcher := .enclosed left inner right

/-- A matcher and what follows it. -/
def padded (inner tail : Matcher) : Matcher := .enclosed .empty inner tail

/-- A matcher and what leads up to it. -/
def headed (inner head : Matcher) : Matcher := .enclosed head inner .empty

/-- A matcher after anything that may be skipped. -/
def skipThen (skipper inner : Matcher) : Matcher := headed inner (zeroOrMore skipper)

/-- The numbers of the definitions that a matcher keeps alive. -/
def handles : Matcher → List Nat
  | .literal _ | .one _ | .empty | .atStart | .atEnd | .count .. => []
  | .countAhead _ _ ahead => ahead.handles
  | .repeated inner _ => inner.handles
  | .collected inner _ => inner.handles
  | .sequence first second => first.handles ++ second.handles
  | .choice first second => first.handles ++ second.handles
  | .longest first second => first.handles ++ second.handles
  | .sepOnce left separator right => left.handles ++ separator.handles ++ right.handles
  | .separated item separator _ _ => item.handles ++ separator.handles
  | .enclosed head inner tail => head.handles ++ inner.handles ++ tail.handles
  | .mapped inner _ => inner.handles
  | .captured _ inner => inner.handles
  | .branch probe accepted otherwise => probe.handles ++ accepted.handles ++ otherwise.handles
  | .branchIf _ accepted otherwise => accepted.handles ++ otherwise.handles
  | .boxed inner => inner.handles
  | .undefined => []
  | .handle slot => [slot]
  | .reference _ => []

end Matcher

/-- The definitions that matchers refer to, by number. A definition may be missing. -/
abbrev Definitions := List (Option Matcher)

/-- The matcher defined under a number. -/
def Definitions.find? (definitions : Definitions) (slot : Nat) : Option Matcher :=
  (definitions[slot]?).join

end TextPattern
