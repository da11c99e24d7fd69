import TextPattern.Combinator
import TextPattern.Matcher

/-!
# Matching

The meaning of a matcher: an attempt at its span and an attempt at its value. Most matchers have
the slice of their span for a value; the others run their parts for values where the value needs
them and for spans where it does not. Both meanings are built from the meanings of the parts, with
a function that answers for definitions by number.

Definitions may refer to each other. Every nested call is one level deeper, and a call that
is nested more deeply than there are ways to begin one repeats itself: it would never end. The
depth allotted to a match is therefore no limit on grammars that come to an end.
-/

namespace TextPattern

open Attempt

/-- What a matcher does: for its span, and for its value. -/
structure Meaning where
  /-- Match for the span. -/
  span : Attempt Span
  /-- Match for the value. -/
  value : Attempt Value

/-- A meaning whose value is the slice of its span. -/
def Meaning.ofSpan (span : Attempt Span) : Meaning := ⟨span, Combinator.sliced span⟩

/-- A meaning whose span is what its value covers. -/
def Meaning.ofValue (value : Attempt Value) : Meaning := ⟨Combinator.covering value, value⟩

namespace Matcher

/-- The meaning of a matcher, given what a call of each definition does. -/
def meaning (call : Nat → Attempt Span) : Matcher → Meaning
  | .literal text => .ofSpan (Combinator.literal text)
  | .one predicate => .ofSpan (Combinator.one predicate)
  | .empty => .ofSpan Combinator.empty
  | .atStart => .ofSpan Combinator.atStart
  | .atEnd => .ofSpan Combinator.atEnd
  | .count predicate bounds condition =>
    .ofSpan <| Combinator.count predicate bounds fun unit => do
      let view ← view
      pure (condition view unit)
  | .countAhead predicate bounds ahead =>
    .ofSpan <| Combinator.count predicate bounds fun unit => do
      let found ← aside unit.offset (ahead.meaning call).span
      pure found.1.succeeded
  | .repeated inner bounds =>
    .ofSpan <| traced "repeat" <|
      Combinator.covering (Combinator.repeated bounds (inner.meaning call).span)
  | .collected inner bounds =>
    .ofValue <| Value.list <$> Combinator.repeated bounds (inner.meaning call).value
  | .sequence first second =>
    .ofSpan (Combinator.sequence (first.meaning call).span (second.meaning call).span)
  | .choice first second =>
    .ofSpan (Combinator.choice (first.meaning call).span (second.meaning call).span)
  | .longest first second =>
    .ofSpan (Combinator.longest (first.meaning call).span (second.meaning call).span)
  | .sepOnce left separator right =>
    let middle := (separator.meaning call).span
    { span := traced "sep_once" <| Combinator.covering <|
        Combinator.sepOnce (left.meaning call).span middle (right.meaning call).span
      value := (fun found => Value.pair found.1 found.2) <$>
        Combinator.sepOnce (left.meaning call).value middle (right.meaning call).value }
  | .separated item separator least terminated =>
    let middle := (separator.meaning call).span
    { span := traced "separate" <| Combinator.covering <|
        Combinator.separated (item.meaning call).span middle least terminated
      value := Value.list <$>
        Combinator.separated (item.meaning call).value middle least terminated }
  | .enclosed head inner tail =>
    let before := (head.meaning call).span
    let after := (tail.meaning call).span
    { span := tracedFailure "enclose" <| Combinator.covering <|
        Combinator.enclosed before (inner.meaning call).span after
      value := Combinator.enclosed before (inner.meaning call).value after }
  | .mapped inner converter =>
    let value := Combinator.converted (inner.meaning call).value converter
    { span := tracedFailure "map" (Combinator.covering value)
      value }
  | .captured slot inner => .ofSpan (Combinator.captured slot (inner.meaning call).span)
  | .branch test accepted otherwise =>
    .ofSpan <| Combinator.branch (probe (test.meaning call).span) (accepted.meaning call).span
      (otherwise.meaning call).span
  | .branchIf test accepted otherwise =>
    .ofSpan <| Combinator.branch (test <$> view) (accepted.meaning call).span
      (otherwise.meaning call).span
  | .boxed inner => .ofSpan (inner.meaning call).span
  | .undefined => .ofSpan (raise .undefinedMatcher)
  | .handle slot => .ofSpan (call slot)
  | .reference slot => .ofSpan (call slot)

end Matcher

namespace Definitions

/-- Call the definition of a number, with calls nested up to a depth. -/
def call (definitions : Definitions) : Nat → Nat → Attempt Span
  | 0, _ => exhaust
  | depth + 1, slot =>
    match definitions.find? slot with
    | none => raise .undefinedMatcher
    | some matcher => (matcher.meaning (definitions.call depth)).span

/-- How deeply calls can be nested without repeating themselves: there is one way to begin a call
for each definition, each offset, and with or without a store. -/
def depthFor (definitions : Definitions) (subject : Subject) : Nat :=
  2 * definitions.length * (subject.length + 1) + 1

end Definitions

namespace Matcher

/-- Match for the span, under definitions. -/
def attempt (matcher : Matcher) (definitions : Definitions) : Attempt Span :=
  fun subject state =>
    (matcher.meaning (definitions.call (definitions.depthFor subject))).span subject state

/-- Match for the value, under definitions. -/
def attemptValue (matcher : Matcher) (definitions : Definitions) : Attempt Value :=
  fun subject state =>
    (matcher.meaning (definitions.call (definitions.depthFor subject))).value subject state

/-- Whether a matcher matches, under definitions. A match moves on and captures. -/
def matches? (matcher : Matcher) (definitions : Definitions) : Attempt Bool :=
  Result.succeeded <$> observe (matcher.attempt definitions)

/-- Match a cursor from where it is, without a store: how the match ended, and where. -/
def matchCursor (matcher : Matcher) (definitions : Definitions) (cursor : Cursor) : Run Span :=
  matcher.attempt definitions cursor.subject ⟨cursor.offset, none⟩

end Matcher

end TextPattern
