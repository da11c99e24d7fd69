import TextPattern.Matching

/-!
# Searching

`find` tries the offsets from the current one on, unit by unit and the end included, and stays
behind the first match. A span iterator stands on successive matches, each beginning where the one
before it ended; it moves on a position of its own and captures nothing. It comes to its end at
the first failure, at the end of the input, and after an empty match.
-/

namespace TextPattern

open Attempt

/-! ## Finding a match -/

/-- The first match from an offset on, for a number of rounds. Each of them tries one offset and
drops what was captured there in vain; the next one tries the end of the unit at that offset, if
there is a unit. -/
def searchFrom (attempt : Attempt Span) : Nat → Nat → Attempt (Option Span)
  | rounds, offset => do
    let subject ← subject
    if subject.length < offset then pure none
    else
      match rounds with
      | 0 => exhaust
      | rounds + 1 =>
        let here ← checkpoint
        seek offset
        match ← observe attempt with
        | .ok span => pure (some span)
        | .error _ =>
          rollback here.mark
          match ← unitAt offset with
          | none => pure none
          | some unit => searchFrom attempt rounds unit.next

/-- The first match from here on. Without one the position is where it was. Units are not empty, so
there are no more rounds than octets ahead, and one for the end. -/
def find (attempt : Attempt Span) : Attempt (Option Span) := do
  let start ← offset
  let ahead ← remaining
  match ← searchFrom attempt (ahead + 1) start with
  | some span => pure (some span)
  | none =>
    seek start
    pure none

/-! ## Successive matches -/

/-- A matcher that iterators share. -/
structure SharedMatcher where
  /-- What tells it from all others. -/
  identity : Nat
  /-- What it does. -/
  attempt : Attempt Span

/-- A place in a sequence of matches. -/
structure SpanIterator where
  /-- The matcher, which iterators of one sequence share. -/
  matcher : Option SharedMatcher
  /-- Where the current match ends, or where there was no further one. -/
  offset : Nat
  /-- The current match; there is none at the end. -/
  current : Option Span

namespace SpanIterator

/-- The end of every sequence of matches. -/
def finished : SpanIterator := ⟨none, 0, none⟩

/-- Iterators are the same when they share their matcher and stand on the same span, or when both
are at the end. -/
def same (left right : SpanIterator) : Bool :=
  match left.current, right.current with
  | some span, some other =>
    left.matcher.map SharedMatcher.identity == right.matcher.map SharedMatcher.identity &&
      span == other
  | one, other => one.isSome == other.isSome

/-- Stand on the match at the place where an iterator rests, if there is one. -/
def settle (iterator : SpanIterator) : Attempt SpanIterator :=
  match iterator.matcher with
  | none => pure { iterator with current := none }
  | some shared => do
    let subject ← subject
    if subject.length ≤ iterator.offset then pure { iterator with current := none }
    else
      let found ← aside iterator.offset shared.attempt
      pure { iterator with offset := found.2, current := found.1.toOption }

/-- Stand on the first match from an offset on, if there is one at that offset. -/
def start (shared : SharedMatcher) (offset : Nat) : Attempt SpanIterator :=
  settle ⟨some shared, offset, none⟩

/-- Go on to the next match. There is none after an empty one. -/
def next (iterator : SpanIterator) : Attempt SpanIterator :=
  if iterator.current.any Span.isEmpty then pure { iterator with current := none }
  else iterator.settle

/-- The iterators from one on up to the end. -/
def walk : Nat → SpanIterator → Attempt (List SpanIterator)
  | rounds, iterator =>
    if iterator.current.isNone then pure []
    else
      match rounds with
      | 0 => exhaust
      | rounds + 1 => do
        let following ← iterator.next
        let later ← walk rounds following
        pure (iterator :: later)

end SpanIterator

/-- The successive matches from here on, each as the iterator that stands on it. Every match but
an empty last one consumes an octet, so there are no more of them than octets ahead. -/
def matchSpans (attempt : Attempt Span) (identity : Nat := 0) : Attempt (List SpanIterator) := do
  let start ← offset
  let ahead ← remaining
  let first ← SpanIterator.start ⟨identity, attempt⟩ start
  SpanIterator.walk ahead first

end TextPattern
