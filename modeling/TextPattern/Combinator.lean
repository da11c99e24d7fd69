import TextPattern.Attempt
import TextPattern.Bounds
import TextPattern.Predicate
import TextPattern.Value

/-!
# Combinators

What each form of matcher does, as a function of what its parts do. A loop is allotted one round
more than there are octets ahead: every round that goes on consumes at least one octet, so the
rounds never run out before the loop ends by itself.
-/

namespace TextPattern.Combinator

open Attempt

variable {α : Type}

/-- Run an attempt for the span that it covers. -/
def covering (attempt : Attempt α) : Attempt Span := do
  let start ← offset
  let _ ← attempt
  spanFrom start

/-- The slice that an attempt matches. -/
def sliced (attempt : Attempt Span) : Attempt Value := do
  let span ← attempt
  let bytes ← slice span
  pure (.slice bytes)

/-! ## Single units and literals -/

/-- Match a given text. When the input ends inside the text it is too short; else it differs. -/
def literal (text : Bytes) : Attempt Span := do
  let subject ← subject
  let start ← offset
  let rest := subject.bytes.drop start
  if text.isPrefixOf rest then
    let stop ← ofResult (subject.advance start text.length)
    seek stop
    pure ⟨start, text.length⟩
  else if rest.isPrefixOf text then fail (.outOfBounds subject.length)
  else fail (.mismatch start (Bytes.ofString "literal string"))

/-- Match one unit that a predicate accepts. -/
def one (predicate : Predicate) : Attempt Span := do
  let subject ← subject
  let start ← offset
  match subject.unitAt start with
  | none => fail (.outOfBounds start)
  | some unit =>
    if predicate.accepts subject.encoding unit.value then
      seek unit.next
      pure ⟨unit.offset, unit.width⟩
    else fail (.mismatch unit.offset predicate.expected)

/-- Match nothing. -/
def empty : Attempt Span := do
  let start ← offset
  pure ⟨start, 0⟩

/-- Match nothing at the start of the input. -/
def atStart : Attempt Span := do
  let start ← offset
  if start = 0 then pure ⟨0, 0⟩ else fail (.mismatch start (Bytes.ofString "start of input"))

/-- Match nothing at the end of the input. -/
def atEnd : Attempt Span := do
  let subject ← subject
  let start ← offset
  if subject.length ≤ start then pure ⟨start, 0⟩
  else fail (.mismatch start (Bytes.ofString "end of input"))

/-! ## Counting units -/

/-- How far a count of units came. -/
structure Tally where
  /-- How many units were counted. -/
  count : Nat
  /-- The end of the last counted unit. -/
  stop : Nat
  /-- Whether the count ended for want of another unit. -/
  atEnd : Bool
deriving DecidableEq, Repr

/-- Count units from `stop` on while the predicate accepts them and `continues` agrees. The
position stays where it is. -/
def tally (predicate : Predicate) (bounds : Bounds) (continues : InputUnit → Attempt Bool) :
    Nat → Nat → Nat → Attempt Tally
  | rounds, count, stop =>
    if bounds.reached count then pure ⟨count, stop, false⟩
    else
      match rounds with
      | 0 => exhaust
      | rounds + 1 => do
        let subject ← subject
        match subject.unitAt stop with
        | none => pure ⟨count, stop, true⟩
        | some unit =>
          if predicate.accepts subject.encoding unit.value then
            if ← continues unit then
              tally predicate bounds continues rounds (count + 1) unit.next
            else pure ⟨count, stop, false⟩
          else pure ⟨count, stop, false⟩

/-- Match as many units as the predicate accepts and `continues` allows, within bounds. -/
def count (predicate : Predicate) (bounds : Bounds) (continues : InputUnit → Attempt Bool) :
    Attempt Span := traced "count" do
  let start ← offset
  let ahead ← remaining
  let tally ← tally predicate bounds continues (ahead + 1) 0 start
  if tally.count < bounds.least then
    if tally.atEnd then fail (.outOfBounds tally.stop)
    else fail (.mismatch tally.stop predicate.expected)
  else
    seek tally.stop
    spanFrom start

/-! ## Repetition -/

/-- Repeat a step up to the bounds. The step that fails is undone; when it comes too early, so is
everything since `start`, and its failure is the failure of all. A step that consumes nothing is
kept and is the last. -/
def repeatFrom (start : Checkpoint) (bounds : Bounds) (step : Attempt α) :
    Nat → Nat → Attempt (List α)
  | rounds, count =>
    if bounds.reached count then pure []
    else
      match rounds with
      | 0 => exhaust
      | rounds + 1 => do
        let here ← checkpoint
        match ← observe step with
        | .error failure =>
          restore here
          if count < bounds.least then
            restore start
            fail failure
          else pure []
        | .ok value =>
          let stop ← offset
          if stop = here.offset then pure [value]
          else
            let later ← repeatFrom start bounds step rounds (count + 1)
            pure (value :: later)

/-- The values of a repeated step. -/
def repeated (bounds : Bounds) (step : Attempt α) : Attempt (List α) := do
  let start ← checkpoint
  let ahead ← remaining
  repeatFrom start bounds step (ahead + 1) 0

/-! ## Separated items -/

/-- Items that were matched, and why there was no further one. -/
structure Items (α : Type) where
  /-- The values of the items. -/
  values : List α
  /-- The failure that ended the items, unless they ended by themselves. -/
  failure : Option Failure

/-- Match items, each followed by a separator. An item without a separator is the last; where
items have to be terminated it is undone instead. An item and separator that consume nothing are
kept and are the last. -/
def itemsFrom (item : Attempt α) (separator : Attempt Span) (terminated : Bool) :
    Nat → Attempt (Items α)
  | 0 => exhaust
  | rounds + 1 => do
    let here ← checkpoint
    match ← observe item with
    | .error failure =>
      restore here
      pure ⟨[], some failure⟩
    | .ok value =>
      let itemEnd ← checkpoint
      match ← observe separator with
      | .error failure =>
        restore itemEnd
        if terminated then
          restore here
          pure ⟨[], some failure⟩
        else pure ⟨[value], none⟩
      | .ok _ =>
        let stop ← offset
        if stop = here.offset then pure ⟨[value], none⟩
        else
          let later ← itemsFrom item separator terminated rounds
          pure ⟨value :: later.values, later.failure⟩

/-- The values of separated items, of which there must be enough. -/
def separated (item : Attempt α) (separator : Attempt Span) (least : Nat) (terminated : Bool) :
    Attempt (List α) := do
  let start ← checkpoint
  let ahead ← remaining
  let items ← itemsFrom item separator terminated (ahead + 1)
  if items.values.length < least then
    restore start
    fail (items.failure.getD (.mismatch start.offset (Bytes.ofString "separated items")))
  else pure items.values

/-! ## Order and choice -/

/-- One after the other. A failure leaves the state as it was then. -/
def sequence (first second : Attempt Span) : Attempt Span :=
  tracedFailure "sequence" <| covering do
    let _ ← first
    second

/-- The second where the first fails. -/
def choice (first second : Attempt Span) : Attempt Span := do
  let start ← checkpoint
  match ← observe first with
  | .ok span => pure span
  | .error _ =>
    restore start
    traced "choice" (orRestore second)

/-- The longer of two matches from the same place, the first if they are equally long. Only the
captures of the winner remain. -/
def longest (first second : Attempt Span) : Attempt Span := traced "longest" do
  let start ← checkpoint
  let left ← observe first
  let leftStop ← offset
  let held ←
    if left.succeeded then takeSince start.mark
    else do
      rollback start.mark
      pure []
  seek start.offset
  let right ← observe second
  let keepLeft : Attempt Span := do
    rollback start.mark
    replay held
    seek leftStop
    spanFrom start.offset
  match left, right with
  | .ok _, .ok span => if span.length ≤ leftStop - start.offset then keepLeft else pure span
  | .ok _, .error _ => keepLeft
  | .error _, .ok span => pure span
  | .error failure, .error _ =>
    restore start
    fail failure

/-- A left part, a separator and a right part; on failure everything is undone. -/
def sepOnce (left : Attempt α) (separator : Attempt Span) (right : Attempt α) :
    Attempt (α × α) := orRestore do
  let first ← left
  let _ ← separator
  let second ← right
  pure (first, second)

/-- An inner part between a head and a tail, for the value of the inner part. -/
def enclosed (head : Attempt Span) (inner : Attempt α) (tail : Attempt Span) : Attempt α := do
  let _ ← head
  let value ← inner
  let _ ← tail
  pure value

/-- Go on with `accepted` where the probe would succeed, and with `otherwise` where it would not. -/
def branch (probe : Attempt Bool) (accepted otherwise : Attempt Span) : Attempt Span := do
  if ← probe then accepted else otherwise

/-! ## Values and captures -/

/-- Convert the value of a match. A conversion that fails leaves the state behind the match. -/
def converted (inner : Attempt Value) (convert : Value → Conversion) : Attempt Value := do
  let start ← offset
  let value ← inner
  let stop ← offset
  let bytes ← slice (.between start stop)
  ofResult ((convert value).settle start bytes)

/-- Capture the span of a match. A slot that is missing is noticed before anything is matched. -/
def captured (slot : Nat) (inner : Attempt Span) : Attempt Span := do
  requireSlot slot
  let span ← inner
  capture slot span
  pure span

end TextPattern.Combinator
