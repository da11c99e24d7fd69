import TextPattern.Matching

/-!
# Readings

A reading says what an attempt does from every offset, whatever a capture store holds by then: how
it ends, where it ends, and which captures it leaves behind. A reading has no store to undo and no
position to move. The combinators are restated here on readings: to undo an attempt is to leave
its effect out.
-/

namespace TextPattern

open Combinator (Tally Items)

/-- What an attempt does from one offset. -/
structure Effect (α : Type) where
  /-- How it ends. -/
  ending : Ending α
  /-- Where it ends. -/
  stop : Nat
  /-- The captures that it leaves behind, oldest first. -/
  captures : List Capture

namespace Effect

variable {α β : Type}

/-- The effect of ending at an offset without a capture. -/
def still (ending : Ending α) (offset : Nat) : Effect α := ⟨ending, offset, []⟩

/-- Pass the value of a match through a function. -/
def map (f : α → β) (effect : Effect α) : Effect β :=
  ⟨effect.ending.map f, effect.stop, effect.captures⟩

/-- Values left as they are leave the effect as it is. -/
theorem map_id (effect : Effect α) : effect.map id = effect := by
  obtain ⟨ending, stop, captures⟩ := effect
  cases ending <;> rfl

/-- An effect that comes after captures. -/
def after (captures : List Capture) (effect : Effect α) : Effect α :=
  ⟨effect.ending, effect.stop, captures ++ effect.captures⟩

/-- Go on from a match where it ended; every other effect stays as it is. -/
def andThen (effect : Effect α) (next : α → Nat → Effect β) : Effect β :=
  match effect.ending with
  | .matched value => (next value effect.stop).after effect.captures
  | .failed failure => ⟨.failed failure, effect.stop, effect.captures⟩
  | .raised misuse => ⟨.raised misuse, effect.stop, effect.captures⟩
  | .exhausted => ⟨.exhausted, effect.stop, effect.captures⟩

/-- Put another effect in the place of a failure. -/
def orElse (effect : Effect α) (other : Failure → Effect α) : Effect α :=
  match effect.ending with
  | .failed failure => other failure
  | _ => effect

/-- What goes on matches where both parts match. -/
theorem andThen_matched_iff {effect : Effect α} {next : α → Nat → Effect β} {value : β} :
    (effect.andThen next).ending = .matched value ↔
      ∃ found, effect.ending = .matched found ∧
        (next found effect.stop).ending = .matched value := by
  unfold andThen
  cases effect.ending with
  | matched found =>
    constructor
    · intro later
      exact ⟨found, rfl, later⟩
    · rintro ⟨_, same, later⟩
      cases same
      exact later
  | _ =>
    constructor
    · intro later
      cases later
    · rintro ⟨_, same, _⟩
      cases same

/-- What passes through a function is a match where it was one before. -/
theorem map_matched_iff {effect : Effect α} {f : α → β} {value : β} :
    (effect.map f).ending = .matched value ↔
      ∃ found, effect.ending = .matched found ∧ f found = value := by
  unfold map Ending.map
  cases effect.ending <;> simp

end Effect

/-- What an attempt does on a subject, for the capacity of a store if there is one, from every
offset. -/
def Reading (α : Type) : Type := Subject → Option Nat → Nat → Effect α

namespace Reading

variable {α β : Type}

instance : Monad Reading where
  pure value := fun _ _ offset => .still (.matched value) offset
  bind first next := fun subject capacity offset =>
    (first subject capacity offset).andThen fun value stop => next value subject capacity stop

/-- A function on values leaves the rest of an effect alone. -/
theorem map_apply (f : α → β) (reading : Reading α) (subject : Subject) (capacity : Option Nat)
    (offset : Nat) :
    (f <$> reading) subject capacity offset = (reading subject capacity offset).map f := by
  show (reading subject capacity offset).andThen (fun value stop =>
    Effect.still (.matched (f value)) stop) = _
  unfold Effect.andThen Effect.map Ending.map
  cases (reading subject capacity offset).ending with
  | matched value => simp only [Effect.after, Effect.still, List.append_nil]
  | _ => rfl

/-- End with a failure. -/
def fail (failure : Failure) : Reading α := fun _ _ offset => .still (.failed failure) offset

/-- End with a misuse. -/
def raise (misuse : Misuse) : Reading α := fun _ _ offset => .still (.raised misuse) offset

/-- End because the allotted steps ran out. -/
def exhaust : Reading α := fun _ _ offset => .still .exhausted offset

/-- The effect of a reading as the span from where it began to where it ended. -/
def covering (reading : Reading α) : Reading Span := fun subject capacity offset =>
  let effect := reading subject capacity offset
  effect.map fun _ => .between offset effect.stop

/-- On failure, nothing at all. -/
def restoring (reading : Reading α) : Reading α := fun subject capacity offset =>
  (reading subject capacity offset).orElse fun failure => .still (.failed failure) offset

/-- Whether a reading would match here. -/
def probe (reading : Reading α) : Reading Bool := fun subject capacity offset =>
  .still ((reading subject capacity offset).ending.settle.map Result.succeeded) offset

/-- The slice of a span, which must not begin past the end of the input. -/
def slice (span : Span) : Reading Bytes := fun subject _ offset =>
  match subject.slice? span with
  | some bytes => .still (.matched bytes) offset
  | none => .still (.raised .sliceOutOfRange) offset

/-- The slice that a reading matches. -/
def sliced (reading : Reading Span) : Reading Value := do
  let span ← reading
  let bytes ← slice span
  pure (.slice bytes)

/-! ## Single units and literals -/

/-- A given text. -/
def literal (text : Bytes) : Reading Span := fun subject _ offset =>
  let rest := subject.bytes.drop offset
  if text.isPrefixOf rest then
    match subject.advance offset text.length with
    | .ok stop => ⟨.matched ⟨offset, text.length⟩, stop, []⟩
    | .error failure => .still (.failed failure) offset
  else if rest.isPrefixOf text then .still (.failed (.outOfBounds subject.length)) offset
  else .still (.failed (.mismatch offset (Bytes.ofString "literal string"))) offset

/-- One unit that a predicate accepts. -/
def one (predicate : Predicate) : Reading Span := fun subject _ offset =>
  match subject.unitAt offset with
  | none => .still (.failed (.outOfBounds offset)) offset
  | some unit =>
    if predicate.accepts subject.encoding unit.value then
      ⟨.matched ⟨unit.offset, unit.width⟩, unit.next, []⟩
    else .still (.failed (.mismatch unit.offset predicate.expected)) offset

/-- Nothing. -/
def empty : Reading Span := fun _ _ offset => .still (.matched ⟨offset, 0⟩) offset

/-- Nothing, at the start of the input. -/
def atStart : Reading Span := fun _ _ offset =>
  if offset = 0 then .still (.matched ⟨0, 0⟩) offset
  else .still (.failed (.mismatch offset (Bytes.ofString "start of input"))) offset

/-- Nothing, at the end of the input. -/
def atEnd : Reading Span := fun subject _ offset =>
  if subject.length ≤ offset then .still (.matched ⟨offset, 0⟩) offset
  else .still (.failed (.mismatch offset (Bytes.ofString "end of input"))) offset

/-! ## Counting units -/

/-- A test of a unit, by the offset at which the count began. -/
abbrev UnitTest := Subject → Nat → InputUnit → Ending Bool

/-- The test that asks a condition. -/
def conditionTest (condition : Condition) : UnitTest := fun subject start unit =>
  .matched (condition (subject.viewFrom start) unit)

/-- The test that asks whether a reading would match at the unit, without a store. -/
def aheadTest (reading : Reading α) : UnitTest := fun subject _ unit =>
  (reading subject none unit.offset).ending.settle.map Result.succeeded

/-- Count units from `stop` on while the predicate and the test accept them. -/
def tally (subject : Subject) (predicate : Predicate) (bounds : Bounds)
    (test : InputUnit → Ending Bool) : Nat → Nat → Nat → Ending Tally
  | rounds, count, stop =>
    if bounds.reached count then .matched ⟨count, stop, false⟩
    else
      match rounds with
      | 0 => .exhausted
      | rounds + 1 =>
        match subject.unitAt stop with
        | none => .matched ⟨count, stop, true⟩
        | some unit =>
          if predicate.accepts subject.encoding unit.value then
            match test unit with
            | .matched true => tally subject predicate bounds test rounds (count + 1) unit.next
            | .matched false => .matched ⟨count, stop, false⟩
            | .failed failure => .failed failure
            | .raised misuse => .raised misuse
            | .exhausted => .exhausted
          else .matched ⟨count, stop, false⟩

/-- As many units as the predicate and the test accept, within bounds. -/
def count (predicate : Predicate) (bounds : Bounds) (test : UnitTest) : Reading Span :=
  fun subject _ offset =>
    let rounds := subject.length - offset + 1
    (Effect.still (tally subject predicate bounds (test subject offset) rounds 0 offset)
        offset).andThen fun tally _ =>
      if tally.count < bounds.least then
        if tally.atEnd then .still (.failed (.outOfBounds tally.stop)) offset
        else .still (.failed (.mismatch tally.stop predicate.expected)) offset
      else .still (.matched (.between offset tally.stop)) tally.stop

/-! ## Repetition -/

/-- Repeat a step up to the bounds. A step that fails ends the repetition, and is the failure of
all when it comes too early. A step that consumes nothing is kept and is the last. -/
def repeatFrom (bounds : Bounds) (step : Reading α) : Nat → Nat → Reading (List α)
  | rounds, count => fun subject capacity offset =>
    if bounds.reached count then .still (.matched []) offset
    else
      match rounds with
      | 0 => .still .exhausted offset
      | rounds + 1 =>
        let effect := step subject capacity offset
        match effect.ending with
        | .failed failure =>
          if count < bounds.least then .still (.failed failure) offset
          else .still (.matched []) offset
        | _ =>
          effect.andThen fun value stop =>
            if stop = offset then .still (.matched [value]) stop
            else
              (repeatFrom bounds step rounds (count + 1) subject capacity stop).map (value :: ·)

/-- The values of a repeated step. -/
def repeated (bounds : Bounds) (step : Reading α) : Reading (List α) :=
  restoring fun subject capacity offset =>
    repeatFrom bounds step (subject.length - offset + 1) 0 subject capacity offset

/-! ## Separated items -/

/-- Items, each followed by a separator. An item without a separator is the last; where items
have to be terminated it does not count. -/
def itemsFrom (item : Reading α) (separator : Reading Span) (terminated : Bool) :
    Nat → Reading (Items α)
  | 0 => exhaust
  | rounds + 1 => fun subject capacity offset =>
    let first := item subject capacity offset
    let second := separator subject capacity first.stop
    match first.ending with
    | .failed failure => .still (.matched ⟨[], some failure⟩) offset
    | .matched value =>
      match second.ending with
      | .failed failure =>
        if terminated then .still (.matched ⟨[], some failure⟩) offset
        else ⟨.matched ⟨[value], none⟩, first.stop, first.captures⟩
      | _ =>
        first.andThen fun _ _ => second.andThen fun _ stop =>
          if stop = offset then .still (.matched ⟨[value], none⟩) stop
          else
            (itemsFrom item separator terminated rounds subject capacity stop).map fun later =>
              ⟨value :: later.values, later.failure⟩
    | .raised misuse => ⟨.raised misuse, first.stop, first.captures⟩
    | .exhausted => ⟨.exhausted, first.stop, first.captures⟩

/-- Items that come to an end do not fail: their last failure is part of what they yield. -/
theorem itemsFrom_not_failed (item : Reading α) (separator : Reading Span) (terminated : Bool)
    (rounds : Nat) (subject : Subject) (capacity : Option Nat) (offset : Nat)
    (failure : Failure) :
    (itemsFrom item separator terminated rounds subject capacity offset).ending ≠
      .failed failure := by
  induction rounds generalizing offset with
  | zero => simp [itemsFrom, exhaust, Effect.still]
  | succ rounds ih =>
    unfold itemsFrom
    cases ended : (item subject capacity offset).ending with
    | matched value =>
      cases endedSeparator : (separator subject capacity
          (item subject capacity offset).stop).ending with
      | failed _ => cases terminated <;> simp [Effect.still, ended, endedSeparator]
      | matched _ =>
        simp only [Effect.andThen, Effect.after, ended, endedSeparator]
        split
        · simp [Effect.still]
        · have later := ih (separator subject capacity (item subject capacity offset).stop).stop
          unfold Effect.map Ending.map
          split <;> simp_all
      | _ => simp [Effect.andThen, Effect.after, ended, endedSeparator]
    | _ => simp [Effect.still, ended]

/-- The values of separated items, of which there must be enough. -/
def separated (item : Reading α) (separator : Reading Span) (least : Nat) (terminated : Bool) :
    Reading (List α) :=
  restoring fun subject capacity offset =>
    (itemsFrom item separator terminated (subject.length - offset + 1) subject capacity
        offset).andThen fun items stop =>
      if items.values.length < least then
        .still (.failed <| items.failure.getD
          (.mismatch offset (Bytes.ofString "separated items"))) stop
      else .still (.matched items.values) stop

/-! ## Order and choice -/

/-- One after the other. -/
def sequence (first second : Reading Span) : Reading Span := covering do
  let _ ← first
  second

/-- The second where the first fails. -/
def choice (first second : Reading Span) : Reading Span := fun subject capacity offset =>
  (first subject capacity offset).orElse fun _ => restoring second subject capacity offset

/-- The longer of two matches from the same place, the first if they are equally long. -/
def longest (first second : Reading Span) : Reading Span := fun subject capacity offset =>
  let left := first subject capacity offset
  let right := second subject capacity offset
  let keepLeft : Effect Span := left.map fun _ => .between offset left.stop
  match left.ending with
  | .matched _ =>
    match right.ending with
    | .matched span => if span.length ≤ left.stop - offset then keepLeft else right
    | .failed _ => keepLeft
    | _ => right
  | .failed failure => right.orElse fun _ => .still (.failed failure) offset
  | _ => left

/-- A left part, a separator and a right part. -/
def sepOnce (left : Reading α) (separator : Reading Span) (right : Reading α) :
    Reading (α × α) := restoring do
  let first ← left
  let _ ← separator
  let second ← right
  pure (first, second)

/-- An inner part between a head and a tail. -/
def enclosed (head : Reading Span) (inner : Reading α) (tail : Reading Span) : Reading α := do
  let _ ← head
  let value ← inner
  let _ ← tail
  pure value

/-- A test of what lies ahead. -/
def viewTest (test : View → Bool) : Reading Bool := fun subject _ offset =>
  .still (.matched (test (subject.viewFrom offset))) offset

/-- Go on with `accepted` where the probe says so, and with `otherwise` elsewhere. -/
def branch (probe : Reading Bool) (accepted otherwise : Reading Span) : Reading Span := do
  if ← probe then accepted else otherwise

/-! ## Values and captures -/

/-- The converted value of a match. -/
def converted (inner : Reading Value) (convert : Value → Conversion) : Reading Value :=
  fun subject capacity offset =>
    (inner subject capacity offset).andThen fun value stop =>
      match subject.slice? (.between offset stop) with
      | none => .still (.raised .sliceOutOfRange) stop
      | some bytes =>
        match (convert value).settle offset bytes with
        | .ok value => .still (.matched value) stop
        | .error failure => .still (.failed failure) stop

/-- Whether captures can go to a slot. Without a store every slot will do. -/
def hasSlot (capacity : Option Nat) (slot : Nat) : Bool := capacity.all fun limit => slot < limit

/-- The span of a match as a capture. -/
def captured (slot : Nat) (inner : Reading Span) : Reading Span := fun subject capacity offset =>
  if hasSlot capacity slot then
    (inner subject capacity offset).andThen fun span stop =>
      ⟨.matched span, stop, [(slot, span)]⟩
  else .still (.failed (.captureOutOfBounds slot)) offset

end Reading

/-! ## Matchers -/

/-- What a matcher does: for its span, and for its value. -/
structure Readings where
  /-- For the span. -/
  span : Reading Span
  /-- For the value. -/
  value : Reading Value

/-- Readings whose value is the slice of the span. -/
def Readings.ofSpan (span : Reading Span) : Readings := ⟨span, .sliced span⟩

/-- Readings whose span is what the value covers. -/
def Readings.ofValue (value : Reading Value) : Readings := ⟨.covering value, value⟩

namespace Matcher

/-- The readings of a matcher, given what a call of each definition does. -/
def readings (call : Nat → Reading Span) : Matcher → Readings
  | .literal text => .ofSpan (.literal text)
  | .one predicate => .ofSpan (.one predicate)
  | .empty => .ofSpan .empty
  | .atStart => .ofSpan .atStart
  | .atEnd => .ofSpan .atEnd
  | .count predicate bounds condition =>
    .ofSpan (.count predicate bounds (Reading.conditionTest condition))
  | .countAhead predicate bounds ahead =>
    .ofSpan (.count predicate bounds (Reading.aheadTest (ahead.readings call).span))
  | .repeated inner bounds =>
    .ofSpan (.covering (.repeated bounds (inner.readings call).span))
  | .collected inner bounds =>
    .ofValue (Value.list <$> Reading.repeated bounds (inner.readings call).value)
  | .sequence first second =>
    .ofSpan (.sequence (first.readings call).span (second.readings call).span)
  | .choice first second =>
    .ofSpan (.choice (first.readings call).span (second.readings call).span)
  | .longest first second =>
    .ofSpan (.longest (first.readings call).span (second.readings call).span)
  | .sepOnce left separator right =>
    let middle := (separator.readings call).span
    { span := .covering (.sepOnce (left.readings call).span middle (right.readings call).span)
      value := (fun found => Value.pair found.1 found.2) <$>
        Reading.sepOnce (left.readings call).value middle (right.readings call).value }
  | .separated item separator least terminated =>
    let middle := (separator.readings call).span
    { span := .covering (.separated (item.readings call).span middle least terminated)
      value := Value.list <$>
        Reading.separated (item.readings call).value middle least terminated }
  | .enclosed head inner tail =>
    let before := (head.readings call).span
    let after := (tail.readings call).span
    { span := .covering (.enclosed before (inner.readings call).span after)
      value := .enclosed before (inner.readings call).value after }
  | .mapped inner converter => .ofValue (.converted (inner.readings call).value converter)
  | .captured slot inner => .ofSpan (.captured slot (inner.readings call).span)
  | .branch test accepted otherwise =>
    .ofSpan (.branch (.probe (test.readings call).span) (accepted.readings call).span
      (otherwise.readings call).span)
  | .branchIf test accepted otherwise =>
    .ofSpan (.branch (.viewTest test) (accepted.readings call).span
      (otherwise.readings call).span)
  | .boxed inner => .ofSpan (inner.readings call).span
  | .undefined => .ofSpan (.raise .undefinedMatcher)
  | .handle slot => .ofSpan (call slot)
  | .reference slot => .ofSpan (call slot)

end Matcher

/-- A call of the definition of a number, with calls nested up to a depth. -/
def Definitions.reading (definitions : Definitions) : Nat → Nat → Reading Span
  | 0, _ => .exhaust
  | depth + 1, slot =>
    match definitions.find? slot with
    | none => .raise .undefinedMatcher
    | some matcher => (matcher.readings (definitions.reading depth)).span

/-- The readings of a matcher under definitions, with as many nested calls as a subject allows. -/
def Matcher.readingsUnder (matcher : Matcher) (definitions : Definitions) (subject : Subject) :
    Readings :=
  matcher.readings (definitions.reading (definitions.depthFor subject))

end TextPattern
