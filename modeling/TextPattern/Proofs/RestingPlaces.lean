import TextPattern.Proofs.MatcherRealization
import TextPattern.Proofs.Seams

/-!
# Resting places

Readings move in two ways only: over a unit, and over the octets of a literal. A set of offsets
that neither of the two leaves is left by no reading, and so by no matcher, however it ends. The
seams of a subject are such a set.
-/

namespace TextPattern

open Combinator (Tally)

variable {α β : Type}

/-- No single move leads out of a set of offsets. -/
structure Subject.Closed (subject : Subject) (places : Set Nat) : Prop where
  /-- Units end inside it where they begin inside it. -/
  unit : ∀ {offset unit}, offset ∈ places → subject.unitAt offset = some unit →
    unit.next ∈ places
  /-- So do moves by a number of octets. -/
  move : ∀ {offset count stop}, offset ∈ places → subject.advance offset count = .ok stop →
    stop ∈ places

/-- The seams of a subject are closed: a move ends on a boundary, and boundaries are seams. -/
theorem Subject.closed_seam (subject : Subject) :
    subject.Closed {offset | subject.Seam offset} where
  unit seam present := .next seam present
  move := by
    intro offset count stop _ moved
    unfold advance at moved
    split at moved
    · cases moved
    · split at moved
      · rename_i boundary
        cases moved
        exact seam_of_isBoundary boundary
      · cases moved

variable {subject : Subject} {places : Set Nat}

/-- Going on from a place ends at one if what goes on does. -/
theorem Effect.andThen_stop_mem {effect : Effect α} {next : α → Nat → Effect β}
    (first : effect.stop ∈ places) (later : ∀ value, effect.ending = .matched value →
      (next value effect.stop).stop ∈ places) : (effect.andThen next).stop ∈ places := by
  unfold Effect.andThen
  cases ended : effect.ending with
  | matched value => exact later value ended
  | _ => exact first

/-- Replacing a failure ends at a place if the other effect does. -/
theorem Effect.orElse_stop_mem {effect : Effect α} {other : Failure → Effect α}
    (first : effect.stop ∈ places) (second : ∀ failure, (other failure).stop ∈ places) :
    (effect.orElse other).stop ∈ places := by
  unfold Effect.orElse
  cases effect.ending with
  | failed failure => exact second failure
  | _ => exact first

/-- A reading that begins at one of the places ends at one of them, however it ends. -/
def Reading.RestsIn (reading : Reading α) (subject : Subject) (places : Set Nat) : Prop :=
  ∀ capacity offset, offset ∈ places → (reading subject capacity offset).stop ∈ places

namespace Reading.RestsIn

/-! ## Building blocks -/

/-- Yielding a value moves nowhere. -/
theorem pure (value : α) : RestsIn (Pure.pure value) subject places := fun _ _ here => here

/-- One reading after another. -/
theorem bind {first : Reading α} {next : α → Reading β} (rests : first.RestsIn subject places)
    (later : ∀ value, (next value).RestsIn subject places) :
    RestsIn (first >>= next) subject places := fun capacity offset here =>
  have reached := rests capacity offset here
  Effect.andThen_stop_mem reached fun value _ => later value capacity _ reached

/-- Passing values through a function moves nowhere. -/
theorem map {reading : Reading α} (f : α → β) (rests : reading.RestsIn subject places) :
    RestsIn (f <$> reading) subject places := rests.bind fun _ => .pure _

/-- Covering moves nowhere. -/
theorem covering {reading : Reading α} (rests : reading.RestsIn subject places) :
    reading.covering.RestsIn subject places := rests

/-- Undoing failures goes back to where the reading began. -/
theorem restoring {reading : Reading α} (rests : reading.RestsIn subject places) :
    reading.restoring.RestsIn subject places := fun capacity offset here =>
  Effect.orElse_stop_mem (rests capacity offset here) fun _ => here

/-- Slicing moves nowhere. -/
theorem slice (span : Span) : (Reading.slice span).RestsIn subject places := by
  intro capacity offset here
  unfold Reading.slice
  split <;> exact here

/-- Reading a slice moves as reading its span. -/
theorem sliced {reading : Reading Span} (rests : reading.RestsIn subject places) :
    reading.sliced.RestsIn subject places :=
  rests.bind fun span => (slice span).bind fun _ => .pure _

/-! ## Single units and literals -/

/-- A literal makes a move if it matches. -/
theorem literal (closed : subject.Closed places) (text : Bytes) :
    (Reading.literal text).RestsIn subject places := by
  intro capacity offset here
  unfold Reading.literal
  dsimp only
  split
  · split
    · rename_i stop moved
      exact closed.move here moved
    · exact here
  · split <;> exact here

/-- A single unit is passed over if it is accepted. -/
theorem one (closed : subject.Closed places) (predicate : Predicate) :
    (Reading.one predicate).RestsIn subject places := by
  intro capacity offset here
  unfold Reading.one
  split
  · exact here
  · rename_i unit present
    split
    · exact closed.unit here present
    · exact here

/-- The start of the input is found without moving. -/
theorem atStart : Reading.atStart.RestsIn subject places := by
  intro capacity offset here
  unfold Reading.atStart
  split <;> exact here

/-- The end of the input is found without moving. -/
theorem atEnd : Reading.atEnd.RestsIn subject places := by
  intro capacity offset here
  unfold Reading.atEnd
  split <;> exact here

/-- A tally passes over units. -/
theorem tally_stop_mem (closed : subject.Closed places) {predicate : Predicate} {bounds : Bounds}
    {test : InputUnit → Ending Bool} {rounds count start : Nat} {found : Tally}
    (here : start ∈ places)
    (ended : tally subject predicate bounds test rounds count start = .matched found) :
    found.stop ∈ places := by
  induction rounds generalizing count start with
  | zero =>
    unfold tally at ended
    split at ended <;> cases ended
    exact here
  | succ rounds ih =>
    unfold tally at ended
    split at ended
    · cases ended
      exact here
    · dsimp only at ended
      split at ended
      · cases ended
        exact here
      · rename_i unit present
        split at ended
        · split at ended
          · exact ih (closed.unit here present) ended
          · cases ended
            exact here
          all_goals cases ended
        · cases ended
          exact here

/-- A count goes to the end of its tally. -/
theorem count (closed : subject.Closed places) (predicate : Predicate) (bounds : Bounds)
    (test : UnitTest) : (Reading.count predicate bounds test).RestsIn subject places := by
  intro capacity offset here
  refine Effect.andThen_stop_mem here fun found ended => ?_
  split
  · split <;> exact here
  · exact tally_stop_mem closed here ended

/-! ## Repetition and separated items -/

/-- Rounds of a step, one from the end of the other. -/
theorem repeatFrom {step : Reading α} (bounds : Bounds) (rests : step.RestsIn subject places)
    (rounds count : Nat) :
    (Reading.repeatFrom bounds step rounds count).RestsIn subject places := by
  induction rounds generalizing count with
  | zero =>
    intro capacity offset here
    unfold Reading.repeatFrom
    split <;> exact here
  | succ rounds ih =>
    intro capacity offset here
    have reached := rests capacity offset here
    unfold Reading.repeatFrom
    split
    · exact here
    · dsimp only
      split
      · split <;> exact here
      · refine Effect.andThen_stop_mem reached fun value _ => ?_
        split
        · exact reached
        · exact ih (count + 1) capacity _ reached

/-- As many rounds as the bounds and the input allow. -/
theorem repeated {step : Reading α} (bounds : Bounds) (rests : step.RestsIn subject places) :
    (Reading.repeated bounds step).RestsIn subject places :=
  restoring fun capacity offset => repeatFrom bounds rests _ 0 capacity offset

/-- Items with their separators, one from the end of the other. -/
theorem itemsFrom {item : Reading α} {separator : Reading Span} (terminated : Bool)
    (items : item.RestsIn subject places) (separators : separator.RestsIn subject places)
    (rounds : Nat) :
    (Reading.itemsFrom item separator terminated rounds).RestsIn subject places := by
  induction rounds with
  | zero => exact fun _ _ here => here
  | succ rounds ih =>
    intro capacity offset here
    have first := items capacity offset here
    have second := separators capacity _ first
    unfold Reading.itemsFrom
    dsimp only
    split
    · exact here
    · split
      · split
        · exact here
        · exact first
      · refine Effect.andThen_stop_mem first fun _ _ => ?_
        refine Effect.andThen_stop_mem second fun _ _ => ?_
        split
        · exact second
        · exact ih capacity _ second
    · exact first
    · exact first

/-- Items of which there must be enough. -/
theorem separated {item : Reading α} {separator : Reading Span} (least : Nat) (terminated : Bool)
    (items : item.RestsIn subject places) (separators : separator.RestsIn subject places) :
    (Reading.separated item separator least terminated).RestsIn subject places := by
  refine restoring fun capacity offset here => ?_
  have reached := itemsFrom terminated items separators (subject.length - offset + 1) capacity
    offset here
  refine Effect.andThen_stop_mem reached fun found _ => ?_
  split <;> exact reached

/-! ## Order, choice and captures -/

/-- Two parts one after the other. -/
theorem sequence {first second : Reading Span} (left : first.RestsIn subject places)
    (right : second.RestsIn subject places) :
    (Reading.sequence first second).RestsIn subject places :=
  (left.bind fun _ => right).covering

/-- The second part where the first fails. -/
theorem choice {first second : Reading Span} (left : first.RestsIn subject places)
    (right : second.RestsIn subject places) :
    (Reading.choice first second).RestsIn subject places := fun capacity offset here =>
  Effect.orElse_stop_mem (left capacity offset here) fun _ => right.restoring capacity offset here

/-- The part that goes further. -/
theorem longest {first second : Reading Span} (left : first.RestsIn subject places)
    (right : second.RestsIn subject places) :
    (Reading.longest first second).RestsIn subject places := by
  intro capacity offset here
  have kept := left capacity offset here
  have other := right capacity offset here
  unfold Reading.longest
  dsimp only
  split
  · split
    · split
      · exact kept
      · exact other
    · exact kept
    · exact other
  · exact Effect.orElse_stop_mem other fun _ => here
  · exact kept

/-- Two parts around a separator. -/
theorem sepOnce {left right : Reading α} {separator : Reading Span}
    (first : left.RestsIn subject places) (middle : separator.RestsIn subject places)
    (last : right.RestsIn subject places) :
    (Reading.sepOnce left separator right).RestsIn subject places :=
  (first.bind fun _ => middle.bind fun _ => last.bind fun _ => .pure _).restoring

/-- A part between its ends. -/
theorem enclosed {head tail : Reading Span} {inner : Reading α}
    (before : head.RestsIn subject places) (rests : inner.RestsIn subject places)
    (after : tail.RestsIn subject places) :
    (Reading.enclosed head inner tail).RestsIn subject places :=
  before.bind fun _ => rests.bind fun _ => after.bind fun _ => .pure _

/-- Either part of a branch, after a probe. -/
theorem branch {probe : Reading Bool} {accepted otherwise : Reading Span}
    (asks : probe.RestsIn subject places) (yes : accepted.RestsIn subject places)
    (no : otherwise.RestsIn subject places) :
    (Reading.branch probe accepted otherwise).RestsIn subject places := by
  refine asks.bind fun found => ?_
  cases found
  · exact no
  · exact yes

/-- Converting moves nowhere. -/
theorem converted {inner : Reading Value} (convert : Value → Conversion)
    (rests : inner.RestsIn subject places) :
    (Reading.converted inner convert).RestsIn subject places := by
  intro capacity offset here
  have reached := rests capacity offset here
  refine Effect.andThen_stop_mem reached fun value _ => ?_
  split
  · exact reached
  · split <;> exact reached

/-- Capturing moves nowhere. -/
theorem captured (slot : Nat) {inner : Reading Span} (rests : inner.RestsIn subject places) :
    (Reading.captured slot inner).RestsIn subject places := by
  intro capacity offset here
  have reached := rests capacity offset here
  unfold Reading.captured
  split
  · exact Effect.andThen_stop_mem reached fun _ _ => reached
  · exact here

end Reading.RestsIn

/-! ## Matchers -/

/-- Readings of a matcher that stay in a set of offsets. -/
structure Readings.RestIn (readings : Readings) (subject : Subject) (places : Set Nat) :
    Prop where
  /-- For the span. -/
  span : readings.span.RestsIn subject places
  /-- For the value. -/
  value : readings.value.RestsIn subject places

/-- Reading the slice of a span stays where reading the span does. -/
theorem Readings.RestIn.ofSpan {span : Reading Span} (rests : span.RestsIn subject places) :
    (Readings.ofSpan span).RestIn subject places := ⟨rests, rests.sliced⟩

/-- Reading what a value covers stays where reading the value does. -/
theorem Readings.RestIn.ofValue {value : Reading Value} (rests : value.RestsIn subject places) :
    (Readings.ofValue value).RestIn subject places := ⟨rests.covering, rests⟩

/-- Every matcher stays in a closed set where the calls of definitions do. -/
theorem Matcher.readings_restIn (closed : subject.Closed places) {call : Nat → Reading Span}
    (calls : ∀ slot, (call slot).RestsIn subject places) (matcher : Matcher) :
    (matcher.readings call).RestIn subject places := by
  induction matcher with
  | literal text => exact .ofSpan (.literal closed text)
  | one predicate => exact .ofSpan (.one closed predicate)
  | empty => exact .ofSpan fun _ _ here => here
  | atStart => exact .ofSpan .atStart
  | atEnd => exact .ofSpan .atEnd
  | count predicate bounds condition => exact .ofSpan (.count closed predicate bounds _)
  | countAhead predicate bounds ahead _ => exact .ofSpan (.count closed predicate bounds _)
  | repeated inner bounds ih => exact .ofSpan (.covering (.repeated bounds ih.span))
  | collected inner bounds ih => exact .ofValue (.map _ (.repeated bounds ih.value))
  | sequence first second left right => exact .ofSpan (.sequence left.span right.span)
  | choice first second left right => exact .ofSpan (.choice left.span right.span)
  | longest first second left right => exact .ofSpan (.longest left.span right.span)
  | sepOnce left separator right first middle last =>
    exact ⟨.covering (.sepOnce first.span middle.span last.span),
      .map _ (.sepOnce first.value middle.span last.value)⟩
  | separated item separator least terminated items separators =>
    exact ⟨.covering (.separated least terminated items.span separators.span),
      .map _ (.separated least terminated items.value separators.span)⟩
  | enclosed head inner tail before ih after =>
    exact ⟨.covering (.enclosed before.span ih.span after.span),
      .enclosed before.span ih.value after.span⟩
  | mapped inner converter ih => exact .ofValue (.converted converter ih.value)
  | captured slot inner ih => exact .ofSpan (.captured slot ih.span)
  | branch test accepted otherwise _ yes no =>
    exact .ofSpan (.branch (fun _ _ here => here) yes.span no.span)
  | branchIf test accepted otherwise yes no =>
    exact .ofSpan (.branch (fun _ _ here => here) yes.span no.span)
  | boxed inner ih => exact .ofSpan ih.span
  | undefined => exact .ofSpan fun _ _ here => here
  | handle slot => exact .ofSpan (calls slot)
  | reference slot => exact .ofSpan (calls slot)

/-- Calls of definitions stay in a closed set, however deeply they are nested. -/
theorem Definitions.reading_restsIn (closed : subject.Closed places) (definitions : Definitions)
    (depth slot : Nat) : (definitions.reading depth slot).RestsIn subject places := by
  induction depth generalizing slot with
  | zero => exact fun _ _ here => here
  | succ depth ih =>
    unfold Definitions.reading
    split
    · exact fun _ _ here => here
    · rename_i matcher _
      exact (matcher.readings_restIn closed ih).span

/-- A matcher that begins inside the input at one of the places leaves the position at one,
whatever it is run for and however it ends. -/
theorem Matcher.attempt_offset_mem (closed : subject.Closed places) (matcher : Matcher)
    (definitions : Definitions) (state : State) (inside : state.offset ≤ subject.length)
    (here : state.offset ∈ places) :
    (matcher.attempt definitions subject state).state.offset ∈ places ∧
      (matcher.attemptValue definitions subject state).state.offset ∈ places := by
  have rests := matcher.readings_restIn closed (definitions.reading_restsIn closed
    (definitions.depthFor subject))
  have span : (matcher.attempt definitions subject state).state.offset =
      ((matcher.readingsUnder definitions subject).span subject state.capacity
        state.offset).stop :=
    congrArg (·.2.offset) (matcher.outcome_attempt definitions inside)
  have value : (matcher.attemptValue definitions subject state).state.offset =
      ((matcher.readingsUnder definitions subject).value subject state.capacity
        state.offset).stop :=
    congrArg (·.2.offset) (matcher.outcome_attemptValue definitions inside)
  rw [span, value]
  exact ⟨rests.span state.capacity _ here, rests.value state.capacity _ here⟩

end TextPattern
