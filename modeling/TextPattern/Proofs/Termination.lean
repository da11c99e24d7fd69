import TextPattern.Proofs.MatcherRealization
import TextPattern.Proofs.Reach

/-!
# Attempts end

Where nothing calls a definition, no attempt runs out of steps: every round of a loop that goes on
consumes an octet, so the rounds that are allotted to it are more than it takes. What remains is a
result, or the one rule that can be broken, that a matcher has a definition.
-/

namespace TextPattern

open Combinator (Items Tally)

variable {α β : Type}

/-- An ending with a result, or for want of a definition, which has to be possible. -/
def Ending.Ends (undefined : Prop) : Ending α → Prop
  | .matched _ => True
  | .failed _ => True
  | .raised misuse => misuse = .undefinedMatcher ∧ undefined
  | .exhausted => False

namespace Ending.Ends

variable {undefined : Prop} {ending : Ending α}

/-- A function on values leaves the rest of an ending alone. -/
theorem map (f : α → β) (ends : ending.Ends undefined) : (ending.map f).Ends undefined := by
  cases ending <;> exact ends

/-- The verdict on an ending is an ending of the same kind. -/
theorem verdict (ends : ending.Ends undefined) :
    (ending.settle.map Result.succeeded).Ends undefined := by
  cases ending <;> exact ends

end Ending.Ends

namespace Effect

variable {undefined : Prop}

/-- What goes on ends where both parts do. -/
theorem ends_andThen {effect : Effect α} {next : α → Nat → Effect β}
    (ends : effect.ending.Ends undefined)
    (rest : ∀ value, effect.ending = .matched value →
      (next value effect.stop).ending.Ends undefined) :
    (effect.andThen next).ending.Ends undefined := by
  obtain ⟨ending, stop, captures⟩ := effect
  cases ending with
  | matched value => exact rest value rfl
  | _ => exact ends

/-- Another effect in the place of a failure ends if it does. -/
theorem ends_orElse {effect : Effect α} {other : Failure → Effect α}
    (ends : effect.ending.Ends undefined)
    (instead : ∀ failure, (other failure).ending.Ends undefined) :
    (effect.orElse other).ending.Ends undefined := by
  obtain ⟨ending, stop, captures⟩ := effect
  cases ending with
  | failed failure => exact instead failure
  | _ => exact ends

end Effect

namespace Reading

variable {undefined : Prop}

/-- A reading that ends from wherever it begins. -/
def Ends (undefined : Prop) (reading : Reading α) : Prop :=
  ∀ subject capacity offset, offset ≤ subject.length →
    (reading subject capacity offset).ending.Ends undefined

namespace Ends

variable {reading : Reading α}

/-! ## Building blocks -/

/-- A value at once is an end. -/
theorem pure (value : α) : (Pure.pure value : Reading α).Ends undefined := fun _ _ _ _ => trivial

/-- One reading after another ends: the first leaves the other inside the input. -/
theorem bind {next : α → Reading β} (ends : reading.Ends undefined) (bounded : reading.Bounded)
    (rest : ∀ value, (next value).Ends undefined) : (reading >>= next).Ends undefined :=
  fun subject capacity offset inside =>
    Effect.ends_andThen (ends subject capacity offset inside) fun value _ =>
      rest value subject capacity _ (bounded subject capacity offset inside).inside

/-- A function on values leaves the end alone. -/
theorem map (f : α → β) (ends : reading.Ends undefined) : (f <$> reading).Ends undefined := by
  intro subject capacity offset inside
  rw [map_apply]
  exact (ends subject capacity offset inside).map f

/-- Covering what was read changes no ending but in its value. -/
theorem covering (ends : reading.Ends undefined) : reading.covering.Ends undefined :=
  fun subject capacity offset inside => (ends subject capacity offset inside).map _

/-- Going back after a failure leaves the failure an end. -/
theorem restoring (ends : reading.Ends undefined) : reading.restoring.Ends undefined :=
  fun subject capacity offset inside =>
    Effect.ends_orElse (ends subject capacity offset inside) fun _ => trivial

/-- A question about what is ahead has an answer. -/
theorem probe (ends : reading.Ends undefined) : reading.probe.Ends undefined :=
  fun subject capacity offset inside => (ends subject capacity offset inside).verdict

/-- A test of the surroundings takes no step of its own. -/
theorem viewTest (test : View → Bool) : (Reading.viewTest test).Ends undefined :=
  fun _ _ _ _ => trivial

/-- What a span covers can be cut out, since the span begins inside the input. -/
theorem sliced {reading : Reading Span} (ends : reading.Ends undefined) (sound : reading.Sound) :
    reading.sliced.Ends undefined := by
  intro subject capacity offset inside
  refine Effect.ends_andThen (ends subject capacity offset inside) fun span matched => ?_
  have covered := sound.covers subject capacity offset span inside matched
  have start : span.start ≤ subject.length := by
    rw [covered]
    exact inside
  have cut : subject.slice? span = some (span.slice subject.bytes) := if_pos start
  refine Effect.ends_andThen ?_ fun _ _ => trivial
  unfold Reading.slice
  rw [cut]
  trivial

/-! ## Single units and literals -/

/-- A text is ahead or it is not. -/
theorem literal (text : Bytes) : (Reading.literal text).Ends undefined := by
  intro subject capacity offset _
  unfold Reading.literal
  dsimp only
  split
  · cases subject.advance offset text.length <;> trivial
  · split <;> trivial

/-- A unit is accepted, refused or missing. -/
theorem one (predicate : Predicate) : (Reading.one predicate).Ends undefined := by
  intro subject capacity offset _
  unfold Reading.one
  split
  · trivial
  · split <;> trivial

/-- Nothing is read at once. -/
theorem empty : Reading.empty.Ends undefined := fun _ _ _ _ => trivial

/-- The start of the input is here or it is not. -/
theorem atStart : Reading.atStart.Ends undefined := by
  intro subject capacity offset _
  unfold Reading.atStart
  split <;> trivial

/-- The end of the input is here or it is not. -/
theorem atEnd : Reading.atEnd.Ends undefined := by
  intro subject capacity offset _
  unfold Reading.atEnd
  split <;> trivial

/-! ## Loops -/

/-- A count ends where its test does: every counted unit has an octet. -/
theorem tally {subject : Subject} {predicate : Predicate} {bounds : Bounds}
    {test : InputUnit → Ending Bool}
    (ends : ∀ unit, subject.unitAt unit.offset = some unit → (test unit).Ends undefined)
    (rounds count stop : Nat) (enough : subject.length - stop < rounds) :
    (Reading.tally subject predicate bounds test rounds count stop).Ends undefined := by
  induction rounds generalizing count stop with
  | zero => omega
  | succ rounds ih =>
    unfold Reading.tally
    split
    · trivial
    · dsimp only
      cases present : subject.unitAt stop with
      | none => trivial
      | some unit =>
        obtain ⟨same, inside, further⟩ := Subject.unitAt_bounds present
        have asked := ends unit (same ▸ present)
        have fewer : subject.length - unit.next < rounds := by omega
        dsimp only
        split
        · generalize test unit = verdict at asked ⊢
          cases verdict with
          | matched passed =>
            cases passed with
            | true => exact ih (count + 1) unit.next fewer
            | false => trivial
          | _ => exact asked
        · trivial

/-- Whatever a test says is an end. -/
def TestEnds (undefined : Prop) (test : UnitTest) : Prop :=
  ∀ subject start unit, subject.unitAt unit.offset = some unit →
    (test subject start unit).Ends undefined

/-- A condition on the surroundings is answered from them. -/
theorem conditionTest (condition : Condition) :
    TestEnds undefined (Reading.conditionTest condition) := fun _ _ _ _ => trivial

/-- A test by a reading at the unit ends with that reading. -/
theorem aheadTest (ends : reading.Ends undefined) :
    TestEnds undefined (Reading.aheadTest reading) := by
  intro subject start unit present
  have inside := Nat.le_of_lt (Subject.unitAt_bounds present).2.1
  exact (ends subject none unit.offset inside).verdict

/-- Counting goes on from unit to unit, and there are no more of them than octets. -/
theorem count (predicate : Predicate) (bounds : Bounds) {test : UnitTest}
    (ends : TestEnds undefined test) : (Reading.count predicate bounds test).Ends undefined := by
  intro subject capacity offset _
  have tallied := @tally undefined subject predicate bounds (test subject offset)
    (ends subject offset) (subject.length - offset + 1) 0 offset (Nat.lt_succ_self _)
  refine Effect.ends_andThen tallied fun found _ => ?_
  split
  · split <;> trivial
  · trivial

/-- A repetition ends where its step does: every round that goes on consumes an octet. -/
theorem repeatFrom (bounds : Bounds) (ends : reading.Ends undefined) (bounded : reading.Bounded)
    (rounds count : Nat) (subject : Subject) (capacity : Option Nat) (offset : Nat)
    (inside : offset ≤ subject.length) (enough : subject.length - offset < rounds) :
    (Reading.repeatFrom bounds reading rounds count subject capacity offset).ending.Ends
      undefined := by
  induction rounds generalizing count offset with
  | zero => omega
  | succ rounds ih =>
    have within := bounded subject capacity offset inside
    have ended := ends subject capacity offset inside
    unfold Reading.repeatFrom
    split
    · trivial
    · dsimp only
      generalize reading subject capacity offset = effect at within ended ⊢
      obtain ⟨ending, stop, captures⟩ := effect
      cases ending with
      | failed failure =>
        dsimp only
        split <;> trivial
      | matched value =>
        refine Effect.ends_andThen trivial fun _ _ => ?_
        split
        · trivial
        · rename_i moved
          have other : stop ≠ offset := moved
          have forward : offset ≤ stop := within.forward
          have inside : stop ≤ subject.length := within.inside
          have fewer : subject.length - stop < rounds := by omega
          exact (ih (count + 1) stop inside fewer).map _
      | _ => exact ended

/-- A repetition ends: a round that goes on consumes an octet, and any other is the last. -/
theorem repeated (bounds : Bounds) (ends : reading.Ends undefined) (bounded : reading.Bounded) :
    (Reading.repeated bounds reading).Ends undefined :=
  restoring fun subject capacity offset inside =>
    ends.repeatFrom bounds bounded _ 0 subject capacity offset inside (Nat.lt_succ_self _)

/-- Items end where they and their separators do: every item that is followed by another one
consumes an octet, by itself or with its separator. -/
theorem itemsFrom {separator : Reading Span} (terminated : Bool) (ends : reading.Ends undefined)
    (bounded : reading.Bounded) (between : separator.Ends undefined)
    (boundedBetween : separator.Bounded) (rounds : Nat) (subject : Subject)
    (capacity : Option Nat) (offset : Nat) (inside : offset ≤ subject.length)
    (enough : subject.length - offset < rounds) :
    (Reading.itemsFrom reading separator terminated rounds subject capacity offset).ending.Ends
      undefined := by
  induction rounds generalizing offset with
  | zero => omega
  | succ rounds ih =>
    have within := bounded subject capacity offset inside
    have ended := ends subject capacity offset inside
    unfold Reading.itemsFrom
    dsimp only
    generalize reading subject capacity offset = effect at within ended ⊢
    obtain ⟨ending, stop, captures⟩ := effect
    cases ending with
    | matched value =>
      have beyond := boundedBetween subject capacity stop within.inside
      have endedBetween := between subject capacity stop within.inside
      dsimp only
      generalize separator subject capacity stop = second at beyond endedBetween ⊢
      obtain ⟨ending, after, more⟩ := second
      cases ending with
      | failed failure =>
        dsimp only
        split <;> trivial
      | matched span =>
        refine Effect.ends_andThen trivial fun _ _ => Effect.ends_andThen trivial fun _ _ => ?_
        split
        · trivial
        · rename_i moved
          have other : after ≠ offset := moved
          have forward : offset ≤ stop := within.forward
          have further : stop ≤ after := beyond.forward
          have inside : after ≤ subject.length := beyond.inside
          have fewer : subject.length - after < rounds := by omega
          exact (ih after inside fewer).map _
      | _ => exact endedBetween
    | _ => exact ended

/-- A list ends: an item and its separator that go on consume an octet together. -/
theorem separated {separator : Reading Span} (least : Nat) (terminated : Bool)
    (ends : reading.Ends undefined) (bounded : reading.Bounded)
    (between : separator.Ends undefined) (boundedBetween : separator.Bounded) :
    (Reading.separated reading separator least terminated).Ends undefined := by
  refine restoring fun subject capacity offset inside => ?_
  refine Effect.ends_andThen (ends.itemsFrom terminated bounded between boundedBetween _ subject
    capacity offset inside (Nat.lt_succ_self _)) fun items _ => ?_
  split <;> trivial

/-! ## Order and choice -/

section
variable {first second third : Reading Span}

/-- A sequence ends with its parts. -/
theorem sequence (one : first.Ends undefined) (bounded : first.Bounded)
    (other : second.Ends undefined) : (Reading.sequence first second).Ends undefined :=
  covering (one.bind bounded fun _ => other)

/-- A choice tries its second part once at most. -/
theorem choice (one : first.Ends undefined) (other : second.Ends undefined) :
    (Reading.choice first second).Ends undefined := fun subject capacity offset inside =>
  Effect.ends_orElse (one subject capacity offset inside) fun _ =>
    other.restoring subject capacity offset inside

/-- The longer of two readings is found with each of them read once. -/
theorem longest (one : first.Ends undefined) (other : second.Ends undefined) :
    (Reading.longest first second).Ends undefined := by
  intro subject capacity offset inside
  have left := one subject capacity offset inside
  have right := other subject capacity offset inside
  unfold Reading.longest
  dsimp only
  cases ended : (first subject capacity offset).ending with
  | matched span =>
    cases alsoEnded : (second subject capacity offset).ending with
    | matched longer =>
      dsimp only
      split
      · exact left.map _
      · exact right
    | failed failure => exact left.map _
    | _ => exact right
  | failed failure => exact Effect.ends_orElse right fun _ => trivial
  | _ => exact left

/-- A branch asks once and takes one of its parts. -/
theorem branch {asked : Reading Bool} (probe : asked.Ends undefined) (bounded : asked.Bounded)
    (yes : first.Ends undefined) (no : second.Ends undefined) :
    (Reading.branch asked first second).Ends undefined :=
  probe.bind bounded fun found => by cases found <;> assumption

/-- A pair is three readings, one after another. -/
theorem sepOnce {left right : Reading α} (one : left.Ends undefined) (boundedLeft : left.Bounded)
    (between : second.Ends undefined) (boundedBetween : second.Bounded)
    (other : right.Ends undefined) (boundedRight : right.Bounded) :
    (Reading.sepOnce left second right).Ends undefined :=
  restoring <| one.bind boundedLeft fun _ => between.bind boundedBetween fun _ =>
    other.bind boundedRight fun _ => pure _

/-- An enclosed reading is three readings, one after another. -/
theorem enclosed {inner : Reading α} (head : first.Ends undefined) (boundedHead : first.Bounded)
    (body : inner.Ends undefined) (boundedBody : inner.Bounded) (tail : third.Ends undefined)
    (boundedTail : third.Bounded) : (Reading.enclosed first inner third).Ends undefined :=
  head.bind boundedHead fun _ => body.bind boundedBody fun _ => tail.bind boundedTail fun _ =>
    pure _

/-! ## Values and captures -/

/-- A conversion takes no step: it has an answer for every value. -/
theorem converted {inner : Reading Value} (convert : Value → Conversion)
    (ends : inner.Ends undefined) : (Reading.converted inner convert).Ends undefined := by
  intro subject capacity offset inside
  refine Effect.ends_andThen (ends subject capacity offset inside) fun value _ => ?_
  have cut : subject.slice? (.between offset (inner subject capacity offset).stop) = some _ :=
    if_pos inside
  rw [cut]
  dsimp only
  split <;> trivial

/-- A capture is recorded, or there is no slot for it. -/
theorem captured (slot : Nat) (ends : first.Ends undefined) :
    (Reading.captured slot first).Ends undefined := by
  intro subject capacity offset inside
  unfold Reading.captured
  split
  · exact Effect.ends_andThen (ends subject capacity offset inside) fun _ _ => trivial
  · trivial

end

end Ends

end Reading

/-! ## Matchers -/

/-- Readings that end from wherever they begin. -/
structure Readings.Ends (undefined : Prop) (readings : Readings) : Prop where
  /-- For the span. -/
  span : readings.span.Ends undefined
  /-- For the value. -/
  value : readings.value.Ends undefined

section
variable {undefined : Prop}

/-- A value that is the slice of a span is read in the steps of the span. -/
theorem Readings.Ends.ofSpan {span : Reading Span} (ends : span.Ends undefined)
    (sound : span.Sound) : (Readings.ofSpan span).Ends undefined := ⟨ends, ends.sliced sound⟩

/-- A span that a value covers is read in the steps of the value. -/
theorem Readings.Ends.ofValue {value : Reading Value} (ends : value.Ends undefined) :
    (Readings.ofValue value).Ends undefined := ⟨ends.covering, ends⟩

end

end TextPattern
