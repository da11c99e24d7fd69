import TextPattern.Proofs.Realization

/-!
# Matchers and their readings

Every combinator on attempts realizes the combinator of the same name on readings, and so every
matcher realizes its readings. `Matcher.outcome_attempt` and `Matcher.outcome_attemptValue` are the
main statements. It does so as well with a guard between itself and whatever runs it, and between
each of its parts and the matchers that run these, as long as the guard keeps to what readings say.
What a guard sees is every single run that a match is made of.
-/

namespace TextPattern

open Combinator (Tally Items)

variable {α : Type}

/-! ## Guarded meanings -/

section Guards

open Attempt

/-- The meaning of a matcher with a guard around itself and around each of its parts, given what a
call of each definition does. -/
def Matcher.guarded (guard : Meaning → Meaning) (call : Nat → Attempt Span) : Matcher → Meaning
  | .literal text => guard <| .ofSpan (Combinator.literal text)
  | .one predicate => guard <| .ofSpan (Combinator.one predicate)
  | .empty => guard <| .ofSpan Combinator.empty
  | .atStart => guard <| .ofSpan Combinator.atStart
  | .atEnd => guard <| .ofSpan Combinator.atEnd
  | .count predicate bounds condition =>
    guard <| .ofSpan <| Combinator.count predicate bounds fun unit => do
      let view ← view
      pure (condition view unit)
  | .countAhead predicate bounds ahead =>
    guard <| .ofSpan <| Combinator.count predicate bounds fun unit => do
      let found ← aside unit.offset (ahead.guarded guard call).span
      pure found.1.succeeded
  | .repeated inner bounds =>
    guard <| .ofSpan <| traced "repeat" <|
      Combinator.covering (Combinator.repeated bounds (inner.guarded guard call).span)
  | .collected inner bounds =>
    guard <| .ofValue <| Value.list <$>
      Combinator.repeated bounds (inner.guarded guard call).value
  | .sequence first second =>
    guard <| .ofSpan <|
      Combinator.sequence (first.guarded guard call).span (second.guarded guard call).span
  | .choice first second =>
    guard <| .ofSpan <|
      Combinator.choice (first.guarded guard call).span (second.guarded guard call).span
  | .longest first second =>
    guard <| .ofSpan <|
      Combinator.longest (first.guarded guard call).span (second.guarded guard call).span
  | .sepOnce left separator right =>
    let first := left.guarded guard call
    let middle := (separator.guarded guard call).span
    let last := right.guarded guard call
    guard
      { span := traced "sep_once" <| Combinator.covering <|
          Combinator.sepOnce first.span middle last.span
        value := (fun found => Value.pair found.1 found.2) <$>
          Combinator.sepOnce first.value middle last.value }
  | .separated item separator least terminated =>
    let each := item.guarded guard call
    let middle := (separator.guarded guard call).span
    guard
      { span := traced "separate" <| Combinator.covering <|
          Combinator.separated each.span middle least terminated
        value := Value.list <$> Combinator.separated each.value middle least terminated }
  | .enclosed head inner tail =>
    let before := (head.guarded guard call).span
    let within := inner.guarded guard call
    let after := (tail.guarded guard call).span
    guard
      { span := tracedFailure "enclose" <| Combinator.covering <|
          Combinator.enclosed before within.span after
        value := Combinator.enclosed before within.value after }
  | .mapped inner converter =>
    let value := Combinator.converted (inner.guarded guard call).value converter
    guard ⟨tracedFailure "map" (Combinator.covering value), value⟩
  | .captured slot inner =>
    guard <| .ofSpan (Combinator.captured slot (inner.guarded guard call).span)
  | .branch test accepted otherwise =>
    guard <| .ofSpan <| Combinator.branch (probe (test.guarded guard call).span)
      (accepted.guarded guard call).span (otherwise.guarded guard call).span
  | .branchIf test accepted otherwise =>
    guard <| .ofSpan <| Combinator.branch (test <$> view)
      (accepted.guarded guard call).span (otherwise.guarded guard call).span
  | .boxed inner => guard <| .ofSpan (inner.guarded guard call).span
  | .undefined => guard <| .ofSpan (raise .undefinedMatcher)
  | .handle slot => guard <| .ofSpan (call slot)
  | .reference slot => guard <| .ofSpan (call slot)

/-- Call the definition of a number with a guard around every part, with calls nested up to a
depth. -/
def Definitions.guardedCall (guard : Meaning → Meaning) (definitions : Definitions) :
    Nat → Nat → Attempt Span
  | 0, _ => exhaust
  | depth + 1, slot =>
    match definitions.find? slot with
    | none => raise .undefinedMatcher
    | some matcher => (matcher.guarded guard (definitions.guardedCall guard depth)).span

/-- A guard that lets everything through leaves the meaning of a matcher. -/
theorem Matcher.guarded_id (call : Nat → Attempt Span) (matcher : Matcher) :
    matcher.guarded id call = matcher.meaning call := by
  induction matcher with
  | literal | one | empty | atStart | atEnd | count | undefined | handle | reference => rfl
  | countAhead _ _ _ ih | repeated _ _ ih | collected _ _ ih | mapped _ _ ih | captured _ _ ih
  | boxed _ ih => simp only [guarded, meaning, ih, id]
  | sequence _ _ left right | choice _ _ left right | longest _ _ left right
  | separated _ _ _ _ left right | branchIf _ _ _ left right =>
    simp only [guarded, meaning, left, right, id]
  | sepOnce _ _ _ first middle last | enclosed _ _ _ first middle last
  | branch _ _ _ first middle last => simp only [guarded, meaning, first, middle, last, id]

/-- A guard that lets everything through leaves the calls of definitions. -/
theorem Definitions.guardedCall_id (definitions : Definitions) (depth : Nat) :
    definitions.guardedCall id depth = definitions.call depth := by
  induction depth with
  | zero => rfl
  | succ depth ih =>
    funext slot
    unfold guardedCall call
    rw [ih]
    cases definitions.find? slot with
    | none => rfl
    | some matcher => exact congrArg Meaning.span (matcher.guarded_id _)

end Guards

namespace Attempt.Realizes

/-! ## Single units and literals -/

/-- A literal. -/
theorem literal (text : Bytes) : (Combinator.literal text).Realizes (.literal text) := by
  intro subject state _
  unfold Combinator.literal Reading.literal
  simp only [outcome_bind, outcome_subject, outcome_offset]
  split
  · cases subject.advance state.offset text.length with
    | ok stop => simp [ofResult, outcome_bind, outcome_pure, outcome_seek, Effect.applyTo,
        State.extend]
    | error failure => simp [ofResult, outcome_bind, outcome_fail]
  · split <;> simp [outcome_fail]

/-- One unit. -/
theorem one (predicate : Predicate) : (Combinator.one predicate).Realizes (.one predicate) := by
  intro subject state _
  unfold Combinator.one Reading.one
  simp only [outcome_bind, outcome_subject, outcome_offset]
  cases subject.unitAt state.offset with
  | none => simp [outcome_fail]
  | some unit =>
    dsimp only
    split
    · simp [outcome_bind, outcome_seek, outcome_pure, Effect.applyTo, State.extend]
    · simp [outcome_fail]

/-- Nothing. -/
theorem empty : Combinator.empty.Realizes .empty := by
  intro subject state _
  simp [Combinator.empty, Reading.empty, outcome_bind, outcome_offset, outcome_pure]

/-- The start of the input. -/
theorem atStart : Combinator.atStart.Realizes .atStart := by
  intro subject state _
  unfold Combinator.atStart Reading.atStart
  simp only [outcome_bind, outcome_offset]
  split <;> simp [outcome_pure, outcome_fail]

/-- The end of the input. -/
theorem atEnd : Combinator.atEnd.Realizes .atEnd := by
  intro subject state _
  unfold Combinator.atEnd Reading.atEnd
  simp only [outcome_bind, outcome_subject, outcome_offset]
  split <;> simp [outcome_pure, outcome_fail]

/-! ## Counting units -/

/-- A tally never moves, and ends as the tally of its test does. -/
theorem tally {predicate : Predicate} {bounds : Bounds} {continues : InputUnit → Attempt Bool}
    {subject : Subject} {state : State} {test : InputUnit → Ending Bool}
    (asks : ∀ unit, subject.unitAt unit.offset = some unit →
      (continues unit).outcome subject state = (test unit, state))
    (rounds count stop : Nat) :
    (Combinator.tally predicate bounds continues rounds count stop).outcome subject state =
      (Reading.tally subject predicate bounds test rounds count stop, state) := by
  induction rounds generalizing count stop with
  | zero =>
    unfold Combinator.tally Reading.tally
    split <;> rfl
  | succ rounds ih =>
    unfold Combinator.tally Reading.tally
    split
    · rfl
    · simp only [outcome_bind, outcome_subject]
      cases found : subject.unitAt stop with
      | none => rfl
      | some unit =>
        dsimp only
        split
        · have begins := (Subject.unitAt_bounds found).1
          rw [outcome_bind, asks unit (by rw [begins, found])]
          cases asked : test unit with
          | matched more =>
            cases more
            · rfl
            · exact ih (count + 1) unit.next
          | _ => rfl
        · rfl

/-- A count of units. -/
theorem count {predicate : Predicate} {bounds : Bounds} {continues : InputUnit → Attempt Bool}
    {test : Reading.UnitTest}
    (asks : ∀ subject state unit, subject.unitAt unit.offset = some unit →
      (continues unit).outcome subject state = (test subject state.offset unit, state)) :
    (Combinator.count predicate bounds continues).Realizes (.count predicate bounds test) := by
  intro subject state _
  unfold Combinator.count Reading.count
  simp only [outcome_traced, outcome_bind, outcome_offset, outcome_remaining,
    tally (asks subject state), Effect.andThen, Effect.still]
  cases Reading.tally subject predicate bounds (test subject state.offset)
      (subject.length - state.offset + 1) 0 state.offset with
  | matched found =>
    dsimp only
    split
    · split <;> simp [outcome_fail, Effect.applyTo, Effect.after]
    · simp [outcome_bind, outcome_seek, outcome_spanFrom, Effect.applyTo, Effect.after,
        State.extend]
  | _ => simp [Effect.applyTo]

/-! ## Repetition and separated items -/

/-- A repetition. When it fails, it leaves the state from before the whole. -/
theorem repeatFrom {step : Attempt α} {reading : Reading α} (bounds : Bounds)
    (realizes : step.Realizes reading) (bounded : reading.Bounded) {subject : Subject}
    (start : State) (rounds count stop : Nat) (captures : List Capture)
    (inside : stop ≤ subject.length) :
    (Combinator.repeatFrom start.checkpoint bounds step rounds count).outcome subject
        (start.extend stop captures) =
      (((Reading.repeatFrom bounds reading rounds count subject start.capacity stop).after
        captures).orElse fun failure => .still (.failed failure) start.offset).applyTo start := by
  induction rounds generalizing count stop captures with
  | zero =>
    unfold Combinator.repeatFrom Reading.repeatFrom
    split <;> simp [outcome_pure, outcome_exhaust, Effect.applyTo, Effect.after, Effect.orElse,
      Effect.still]
  | succ rounds ih =>
    have within := bounded subject start.capacity stop inside
    unfold Combinator.repeatFrom Reading.repeatFrom
    split
    · simp [outcome_pure, Effect.applyTo, Effect.after, Effect.orElse, Effect.still]
    · simp only [outcome_bind, outcome_checkpoint, outcome_observe,
        realizes.continued inside captures, Effect.applyTo]
      cases ended : (reading subject start.capacity stop).ending with
      | failed failure =>
        simp only [Ending.settle, outcome_bind, outcome_restore, State.restore_extend]
        split <;> simp [outcome_bind, outcome_restore, outcome_fail, outcome_pure, Effect.after,
          Effect.orElse, Effect.still]
      | matched value =>
        simp only [Ending.settle, outcome_bind, outcome_offset, State.offset_extend,
          State.offset_checkpoint, Effect.andThen, ended, State.extend_extend]
        by_cases still : (reading subject start.capacity stop).stop = stop
        · simp [still, outcome_pure, Effect.after, Effect.orElse, Effect.still]
        · simp only [still, ↓reduceIte, outcome_bind, ih _ _ _ within.inside, Effect.applyTo]
          cases later : (Reading.repeatFrom bounds reading rounds (count + 1) subject
              start.capacity (reading subject start.capacity stop).stop).ending <;>
            simp [Effect.after, Effect.orElse, Effect.map, Ending.map, Effect.still, later,
              outcome_pure]
      | _ => simp [Ending.settle, Effect.andThen, Effect.after, Effect.orElse, ended]

/-- The values of a repeated step. -/
theorem repeated {step : Attempt α} {reading : Reading α} (bounds : Bounds)
    (realizes : step.Realizes reading) (bounded : reading.Bounded) :
    (Combinator.repeated bounds step).Realizes (.repeated bounds reading) := by
  intro subject state inside
  have whole := repeatFrom bounds realizes bounded state (subject.length - state.offset + 1) 0
    state.offset [] inside
  rw [State.extend_self] at whole
  unfold Combinator.repeated Reading.repeated Reading.restoring
  simp only [outcome_bind, outcome_checkpoint, outcome_remaining]
  exact whole

/-- Items and what ended them. -/
theorem itemsFrom {item : Attempt α} {separator : Attempt Span} {items : Reading α}
    {separators : Reading Span} (terminated : Bool) (realizes : item.Realizes items)
    (bounded : items.Bounded) (realizesSeparator : separator.Realizes separators)
    (boundedSeparator : separators.Bounded) (rounds : Nat) :
    (Combinator.itemsFrom item separator terminated rounds).Realizes
      (.itemsFrom items separators terminated rounds) := by
  induction rounds with
  | zero => exact .exhaust
  | succ rounds ih =>
    intro subject state inside
    have first := bounded subject state.capacity state.offset inside
    have second := boundedSeparator subject state.capacity _ first.inside
    unfold Combinator.itemsFrom Reading.itemsFrom
    simp only [outcome_bind, outcome_checkpoint, outcome_observe, realizes subject state inside,
      Effect.applyTo]
    cases ended : (items subject state.capacity state.offset).ending with
    | failed failure =>
      simp [Ending.settle, outcome_bind, outcome_restore, outcome_pure, Effect.still]
    | matched value =>
      simp only [Ending.settle, outcome_bind, outcome_checkpoint, outcome_observe,
        realizesSeparator.continued first.inside, Effect.applyTo]
      cases endedSeparator : (separators subject state.capacity
          (items subject state.capacity state.offset).stop).ending with
      | failed failure =>
        simp only [outcome_bind, outcome_restore, State.restore_extend]
        split <;> simp [outcome_bind, outcome_restore, outcome_pure, Effect.still]
      | matched _ =>
        simp only [outcome_bind, outcome_offset, State.offset_extend,
          State.offset_checkpoint, Effect.andThen, ended, endedSeparator, State.extend_extend]
        by_cases still : (separators subject state.capacity
            (items subject state.capacity state.offset).stop).stop = state.offset
        · simp [still, outcome_pure, Effect.after, Effect.still]
        · simp only [still, ↓reduceIte, outcome_bind, ih.continued second.inside, Effect.applyTo]
          cases later : (Reading.itemsFrom items separators terminated rounds subject
              state.capacity (separators subject state.capacity
                (items subject state.capacity state.offset).stop).stop).ending <;>
            simp [Effect.after, Effect.map, Ending.map, later, outcome_pure]
      | _ => simp [Effect.andThen, Effect.after, ended, endedSeparator]
    | _ => simp [Ending.settle]

/-- The values of separated items. -/
theorem separated {item : Attempt α} {separator : Attempt Span} {items : Reading α}
    {separators : Reading Span} (least : Nat) (terminated : Bool) (realizes : item.Realizes items)
    (bounded : items.Bounded) (realizesSeparator : separator.Realizes separators)
    (boundedSeparator : separators.Bounded) :
    (Combinator.separated item separator least terminated).Realizes
      (.separated items separators least terminated) := by
  intro subject state inside
  have whole := itemsFrom terminated realizes bounded realizesSeparator boundedSeparator
    (subject.length - state.offset + 1) subject state inside
  unfold Combinator.separated Reading.separated Reading.restoring
  simp only [outcome_bind, outcome_checkpoint, outcome_remaining, whole, Effect.applyTo,
    Effect.andThen]
  cases ended : (Reading.itemsFrom items separators terminated
      (subject.length - state.offset + 1) subject state.capacity state.offset).ending with
  | matched found =>
    dsimp only
    split <;> simp [outcome_bind, outcome_restore, outcome_fail, outcome_pure, Effect.after,
      Effect.orElse, Effect.still]
  | failed failure => exact absurd ended (Reading.itemsFrom_not_failed _ _ _ _ _ _ _ _)
  | _ => simp [Effect.orElse]

/-! ## Order and choice -/

/-- One after the other. -/
theorem sequence {first second : Attempt Span} {left right : Reading Span}
    (realizesFirst : first.Realizes left) (bounded : left.Bounded)
    (realizesSecond : second.Realizes right) :
    (Combinator.sequence first second).Realizes (.sequence left right) :=
  (realizesFirst.bind bounded fun _ => realizesSecond).covering

/-- The second where the first fails. -/
theorem choice {first second : Attempt Span} {left right : Reading Span}
    (realizesFirst : first.Realizes left) (realizesSecond : second.Realizes right) :
    (Combinator.choice first second).Realizes (.choice left right) := by
  intro subject state inside
  unfold Combinator.choice Reading.choice Effect.orElse
  simp only [outcome_bind, outcome_checkpoint, outcome_observe,
    realizesFirst subject state inside, Effect.applyTo]
  cases ended : (left subject state.capacity state.offset).ending with
  | failed failure =>
    simp only [Ending.settle, outcome_bind, outcome_restore, State.restore_extend,
      outcome_traced]
    exact realizesSecond.orRestore subject state inside
  | _ => simp [Ending.settle, outcome_pure, ended]

/-- Captures that an effect left behind, taken out of the store. -/
theorem takeSince {effect : Effect α} {state : State} {limit : Nat} (subject : Subject)
    (within : effect.Within state.offset limit state.capacity) :
    ∃ held, (Attempt.takeSince state.checkpoint.mark).outcome subject
        (state.extend effect.stop effect.captures) = (.matched held, state.extend effect.stop []) ∧
      ∀ stop, (Attempt.replay held).outcome subject (state.extend stop []) =
        (.matched (), state.extend stop effect.captures) := by
  cases stored : state.captures with
  | none => exact ⟨[], by simp [Attempt.takeSince, Attempt.replay, outcome, State.extend, stored]⟩
  | some store =>
    have slots : ∀ capture ∈ effect.captures, capture.1 < store.capacity := by
      intro capture member
      simpa [Reading.hasSlot, State.capacity, stored] using (within.captured capture member).1
    have taken := CaptureStore.take_replay slots
    refine ⟨effect.captures, ?_, ?_⟩
    · simp [Attempt.takeSince, outcome, State.extend, State.checkpoint, stored, taken]
    · intro stop
      simp [Attempt.replay, outcome, State.extend, stored]

/-- The longer of two matches. -/
theorem longest {first second : Attempt Span} {left right : Reading Span}
    (realizesFirst : first.Realizes left) (bounded : left.Bounded)
    (realizesSecond : second.Realizes right) :
    (Combinator.longest first second).Realizes (.longest left right) := by
  intro subject state inside
  have within := bounded subject state.capacity state.offset inside
  obtain ⟨held, taken, replayed⟩ := takeSince subject within
  have afresh := realizesSecond subject state inside
  unfold Combinator.longest Reading.longest
  simp only [outcome_traced, outcome_bind, outcome_checkpoint, outcome_observe, outcome_offset,
    realizesFirst subject state inside, Effect.applyTo, Effect.map, Effect.orElse]
  cases leftEnded : (left subject state.capacity state.offset).ending with
  | matched leftSpan =>
    simp only [Ending.settle, Result.succeeded, ↓reduceIte, outcome_bind, taken, outcome_seek,
      State.mk_extend, State.offset_checkpoint, State.extend_self, outcome_observe, afresh,
      Effect.applyTo, State.offset_extend]
    cases rightEnded : (right subject state.capacity state.offset).ending with
    | matched rightSpan =>
      by_cases shorter : rightSpan.length ≤
          (left subject state.capacity state.offset).stop - state.offset
      · simp only [shorter, ↓reduceIte, outcome_bind, outcome_rollback, State.rollback_extend,
          replayed, outcome_seek, State.mk_extend, outcome_spanFrom, State.offset_extend,
          Ending.map]
      · simp only [shorter, ↓reduceIte, outcome_pure, rightEnded]
    | failed failure =>
      simp only [outcome_bind, outcome_rollback, State.rollback_extend, replayed, outcome_seek,
        State.mk_extend, outcome_spanFrom, State.offset_extend, Ending.map]
    | _ => simp only [rightEnded]
  | failed failure =>
    simp only [Ending.settle, Result.succeeded, Bool.false_eq_true, ↓reduceIte, outcome_bind,
      outcome_rollback, State.rollback_extend, outcome_pure, outcome_seek, State.mk_extend,
      State.offset_checkpoint, State.extend_self, outcome_observe, afresh, Effect.applyTo]
    cases rightEnded : (right subject state.capacity state.offset).ending with
    | failed later =>
      simp only [outcome_bind, outcome_restore, State.restore_extend, outcome_fail, Effect.still,
        State.extend_self]
    | _ => simp only [rightEnded, outcome_pure]
  | _ => simp [Ending.settle, leftEnded]

/-- Parts around a separator. -/
theorem sepOnce {left right : Attempt α} {separator : Attempt Span} {first last : Reading α}
    {middle : Reading Span} (realizesLeft : left.Realizes first) (boundedLeft : first.Bounded)
    (realizesMiddle : separator.Realizes middle) (boundedMiddle : middle.Bounded)
    (realizesRight : right.Realizes last) (boundedRight : last.Bounded) :
    (Combinator.sepOnce left separator right).Realizes (.sepOnce first middle last) :=
  (realizesLeft.bind boundedLeft fun _ => realizesMiddle.bind boundedMiddle fun _ =>
    realizesRight.bind boundedRight fun _ => .pure _).orRestore

/-- A part between a head and a tail. -/
theorem enclosed {head tail : Attempt Span} {inner : Attempt α} {before after : Reading Span}
    {reading : Reading α} (realizesHead : head.Realizes before) (boundedHead : before.Bounded)
    (realizes : inner.Realizes reading) (bounded : reading.Bounded)
    (realizesTail : tail.Realizes after) (boundedTail : after.Bounded) :
    (Combinator.enclosed head inner tail).Realizes (.enclosed before reading after) :=
  realizesHead.bind boundedHead fun _ => realizes.bind bounded fun _ =>
    realizesTail.bind boundedTail fun _ => .pure _

/-- Going on with one of two. -/
theorem branch {probe : Attempt Bool} {accepted otherwise : Attempt Span} {asked : Reading Bool}
    {yes no : Reading Span} (realizesProbe : probe.Realizes asked) (bounded : asked.Bounded)
    (realizesYes : accepted.Realizes yes) (realizesNo : otherwise.Realizes no) :
    (Combinator.branch probe accepted otherwise).Realizes (.branch asked yes no) := by
  apply realizesProbe.bind bounded
  intro found
  cases found
  · exact realizesNo
  · exact realizesYes

/-! ## Values and captures -/

/-- The converted value of a match. -/
theorem converted {inner : Attempt Value} {reading : Reading Value}
    (convert : Value → Conversion) (realizes : inner.Realizes reading) :
    (Combinator.converted inner convert).Realizes (.converted reading convert) := by
  intro subject state inside
  unfold Combinator.converted Reading.converted Effect.andThen
  simp only [outcome_bind, outcome_offset, realizes subject state inside, Effect.applyTo]
  cases ended : (reading subject state.capacity state.offset).ending with
  | matched value =>
    simp only [State.offset_extend, outcome_slice]
    cases subject.slice? (.between state.offset _) with
    | none => simp [Effect.after, Effect.still]
    | some bytes =>
      simp only [outcome_ofResult]
      cases (convert value).settle state.offset bytes <;> simp [Effect.after, Effect.still]
  | _ => rfl

/-- The span of a match as a capture. -/
theorem captured {inner : Attempt Span} {reading : Reading Span} (slot : Nat)
    (realizes : inner.Realizes reading) :
    (Combinator.captured slot inner).Realizes (.captured slot reading) := by
  intro subject state inside
  unfold Combinator.captured Reading.captured Effect.andThen
  simp only [outcome_bind, outcome_requireSlot]
  by_cases exists_slot : Reading.hasSlot state.capacity slot = true
  · simp only [exists_slot, ↓reduceIte, realizes subject state inside, Effect.applyTo]
    cases ended : (reading subject state.capacity state.offset).ending with
    | matched span =>
      simp only
      rw [outcome_capture subject _ slot span (by rwa [State.capacity_extend])]
      simp [outcome_pure, Effect.after]
    | _ => rfl
  · simp [exists_slot]

end Attempt.Realizes

/-! ## Matchers -/

/-- A meaning does what readings say, for the span and for the value. -/
structure Meaning.Realizes (meaning : Meaning) (readings : Readings) : Prop where
  /-- For the span. -/
  span : meaning.span.Realizes readings.span
  /-- For the value. -/
  value : meaning.value.Realizes readings.value

namespace Meaning.Realizes

/-- A meaning by its span, with the slice for a value. -/
theorem ofSpan {span : Attempt Span} {reading : Reading Span} (realizes : span.Realizes reading)
    (bounded : reading.Bounded) : (Meaning.ofSpan span).Realizes (.ofSpan reading) :=
  ⟨realizes, realizes.sliced bounded⟩

/-- A meaning by its value, with what is covered for a span. -/
theorem ofValue {value : Attempt Value} {reading : Reading Value}
    (realizes : value.Realizes reading) : (Meaning.ofValue value).Realizes (.ofValue reading) :=
  ⟨realizes.covering, realizes⟩

end Meaning.Realizes

namespace Matcher

open Attempt (Realizes)

/-- Every matcher does what its readings say where the calls do, with a guard around every part
that keeps to what readings say. -/
theorem guarded_realizes {guard : Meaning → Meaning}
    (keeps : ∀ meaning readings, meaning.Realizes readings → readings.Sound →
      (guard meaning).Realizes readings)
    {call : Nat → Attempt Span} {reading : Nat → Reading Span}
    (calls : ∀ slot, (call slot).Realizes (reading slot)) (sound : ∀ slot, (reading slot).Sound)
    (matcher : Matcher) : (matcher.guarded guard call).Realizes (matcher.readings reading) := by
  have known := fun part => readings_sound sound part
  induction matcher with refine keeps _ _ ?_ (known _)
  | literal text => exact .ofSpan (.literal text) (Reading.literal_sound text).bounded
  | one predicate => exact .ofSpan (.one predicate) (Reading.one_sound predicate).bounded
  | empty => exact .ofSpan .empty Reading.empty_sound.bounded
  | atStart => exact .ofSpan .atStart Reading.atStart_sound.bounded
  | atEnd => exact .ofSpan .atEnd Reading.atEnd_sound.bounded
  | count predicate bounds condition =>
    refine .ofSpan (.count ?_) (Reading.count_sound predicate bounds _).bounded
    intro subject state unit _
    rw [Attempt.outcome_bind, Attempt.outcome_view]
    rfl
  | countAhead predicate bounds ahead ih =>
    refine .ofSpan (.count ?_) (Reading.count_sound predicate bounds _).bounded
    intro subject state unit found
    have inside := (Subject.unitAt_bounds found).2.1
    have asked := ih.span subject ⟨unit.offset, none⟩ (Nat.le_of_lt inside)
    rw [Attempt.outcome_bind, Attempt.outcome_aside, asked]
    unfold Reading.aheadTest Effect.applyTo
    cases ended : ((ahead.readings reading).span subject none unit.offset).ending <;>
      simp [State.capacity, ended, Ending.settle, Ending.map, Attempt.outcome_pure]
  | repeated inner bounds ih =>
    have bounded := (known inner).span.bounded
    exact .ofSpan (Realizes.repeated bounds ih.span bounded).covering
      (Reading.repeated_bounded bounds bounded).covering
  | collected inner bounds ih =>
    have bounded := (known inner).value
    exact .ofValue ((Realizes.repeated bounds ih.value bounded).map _
      (Reading.repeated_bounded bounds bounded))
  | sequence first second left right =>
    exact .ofSpan (.sequence left.span (known first).span.bounded right.span)
      (known (.sequence first second)).span.bounded
  | choice first second left right =>
    exact .ofSpan (.choice left.span right.span) (known (.choice first second)).span.bounded
  | longest first second left right =>
    exact .ofSpan (.longest left.span (known first).span.bounded right.span)
      (known (.longest first second)).span.bounded
  | sepOnce left separator right first middle last =>
    have leftSound := known left
    have middleBounded := (known separator).span.bounded
    have rightSound := known right
    constructor
    · exact (Realizes.sepOnce first.span leftSound.span.bounded middle.span middleBounded
        last.span rightSound.span.bounded).covering
    · exact (Realizes.sepOnce first.value leftSound.value middle.span middleBounded last.value
        rightSound.value).map _
          (Reading.sepOnce_bounded leftSound.value middleBounded rightSound.value)
  | separated item separator least terminated items separators =>
    have itemSound := known item
    have middleBounded := (known separator).span.bounded
    constructor
    · exact (Realizes.separated least terminated items.span itemSound.span.bounded
        separators.span middleBounded).covering
    · exact (Realizes.separated least terminated items.value itemSound.value separators.span
        middleBounded).map _ (Reading.separated_bounded least terminated itemSound.value
          middleBounded)
  | enclosed head inner tail before ih after =>
    have headBounded := (known head).span.bounded
    have tailBounded := (known tail).span.bounded
    constructor
    · exact (Realizes.enclosed before.span headBounded ih.span (known inner).span.bounded
        after.span tailBounded).covering
    · exact .enclosed before.span headBounded ih.value (known inner).value after.span tailBounded
  | mapped inner converter ih =>
    have realizes := Realizes.converted converter ih.value
    exact ⟨realizes.covering, realizes⟩
  | captured slot inner ih =>
    exact .ofSpan (.captured slot ih.span) (known (.captured slot inner)).span.bounded
  | branch test accepted otherwise asked yes no =>
    exact .ofSpan (.branch asked.span.probe (.probe _) yes.span no.span)
      (known (.branch test accepted otherwise)).span.bounded
  | branchIf test accepted otherwise yes no =>
    exact .ofSpan (.branch (.view test) (.viewTest test) yes.span no.span)
      (known (.branchIf test accepted otherwise)).span.bounded
  | boxed inner ih => exact .ofSpan ih.span (known inner).span.bounded
  | undefined => exact .ofSpan (.raise _) (known .undefined).span.bounded
  | handle slot => exact .ofSpan (calls slot) (sound slot).bounded
  | reference slot => exact .ofSpan (calls slot) (sound slot).bounded

/-- Every matcher does what its readings say where the calls do. -/
theorem meaning_realizes {call : Nat → Attempt Span} {reading : Nat → Reading Span}
    (calls : ∀ slot, (call slot).Realizes (reading slot)) (sound : ∀ slot, (reading slot).Sound)
    (matcher : Matcher) : (matcher.meaning call).Realizes (matcher.readings reading) := by
  rw [← guarded_id]
  exact matcher.guarded_realizes (fun _ _ realizes _ => realizes) calls sound

end Matcher

namespace Definitions

/-- A call of a definition does what its reading says, however deeply calls may be nested, with a
guard around every part that keeps to what readings say. -/
theorem guardedCall_realizes {guard : Meaning → Meaning}
    (keeps : ∀ meaning readings, meaning.Realizes readings → readings.Sound →
      (guard meaning).Realizes readings) (definitions : Definitions) (depth slot : Nat) :
    (definitions.guardedCall guard depth slot).Realizes (definitions.reading depth slot) := by
  induction depth generalizing slot with
  | zero => exact .exhaust
  | succ depth ih =>
    unfold guardedCall reading
    cases definitions.find? slot with
    | none => exact .raise _
    | some matcher =>
      exact (matcher.guarded_realizes keeps ih (definitions.reading_sound depth)).span

/-- A call of a definition does what its reading says, however deeply calls may be nested. -/
theorem call_realizes (definitions : Definitions) (depth slot : Nat) :
    (definitions.call depth slot).Realizes (definitions.reading depth slot) := by
  rw [← guardedCall_id]
  exact definitions.guardedCall_realizes (fun _ _ realizes _ => realizes) depth slot

end Definitions

namespace Matcher

variable (matcher : Matcher) (definitions : Definitions) {subject : Subject} {state : State}

/-- Matching for the span has the effect that the reading says. -/
theorem outcome_attempt (inside : state.offset ≤ subject.length) :
    (matcher.attempt definitions).outcome subject state =
      ((matcher.readingsUnder definitions subject).span subject state.capacity
        state.offset).applyTo state :=
  (matcher.meaning_realizes (definitions.call_realizes _) (definitions.reading_sound _)).span
    subject state inside

/-- Matching for the value has the effect that the reading says. -/
theorem outcome_attemptValue (inside : state.offset ≤ subject.length) :
    (matcher.attemptValue definitions).outcome subject state =
      ((matcher.readingsUnder definitions subject).value subject state.capacity
        state.offset).applyTo state :=
  (matcher.meaning_realizes (definitions.call_realizes _) (definitions.reading_sound _)).value
    subject state inside

/-- Matchers with the same effect for the span run alike. -/
theorem outcome_congr {matcher other : Matcher} {definitions : Definitions}
    (inside : state.offset ≤ subject.length)
    (same : (matcher.readingsUnder definitions subject).span subject state.capacity state.offset =
      (other.readingsUnder definitions subject).span subject state.capacity state.offset) :
    (matcher.attempt definitions).outcome subject state =
      (other.attempt definitions).outcome subject state := by
  rw [outcome_attempt matcher definitions inside, outcome_attempt other definitions inside, same]

end Matcher

end TextPattern
