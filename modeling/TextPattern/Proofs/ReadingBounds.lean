import TextPattern.Proofs.Utf8.Decoder
import TextPattern.Proofs.Reading

/-!
# Bounds of readings

However a reading ends, it ends between where it began and the end of the input, and the captures
that it leaves behind lie between its two ends. A matched span is the whole stretch between them.
-/

namespace TextPattern

open Combinator (Tally Items)

variable {α β : Type}

/-- A unit ends inside its subject. -/
theorem Subject.unitAt_next_le {subject : Subject} {offset : Nat} {unit : InputUnit}
    (found : subject.unitAt offset = some unit) : unit.next ≤ subject.length := by
  unfold unitAt at found
  split at found
  · cases found
  · rename_i octet rest remaining
    have ahead : subject.length - offset = rest.length + 1 := by
      have same := congrArg List.length remaining
      rwa [List.length_drop, List.length_cons] at same
    split at found <;> cases found
    · have narrow := Utf8.decode_width_le octet rest
      rw [List.length_cons] at narrow
      show offset + (Utf8.decode (octet :: rest)).2 ≤ _
      omega
    · show offset + 1 ≤ _
      omega

/-- An effect stays between an offset and a limit, and captures only there and for slots that
exist. -/
structure Effect.Within (effect : Effect α) (offset limit : Nat) (capacity : Option Nat) :
    Prop where
  /-- It never goes back. -/
  forward : offset ≤ effect.stop
  /-- It never leaves the input. -/
  inside : effect.stop ≤ limit
  /-- Its captures lie between its two ends. -/
  captured : ∀ capture ∈ effect.captures, Reading.hasSlot capacity capture.1 = true ∧
    offset ≤ capture.2.start ∧ capture.2.start + capture.2.length ≤ effect.stop

namespace Effect.Within

variable {effect : Effect α} {offset limit : Nat} {capacity : Option Nat}

/-- Staying put keeps all bounds. -/
theorem still (ending : Ending α) (inside : offset ≤ limit) :
    (Effect.still ending offset).Within offset limit capacity :=
  ⟨Nat.le_refl _, inside, fun _ member => absurd member List.not_mem_nil⟩

/-- What stays behind an offset stays behind every earlier one. -/
theorem mono {earlier : Nat} (within : effect.Within offset limit capacity)
    (before : earlier ≤ offset) : effect.Within earlier limit capacity where
  forward := Nat.le_trans before within.forward
  inside := within.inside
  captured capture member :=
    have bounds := within.captured capture member
    ⟨bounds.1, Nat.le_trans before bounds.2.1, bounds.2.2⟩

/-- Values do not matter to bounds. -/
theorem map (f : α → β) (within : effect.Within offset limit capacity) :
    (effect.map f).Within offset limit capacity :=
  ⟨within.forward, within.inside, within.captured⟩

/-- How an effect ends does not matter to bounds. -/
theorem withEnding (ending : Ending β) (within : effect.Within offset limit capacity) :
    (⟨ending, effect.stop, effect.captures⟩ : Effect β).Within offset limit capacity :=
  ⟨within.forward, within.inside, within.captured⟩

/-- An effect that begins where another one ends, after its captures. -/
theorem after {second : Effect β} (first : effect.Within offset limit capacity)
    (later : second.Within effect.stop limit capacity) :
    (second.after effect.captures).Within offset limit capacity where
  forward := Nat.le_trans first.forward later.forward
  inside := later.inside
  captured capture member := by
    rcases List.mem_append.mp member with early | late
    · have bounds := first.captured capture early
      exact ⟨bounds.1, bounds.2.1, Nat.le_trans bounds.2.2 later.forward⟩
    · exact (later.mono first.forward).captured capture late

/-- Going on from a match keeps all bounds. -/
theorem andThen {next : α → Nat → Effect β} (first : effect.Within offset limit capacity)
    (later : ∀ value, effect.ending = .matched value →
      (next value effect.stop).Within effect.stop limit capacity) :
    (effect.andThen next).Within offset limit capacity := by
  unfold Effect.andThen
  cases ended : effect.ending with
  | matched value => exact first.after (later value ended)
  | failed failure => exact first.withEnding _
  | raised misuse => exact first.withEnding _
  | exhausted => exact first.withEnding _

/-- Replacing a failure keeps all bounds. -/
theorem orElse {other : Failure → Effect α} (first : effect.Within offset limit capacity)
    (second : ∀ failure, (other failure).Within offset limit capacity) :
    (effect.orElse other).Within offset limit capacity := by
  unfold Effect.orElse
  cases effect.ending with
  | failed failure => exact second failure
  | _ => exact first

end Effect.Within

namespace Reading

/-- A reading stays inside the input wherever it begins. -/
def Bounded (reading : Reading α) : Prop :=
  ∀ subject capacity offset, offset ≤ subject.length →
    (reading subject capacity offset).Within offset subject.length capacity

/-- A matched span is all that lies between the two ends of a reading. -/
def Covers (reading : Reading Span) : Prop :=
  ∀ subject capacity offset span, offset ≤ subject.length →
    (reading subject capacity offset).ending = .matched span →
    span = .between offset (reading subject capacity offset).stop

/-- What is known about the reading of every span. -/
structure Sound (reading : Reading Span) : Prop where
  /-- It stays inside the input. -/
  bounded : reading.Bounded
  /-- Its span is what it covers. -/
  covers : reading.Covers

namespace Bounded

/-- Yielding a value moves nowhere. -/
theorem pure (value : α) : Bounded (Pure.pure value) :=
  fun _ _ _ inside => .still _ inside

/-- One bounded reading after another. -/
theorem bind {first : Reading α} {next : α → Reading β} (bounded : first.Bounded)
    (later : ∀ value, (next value).Bounded) : Bounded (first >>= next) :=
  fun subject capacity offset inside =>
    have within := bounded subject capacity offset inside
    within.andThen fun value _ => later value subject capacity _ within.inside

/-- Passing values through a function moves nowhere. -/
theorem map {reading : Reading α} (f : α → β) (bounded : reading.Bounded) :
    Bounded (f <$> reading) :=
  bind bounded fun _ => .pure _

/-- Covering moves nowhere. -/
theorem covering {reading : Reading α} (bounded : reading.Bounded) : reading.covering.Bounded :=
  fun subject capacity offset inside => (bounded subject capacity offset inside).map _

/-- Undoing failures goes back to the start at most. -/
theorem restoring {reading : Reading α} (bounded : reading.Bounded) : reading.restoring.Bounded :=
  fun subject capacity offset inside =>
    (bounded subject capacity offset inside).orElse fun _ => .still _ inside

/-- A probe moves nowhere. -/
theorem probe (reading : Reading α) : reading.probe.Bounded := fun _ _ _ inside => .still _ inside

/-- A test moves nowhere. -/
theorem viewTest (test : View → Bool) : (Reading.viewTest test).Bounded :=
  fun _ _ _ inside => .still _ inside

/-- Slicing moves nowhere. -/
theorem slice (span : Span) : (Reading.slice span).Bounded := by
  intro subject capacity offset inside
  unfold Reading.slice
  split <;> exact .still _ inside

/-- Reading a slice moves as reading its span. -/
theorem sliced {reading : Reading Span} (bounded : reading.Bounded) : reading.sliced.Bounded :=
  bounded.bind fun span => (slice span).bind fun _ => .pure _

end Bounded

/-- A covered span is what it covers. -/
theorem Covers.covering (reading : Reading α) : reading.covering.Covers := by
  intro subject capacity offset span _ ended
  change (Effect.map _ _).ending = _ at ended
  unfold Effect.map at ended
  cases inner : (reading subject capacity offset).ending <;> rw [inner] at ended <;> cases ended
  rfl

/-- Bounded readings give sound ones by what they cover. -/
theorem Sound.covering {reading : Reading α} (bounded : reading.Bounded) :
    reading.covering.Sound := ⟨bounded.covering, .covering reading⟩

/-! ## Single units and literals -/

/-- A move that is allowed ends inside the input, as far on as was asked. -/
theorem advance_ok {subject : Subject} {offset count stop : Nat} (inside : offset ≤ subject.length)
    (moved : subject.advance offset count = .ok stop) :
    stop = offset + count ∧ stop ≤ subject.length := by
  unfold Subject.advance at moved
  split at moved
  · cases moved
  · split at moved
    · cases moved
      exact ⟨rfl, by omega⟩
    · cases moved

/-- A literal stays inside the input. -/
theorem literal_sound (text : Bytes) : (literal text).Sound := by
  constructor
  · intro subject capacity offset inside
    unfold literal
    dsimp only
    split
    · split
      · rename_i stop moved
        obtain ⟨reached, limit⟩ := advance_ok inside moved
        exact ⟨by rw [reached]; exact Nat.le_add_right _ _, limit,
          fun _ member => absurd member List.not_mem_nil⟩
      · exact .still _ inside
    · split <;> exact .still _ inside
  · intro subject capacity offset span inside
    unfold literal
    dsimp only
    split
    · split
      · rename_i stop moved
        intro ended
        cases ended
        rw [(advance_ok inside moved).1, Span.between, Nat.add_sub_cancel_left]
      · intro ended
        cases ended
    · split <;> (intro ended; cases ended)

/-- A unit stays inside the input. -/
theorem one_sound (predicate : Predicate) : (one predicate).Sound := by
  constructor
  · intro subject capacity offset inside
    unfold one
    split
    · exact .still _ inside
    · rename_i unit found
      split
      · exact ⟨Nat.le_of_lt (Subject.unitAt_bounds found).2.2, Subject.unitAt_next_le found,
          fun _ member => absurd member List.not_mem_nil⟩
      · exact .still _ inside
  · intro subject capacity offset span inside
    unfold one
    split
    · intro ended
      cases ended
    · rename_i unit found
      split
      · intro ended
        cases ended
        rw [Span.between, InputUnit.next, (Subject.unitAt_bounds found).1,
          Nat.add_sub_cancel_left]
      · intro ended
        cases ended

/-- Nothing is where it is. -/
theorem empty_sound : empty.Sound where
  bounded _ _ _ inside := .still _ inside
  covers subject capacity offset span _ ended := by
    cases ended
    show _ = Span.between offset offset
    rw [Span.between, Nat.sub_self]

/-- The start is where it is. -/
theorem atStart_sound : atStart.Sound := by
  constructor
  · intro subject capacity offset inside
    unfold atStart
    split <;> exact .still _ inside
  · intro subject capacity offset span _
    unfold atStart
    split
    · rename_i first
      intro ended
      cases ended
      subst first
      rfl
    · intro ended
      cases ended

/-- The end is where it is. -/
theorem atEnd_sound : atEnd.Sound := by
  constructor
  · intro subject capacity offset inside
    unfold atEnd
    split <;> exact .still _ inside
  · intro subject capacity offset span _
    unfold atEnd
    split
    · intro ended
      cases ended
      show _ = Span.between offset offset
      rw [Span.between, Nat.sub_self]
    · intro ended
      cases ended

/-- A tally stops between where it began and the end of the input. -/
theorem tally_stop {subject : Subject} {predicate : Predicate} {bounds : Bounds}
    {test : InputUnit → Ending Bool} {rounds count start : Nat} {found : Tally}
    (inside : start ≤ subject.length)
    (ended : tally subject predicate bounds test rounds count start = .matched found) :
    start ≤ found.stop ∧ found.stop ≤ subject.length := by
  induction rounds generalizing count start with
  | zero =>
    unfold tally at ended
    split at ended <;> cases ended
    exact ⟨Nat.le_refl _, inside⟩
  | succ rounds ih =>
    unfold tally at ended
    split at ended
    · cases ended
      exact ⟨Nat.le_refl _, inside⟩
    · dsimp only at ended
      split at ended
      · cases ended
        exact ⟨Nat.le_refl _, inside⟩
      · rename_i unit present
        have further := (Subject.unitAt_bounds present).2.2
        split at ended
        · split at ended
          · have later := ih (Subject.unitAt_next_le present) ended
            exact ⟨Nat.le_trans (Nat.le_of_lt further) later.1, later.2⟩
          · cases ended
            exact ⟨Nat.le_refl _, inside⟩
          all_goals cases ended
        · cases ended
          exact ⟨Nat.le_refl _, inside⟩

/-- A count stays inside the input. -/
theorem count_sound (predicate : Predicate) (bounds : Bounds) (test : UnitTest) :
    (count predicate bounds test).Sound := by
  constructor
  · intro subject capacity offset inside
    unfold count
    apply (Effect.Within.still _ inside).andThen
    intro found ended
    have stops := tally_stop inside ended
    split
    · split <;> exact .still _ inside
    · exact (Effect.Within.still _ stops.2).mono stops.1
  · intro subject capacity offset span inside
    unfold count
    dsimp only
    rw [Effect.andThen, Effect.still]
    cases ended : tally subject predicate bounds (test subject offset)
        (subject.length - offset + 1) 0 offset with
    | matched found =>
      dsimp only
      split
      · split <;> (intro matched; cases matched)
      · intro matched
        cases matched
        rfl
    | _ => intro matched; cases matched

/-! ## Repetition and separated items -/

/-- A repetition of bounded steps is bounded. -/
theorem repeatFrom_bounded {step : Reading α} (bounds : Bounds) (bounded : step.Bounded)
    (rounds count : Nat) : (repeatFrom bounds step rounds count).Bounded := by
  induction rounds generalizing count with
  | zero =>
    intro subject capacity offset inside
    unfold repeatFrom
    split <;> exact .still _ inside
  | succ rounds ih =>
    intro subject capacity offset inside
    have within := bounded subject capacity offset inside
    unfold repeatFrom
    split
    · exact .still _ inside
    · dsimp only
      split
      · split <;> exact .still _ inside
      · apply within.andThen
        intro value _
        split
        · exact .still _ within.inside
        · exact (ih (count + 1) subject capacity _ within.inside).map _

/-- The values of a bounded step, repeated, are bounded. -/
theorem repeated_bounded {step : Reading α} (bounds : Bounds) (bounded : step.Bounded) :
    (repeated bounds step).Bounded := by
  apply Bounded.restoring
  intro subject capacity offset inside
  exact repeatFrom_bounded bounds bounded _ 0 subject capacity offset inside

/-- Bounded items and separators are bounded together. -/
theorem itemsFrom_bounded {item : Reading α} {separator : Reading Span} (terminated : Bool)
    (items : item.Bounded) (separators : separator.Bounded) (rounds : Nat) :
    (itemsFrom item separator terminated rounds).Bounded := by
  induction rounds with
  | zero => exact fun _ _ _ inside => .still _ inside
  | succ rounds ih =>
    intro subject capacity offset inside
    have first := items subject capacity offset inside
    have second := separators subject capacity _ first.inside
    unfold itemsFrom
    dsimp only
    split
    · exact .still _ inside
    · split
      · split
        · exact .still _ inside
        · exact first.withEnding _
      · apply first.andThen
        intro _ _
        apply second.andThen
        intro _ _
        split
        · exact .still _ second.inside
        · exact (ih subject capacity _ second.inside).map _
    · exact first.withEnding _
    · exact first.withEnding _

/-- The values of bounded items are bounded. -/
theorem separated_bounded {item : Reading α} {separator : Reading Span} (least : Nat)
    (terminated : Bool) (items : item.Bounded) (separators : separator.Bounded) :
    (separated item separator least terminated).Bounded := by
  apply Bounded.restoring
  intro subject capacity offset inside
  have within := itemsFrom_bounded terminated items separators (subject.length - offset + 1)
    subject capacity offset inside
  apply within.andThen
  intro found _
  split <;> exact .still _ within.inside

/-! ## Order, choice and captures -/

/-- Sound parts one after the other. -/
theorem sequence_sound {first second : Reading Span} (left : first.Sound) (right : second.Sound) :
    (sequence first second).Sound :=
  .covering (left.bounded.bind fun _ => right.bounded)

/-- Undoing failures keeps soundness. -/
theorem Sound.restoring {reading : Reading Span} (sound : reading.Sound) :
    reading.restoring.Sound := by
  refine ⟨sound.bounded.restoring, ?_⟩
  intro subject capacity offset span inside ended
  have same : reading.restoring subject capacity offset = reading subject capacity offset := by
    unfold Reading.restoring Effect.orElse at ended ⊢
    cases inner : (reading subject capacity offset).ending with
    | failed failure => rw [inner] at ended; cases ended
    | _ => rfl
  rw [same] at ended ⊢
  exact sound.covers subject capacity offset span inside ended

/-- A choice between sound parts. -/
theorem choice_sound {first second : Reading Span} (left : first.Sound) (right : second.Sound) :
    (choice first second).Sound := by
  constructor
  · intro subject capacity offset inside
    exact (left.bounded subject capacity offset inside).orElse fun _ =>
      right.restoring.bounded subject capacity offset inside
  · intro subject capacity offset span inside
    unfold choice Effect.orElse
    cases ended : (first subject capacity offset).ending with
    | failed failure => exact right.restoring.covers subject capacity offset span inside
    | _ => exact left.covers subject capacity offset span inside

/-- The longer of two sound parts. -/
theorem longest_sound {first second : Reading Span} (left : first.Sound) (right : second.Sound) :
    (longest first second).Sound := by
  constructor
  · intro subject capacity offset inside
    have first := left.bounded subject capacity offset inside
    have second := right.bounded subject capacity offset inside
    unfold longest
    dsimp only
    split
    · split
      · split
        · exact first.map _
        · exact second
      · exact first.map _
      · exact second
    · exact second.orElse fun _ => .still _ inside
    · exact first
  · intro subject capacity offset span inside
    have whole := right.covers subject capacity offset span inside
    unfold longest Effect.map Effect.orElse
    dsimp only
    cases leftEnded : (first subject capacity offset).ending with
    | matched leftSpan =>
      dsimp only
      cases rightEnded : (second subject capacity offset).ending with
      | matched rightSpan =>
        dsimp only
        split
        · intro ended
          cases ended
          rfl
        · exact whole
      | failed failure =>
        intro ended
        cases ended
        rfl
      | _ => exact whole
    | failed failure =>
      dsimp only
      cases rightEnded : (second subject capacity offset).ending with
      | failed failure => intro ended; cases ended
      | _ => exact whole
    | _ => exact left.covers subject capacity offset span inside

/-- Bounded parts around a separator are bounded. -/
theorem sepOnce_bounded {left right : Reading α} {separator : Reading Span} (first : left.Bounded)
    (middle : separator.Bounded) (last : right.Bounded) :
    (sepOnce left separator right).Bounded :=
  (first.bind fun _ => middle.bind fun _ => last.bind fun _ => .pure _).restoring

/-- A bounded part between bounded ends is bounded. -/
theorem enclosed_bounded {head tail : Reading Span} {inner : Reading α} (before : head.Bounded)
    (bounded : inner.Bounded) (after : tail.Bounded) : (enclosed head inner tail).Bounded :=
  before.bind fun _ => bounded.bind fun _ => after.bind fun _ => .pure _

/-- Going on with one of two sound parts. -/
theorem branch_sound {probe : Reading Bool} {accepted otherwise : Reading Span}
    (still : ∀ subject capacity offset, (probe subject capacity offset).stop = offset)
    (bounded : probe.Bounded) (yes : accepted.Sound) (no : otherwise.Sound) :
    (branch probe accepted otherwise).Sound := by
  constructor
  · apply bounded.bind
    intro found
    cases found
    · exact no.bounded
    · exact yes.bounded
  · intro subject capacity offset span inside ended
    change ((probe subject capacity offset).andThen _).ending = _ at ended
    show _ = Span.between offset ((probe subject capacity offset).andThen _).stop
    unfold Effect.andThen at ended ⊢
    rw [still] at ended ⊢
    cases asked : (probe subject capacity offset).ending with
    | matched found =>
      rw [asked] at ended
      cases found
      · exact no.covers subject capacity offset span inside ended
      · exact yes.covers subject capacity offset span inside ended
    | _ => rw [asked] at ended; cases ended

/-- Converting moves nowhere. -/
theorem converted_bounded {inner : Reading Value} (convert : Value → Conversion)
    (bounded : inner.Bounded) : (converted inner convert).Bounded := by
  intro subject capacity offset inside
  have within := bounded subject capacity offset inside
  apply within.andThen
  intro value _
  split
  · exact .still _ within.inside
  · split <;> exact .still _ within.inside

/-- A captured span is the span of the match. -/
theorem captured_sound {inner : Reading Span} (slot : Nat) (sound : inner.Sound) :
    (captured slot inner).Sound := by
  constructor
  · intro subject capacity offset inside
    have within := sound.bounded subject capacity offset inside
    unfold captured
    split
    · rename_i exists_slot
      unfold Effect.andThen
      cases ended : (inner subject capacity offset).ending with
      | matched span =>
        refine ⟨within.forward, within.inside, ?_⟩
        intro capture member
        rcases List.mem_append.mp member with early | late
        · exact within.captured capture early
        · have whole := sound.covers subject capacity offset span inside ended
          have forward := within.forward
          rw [List.mem_singleton.mp late, whole]
          refine ⟨exists_slot, Nat.le_refl _, ?_⟩
          show offset + (_ - offset) ≤ (inner subject capacity offset).stop
          omega
      | _ => exact within.withEnding _
    · exact .still _ inside
  · intro subject capacity offset span inside
    have whole := sound.covers subject capacity offset span inside
    unfold captured
    split
    · unfold Effect.andThen
      cases ended : (inner subject capacity offset).ending with
      | matched found =>
        intro same
        cases same
        exact whole ended
      | _ => intro matched; cases matched
    · intro matched
      cases matched

end Reading

/-! ## Matchers -/

/-- The readings of a matcher that are known to be sound. -/
structure Readings.Sound (readings : Readings) : Prop where
  /-- The span is sound. -/
  span : readings.span.Sound
  /-- The value stays inside the input. -/
  value : readings.value.Bounded

/-- Reading the slice of a sound span is sound. -/
theorem Readings.Sound.ofSpan {span : Reading Span} (sound : span.Sound) :
    (Readings.ofSpan span).Sound := ⟨sound, sound.bounded.sliced⟩

/-- Reading what a bounded value covers is sound. -/
theorem Readings.Sound.ofValue {value : Reading Value} (bounded : value.Bounded) :
    (Readings.ofValue value).Sound := ⟨.covering bounded, bounded⟩

/-- The readings of every matcher are sound where those of the definitions are. -/
theorem Matcher.readings_sound {call : Nat → Reading Span} (calls : ∀ slot, (call slot).Sound)
    (matcher : Matcher) : (matcher.readings call).Sound := by
  induction matcher with
  | literal text => exact .ofSpan (Reading.literal_sound text)
  | one predicate => exact .ofSpan (Reading.one_sound predicate)
  | empty => exact .ofSpan Reading.empty_sound
  | atStart => exact .ofSpan Reading.atStart_sound
  | atEnd => exact .ofSpan Reading.atEnd_sound
  | count predicate bounds condition => exact .ofSpan (Reading.count_sound predicate bounds _)
  | countAhead predicate bounds ahead _ => exact .ofSpan (Reading.count_sound predicate bounds _)
  | repeated inner bounds ih =>
    exact .ofSpan (.covering (Reading.repeated_bounded bounds ih.span.bounded))
  | collected inner bounds ih => exact .ofValue ((Reading.repeated_bounded bounds ih.value).map _)
  | sequence first second left right =>
    exact .ofSpan (Reading.sequence_sound left.span right.span)
  | choice first second left right => exact .ofSpan (Reading.choice_sound left.span right.span)
  | longest first second left right => exact .ofSpan (Reading.longest_sound left.span right.span)
  | sepOnce left separator right first middle last =>
    exact ⟨.covering (Reading.sepOnce_bounded first.span.bounded middle.span.bounded
        last.span.bounded),
      (Reading.sepOnce_bounded first.value middle.span.bounded last.value).map _⟩
  | separated item separator least terminated items separators =>
    exact ⟨.covering (Reading.separated_bounded least terminated items.span.bounded
        separators.span.bounded),
      (Reading.separated_bounded least terminated items.value separators.span.bounded).map _⟩
  | enclosed head inner tail before ih after =>
    exact ⟨.covering (Reading.enclosed_bounded before.span.bounded ih.span.bounded
        after.span.bounded),
      Reading.enclosed_bounded before.span.bounded ih.value after.span.bounded⟩
  | mapped inner converter ih => exact .ofValue (Reading.converted_bounded converter ih.value)
  | captured slot inner ih => exact .ofSpan (Reading.captured_sound slot ih.span)
  | branch test accepted otherwise _ yes no =>
    exact .ofSpan (Reading.branch_sound (fun _ _ _ => rfl) (.probe _) yes.span no.span)
  | branchIf test accepted otherwise yes no =>
    exact .ofSpan (Reading.branch_sound (fun _ _ _ => rfl) (.viewTest _) yes.span no.span)
  | boxed inner ih => exact .ofSpan ih.span
  | undefined =>
    exact .ofSpan ⟨fun _ _ _ inside => .still _ inside, fun _ _ _ _ _ ended => nomatch ended⟩
  | handle slot => exact .ofSpan (calls slot)
  | reference slot => exact .ofSpan (calls slot)

/-- A call of a definition is sound, however deeply calls may be nested. -/
theorem Definitions.reading_sound (definitions : Definitions) (depth slot : Nat) :
    (definitions.reading depth slot).Sound := by
  induction depth generalizing slot with
  | zero =>
    exact ⟨fun _ _ _ inside => .still _ inside, fun _ _ _ _ _ ended => nomatch ended⟩
  | succ depth ih =>
    unfold Definitions.reading
    split
    · exact ⟨fun _ _ _ inside => .still _ inside, fun _ _ _ _ _ ended => nomatch ended⟩
    · rename_i matcher _
      exact (matcher.readings_sound ih).span

/-- The readings of a matcher are sound under any definitions. -/
theorem Matcher.readingsUnder_sound (matcher : Matcher) (definitions : Definitions)
    (subject : Subject) : (matcher.readingsUnder definitions subject).Sound :=
  matcher.readings_sound (definitions.reading_sound _)

end TextPattern
