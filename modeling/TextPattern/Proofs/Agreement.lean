import TextPattern.Proofs.Comparison
import TextPattern.Proofs.MatcherRealization

/-!
# The value and the span of a match

A matcher can be run for its span and for its value, through different parts. Both runs do the
same: they end in the same way, at the same offset and with the same captures.
`Matcher.value_run_agrees` is the main statement. It also says which slice a matcher yields when
its value is one.
-/

namespace TextPattern

variable {α β β' : Type}

/-- A whole subject with any capacity, where nothing may be cut short. -/
def Scope.whole (subject : Subject) : Scope := ⟨subject, fun _ => True, trivial, False⟩

namespace Reading

variable {scope : Scope}

/-- What a reading covers is alike to the reading itself. -/
theorem Related.covered {left : Reading α} {right : Reading β} (alike : left.Alike scope right) :
    left.covering.Alike scope right := by
  intro capacity offset kept inside
  have forgotten := (alike capacity offset kept inside).forget
    (fun _ => Span.between offset (left scope.subject capacity offset).stop) id
  rwa [Effect.map_id] at forgotten

/-- What is done to the values of a reading does not matter. -/
theorem Related.mapped {left : Reading α} {right : Reading β} (g : β → β')
    (alike : left.Alike scope right) : left.Alike scope (g <$> right) := by
  intro capacity offset kept inside
  have forgotten := (alike capacity offset kept inside).forget id g
  rwa [Effect.map_id, ← map_apply] at forgotten

/-- A value that went through a function comes from one. -/
theorem map_matched (f : α → β) (reading : Reading α) {subject : Subject} {capacity : Option Nat}
    {offset : Nat} {value : β}
    (matched : ((f <$> reading) subject capacity offset).ending = .matched value) :
    ∃ found, f found = value := by
  rw [map_apply] at matched
  obtain ⟨found, _, same⟩ := Effect.map_matched_iff.mp matched
  exact ⟨found, same⟩

/-- A sound span has a slice. -/
theorem sliced_apply {reading : Reading Span} (sound : reading.Sound) {subject : Subject}
    {offset : Nat} (capacity : Option Nat) (inside : offset ≤ subject.length) :
    reading.sliced subject capacity offset =
      (reading subject capacity offset).map fun span => .slice (span.slice subject.bytes) := by
  have covers := sound.covers subject capacity offset
  show (reading subject capacity offset).andThen _ = _
  unfold Effect.andThen Effect.map
  cases ended : (reading subject capacity offset).ending with
  | matched span =>
    have present : subject.slice? span = some (span.slice subject.bytes) := by
      rw [covers span inside ended]
      exact if_pos inside
    simp only [bind, slice, present, Effect.andThen, Effect.still, pure, Effect.after,
      List.append_nil, Ending.map]
  | _ => rfl

/-- The slice of a sound span is read as the span is. -/
theorem Sound.sliced_alike {reading : Reading Span} (sound : reading.Sound) :
    reading.Alike scope reading.sliced := by
  intro capacity offset kept inside
  rw [sliced_apply sound capacity inside, ← map_apply]
  exact (Related.itself reading).mapped _ capacity offset kept inside

end Reading

/-! ## Matchers -/

namespace Matcher

/-- The span of a matcher is read as its value is. -/
theorem readings_alike {call : Nat → Reading Span} (scope : Scope)
    (calls : ∀ slot, (call slot).Sound) (matcher : Matcher) :
    (matcher.readings call).span.Alike scope (matcher.readings call).value := by
  have sound := fun part => readings_sound calls part
  induction matcher with
  | collected inner bounds ih => exact (Reading.Related.itself _).covered
  | mapped inner converter ih => exact (Reading.Related.itself _).covered
  | sepOnce left separator right first middle last =>
    have both := first.sepOnce (sound left).span.bounded (.itself _)
      (sound separator).span.bounded last (sound right).span.bounded
    exact (both.alike.mapped _).covered
  | separated item separator least terminated items separators =>
    have all := items.separated least terminated (sound item).span.bounded (.itself _)
      (sound separator).span.bounded
    exact (all.alike.mapped _).covered
  | enclosed head inner tail before ih after =>
    exact (Reading.Related.enclosed (.itself _) (sound head).span.bounded ih
      (sound inner).span.bounded (.itself _) (sound tail).span.bounded).covered
  | _ => exact (sound _).span.sliced_alike

/-- Which slice a matcher yields where it matches a span and its value is a slice. An enclosed
matcher yields the slice of its inner part, and a converter decides for itself. -/
def Yields (definitions : Definitions) (subject : Subject) (state : State) (span : Span)
    (bytes : Bytes) : Matcher → Prop
  | .enclosed head inner _ =>
    (inner.attemptValue definitions subject (head.attempt definitions subject state).state).ending =
      .matched (.slice bytes)
  | .mapped inner converter =>
    ∃ value, (inner.attemptValue definitions subject state).ending = .matched value ∧
      converter value = .produced (.slice bytes)
  | _ => bytes = span.slice subject.bytes

variable {definitions : Definitions} {subject : Subject} {state : State} {bytes : Bytes}

/-- How a run for the value ends. -/
theorem ending_attemptValue (matcher : Matcher) (inside : state.offset ≤ subject.length) :
    (matcher.attemptValue definitions subject state).ending =
      ((matcher.readingsUnder definitions subject).value subject state.capacity
        state.offset).ending :=
  congrArg Prod.fst (matcher.outcome_attemptValue definitions inside)

/-- How a run for the span ends. -/
theorem ending_attempt (matcher : Matcher) (inside : state.offset ≤ subject.length) :
    (matcher.attempt definitions subject state).ending =
      ((matcher.readingsUnder definitions subject).span subject state.capacity
        state.offset).ending :=
  congrArg Prod.fst (matcher.outcome_attempt definitions inside)

/-- The value of an enclosed matcher is what its inner part yields behind the head. -/
theorem enclosed_yields (head inner tail : Matcher) (inside : state.offset ≤ subject.length)
    {value : Value} (matched : ((Matcher.enclosed head inner tail).attemptValue definitions subject
      state).ending = .matched value) :
    (inner.attemptValue definitions subject (head.attempt definitions subject state).state).ending =
      .matched value := by
  rw [ending_attemptValue _ inside] at matched
  obtain ⟨_, _, later⟩ := Effect.andThen_matched_iff.mp matched
  obtain ⟨found, innerMatched, later⟩ := Effect.andThen_matched_iff.mp later
  obtain ⟨_, _, last⟩ := Effect.andThen_matched_iff.mp later
  cases last
  have within := (head.readingsUnder_sound definitions subject).span.bounded subject state.capacity
    state.offset inside
  have moved : (head.attempt definitions subject state).state = _ :=
    congrArg Prod.snd (head.outcome_attempt definitions inside)
  rw [moved]
  refine (ending_attemptValue inner within.inside).trans ?_
  simp only [Effect.applyTo, State.capacity_extend, State.offset_extend]
  exact innerMatched

/-- The value of a mapped matcher is what the converter makes of the value inside. -/
theorem mapped_yields (inner : Matcher) (converter : Converter)
    (inside : state.offset ≤ subject.length) {value : Value}
    (matched : ((Matcher.mapped inner converter).attemptValue definitions subject state).ending =
      .matched value) :
    ∃ found, (inner.attemptValue definitions subject state).ending = .matched found ∧
      converter found = .produced value := by
  rw [ending_attemptValue _ inside] at matched
  obtain ⟨found, innerMatched, later⟩ := Effect.andThen_matched_iff.mp matched
  refine ⟨found, (ending_attemptValue inner inside).trans innerMatched, ?_⟩
  split at later
  · cases later
  · split at later
    · rename_i settled
      cases later
      unfold Conversion.settle at settled
      split at settled
      · rename_i produced
        cases settled
        exact produced
      · cases settled
    · cases later

/-- A value that is a slice is the one that the matcher yields. -/
theorem yields_of_matched (matcher : Matcher) (inside : state.offset ≤ subject.length)
    {span : Span} (spanMatched : (matcher.attempt definitions subject state).ending = .matched span)
    (valueMatched : (matcher.attemptValue definitions subject state).ending =
      .matched (.slice bytes)) :
    matcher.Yields definitions subject state span bytes := by
  have sound := (matcher.readingsUnder_sound definitions subject).span
  have cut := Reading.sliced_apply sound state.capacity inside
  have spanned := (matcher.ending_attempt inside).symm.trans spanMatched
  have valued := (matcher.ending_attemptValue inside).symm.trans valueMatched
  have slices : (matcher.readingsUnder definitions subject).value =
      (matcher.readingsUnder definitions subject).span.sliced →
      bytes = span.slice subject.bytes := by
    intro same
    rw [same, cut] at valued
    obtain ⟨found, matched, slice⟩ := Effect.map_matched_iff.mp valued
    rw [spanned] at matched
    cases matched
    cases slice
    rfl
  cases matcher with
  | enclosed head inner tail => exact enclosed_yields head inner tail inside valueMatched
  | mapped inner converter => exact mapped_yields inner converter inside valueMatched
  | collected inner bounds =>
    obtain ⟨_, wrong⟩ := Reading.map_matched Value.list _ valued
    cases wrong
  | sepOnce left separator right =>
    obtain ⟨_, wrong⟩ := Reading.map_matched
      (fun found : Value × Value => Value.pair found.1 found.2) _ valued
    cases wrong
  | separated item separator least terminated =>
    obtain ⟨_, wrong⟩ := Reading.map_matched Value.list _ valued
    cases wrong
  | _ => exact slices rfl

/-- Running a matcher for its value does what running it for its span does: both match, fail for
the same reason, break the same rule or run out of steps, and both end in the same state. A value
that is a slice is the one that the matcher yields. -/
theorem value_run_agrees (matcher : Matcher) (definitions : Definitions) {subject : Subject}
    {state : State} (inside : state.offset ≤ subject.length) :
    (matcher.attempt definitions subject state).ending.Related
      (fun span value => ∀ bytes, value = .slice bytes →
        matcher.Yields definitions subject state span bytes)
      (matcher.attemptValue definitions subject state).ending ∧
    (matcher.attemptValue definitions subject state).state =
      (matcher.attempt definitions subject state).state := by
  have alike : ((matcher.readingsUnder definitions subject).span subject state.capacity
      state.offset).Related False (fun _ _ => True)
      ((matcher.readingsUnder definitions subject).value subject state.capacity state.offset) :=
    matcher.readings_alike (.whole subject) (definitions.reading_sound _) state.capacity
      state.offset trivial inside
  have spanState := congrArg Prod.snd (matcher.outcome_attempt definitions inside)
  have valueState := congrArg Prod.snd (matcher.outcome_attemptValue definitions inside)
  constructor
  · have ended := alike.ending_of_not id
    rw [← matcher.ending_attempt inside, ← matcher.ending_attemptValue inside] at ended
    refine ended.imp fun span value spanMatched valueMatched _ bytes same => ?_
    rw [same] at valueMatched
    exact matcher.yields_of_matched inside spanMatched valueMatched
  · refine valueState.trans (Eq.trans ?_ spanState.symm)
    show state.extend _ _ = state.extend _ _
    obtain ⟨stop, captures⟩ := alike.place_of_not id
    exact congrArg₂ state.extend stop.symm captures.symm

/-- Both runs of a letter in brackets end behind the closing one. -/
theorem value_run_agrees_quoted :
    let matcher := (Matcher.literal [97]).quoted (.literal [40]) (.literal [41])
    let subject : Subject := ⟨.utf8, [40, 97, 41]⟩
    let state : State := ⟨0, some (.ofCapacity 1)⟩
    (matcher.attemptValue [] subject state).state = (matcher.attempt [] subject state).state ∧
      (matcher.attempt [] subject state).ending = .matched ⟨0, 3⟩ := by
  intro matcher subject state
  exact ⟨(matcher.value_run_agrees [] (Nat.zero_le _)).2, rfl⟩

/-- A letter in brackets yields the letter, which is not the slice of the span. -/
theorem quoted_yields_inner_slice :
    let matcher := (Matcher.literal [97]).quoted (.literal [40]) (.literal [41])
    let subject : Subject := ⟨.utf8, [40, 97, 41]⟩
    let state : State := ⟨0, none⟩
    (matcher.attempt [] subject state).ending = .matched ⟨0, 3⟩ ∧
      (matcher.attemptValue [] subject state).ending = .matched (.slice [97]) ∧
      Span.slice subject.bytes ⟨0, 3⟩ ≠ [97] := by
  exact ⟨rfl, rfl, by decide⟩

end Matcher

end TextPattern
