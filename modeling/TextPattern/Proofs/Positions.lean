import TextPattern.Proofs.Footprint

/-!
# Positions

A run that begins inside the input never goes back and never leaves the input, however it ends, and
what it matches is all that lies between its two ends. The same holds of each of the runs that it
is made of: to break off where one of them does not keep to it would make no difference.
`Matcher.attempt_keeps_place` is the main statement.
-/

namespace TextPattern

variable {α : Type}

/-! ## Inside the input -/

/-- No move leads past the end of the input. -/
theorem Subject.closed_inside (subject : Subject) :
    subject.Closed {offset | offset ≤ subject.length} where
  unit _ present := unitAt_next_le present
  move inside moved := (Reading.advance_ok inside moved).2

/-- The offsets inside the input, where only matchers without a definition may break a rule. -/
def Ground.input (subject : Subject) : Ground where
  subject := subject
  places := {offset | offset ≤ subject.length}
  closed := subject.closed_inside
  inside := id
  allowed := (· = .undefinedMatcher)
  fine _ := True
  cut _ _ := trivial

/-- Inside the input nothing is asked of matchers. -/
theorem Ground.input_admits (subject : Subject) (definitions : Definitions) (matcher : Matcher) :
    (Ground.input subject).Admits definitions matcher := by
  cases matcher with
  | undefined => exact rfl
  | handle | reference => exact fun _ => rfl
  | _ => trivial

/-! ## Checked runs -/

/-- An attempt that breaks off unless it ends where it began or behind, and inside the input. -/
def Attempt.checked (attempt : Attempt α) : Attempt α := fun subject state =>
  let run := attempt subject state
  if state.offset ≤ run.state.offset ∧ run.state.offset ≤ subject.length then run
  else { run with ending := .raised .sliceOutOfRange }

/-- A meaning that breaks off where its attempts are out of place. -/
def Meaning.checked (meaning : Meaning) : Meaning := ⟨meaning.span.checked, meaning.value.checked⟩

/-- Match for the span, under definitions, and break off where any of the runs that a match is made
of would begin outside the input, go back or leave the input. -/
def Matcher.attemptChecked (matcher : Matcher) (definitions : Definitions) : Attempt Span :=
  fun subject state =>
    (matcher.guarded Meaning.checked
      (definitions.guardedCall Meaning.checked (definitions.depthFor subject))).span subject state

/-- An attempt that does what a bounded reading says does so if it is checked. -/
theorem Attempt.Realizes.checked {attempt : Attempt α} {reading : Reading α}
    (realizes : attempt.Realizes reading) (bounded : reading.Bounded) :
    attempt.checked.Realizes reading := by
  intro subject state inside
  have same := realizes subject state inside
  have within := bounded subject state.capacity state.offset inside
  obtain ⟨_, stop⟩ := @Run.ends_as _ (attempt subject state) _ _ same
  have kept : state.offset ≤ (attempt subject state).state.offset ∧
      (attempt subject state).state.offset ≤ subject.length := by
    rw [stop]
    exact ⟨within.forward, within.inside⟩
  rw [← same]
  unfold outcome Attempt.checked
  dsimp only
  rw [if_pos kept]

/-- A meaning that does what sound readings say does so if it is checked. -/
theorem Meaning.Realizes.checked (meaning : Meaning) (readings : Readings)
    (realizes : meaning.Realizes readings) (sound : readings.Sound) :
    meaning.checked.Realizes readings :=
  ⟨realizes.span.checked sound.span.bounded, realizes.value.checked sound.value⟩

namespace Matcher

variable (matcher : Matcher) (definitions : Definitions) {subject : Subject} {state : State}

/-- Checks make no difference to a match that begins inside the input. -/
theorem outcome_attemptChecked (inside : state.offset ≤ subject.length) :
    (matcher.attemptChecked definitions).outcome subject state =
      (matcher.attempt definitions).outcome subject state := by
  rw [matcher.outcome_attempt definitions inside]
  exact (matcher.guarded_realizes Meaning.Realizes.checked
    (definitions.guardedCall_realizes Meaning.Realizes.checked _)
    (definitions.reading_sound _)).span subject state inside

/-- A run that begins inside the input ends where it began or behind, and inside the input. What it
matches is all that lies between its two ends. It never asks for a slice that is out of range, and
none of the runs that it is made of begins outside the input, goes back or leaves the input. -/
theorem attempt_keeps_place (inside : state.offset ≤ subject.length) :
    let run := matcher.attempt definitions subject state
    (state.offset ≤ run.state.offset ∧ run.state.offset ≤ subject.length) ∧
      (∀ span, run.ending = .matched span →
        span.start = state.offset ∧ span.start + span.length = run.state.offset) ∧
      (∀ misuse, run.ending = .raised misuse → misuse = .undefinedMatcher) ∧
      (matcher.attemptChecked definitions).outcome subject state = (run.ending, run.state) := by
  intro run
  obtain ⟨ended, stop⟩ := @Run.ends_as _ run _ _ (matcher.outcome_attempt definitions inside)
  have sound := (matcher.readingsUnder_sound definitions subject).span
  have within := sound.bounded subject state.capacity state.offset inside
  have proper := (@readingsUnder_proper (.input subject) matcher definitions
    fun part _ => Ground.input_admits subject definitions part).span state.capacity state.offset
    inside
  refine ⟨?_, ?_, ?_, matcher.outcome_attemptChecked definitions inside⟩
  · rw [stop]
    exact ⟨within.forward, within.inside⟩
  · intro span matched
    have whole := sound.covers subject state.capacity state.offset span inside
      (ended.symm.trans matched)
    rw [whole, stop]
    exact ⟨rfl, Nat.add_sub_of_le within.forward⟩
  · intro misuse raised
    exact proper.misuse misuse (ended.symm.trans raised)

/-- The second choice begins where the first one did, and a round that goes too far is undone. -/
theorem attempt_keeps_place_choice :
    let matcher := Matcher.choice (.sequence (.literal [97]) (.literal [99]))
      (.repeated (.sequence (.captured 0 (.literal [97])) (.literal [98])) (.atLeast 1))
    let subject : Subject := ⟨.octet, [98, 97, 98, 97]⟩
    let state : State := ⟨1, some (.ofCapacity 1)⟩
    let run := matcher.attempt [] subject state
    run.ending = .matched ⟨1, 2⟩ ∧ 1 + 2 = run.state.offset ∧
      run.state.offset ≤ subject.length ∧
      (matcher.attemptChecked []).outcome subject state = (run.ending, run.state) := by
  intro matcher subject state run
  have matched : run.ending = .matched ⟨1, 2⟩ := by decide +kernel
  obtain ⟨place, covers, _, checked⟩ := @attempt_keeps_place matcher [] subject state (by decide)
  exact ⟨matched, (covers ⟨1, 2⟩ matched).2, place.2, checked⟩

end Matcher

end TextPattern
