import TextPattern.Proofs.MatcherRealization

/-!
# Conversions

A conversion is asked once the match is over: it can only decide what becomes of the value. However
it comes out, the attempt ends where the match ended, and a conversion that produces nothing, for
whatever reason, is a failure to convert what was matched.
-/

namespace TextPattern

namespace Conversion

variable {conversion : Conversion} {position : Nat} {slice : Bytes}

/-- A conversion settles as a failure where it produced no value. -/
theorem settle_of_refused (refused : ∀ value, conversion ≠ .produced value) :
    conversion.settle position slice =
      .error (.conversionFailed position slice conversion.cause) := by
  cases conversion with
  | produced value => exact absurd rfl (refused value)
  | _ => rfl

/-- A conversion that settles as a failure produced no value, and the failure says why. -/
theorem refused_of_settle {failure : Failure}
    (settled : conversion.settle position slice = .error failure) :
    (∀ value, conversion ≠ .produced value) ∧
      failure = .conversionFailed position slice conversion.cause := by
  cases conversion with
  | produced value => cases settled
  | _ =>
    cases settled
    exact ⟨nofun, rfl⟩

end Conversion

namespace Attempt

variable {inner : Attempt Value} {convert : Value → Conversion} {subject : Subject} {state : State}

/-- A converted attempt ends where the attempt itself does. Only a match is converted, together
with the slice of all that was matched. -/
theorem outcome_converted (inside : state.offset ≤ subject.length) :
    (Combinator.converted inner convert).outcome subject state =
      match inner.outcome subject state with
      | (.matched value, after) =>
        (ofResult ((convert value).settle state.offset
          (Span.slice subject.bytes (.between state.offset after.offset)))).outcome subject after
      | (.failed failure, after) => (.failed failure, after)
      | (.raised misuse, after) => (.raised misuse, after)
      | (.exhausted, after) => (.exhausted, after) := by
  have cut (stop : Nat) : subject.slice? (.between state.offset stop) =
      some (Span.slice subject.bytes (.between state.offset stop)) := if_pos inside
  unfold Combinator.converted
  rw [outcome_bind, outcome_offset]
  dsimp only
  rw [outcome_bind]
  obtain ⟨ending, after⟩ := inner.outcome subject state
  cases ending with
  | matched value =>
    dsimp only
    rw [outcome_bind, outcome_offset]
    dsimp only
    rw [outcome_bind, outcome_slice, cut]
  | _ => rfl

/-- Where a converter refuses the value of a match, the attempt fails to convert what was matched,
and stays behind it. -/
theorem outcome_converted_refused {value : Value} {after : State}
    (inside : state.offset ≤ subject.length)
    (matched : inner.outcome subject state = (.matched value, after))
    (refused : ∀ made, convert value ≠ .produced made) :
    (Combinator.converted inner convert).outcome subject state =
      (.failed (.conversionFailed state.offset
        (Span.slice subject.bytes (.between state.offset after.offset)) (convert value).cause),
        after) := by
  rw [outcome_converted inside, matched]
  dsimp only
  rw [Conversion.settle_of_refused refused, outcome_ofResult]

end Attempt

namespace Matcher

variable {definitions : Definitions} {subject : Subject} {state : State}

/-- A mapped matcher whose converter refuses the value fails to convert what was matched, whatever
it is run for. -/
theorem mapped_refused {inner : Matcher} {converter : Converter} {value : Value}
    (inside : state.offset ≤ subject.length)
    (matched : (inner.attemptValue definitions subject state).ending = .matched value)
    (refused : ∀ made, converter value ≠ .produced made) :
    let after := (inner.attemptValue definitions subject state).state
    let failure := Failure.conversionFailed state.offset
      (Span.slice subject.bytes (.between state.offset after.offset)) (converter value).cause
    ((Matcher.mapped inner converter).attempt definitions).outcome subject state =
        (.failed failure, after) ∧
      ((Matcher.mapped inner converter).attemptValue definitions).outcome subject state =
        (.failed failure, after) := by
  intro after failure
  have converted : (Combinator.converted (inner.attemptValue definitions) converter).outcome
      subject state = (.failed failure, after) :=
    Attempt.outcome_converted_refused inside (Prod.ext matched rfl) refused
  refine ⟨?_, converted⟩
  show (Combinator.covering (Combinator.converted (inner.attemptValue definitions)
    converter)).outcome subject state = _
  rw [Attempt.outcome_covering, converted]
  rfl

end Matcher

end TextPattern
