import Mathlib.Data.List.TakeWhile
import TextPattern.Proofs.Agreement
import TextPattern.Proofs.Conversions

/-!
# Mapped matches

To map a matcher is to convert its value, and nothing else: the match is over when the converter is
asked, and what was matched and captured stays as it is. A refusal becomes a failure once, where the
converter is asked; whatever is mapped around it hands the failure on. Two converters, one mapped
around the other, are therefore one. `Matcher.mapping_converts_and_fuses` is the main statement.
-/

namespace TextPattern

/-! ## Refusals -/

namespace Conversion

/-- Why a conversion refused its value, in the words that its failure is given: a fixed text where
it produced nothing, the cause of a failed conversion inside it, the message of any other failure,
and the message with which it broke off, which a zero octet ends. -/
inductive RefusedFor : Conversion → Bytes → Prop where
  | absent : RefusedFor .absent (Bytes.ofString "conversion produced no value")
  | converting (position : Nat) (slice cause : Bytes) :
    RefusedFor (.failed (.conversionFailed position slice cause)) cause
  | failing {failure : Failure} (other : failure.kind ≠ .conversionFailed) :
    RefusedFor (.failed failure) failure.message
  | breaking {text rest : Bytes} (whole : 0 ∉ text) (ended : ∀ octet ∈ rest.head?, octet = 0) :
    RefusedFor (.brokeOff (text ++ rest)) text

/-- What a conversion comes to where a slice was matched at a position: the value that it produced,
or a failure that says where, what and why. -/
inductive ComesTo (conversion : Conversion) (position : Nat) (slice : Bytes) :
    Ending Value → Prop where
  | produced {value : Value} (made : conversion = .produced value) :
    ComesTo conversion position slice (.matched value)
  | refused {cause : Bytes} (why : conversion.RefusedFor cause) :
    ComesTo conversion position slice (.failed (.conversionFailed position slice cause))

/-- What breaks off is refused for its message up to the first zero octet. -/
theorem refusedFor_brokeOff (message : Bytes) :
    (brokeOff message).RefusedFor message.beforeZero := by
  have parts : message.beforeZero ++ message.dropWhile (fun octet => octet != 0) = message :=
    List.takeWhile_append_dropWhile
  have whole : 0 ∉ message.beforeZero := by
    intro member
    have other := List.mem_takeWhile_imp member
    exact absurd other (by decide)
  have ended : ∀ octet ∈ (message.dropWhile fun octet => octet != 0).head?, octet = 0 := by
    intro octet first
    have stopped := List.head?_dropWhile_not (fun octet : UInt8 => octet != 0) message
    rw [Option.mem_def.mp first] at stopped
    simpa using stopped
  have refused := RefusedFor.breaking whole ended
  rwa [parts] at refused

/-- A conversion that produced no value was refused for its cause. -/
theorem refusedFor_cause {conversion : Conversion}
    (refused : ∀ value, conversion ≠ .produced value) : conversion.RefusedFor conversion.cause := by
  cases conversion with
  | produced value => exact absurd rfl (refused value)
  | absent => exact .absent
  | failed failure =>
    cases failure with
    | conversionFailed position slice cause => exact .converting position slice cause
    | _ => exact .failing nofun
  | brokeOff message => exact refusedFor_brokeOff message

end Conversion

namespace Converter

/-- One converter after the other. Where the first one refuses, both do. -/
def andThen (first second : Converter) : Converter := fun value =>
  match first value with
  | .produced made => second made
  | refused => refused

end Converter

/-! ## Converted attempts -/

namespace Attempt

variable {inner : Attempt Value} {convert : Value → Conversion} {subject : Subject} {state : State}

/-- A converted attempt goes on from a match: it cuts out what was matched and asks the
converter. -/
theorem converted_apply :
    Combinator.converted inner convert subject state =
      (inner subject state).andThen fun value after =>
        (slice (.between state.offset after.offset) >>= fun bytes =>
          ofResult ((convert value).settle state.offset bytes)) subject after := rfl

/-- To convert twice is to convert once, with one converter after the other. -/
theorem converted_converted (inner : Attempt Value) (first second : Converter) :
    Combinator.converted (Combinator.converted inner first) second =
      Combinator.converted inner (first.andThen second) := by
  funext subject state
  rw [converted_apply, converted_apply, converted_apply]
  obtain ⟨ending, after, trace⟩ := inner subject state
  cases ending with
  | matched value =>
    cases cut : subject.slice? (.between state.offset after.offset) with
    | none => simp [Run.andThen, bind, slice, cut]
    | some bytes =>
      cases made : first value with
      | produced value =>
        simp [Run.andThen, bind, slice, cut, made, Conversion.settle, ofResult, pure,
          Converter.andThen]
      | _ =>
        simp [Run.andThen, bind, slice, cut, made, Conversion.settle, ofResult, fail,
          Converter.andThen]
  | _ => rfl

/-- Whatever a converter makes of a match, the attempt ends in the state in which it matched. -/
theorem outcome_converted_state (inside : state.offset ≤ subject.length) :
    ((Combinator.converted inner convert).outcome subject state).2 =
      (inner.outcome subject state).2 := by
  rw [outcome_converted inside]
  obtain ⟨ending, after⟩ := inner.outcome subject state
  cases ending with
  | matched value =>
    dsimp only
    rw [outcome_ofResult]
    split <;> rfl
  | _ => rfl

/-- Where the attempt itself fails, so does a converted one, and nothing is converted. -/
theorem outcome_converted_failed {failure : Failure} {after : State}
    (inside : state.offset ≤ subject.length)
    (failed : inner.outcome subject state = (.failed failure, after)) :
    (Combinator.converted inner convert).outcome subject state = (.failed failure, after) := by
  rw [outcome_converted inside, failed]

/-- Where the attempt itself matches, a converted one comes to what the conversion comes to. -/
theorem outcome_converted_matched {value : Value} {after : State}
    (inside : state.offset ≤ subject.length)
    (matched : inner.outcome subject state = (.matched value, after)) :
    (convert value).ComesTo state.offset
      (Span.slice subject.bytes (.between state.offset after.offset))
      ((Combinator.converted inner convert).outcome subject state).1 := by
  by_cases produced : ∃ made, convert value = .produced made
  · obtain ⟨made, same⟩ := produced
    rw [outcome_converted inside, matched]
    have settled : (convert value).settle state.offset
        (Span.slice subject.bytes (.between state.offset after.offset)) = .ok made := by
      rw [same]
      rfl
    dsimp only
    rw [settled]
    exact .produced same
  · have refused : ∀ made, convert value ≠ .produced made := fun made same =>
      produced ⟨made, same⟩
    rw [outcome_converted_refused inside matched refused]
    exact .refused (Conversion.refusedFor_cause refused)

end Attempt

/-! ## Mapped matchers -/

/-- What ends as a failure does is that failure. -/
theorem Ending.Related.eq_failed {α β : Type} {related : α → β → Prop} {ending : Ending β}
    {failure : Failure} (alike : (Ending.failed failure).Related related ending) :
    ending = .failed failure := by
  cases alike
  rfl

/-- What ends as a match does is a match. -/
theorem Ending.Related.exists_matched {α β : Type} {related : α → β → Prop} {ending : Ending β}
    {value : α} (alike : (Ending.matched value).Related related ending) :
    ∃ found, ending = .matched found := by
  cases alike
  exact ⟨_, rfl⟩

namespace Matcher

variable {definitions : Definitions} {subject : Subject} {state : State}

/-- A run for the value ends as a run for the span does, and in the same state. -/
theorem outcome_agrees (matcher : Matcher) (inside : state.offset ≤ subject.length) :
    let run := (matcher.attempt definitions).outcome subject state
    let gives := (matcher.attemptValue definitions).outcome subject state
    run.1.Related (fun _ _ => True) gives.1 ∧ gives.2 = run.2 := by
  intro run gives
  have alike : ((matcher.readingsUnder definitions subject).span subject state.capacity
      state.offset).Related False (fun _ _ => True)
      ((matcher.readingsUnder definitions subject).value subject state.capacity state.offset) :=
    matcher.readings_alike (.whole subject) (definitions.reading_sound _) state.capacity
      state.offset trivial inside
  have spanned : run = _ := matcher.outcome_attempt definitions inside
  have valued : gives = _ := matcher.outcome_attemptValue definitions inside
  obtain ⟨stop, captures⟩ := alike.place_of_not id
  rw [spanned, valued]
  exact ⟨alike.ending_of_not id, congrArg₂ state.extend stop.symm captures.symm⟩

/-- What a run for the span matches is all that it passed over. -/
theorem matched_eq (matcher : Matcher) (inside : state.offset ≤ subject.length) {span : Span} :
    let run := (matcher.attempt definitions).outcome subject state
    run.1 = .matched span → span = .between state.offset run.2.offset := by
  intro run matched
  have ran : run = _ := matcher.outcome_attempt definitions inside
  rw [ran] at matched ⊢
  exact (matcher.readingsUnder_sound definitions subject).span.covers subject state.capacity
    state.offset span inside matched

/-- To map a matcher twice is to map it once, with one converter after the other. -/
theorem meaning_mapped_mapped (matcher : Matcher) (first second : Converter)
    (call : Nat → Attempt Span) :
    (mapped (mapped matcher first) second).meaning call =
      (mapped matcher (first.andThen second)).meaning call := by
  have fused := Attempt.converted_converted (matcher.meaning call).value first second
  have spans :=
    congrArg (fun value => Attempt.tracedFailure "map" (Combinator.covering value)) fused
  exact congrArg₂ Meaning.mk spans fused

/-- To map a matcher only converts: whether or not its value is converted, the run ends where that
of the matcher itself does and leaves the same captures behind. A failure to match is handed on, and
a match comes to what its conversion comes to, for the slice that was matched. To map twice is to
map once with both converters, one after the other, in every respect. -/
theorem mapping_converts_and_fuses (matcher : Matcher) (converter next : Converter)
    (definitions : Definitions) {subject : Subject} {state : State}
    (inside : state.offset ≤ subject.length) :
    let run (matcher : Matcher) := (matcher.attempt definitions).outcome subject state
    let gives (matcher : Matcher) := (matcher.attemptValue definitions).outcome subject state
    let once := mapped matcher converter
    let twice := mapped once next
    let fused := mapped matcher (converter.andThen next)
    ((run once).2 = (run matcher).2 ∧ (gives once).2 = (run matcher).2) ∧
      (∀ failure, (run matcher).1 = .failed failure →
        (run once).1 = .failed failure ∧ (gives once).1 = .failed failure) ∧
      (∀ span, (run matcher).1 = .matched span → ∃ value, (gives matcher).1 = .matched value ∧
        (converter value).ComesTo state.offset (span.slice subject.bytes) (gives once).1 ∧
        (run once).1 = (gives once).1.map fun _ => span) ∧
      twice.attempt definitions = fused.attempt definitions ∧
      twice.attemptValue definitions = fused.attemptValue definitions := by
  intro run gives once twice fused
  have agrees : (run matcher).1.Related (fun _ _ => True) (gives matcher).1 ∧
      (gives matcher).2 = (run matcher).2 := matcher.outcome_agrees inside
  obtain ⟨ended, stays⟩ := agrees
  have spanned : run once =
      ((gives once).1.map fun _ => .between state.offset (gives once).2.offset, (gives once).2) :=
    Attempt.outcome_covering subject state (once.attemptValue definitions)
  have handed : (gives once).2 = (gives matcher).2 := Attempt.outcome_converted_state inside
  have stops : (gives once).2 = (run matcher).2 := handed.trans stays
  have fuses (call : Nat → Attempt Span) : twice.meaning call = fused.meaning call :=
    meaning_mapped_mapped matcher converter next call
  refine ⟨⟨?_, stops⟩, ?_, ?_, ?_, ?_⟩
  · rw [spanned]
    exact stops
  · intro failure failed
    rw [failed] at ended
    have given : gives matcher = (.failed failure, (gives matcher).2) :=
      Prod.ext ended.eq_failed rfl
    have passed : (gives once).1 = .failed failure :=
      congrArg Prod.fst (Attempt.outcome_converted_failed inside given)
    refine ⟨?_, passed⟩
    rw [spanned, passed]
    rfl
  · intro span matched
    rw [matched] at ended
    obtain ⟨value, found⟩ := ended.exists_matched
    have whole : span = .between state.offset (gives matcher).2.offset := by
      rw [stays]
      exact matcher.matched_eq inside matched
    refine ⟨value, found, ?_, ?_⟩
    · rw [whole]
      exact Attempt.outcome_converted_matched inside (Prod.ext found rfl)
    · rw [spanned, stops, ← stays, ← whole]
  · funext subject state
    exact congrArg (fun meaning => meaning.span subject state) (fuses _)
  · funext subject state
    exact congrArg (fun meaning => meaning.value subject state) (fuses _)

/-- A text that is too short for one converter, which breaks off over it, and long enough for
another one, whose number a third one then doubles. -/
theorem mapping_converts_and_fuses_broken_off :
    let matcher := Matcher.captured 0 (.literal [97, 98])
    let short := Converter.minimumLength 3 [115, 0, 116]
    let long := Converter.minimumLength 2 []
    let subject : Subject := ⟨.octet, [120, 97, 98]⟩
    let state : State := ⟨1, some ((CaptureStore.ofCapacity 1).replay [(0, ⟨0, 1⟩)])⟩
    let run (matcher : Matcher) := (matcher.attempt []).outcome subject state
    let gives (matcher : Matcher) := (matcher.attemptValue []).outcome subject state
    (state.offset ≤ subject.length ∧ (run matcher).1 = .matched ⟨1, 2⟩ ∧
      (gives (mapped matcher short)).1 = .failed (.conversionFailed 1 [97, 98] [115]) ∧
      (gives (mapped (mapped matcher long) .double)).1 = .matched (.integer 4)) ∧
      (run (mapped matcher short)).2 = (run matcher).2 ∧
      (gives (mapped matcher long)).2 = (run matcher).2 ∧
      (mapped (mapped matcher short) .double).attempt [] =
        (mapped matcher (short.andThen .double)).attempt [] := by
  intro matcher short long subject state run gives
  have inside : state.offset ≤ subject.length := by decide
  obtain ⟨⟨stays, _⟩, _, _, fused, _⟩ :=
    mapping_converts_and_fuses matcher short .double [] inside
  obtain ⟨⟨_, behind⟩, _⟩ := mapping_converts_and_fuses matcher long .double [] inside
  exact ⟨⟨inside, rfl, rfl, rfl⟩, stays, behind, fused⟩

end Matcher

end TextPattern
