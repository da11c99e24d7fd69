import TextPattern.Search
import TextPattern.Proofs.Conversions
import TextPattern.Proofs.Positions

/-!
# Complete grammars

A grammar is complete where nothing that can be reached lacks a definition. Its runs break no rule
of use: those that come to an end have a result, even if converters break off on the way, and so
have searches. `Matcher.complete_never_raises` is the main statement.
-/

namespace TextPattern

variable {α β : Type}

/-! ## Lawful attempts -/

/-- An ending without misuse: a result, unless the steps ran out. -/
def Ending.Lawful (ending : Ending α) : Prop :=
  ending ≠ .exhausted → ∃ result, ending.settle = .matched result

namespace Ending

/-- An ending is lawful where it is no misuse. -/
theorem lawful_of_not_raised {ending : Ending α} (never : ∀ misuse, ending ≠ .raised misuse) :
    ending.Lawful := by
  intro ended
  cases ending with
  | matched value => exact ⟨.ok value, rfl⟩
  | failed failure => exact ⟨.error failure, rfl⟩
  | raised misuse => exact absurd rfl (never misuse)
  | exhausted => exact absurd rfl ended

/-- A misuse is not lawful. -/
theorem Lawful.not_raised {ending : Ending α} (lawful : ending.Lawful) (misuse : Misuse) :
    ending ≠ .raised misuse := by
  rintro rfl
  obtain ⟨result, settled⟩ := lawful nofun
  cases settled

end Ending

/-- An attempt that breaks no rule, wherever in a subject it begins. -/
def Attempt.Lawful (attempt : Attempt α) (subject : Subject) : Prop :=
  ∀ state : State, state.offset ≤ subject.length → (attempt subject state).ending.Lawful

/-! ## Searches -/

namespace Attempt

variable {subject : Subject} {attempt : Attempt Span}

/-- A search takes the match at its first offset, or drops the captures made there and goes on
behind the unit, if there is one. -/
theorem outcome_searchFrom {offset : Nat} (inside : offset ≤ subject.length) (rounds : Nat)
    (state : State) :
    (searchFrom attempt (rounds + 1) offset).outcome subject state =
      match attempt.outcome subject { state with offset } with
      | (.matched span, after) => (.matched (some span), after)
      | (.failed _, after) =>
        let undone := after.rollback state.checkpoint.mark
        match subject.unitAt offset with
        | none => (.matched none, undone)
        | some unit => (searchFrom attempt rounds unit.next).outcome subject undone
      | (.raised misuse, after) => (.raised misuse, after)
      | (.exhausted, after) => (.exhausted, after) := by
  rw [searchFrom, outcome_bind, outcome_subject]
  dsimp only
  rw [if_neg (Nat.not_lt_of_le inside)]
  simp only [outcome_bind, outcome_checkpoint, outcome_seek, outcome_observe]
  obtain ⟨ending, after⟩ := attempt.outcome subject { state with offset }
  cases ending with
  | matched span => rfl
  | failed failure =>
    simp only [Ending.settle, outcome_bind, outcome_rollback, outcome_unitAt]
    cases subject.unitAt offset <;> rfl
  | _ => rfl

/-- A search inside the input yields a span or none where its attempts are lawful. -/
theorem Lawful.searchFrom (lawful : attempt.Lawful subject) (rounds : Nat) {offset : Nat}
    (inside : offset ≤ subject.length) (state : State)
    (ended : ((TextPattern.searchFrom attempt rounds offset).outcome subject state).1 ≠
      .exhausted) :
    ∃ found, ((TextPattern.searchFrom attempt rounds offset).outcome subject state).1 =
      .matched found := by
  induction rounds generalizing offset state with
  | zero =>
    rw [TextPattern.searchFrom, outcome_bind, outcome_subject] at ended
    dsimp only at ended
    rw [if_neg (Nat.not_lt_of_le inside)] at ended
    exact absurd rfl ended
  | succ rounds ih =>
    have known := lawful { state with offset } inside
    rw [outcome_searchFrom inside] at ended ⊢
    change (attempt.outcome subject { state with offset }).1.Lawful at known
    generalize attempt.outcome subject { state with offset } = tried at known ended ⊢
    obtain ⟨ending, after⟩ := tried
    cases ending with
    | matched span => exact ⟨some span, rfl⟩
    | failed failure =>
      dsimp only at ended ⊢
      cases present : subject.unitAt offset with
      | none => exact ⟨none, rfl⟩
      | some unit =>
        rw [present] at ended
        exact ih (Subject.unitAt_next_le present) _ ended
    | raised misuse => exact absurd rfl (known.not_raised misuse)
    | exhausted => exact absurd rfl ended

/-- A search from the position goes back there where it finds nothing. -/
theorem outcome_find (state : State) :
    (TextPattern.find attempt).outcome subject state =
      match (TextPattern.searchFrom attempt (subject.length - state.offset + 1)
          state.offset).outcome subject state with
      | (.matched (some span), after) => (.matched (some span), after)
      | (.matched none, after) => (.matched none, { after with offset := state.offset })
      | (.failed failure, after) => (.failed failure, after)
      | (.raised misuse, after) => (.raised misuse, after)
      | (.exhausted, after) => (.exhausted, after) := by
  unfold TextPattern.find
  simp only [outcome_bind, outcome_offset, outcome_remaining]
  generalize (TextPattern.searchFrom attempt _ state.offset).outcome subject state = found
  obtain ⟨ending, after⟩ := found
  cases ending with
  | matched found => cases found <;> rfl
  | _ => rfl

/-- A search from inside the input yields a span or none where its attempts are lawful, and never
fails. -/
theorem Lawful.find (lawful : attempt.Lawful subject) {state : State}
    (inside : state.offset ≤ subject.length)
    (ended : (TextPattern.find attempt subject state).ending ≠ .exhausted) :
    ∃ found, (TextPattern.find attempt subject state).ending = .matched found := by
  have searched := lawful.searchFrom (subject.length - state.offset + 1) inside state
  change ((TextPattern.find attempt).outcome subject state).1 ≠ .exhausted at ended
  show ∃ found, ((TextPattern.find attempt).outcome subject state).1 = .matched found
  rw [outcome_find] at ended ⊢
  generalize (TextPattern.searchFrom attempt _ state.offset).outcome subject state = tried
    at searched ended ⊢
  obtain ⟨ending, after⟩ := tried
  cases ending with
  | matched found =>
    cases found with
    | some span => exact ⟨some span, rfl⟩
    | none => exact ⟨none, rfl⟩
  | exhausted => exact absurd rfl ended
  | _ =>
    obtain ⟨_, wrong⟩ := searched nofun
    cases wrong

end Attempt

/-! ## Complete grammars -/

/-- The offsets inside the input, where no rule may be broken. -/
def Ground.lawful (subject : Subject) : Ground :=
  { Ground.input subject with allowed := fun _ => False }

namespace Matcher

/-- A matcher has a definition, and so does what it calls. -/
def IsDefined (definitions : Definitions) : Matcher → Prop
  | .undefined => False
  | .handle slot => definitions.find? slot ≠ none
  | .reference slot => definitions.find? slot ≠ none
  | _ => True

/-- Whatever a matcher reaches has a definition: no box is empty, and every handle and every
reference finds the definition of its slot. An expired slot has none. -/
def Complete (matcher : Matcher) (definitions : Definitions) : Prop :=
  matcher.Everywhere definitions (IsDefined definitions)

variable {matcher : Matcher} {definitions : Definitions} {subject : Subject} {state : State}

/-- All that a complete grammar reaches is admitted where no rule may be broken. -/
theorem Complete.admitted (complete : matcher.Complete definitions) (subject : Subject) :
    matcher.Everywhere definitions ((Ground.lawful subject).Admits definitions) := by
  intro part reached
  have defined := complete part reached
  cases part with
  | undefined => exact defined
  | handle | reference => exact fun missing => defined missing
  | _ => trivial

/-- A matcher around a complete grammar is complete if it has a definition itself. -/
theorem Complete.captured (complete : matcher.Complete definitions) (slot : Nat) :
    (Matcher.captured slot matcher).Complete definitions := by
  intro part reached
  rcases Relation.ReflTransGen.cases_head reached with rfl | ⟨inner, among, later⟩
  · trivial
  · rw [List.mem_singleton.mp among] at later
    exact complete part later

/-- The runs of a complete grammar break no rule. -/
theorem Complete.lawful (complete : matcher.Complete definitions) (subject : Subject) :
    (matcher.attempt definitions).Lawful subject ∧
      (matcher.attemptValue definitions).Lawful subject := by
  have proper := @readingsUnder_proper (.lawful subject) matcher definitions
    (complete.admitted subject)
  constructor <;> intro state inside <;> apply Ending.lawful_of_not_raised <;>
    intro misuse raised
  · have ended := (Run.ends_as (matcher.outcome_attempt definitions inside)).1
    exact (proper.span state.capacity state.offset inside).misuse misuse (ended.symm.trans raised)
  · have ended := (Run.ends_as (matcher.outcome_attemptValue definitions inside)).1
    exact (proper.value state.capacity state.offset inside).misuse misuse (ended.symm.trans raised)

/-- A run that ends at all ends with a result where the grammar is complete: for the span, for the
value, with its span captured, and, with a span or without one, as a search. This is so although
converters may break off: where the value that a matcher yields makes one do so, the mapped matcher
fails to convert what was matched, with the message for a cause. -/
theorem complete_never_raises (complete : matcher.Complete definitions)
    (inside : state.offset ≤ subject.length) (slot : Nat) :
    (matcher.attempt definitions subject state).ending.Lawful ∧
      (matcher.attemptValue definitions subject state).ending.Lawful ∧
      (Combinator.captured slot (matcher.attempt definitions) subject state).ending.Lawful ∧
      ((find (matcher.attempt definitions) subject state).ending ≠ .exhausted →
        ∃ found, (find (matcher.attempt definitions) subject state).ending = .matched found) ∧
      ∀ inner converter value message,
        (inner.attemptValue definitions subject state).ending = .matched value →
        converter value = .brokeOff message →
        let stop := (inner.attemptValue definitions subject state).state.offset
        let failure := Failure.conversionFailed state.offset
          (Span.slice subject.bytes (.between state.offset stop)) message.beforeZero
        ((Matcher.mapped inner converter).attempt definitions subject state).ending =
            .failed failure ∧
          ((Matcher.mapped inner converter).attemptValue definitions subject state).ending =
            .failed failure := by
  obtain ⟨spanLawful, valueLawful⟩ := complete.lawful subject
  have capturedLawful := ((complete.captured slot).lawful subject).1
  refine ⟨spanLawful state inside, valueLawful state inside, capturedLawful state inside,
    spanLawful.find inside, ?_⟩
  intro inner converter value message matched broke stop failure
  have refused : ∀ made, converter value ≠ .produced made := by
    intro made
    rw [broke]
    exact nofun
  obtain ⟨span, value⟩ := mapped_refused inside matched refused
  rw [broke] at span value
  exact ⟨congrArg Prod.fst span, congrArg Prod.fst value⟩

/-- Nested brackets that refer to themselves, and a converter that breaks off over them. -/
theorem complete_never_raises_recursive :
    let brackets := Matcher.enclosed (.literal [40]) (.repeated (.reference 0) .any) (.literal [41])
    let definitions : Definitions := [some brackets]
    let breaking := Converter.breaking .valueOfFailure
    let matcher := Matcher.choice (.mapped (.handle 0) breaking) (.handle 0)
    let subject : Subject := ⟨.octet, [40, 40, 41, 41]⟩
    let state : State := ⟨0, some (.ofCapacity 1)⟩
    let failure := Failure.conversionFailed 0 [40, 40, 41, 41] Misuse.valueOfFailure.message
    matcher.Complete definitions ∧ state.offset ≤ subject.length ∧
      ((matcher.attempt definitions subject state).ending = .matched ⟨0, 4⟩ ∧
        (matcher.attempt definitions subject state).ending.Lawful) ∧
      (matcher.attemptValue definitions subject state).ending.Lawful ∧
      (Combinator.captured 0 (matcher.attempt definitions) subject state).ending.Lawful ∧
      (∃ found, (find (matcher.attempt definitions) subject state).ending = .matched found) ∧
      ((Matcher.mapped (.handle 0) breaking).attempt definitions subject state).ending =
        .failed failure := by
  intro brackets definitions breaking matcher subject state failure
  have complete : matcher.Complete definitions := by
    refine .of_closed [matcher, .mapped (.handle 0) breaking, .handle 0, brackets, .literal [40],
      .repeated (.reference 0) .any, .literal [41], .reference 0] List.mem_cons_self ?_ ?_
    · simp [parts, matcher, brackets, definitions, Definitions.find?]
    · simp [IsDefined, matcher, brackets, definitions, Definitions.find?]
  have inside : state.offset ≤ subject.length := Nat.zero_le _
  obtain ⟨span, value, captured, search, broken⟩ := complete_never_raises complete inside 0
  have whole : Misuse.valueOfFailure.message.beforeZero = Misuse.valueOfFailure.message := by
    decide +kernel
  have stop : ((Matcher.handle 0).attemptValue definitions subject state).state.offset = 4 := by
    decide +kernel
  obtain ⟨yielded, matched⟩ : ∃ yielded,
      ((Matcher.handle 0).attemptValue definitions subject state).ending = .matched yielded := by
    have found : ((Matcher.handle 0).attemptValue definitions subject state).ending.map
        (fun _ => ()) = .matched () := by decide +kernel
    cases ended : ((Matcher.handle 0).attemptValue definitions subject state).ending with
    | matched yielded => exact ⟨yielded, rfl⟩
    | _ =>
      rw [ended] at found
      cases found
  have refused := (broken (.handle 0) breaking yielded _ matched rfl).1
  rw [stop, whole] at refused
  exact ⟨complete, inside, ⟨by decide +kernel, span⟩, value, captured,
    search (by decide +kernel), refused⟩

end Matcher

end TextPattern
