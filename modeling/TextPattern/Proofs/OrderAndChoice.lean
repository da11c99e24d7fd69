import TextPattern.Proofs.EffectLaws
import TextPattern.Proofs.MatcherRealization

/-!
# Laws of order and choice

To match the longer of two is to match the winner alone: the other one leaves no trace. How
sequences, choices and longest matches of more than two matchers are grouped makes no difference,
and a first part that two alternatives share can be matched before the choice between them.
`Matcher.longest_runs_winner`, `Matcher.grouped_runs_alike` and `Matcher.common_part_factored` are
the main statements.
-/

namespace TextPattern

namespace Reading

/-! ## Readings -/

/-- Three parts one after the other, of which either two may be taken together. -/
theorem sequence_assoc (first second third : Reading Span) :
    sequence (sequence first second) third = sequence first (sequence second third) :=
  calc
    covering ((first >>= fun _ => second).covering >>= fun _ => third)
    _ = covering ((first >>= fun _ => second) >>= fun _ => third) := by rw [covering_bind]
    _ = covering (first >>= fun _ => second >>= fun _ => third) := by rw [bind_assoc]
    _ = covering (first >>= fun _ => (second >>= fun _ => third).covering) :=
      (covering_bind_covering first _).symm

/-- A choice has undone its failure already. -/
theorem restoring_choice (first second : Reading Span) :
    (choice first second).restoring = choice first second := by
  funext subject capacity offset
  calc (choice first second).restoring subject capacity offset
    _ = (first subject capacity offset).orElse fun _ =>
        second.restoring.restoring subject capacity offset := Effect.orElse_assoc _ _ _
    _ = choice first second subject capacity offset := by
      rw [restoring_restoring]
      rfl

/-- What takes the place of a failure does not depend on whether it was undone. -/
theorem choice_restoring (first second : Reading Span) :
    choice first.restoring second = choice first second := by
  funext subject capacity offset
  exact Effect.orElse_assoc _ _ _

/-- Three alternatives, of which either two may be taken together. -/
theorem choice_assoc (first second third : Reading Span) :
    choice (choice first second) third = choice first (choice second third) := by
  funext subject capacity offset
  calc choice (choice first second) third subject capacity offset
    _ = (first subject capacity offset).orElse fun _ =>
        choice second.restoring third subject capacity offset := Effect.orElse_assoc _ _ _
    _ = (first subject capacity offset).orElse fun _ =>
        (choice second third).restoring subject capacity offset := by
      rw [choice_restoring, restoring_choice]

/-- A first part that two alternatives share may come before the choice, where a failure is
undone as a whole. -/
theorem choice_of_sequences (common first second : Reading Span) :
    choice (sequence common first) (sequence common second) =
      restoring (sequence common (choice first second)) := by
  funext subject capacity offset
  unfold choice sequence restoring covering
  simp only [bind, Effect.andThen]
  cases ended : (common subject capacity offset).ending with
  | matched value =>
    -- The common part is over: what follows begins where it stopped.
    dsimp only
    generalize (common subject capacity offset).stop = stop
    generalize (common subject capacity offset).captures = captures
    cases later : (first subject capacity stop).ending with
    | failed failure =>
      cases last : (second subject capacity stop).ending <;>
        simp [Effect.orElse, Effect.map, Effect.after, Ending.map, Effect.still, later, last]
    | _ => simp [Effect.orElse, Effect.map, Effect.after, Ending.map, later]
  | _ => rfl

end Reading

/-! ## Groupings -/

/-- A way of grouping operands in pairs. -/
inductive Grouping (α : Type) where
  /-- One operand. -/
  | single (operand : α)
  /-- Two groups next to each other. -/
  | joined (left right : Grouping α)

namespace Grouping

variable {α β : Type}

/-- The operands from left to right. -/
def operands : Grouping α → List α
  | .single operand => [operand]
  | .joined left right => left.operands ++ right.operands

/-- Put the operands together by an operation, group by group. -/
def join (operation : α → α → α) : Grouping α → α
  | .single operand => operand
  | .joined left right => operation (left.join operation) (right.join operation)

/-- Operands grouped to the right. -/
def toRight (first : α) : List α → Grouping α
  | [] => .single first
  | second :: later => .joined (.single first) (toRight second later)

/-- There is no group without an operand. -/
theorem operands_ne_nil (grouping : Grouping α) : grouping.operands ≠ [] := by
  induction grouping with
  | single operand => exact List.cons_ne_nil _ _
  | joined left right ih _ => exact List.append_ne_nil_of_left_ne_nil ih _

/-- Grouping to the right keeps the operands in order. -/
@[simp] theorem operands_toRight (first : α) (later : List α) :
    (toRight first later).operands = first :: later := by
  induction later generalizing first with
  | nil => rfl
  | cons second later ih => exact congrArg (first :: ·) (ih second)

/-- What an operation makes of groups means what its associative meaning makes of the operands one
after the other. -/
theorem meaning_join (meaning : α → β) (operation : α → α → α) (combine : β → β → β)
    [Std.Associative combine]
    (combined : ∀ left right, meaning (operation left right) =
      combine (meaning left) (meaning right))
    {grouping : Grouping α} {first : α} {later : List α}
    (listed : grouping.operands = first :: later) :
    meaning (grouping.join operation) = (later.map meaning).foldl combine (meaning first) := by
  induction grouping generalizing first later with
  | single operand =>
    cases listed
    rfl
  | joined left right ihLeft ihRight =>
    cases listedLeft : left.operands with
    | nil => exact absurd listedLeft left.operands_ne_nil
    | cons _ tail =>
      cases listedRight : right.operands with
      | nil => exact absurd listedRight right.operands_ne_nil
      | cons next rest =>
        rw [operands, listedLeft, listedRight] at listed
        cases listed
        calc meaning (operation (left.join operation) (right.join operation))
          _ = combine (meaning (left.join operation)) (meaning (right.join operation)) :=
            combined _ _
          _ = combine ((tail.map meaning).foldl combine (meaning first))
                ((rest.map meaning).foldl combine (meaning next)) := by
            rw [ihLeft listedLeft, ihRight listedRight]
          _ = (rest.map meaning).foldl combine
                (combine ((tail.map meaning).foldl combine (meaning first)) (meaning next)) :=
            List.foldl_assoc.symm
          _ = ((tail ++ next :: rest).map meaning).foldl combine (meaning first) := by
            rw [List.map_append, List.foldl_append, List.map_cons, List.foldl_cons]

/-- Groupings of the same operands mean the same. -/
theorem meaning_join_congr (meaning : α → β) (operation : α → α → α) (combine : β → β → β)
    [Std.Associative combine]
    (combined : ∀ left right, meaning (operation left right) =
      combine (meaning left) (meaning right))
    {grouping other : Grouping α} (same : grouping.operands = other.operands) :
    meaning (grouping.join operation) = meaning (other.join operation) := by
  cases listed : other.operands with
  | nil => exact absurd listed other.operands_ne_nil
  | cons first later =>
    rw [meaning_join meaning operation combine combined listed,
      meaning_join meaning operation combine combined (same.trans listed)]

end Grouping

instance : Std.Associative Reading.sequence := ⟨Reading.sequence_assoc⟩

instance : Std.Associative Reading.choice := ⟨Reading.choice_assoc⟩

/-! ## Matchers -/

namespace Matcher

/-- A sequence of several parts is grouped to the right. -/
theorem sequenceOf_eq_join (first second : Matcher) (later : List Matcher) :
    sequenceOf first second later = (Grouping.toRight first (second :: later)).join sequence := by
  induction later generalizing first second with
  | nil => rfl
  | cons third later ih => exact congrArg (sequence first) (ih second third)

/-- A choice of several parts is grouped to the right. -/
theorem choiceOf_eq_join (first second : Matcher) (later : List Matcher) :
    choiceOf first second later = (Grouping.toRight first (second :: later)).join choice := by
  induction later generalizing first second with
  | nil => rfl
  | cons third later ih => exact congrArg (choice first) (ih second third)

section
variable (definitions : Definitions) {subject : Subject} {state : State}
  (inside : state.offset ≤ subject.length)
include inside

/-- Operands put together by one of the three operations run alike under every grouping. -/
theorem outcome_join {operation : Matcher → Matcher → Matcher}
    (oneOf : operation ∈ [sequence, choice, longest]) {grouping other : Grouping Matcher}
    (same : grouping.operands = other.operands) :
    ((grouping.join operation).attempt definitions).outcome subject state =
      ((other.join operation).attempt definitions).outcome subject state := by
  apply outcome_congr inside
  let reading (matcher : Matcher) := (matcher.readingsUnder definitions subject).span
  let effect (matcher : Matcher) := reading matcher subject state.capacity state.offset
  have known : operation = sequence ∨ operation = choice ∨ operation = longest := by
    simpa using oneOf
  rcases known with rfl | rfl | rfl
  · have alike : reading (grouping.join sequence) = reading (other.join sequence) :=
      Grouping.meaning_join_congr reading _ Reading.sequence (fun _ _ => rfl) same
    exact congrArg (fun span => span subject state.capacity state.offset) alike
  · have alike : reading (grouping.join choice) = reading (other.join choice) :=
      Grouping.meaning_join_congr reading _ Reading.choice (fun _ _ => rfl) same
    exact congrArg (fun span => span subject state.capacity state.offset) alike
  · -- Which match is the longer one is decided by what was matched from this very offset.
    apply Grouping.meaning_join_congr effect _ (Effect.longer state.offset) _ same
    intro left right
    exact (left.readingsUnder_sound definitions subject).span.longest_apply
      (right.readingsUnder_sound definitions subject).span inside

end

/-- Of two outcomes from one state the one that counts: the longer match, the first one where both
are equally long, and a match before a failure. Two failures are the first of them, in the state
from before. A branch that breaks a rule is the last to run. -/
def winner (state : State) (left right : Ending Span × State) : Ending Span × State :=
  match left.1, right.1 with
  | .matched span, .matched other => if other.length ≤ span.length then left else right
  | .matched _, .failed _ => left
  | .failed _, .matched _ => right
  | .failed failure, .failed _ => (.failed failure, state)
  | .matched _, _ | .failed _, _ => right
  | _, _ => left

/-- The longer of two effects does to a state what the winner does. -/
theorem winner_applyTo {state : State} {effect other : Effect Span}
    (compared : ∀ span otherSpan, effect.ending = .matched span →
      other.ending = .matched otherSpan →
      (otherSpan.length ≤ span.length ↔ other.stop ≤ effect.stop)) :
    winner state (effect.applyTo state) (other.applyTo state) =
      (Effect.longer state.offset effect other).applyTo state := by
  unfold winner Effect.longer
  dsimp only [Effect.applyTo]
  cases ended : effect.ending with
  | matched span =>
    cases endedOther : other.ending with
    | matched otherSpan =>
      have shorter := compared span otherSpan ended endedOther
      by_cases wins : other.stop ≤ effect.stop
      · simp only [if_pos wins, if_pos (shorter.mpr wins), ended]
      · simp only [if_neg wins, if_neg (mt shorter.mp wins), endedOther]
    | _ => simp only [ended, endedOther]
  | failed failure =>
    cases endedOther : other.ending with
    | failed _ => simp only [Effect.still, State.extend_self]
    | _ => simp only [endedOther]
  | _ => simp only [ended]

/-- To match the longer of two is to run the winner alone. -/
theorem longest_runs_winner (first second : Matcher) (definitions : Definitions)
    {subject : Subject} {state : State} (inside : state.offset ≤ subject.length) :
    ((longest first second).attempt definitions).outcome subject state =
      winner state ((first.attempt definitions).outcome subject state)
        ((second.attempt definitions).outcome subject state) := by
  have left := (first.readingsUnder_sound definitions subject).span
  have right := (second.readingsUnder_sound definitions subject).span
  rw [outcome_attempt first definitions inside, outcome_attempt second definitions inside,
    outcome_attempt (longest first second) definitions inside,
    winner_applyTo fun _ _ => left.length_le_iff right inside]
  exact congrArg (·.applyTo state) (left.longest_apply right inside)

/-- The longer match of two that both capture, behind a capture from before. -/
theorem longest_runs_winner_capturing :
    let first := sequence (.captured 0 (.literal [97])) (.captured 1 (.literal [98, 99]))
    let second := Matcher.captured 0 (.literal [97, 98])
    let subject : Subject := ⟨.octet, [120, 97, 98, 99]⟩
    let state : State := ⟨1, some ((CaptureStore.ofCapacity 2).replay [(1, ⟨0, 1⟩)])⟩
    let run := fun matcher : Matcher => (matcher.attempt []).outcome subject state
    (state.offset ≤ subject.length ∧ (run first).1 = .matched ⟨1, 3⟩ ∧
      (run first).2.captures.map CaptureStore.captures =
        some [(1, ⟨0, 1⟩), (0, ⟨1, 1⟩), (1, ⟨2, 2⟩)] ∧
      (run second).1 = .matched ⟨1, 2⟩) ∧ run (longest first second) = run first := by
  intro first second subject state run
  have known : state.offset ≤ subject.length ∧ (run first).1 = .matched ⟨1, 3⟩ ∧
      (run first).2.captures.map CaptureStore.captures =
        some [(1, ⟨0, 1⟩), (0, ⟨1, 1⟩), (1, ⟨2, 2⟩)] ∧
      (run second).1 = .matched ⟨1, 2⟩ := by decide +kernel
  have wins : winner state (run first) (run second) = run first := by
    simp [winner, known.2.1, known.2.2.2]
  exact ⟨known, (longest_runs_winner first second [] known.1).trans wins⟩

/-- How sequences, choices and longest matches of three are grouped makes no difference to how they
end and to the state in which they end. Any grouping of sequences or of choices runs as the one to
the right. -/
theorem grouped_runs_alike (definitions : Definitions) {subject : Subject} {state : State}
    (inside : state.offset ≤ subject.length) :
    (∀ operation ∈ [sequence, choice, longest], ∀ first second third : Matcher,
      ((operation (operation first second) third).attempt definitions).outcome subject state =
        ((operation first (operation second third)).attempt definitions).outcome subject state) ∧
    (∀ (grouping : Grouping Matcher) (first second : Matcher) (later : List Matcher),
      grouping.operands = first :: second :: later →
      ((grouping.join sequence).attempt definitions).outcome subject state =
          ((sequenceOf first second later).attempt definitions).outcome subject state ∧
        ((grouping.join choice).attempt definitions).outcome subject state =
          ((choiceOf first second later).attempt definitions).outcome subject state) := by
  constructor
  · intro operation oneOf first second third
    let left : Grouping Matcher :=
      .joined (.joined (.single first) (.single second)) (.single third)
    let right : Grouping Matcher :=
      .joined (.single first) (.joined (.single second) (.single third))
    have same : left.operands = right.operands := rfl
    exact outcome_join definitions inside oneOf same
  · intro grouping first second later listed
    have same : grouping.operands = (Grouping.toRight first (second :: later)).operands := by
      rw [listed, Grouping.operands_toRight]
    rw [sequenceOf_eq_join, choiceOf_eq_join]
    constructor
    · exact outcome_join definitions inside (by simp) same
    · exact outcome_join definitions inside (by simp) same

/-- Four parts in pairs, of which the third fails: what the first two captured is kept. -/
theorem grouped_runs_alike_broken_off :
    let first := Matcher.captured 0 (.literal [97])
    let second := Matcher.captured 1 (.literal [98])
    let subject : Subject := ⟨.octet, [97, 98, 99]⟩
    let state : State := ⟨0, some (.ofCapacity 2)⟩
    let run := fun matcher : Matcher => (matcher.attempt []).outcome subject state
    let grouping := Grouping.joined (.joined (.single first) (.single second))
      (.joined (.single first) (.single .atEnd))
    (state.offset ≤ subject.length ∧
      (run (sequenceOf first second [first, .atEnd])).1 =
        .failed (.mismatch 2 (Bytes.ofString "literal string")) ∧
      (run (sequenceOf first second [first, .atEnd])).2.captures.map CaptureStore.captures =
        some [(0, ⟨0, 1⟩), (1, ⟨1, 1⟩)]) ∧
      grouping.operands = [first, second, first, .atEnd] ∧
      longest ∈ [sequence, choice, longest] ∧
      run (grouping.join sequence) = run (sequenceOf first second [first, .atEnd]) ∧
      run (longest (longest second first) .empty) =
        run (longest second (longest first .empty)) := by
  intro first second subject state run grouping
  have known : state.offset ≤ subject.length ∧
      (run (sequenceOf first second [first, .atEnd])).1 =
        .failed (.mismatch 2 (Bytes.ofString "literal string")) ∧
      (run (sequenceOf first second [first, .atEnd])).2.captures.map CaptureStore.captures =
        some [(0, ⟨0, 1⟩), (1, ⟨1, 1⟩)] := by decide +kernel
  have alike := grouped_runs_alike [] known.1
  have oneOf : longest ∈ [sequence, choice, longest] := by simp
  have grouped := alike.2 grouping first second [first, .atEnd] rfl
  exact ⟨known, rfl, oneOf, grouped.1, alike.1 longest oneOf second first .empty⟩

/-- A first part that two alternatives share may be matched before the choice between them: both
forms end alike and, but for a failure, in the same state. Only the choice between the two sequences
goes back to where it began when it fails. -/
theorem common_part_factored (common first second : Matcher) (definitions : Definitions)
    {subject : Subject} {state : State} (inside : state.offset ≤ subject.length) :
    let early := ((sequence common (choice first second)).attempt definitions).outcome subject state
    let late := ((choice (sequence common first) (sequence common second)).attempt
      definitions).outcome subject state
    late.1 = early.1 ∧ ((∀ failure, early.1 ≠ .failed failure) → late.2 = early.2) ∧
      ∀ failure, late.1 = .failed failure → late.2 = state := by
  intro early late
  let reading (matcher : Matcher) := (matcher.readingsUnder definitions subject).span
  let effect := reading (sequence common (choice first second)) subject state.capacity state.offset
  have runEarly : early = effect.applyTo state := outcome_attempt _ definitions inside
  have runLate : late = (effect.orElse fun failure =>
      .still (.failed failure) state.offset).applyTo state := by
    have factored : reading (choice (sequence common first) (sequence common second)) =
        (reading (sequence common (choice first second))).restoring :=
      Reading.choice_of_sequences _ _ _
    exact (outcome_attempt _ definitions inside).trans
      (congrArg (fun span => (span subject state.capacity state.offset).applyTo state) factored)
  rw [runEarly, runLate]
  cases ended : effect.ending with
  | failed failure => simp [Effect.orElse, Effect.applyTo, Effect.still, ended]
  | _ => simp [Effect.orElse, Effect.applyTo, ended]

/-- The second of two alternatives, behind a common part that captures. -/
theorem common_part_factored_capturing :
    let common := Matcher.captured 0 (.literal [97])
    let first := sequence (.captured 1 (.literal [98])) (.literal [99])
    let second := Matcher.captured 1 (.literal [98, 98])
    let subject : Subject := ⟨.octet, [97, 98, 98]⟩
    let state : State := ⟨0, some (.ofCapacity 2)⟩
    let run := fun matcher : Matcher => (matcher.attempt []).outcome subject state
    (state.offset ≤ subject.length ∧
      (run (sequence common (choice first second))).1 = .matched ⟨0, 3⟩ ∧
      (run (sequence common (choice first second))).2.captures.map CaptureStore.captures =
        some [(0, ⟨0, 1⟩), (1, ⟨1, 2⟩)]) ∧
      run (choice (sequence common first) (sequence common second)) =
        run (sequence common (choice first second)) := by
  intro common first second subject state run
  have known : state.offset ≤ subject.length ∧
      (run (sequence common (choice first second))).1 = .matched ⟨0, 3⟩ ∧
      (run (sequence common (choice first second))).2.captures.map CaptureStore.captures =
        some [(0, ⟨0, 1⟩), (1, ⟨1, 2⟩)] := by decide +kernel
  have factored := common_part_factored common first second [] known.1
  have ends : ∀ failure, (run (sequence common (choice first second))).1 ≠ .failed failure := by
    simp [known.2.1]
  exact ⟨known, Prod.ext factored.1 (factored.2.1 ends)⟩

end Matcher

end TextPattern
