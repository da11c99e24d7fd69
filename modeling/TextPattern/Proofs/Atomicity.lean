import TextPattern.Proofs.MatcherRealization

/-!
# Failures that leave no trace behind

Some matchers undo everything when they fail, whatever their parts had done by then. The others
leave the state where the failure found it. `Matcher.failure_leaves_state` is the main statement.
-/

namespace TextPattern

variable {α β : Type}

/-! ## Matchers that undo their failures -/

/-- The matchers that leave no trace of a failure: those that clean up after any parts, and those
that only pass on the failures of such matchers. -/
inductive Matcher.Restoring (definitions : Definitions) : Matcher → Prop where
  | literal (text : Bytes) : Restoring definitions (.literal text)
  | one (predicate : Predicate) : Restoring definitions (.one predicate)
  | empty : Restoring definitions .empty
  | atStart : Restoring definitions .atStart
  | atEnd : Restoring definitions .atEnd
  | count (predicate : Predicate) (bounds : Bounds) (condition : Condition) :
    Restoring definitions (.count predicate bounds condition)
  | countAhead (predicate : Predicate) (bounds : Bounds) (ahead : Matcher) :
    Restoring definitions (.countAhead predicate bounds ahead)
  | repeated (inner : Matcher) (bounds : Bounds) : Restoring definitions (.repeated inner bounds)
  | collected (inner : Matcher) (bounds : Bounds) : Restoring definitions (.collected inner bounds)
  | choice (first second : Matcher) : Restoring definitions (.choice first second)
  | longest (first second : Matcher) : Restoring definitions (.longest first second)
  | sepOnce (left separator right : Matcher) :
    Restoring definitions (.sepOnce left separator right)
  | separated (item separator : Matcher) (least : Nat) (terminated : Bool) :
    Restoring definitions (.separated item separator least terminated)
  | captured (slot : Nat) {inner : Matcher} (restoring : Restoring definitions inner) :
    Restoring definitions (.captured slot inner)
  | branch (probe : Matcher) {accepted otherwise : Matcher}
    (restoringAccepted : Restoring definitions accepted)
    (restoringOtherwise : Restoring definitions otherwise) :
    Restoring definitions (.branch probe accepted otherwise)
  | branchIf (test : View → Bool) {accepted otherwise : Matcher}
    (restoringAccepted : Restoring definitions accepted)
    (restoringOtherwise : Restoring definitions otherwise) :
    Restoring definitions (.branchIf test accepted otherwise)
  | boxed {inner : Matcher} (restoring : Restoring definitions inner) :
    Restoring definitions (.boxed inner)
  | handle {slot : Nat} {matcher : Matcher} (defined : definitions.find? slot = some matcher)
    (restoring : Restoring definitions matcher) : Restoring definitions (.handle slot)
  | reference {slot : Nat} {matcher : Matcher} (defined : definitions.find? slot = some matcher)
    (restoring : Restoring definitions matcher) : Restoring definitions (.reference slot)

/-! ## Effects -/

/-- An effect that is nothing at all if it is a failure. -/
def Effect.Atomic (effect : Effect α) (offset : Nat) : Prop :=
  ∀ failure, effect.ending = .failed failure → effect = .still (.failed failure) offset

namespace Effect.Atomic

variable {effect : Effect α} {offset : Nat}

/-- Ending where it began is nothing at all. -/
theorem still (ending : Ending α) (offset : Nat) : (Effect.still ending offset).Atomic offset := by
  intro failure failed
  change ending = _ at failed
  rw [failed]

/-- An effect that never fails has no failure to take back. -/
theorem of_not_failed (never : ∀ failure, effect.ending ≠ .failed failure) :
    effect.Atomic offset :=
  fun failure failed => absurd failed (never failure)

/-- A match has no failure to take back. -/
theorem of_matched {value : α} (matched : effect.ending = .matched value) :
    effect.Atomic offset :=
  of_not_failed fun failure failed => by rw [matched] at failed; cases failed

/-- Values do not matter to failures. -/
theorem map (f : α → β) (atomic : effect.Atomic offset) : (effect.map f).Atomic offset := by
  intro failure failed
  cases ended : effect.ending with
  | failed found =>
    have same : found = failure := by
      rw [Effect.map, ended] at failed
      cases failed
      rfl
    rw [atomic found ended, same]
    rfl
  | _ =>
    rw [Effect.map, ended] at failed
    cases failed

/-- Undoing a failure leaves nothing at all. -/
theorem orElse (effect : Effect α) (offset : Nat) :
    (effect.orElse fun failure => .still (.failed failure) offset).Atomic offset := by
  unfold Effect.orElse
  cases ended : effect.ending with
  | failed failure => exact still _ offset
  | _ => exact of_not_failed fun _ failed => by rw [ended] at failed; cases failed

/-- What follows without a failure of its own is as atomic as what came first. -/
theorem andThen {next : α → Nat → Effect β} (atomic : effect.Atomic offset)
    (later : ∀ value stop failure, (next value stop).ending ≠ .failed failure) :
    (effect.andThen next).Atomic offset := by
  intro failure failed
  unfold Effect.andThen at failed ⊢
  cases ended : effect.ending with
  | matched value =>
    rw [ended] at failed
    exact absurd failed (later value effect.stop failure)
  | failed found =>
    rw [ended] at failed
    cases failed
    rw [atomic failure ended]
    rfl
  | _ =>
    rw [ended] at failed
    cases failed

/-- An attempt with an atomic effect leaves the state alone when it fails. -/
theorem state_eq {attempt : Attempt α} {subject : Subject} {state : State} {failure : Failure}
    (atomic : effect.Atomic state.offset)
    (same : attempt.outcome subject state = effect.applyTo state)
    (failed : (attempt subject state).ending = .failed failure) :
    (attempt subject state).state = state := by
  have ended : effect.ending = .failed failure := by
    rw [← failed]
    exact (congrArg Prod.fst same).symm
  have stopped := congrArg Prod.snd same
  rw [atomic failure ended, Effect.applyTo_still] at stopped
  exact stopped

end Effect.Atomic

/-! ## Readings -/

namespace Reading

/-- A reading whose failures are nothing at all. -/
def Atomic (reading : Reading α) : Prop :=
  ∀ subject capacity offset, (reading subject capacity offset).Atomic offset

/-- Covering adds no failure. -/
theorem Atomic.covering {reading : Reading α} (atomic : reading.Atomic) :
    reading.covering.Atomic :=
  fun subject capacity offset => (atomic subject capacity offset).map _

/-- A function on values adds no failure. -/
theorem Atomic.map {reading : Reading α} (f : α → β) (atomic : reading.Atomic) :
    Atomic (f <$> reading) := by
  intro subject capacity offset
  rw [map_apply]
  exact (atomic subject capacity offset).map f

/-- Undoing a failure leaves nothing at all. -/
theorem restoring_atomic (reading : Reading α) : reading.restoring.Atomic :=
  fun _ _ offset => .orElse _ offset

/-- Slicing breaks a rule or succeeds, but it never fails. -/
theorem slice_not_failed (span : Span) (subject : Subject) (capacity : Option Nat) (offset : Nat)
    (failure : Failure) : (slice span subject capacity offset).ending ≠ .failed failure := by
  unfold slice
  split <;> (intro failed; cases failed)

/-- The slice of an atomic reading adds no failure. -/
theorem Atomic.sliced {reading : Reading Span} (atomic : reading.Atomic) :
    reading.sliced.Atomic := by
  intro subject capacity offset
  refine (atomic subject capacity offset).andThen ?_
  intro span stop failure failed
  have cut := slice_not_failed span subject capacity stop
  change ((slice span subject capacity stop).andThen _).ending = _ at failed
  unfold Effect.andThen at failed
  cases ended : (slice span subject capacity stop).ending with
  | failed found => exact cut found ended
  | _ =>
    rw [ended] at failed
    cases failed

/-- A text that is not ahead leaves the state alone. -/
theorem literal_atomic (text : Bytes) : (literal text).Atomic := by
  intro subject capacity offset
  unfold literal
  dsimp only
  split
  · split
    · exact .of_matched rfl
    · exact .still _ offset
  · split <;> exact .still _ offset

/-- A unit that is refused is not consumed. -/
theorem one_atomic (predicate : Predicate) : (one predicate).Atomic := by
  intro subject capacity offset
  unfold one
  split
  · exact .still _ offset
  · split
    · exact .of_matched rfl
    · exact .still _ offset

/-- The start of the input consumes nothing. -/
theorem atStart_atomic : atStart.Atomic := by
  intro subject capacity offset
  unfold atStart
  split <;> exact .still _ offset

/-- The end of the input consumes nothing. -/
theorem atEnd_atomic : atEnd.Atomic := by
  intro subject capacity offset
  unfold atEnd
  split <;> exact .still _ offset

/-- A count moves only when it has found enough. -/
theorem count_atomic (predicate : Predicate) (bounds : Bounds) (test : UnitTest) :
    (count predicate bounds test).Atomic := by
  intro subject capacity offset
  unfold count Effect.andThen
  dsimp only [Effect.still]
  cases tally subject predicate bounds (test subject offset) (subject.length - offset + 1) 0
      offset with
  | matched found =>
    dsimp only
    split
    · split <;> exact .still _ offset
    · exact .of_matched rfl
  | _ => exact .still _ offset

/-- A choice undoes its first alternative itself and its second one through restoring. -/
theorem choice_atomic (first second : Reading Span) : (choice first second).Atomic := by
  intro subject capacity offset
  unfold choice Effect.orElse
  cases ended : (first subject capacity offset).ending with
  | failed failure => exact restoring_atomic second subject capacity offset
  | _ => exact .of_not_failed fun _ failed => by rw [ended] at failed; cases failed

/-- The longer of two matches fails only where both fail. -/
theorem longest_atomic (first second : Reading Span) : (longest first second).Atomic := by
  intro subject capacity offset
  unfold longest
  dsimp only
  cases leftEnded : (first subject capacity offset).ending with
  | matched left =>
    have kept : ((first subject capacity offset).map fun _ =>
        Span.between offset (first subject capacity offset).stop).Atomic offset :=
      .of_not_failed fun _ failed => by rw [Effect.map, leftEnded] at failed; cases failed
    cases rightEnded : (second subject capacity offset).ending with
    | matched right =>
      dsimp only
      split
      · exact kept
      · exact .of_matched rightEnded
    | failed failure => exact kept
    | _ => exact .of_not_failed fun _ failed => by rw [rightEnded] at failed; cases failed
  | failed failure =>
    dsimp only
    unfold Effect.orElse
    cases rightEnded : (second subject capacity offset).ending with
    | failed later => exact .still _ offset
    | _ => exact .of_not_failed fun _ failed => by rw [rightEnded] at failed; cases failed
  | _ => exact .of_not_failed fun _ failed => by rw [leftEnded] at failed; cases failed

/-- Going on after a test that moves nowhere is as atomic as what it goes on with. -/
theorem branch_atomic {probe : Reading Bool} {accepted otherwise : Reading Span}
    (verdict : ∀ subject capacity offset, ∃ ending, (∀ failure, ending ≠ .failed failure) ∧
      probe subject capacity offset = .still ending offset)
    (yes : accepted.Atomic) (no : otherwise.Atomic) :
    (branch probe accepted otherwise).Atomic := by
  intro subject capacity offset
  obtain ⟨ending, decided, probed⟩ := verdict subject capacity offset
  show ((probe subject capacity offset).andThen fun found stop =>
    (if found then accepted else otherwise) subject capacity stop).Atomic offset
  rw [probed]
  cases ending with
  | matched found =>
    cases found
    · exact no subject capacity offset
    · exact yes subject capacity offset
  | failed failure => exact absurd rfl (decided failure)
  | _ => exact .still _ offset

/-- A missing slot is noticed before anything is matched. -/
theorem captured_atomic (slot : Nat) {inner : Reading Span} (atomic : inner.Atomic) :
    (captured slot inner).Atomic := by
  intro subject capacity offset
  unfold captured
  split
  · exact (atomic subject capacity offset).andThen fun _ _ _ failed => nomatch failed
  · exact .still _ offset

end Reading

/-- Readings of a matcher whose failures are nothing at all. -/
structure Readings.Atomic (readings : Readings) : Prop where
  /-- For the span. -/
  span : readings.span.Atomic
  /-- For the value. -/
  value : readings.value.Atomic

/-- The slice of a span is as atomic as the span. -/
theorem Readings.Atomic.ofSpan {span : Reading Span} (atomic : span.Atomic) :
    (Readings.ofSpan span).Atomic := ⟨atomic, atomic.sliced⟩

/-- The span that a value covers is as atomic as the value. -/
theorem Readings.Atomic.ofValue {value : Reading Value} (atomic : value.Atomic) :
    (Readings.ofValue value).Atomic := ⟨atomic.covering, atomic⟩

/-! ## Matchers -/

namespace Matcher

/-- A verdict is never a failure. -/
theorem settle_map_not_failed (ending : Ending α) (f : Result α → β) (failure : Failure) :
    ending.settle.map f ≠ .failed failure := by
  cases ending <;> (intro failed; cases failed)

/-- Matchers that clean up do so under calls of any depth. -/
theorem Restoring.readings_atomic {definitions : Definitions} {matcher : Matcher}
    (restoring : matcher.Restoring definitions) (depth : Nat) :
    (matcher.readings (definitions.reading depth)).Atomic := by
  induction restoring generalizing depth with
  | literal text => exact .ofSpan (Reading.literal_atomic text)
  | one predicate => exact .ofSpan (Reading.one_atomic predicate)
  | empty => exact .ofSpan fun _ _ offset => .still _ offset
  | atStart => exact .ofSpan Reading.atStart_atomic
  | atEnd => exact .ofSpan Reading.atEnd_atomic
  | count predicate bounds condition => exact .ofSpan (Reading.count_atomic predicate bounds _)
  | countAhead predicate bounds ahead => exact .ofSpan (Reading.count_atomic predicate bounds _)
  | repeated inner bounds => exact .ofSpan (Reading.restoring_atomic _).covering
  | collected inner bounds => exact .ofValue ((Reading.restoring_atomic _).map _)
  | choice first second => exact .ofSpan (Reading.choice_atomic _ _)
  | longest first second => exact .ofSpan (Reading.longest_atomic _ _)
  | sepOnce left separator right =>
    exact ⟨(Reading.restoring_atomic _).covering, (Reading.restoring_atomic _).map _⟩
  | separated item separator least terminated =>
    exact ⟨(Reading.restoring_atomic _).covering, (Reading.restoring_atomic _).map _⟩
  | captured slot _ ih => exact .ofSpan (Reading.captured_atomic slot (ih depth).span)
  | branch probe _ _ yes no =>
    refine .ofSpan (Reading.branch_atomic ?_ (yes depth).span (no depth).span)
    intro subject capacity offset
    exact ⟨_, settle_map_not_failed _ _, rfl⟩
  | branchIf test _ _ yes no =>
    refine .ofSpan (Reading.branch_atomic ?_ (yes depth).span (no depth).span)
    intro subject capacity offset
    refine ⟨.matched (test (subject.viewFrom offset)), ?_, rfl⟩
    intro failure failed
    cases failed
  | boxed _ ih => exact .ofSpan (ih depth).span
  | handle defined _ ih | reference defined _ ih =>
    refine .ofSpan ?_
    cases depth with
    | zero => exact fun _ _ offset => .still _ offset
    | succ depth =>
      unfold Definitions.reading
      rw [defined]
      exact (ih depth).span

/-- A matcher that cleans up leaves the very state in which it began when it fails, both when it
is run for its span and when it is run for its value. -/
theorem failure_leaves_state {matcher : Matcher} {definitions : Definitions}
    (restoring : matcher.Restoring definitions) {subject : Subject} {state : State}
    (inside : state.offset ≤ subject.length) (failure : Failure) :
    ((matcher.attempt definitions subject state).ending = .failed failure →
      (matcher.attempt definitions subject state).state = state) ∧
    ((matcher.attemptValue definitions subject state).ending = .failed failure →
      (matcher.attemptValue definitions subject state).state = state) := by
  have atomic := restoring.readings_atomic (definitions.depthFor subject)
  constructor
  · exact (atomic.span subject state.capacity state.offset).state_eq
      (matcher.outcome_attempt definitions inside)
  · exact (atomic.value subject state.capacity state.offset).state_eq
      (matcher.outcome_attemptValue definitions inside)

/-- A repetition whose only round moves and captures before it fails. -/
theorem failure_leaves_state_repeated :
    let matcher := Matcher.repeated
      (.sequence (.captured 0 (.literal [97])) (.literal [98])) (.atLeast 1)
    let subject : Subject := ⟨.octet, [97, 99]⟩
    let state : State := ⟨0, some (.ofCapacity 1)⟩
    let failure := Failure.mismatch 1 (Bytes.ofString "literal string")
    (matcher.attempt [] subject state).ending = .failed failure ∧
      (matcher.attemptValue [] subject state).ending = .failed failure ∧
      (matcher.attempt [] subject state).state = state ∧
      (matcher.attemptValue [] subject state).state = state := by
  intro matcher subject state failure
  have leaves := @failure_leaves_state matcher [] (.repeated _ _) subject state (by decide) failure
  exact ⟨rfl, rfl, leaves.1 rfl, leaves.2 rfl⟩

end Matcher

end TextPattern
