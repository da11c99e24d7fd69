import Mathlib.Order.Bounds.Defs
import TextPattern.Condition
import TextPattern.Proofs.Agreement
import TextPattern.Proofs.UnitRepetition

/-!
# Looking ahead

What is only looked at leaves no trace. The probe of a branch decides which of two matchers runs,
and that one runs as if nothing had run before it; a probe that breaks a rule leaves the state from
before. A conditional count looks at one unit after the other, with the position still where it
began, and takes the most units that it may count: its condition is a test of the input, or a
matcher that is tried at each unit, apart from the attempt. `Matcher.branch_runs_chosen` and
`Matcher.conditional_count_takes_most` are the main statements.
-/

namespace TextPattern

open Combinator (Tally)

variable {α : Type}

/-! ## Probes -/

/-- A branch goes on from where its probe began, whatever the probe did. -/
theorem Reading.branch_probe_apply (probe : Reading α) (accepted otherwise : Reading Span)
    (subject : Subject) (capacity : Option Nat) (offset : Nat) :
    branch probe.probe accepted otherwise subject capacity offset =
      match (probe subject capacity offset).ending with
      | .matched _ => accepted subject capacity offset
      | .failed _ => otherwise subject capacity offset
      | .raised misuse => .still (.raised misuse) offset
      | .exhausted => .still .exhausted offset := by
  show (probe.probe subject capacity offset).andThen _ = _
  unfold Reading.probe
  cases (probe subject capacity offset).ending <;> rfl

namespace Matcher

/-- What a branch comes to where its probe ends in one way or another: the outcome of one of two
matchers from the state before the probe, or the end of the probe itself in that state. -/
def chosen (state : State) (verdict : Ending Span) (accepted otherwise : Ending Span × State) :
    Ending Span × State :=
  match verdict with
  | .matched _ => accepted
  | .failed _ => otherwise
  | .raised misuse => (.raised misuse, state)
  | .exhausted => (.exhausted, state)

/-- A branch runs as the matcher that its probe decides for, from the very state in which the probe
began. Where the probe breaks a rule, so does the branch, and nothing has changed. -/
theorem branch_runs_chosen (probe accepted otherwise : Matcher) (definitions : Definitions)
    {subject : Subject} {state : State} (inside : state.offset ≤ subject.length) :
    let run (matcher : Matcher) := (matcher.attempt definitions).outcome subject state
    run (branch probe accepted otherwise) =
      chosen state (run probe).1 (run accepted) (run otherwise) := by
  intro run
  let effect (matcher : Matcher) :=
    (matcher.readingsUnder definitions subject).span subject state.capacity state.offset
  have runs (matcher : Matcher) : run matcher = (effect matcher).applyTo state :=
    matcher.outcome_attempt definitions inside
  have decided : effect (branch probe accepted otherwise) = _ :=
    Reading.branch_probe_apply (probe.readingsUnder definitions subject).span _ _ subject
      state.capacity state.offset
  have asked : (run probe).1 = (effect probe).ending := congrArg Prod.fst (runs probe)
  rw [runs, decided, asked, runs accepted, runs otherwise]
  unfold chosen
  cases (effect probe).ending with
  | raised misuse => exact Effect.applyTo_still _ state
  | exhausted => exact Effect.applyTo_still _ state
  | _ => rfl

/-- Probes that move on and capture before they match, fail or come across a matcher without a
definition. -/
theorem branch_runs_chosen_capturing :
    let probe := sequence (.captured 0 (.literal [97]))
    let accepted := Matcher.captured 1 (.literal [97])
    let otherwise := Matcher.captured 1 .empty
    let subject : Subject := ⟨.octet, [97, 98]⟩
    let state : State := ⟨0, some ((CaptureStore.ofCapacity 2).replay [(0, ⟨0, 0⟩)])⟩
    let run (matcher : Matcher) := (matcher.attempt []).outcome subject state
    (state.offset ≤ subject.length ∧ (run (probe (.literal [98]))).1 = .matched ⟨0, 2⟩ ∧
      (run (probe .atEnd)).1 = .failed (.mismatch 1 (Bytes.ofString "end of input")) ∧
      (run (probe .undefined)).1 = .raised .undefinedMatcher ∧
      (run (probe .undefined)).2.captures.map CaptureStore.captures =
        some [(0, ⟨0, 0⟩), (0, ⟨0, 1⟩)]) ∧
      run (branch (probe (.literal [98])) accepted otherwise) = run accepted ∧
      run (branch (probe .atEnd) accepted otherwise) = run otherwise ∧
      run (branch (probe .undefined) accepted otherwise) = (.raised .undefinedMatcher, state) := by
  intro probe accepted otherwise subject state run
  have known : state.offset ≤ subject.length ∧
      (run (probe (.literal [98]))).1 = .matched ⟨0, 2⟩ ∧
      (run (probe .atEnd)).1 = .failed (.mismatch 1 (Bytes.ofString "end of input")) ∧
      (run (probe .undefined)).1 = .raised .undefinedMatcher ∧
      (run (probe .undefined)).2.captures.map CaptureStore.captures =
        some [(0, ⟨0, 0⟩), (0, ⟨0, 1⟩)] := by decide +kernel
  have decided (last : Matcher) : run (branch (probe last) accepted otherwise) =
      chosen state (run (probe last)).1 (run accepted) (run otherwise) :=
    branch_runs_chosen (probe last) accepted otherwise [] known.1
  obtain ⟨_, matched, failed, raised, _⟩ := id known
  refine ⟨known, ?_, ?_, ?_⟩
  · rw [decided, matched]
    rfl
  · rw [decided, failed]
    rfl
  · rw [decided, raised]
    rfl

end Matcher

/-! ## Conditional counts -/

/-- A number of units from an offset on may be counted: there are as many, they are no more than
the greatest number, and each of them is accepted and passes. -/
structure Subject.CountsTo (subject : Subject) (predicate : Predicate) (bounds : Bounds)
    (passes : InputUnit → Prop) (start count : Nat) : Prop where
  /-- There are as many. -/
  present : count ≤ (subject.unitsFrom start).length
  /-- The greatest number is not exceeded. -/
  limited : ∀ limit, bounds.greatest = some limit → count ≤ limit
  /-- Each of them is accepted and passes. -/
  each : ∀ unit ∈ (subject.unitsFrom start).take count,
    predicate.accepts subject.encoding unit.value = true ∧ passes unit

/-- How a count ends by the most units that may be counted: behind them where they are enough, and
back where it began where they are too few. It then fails at their end, for want of input where no
unit follows them. -/
def Subject.TakesMost (subject : Subject) (predicate : Predicate) (bounds : Bounds)
    (passes : InputUnit → Prop) (state : State) (outcome : Ending Span × State) : Prop :=
  ∃ most, IsGreatest {count | subject.CountsTo predicate bounds passes state.offset count} most ∧
    let ahead := subject.unitsFrom state.offset
    let stop := lastStop InputUnit.next state.offset (ahead.take most)
    outcome =
      if bounds.least ≤ most then
        (.matched (.between state.offset stop), { state with offset := stop })
      else
        (.failed (if ahead.length = most then .outOfBounds stop
          else .mismatch stop predicate.expected), state)

namespace Reading

variable {subject : Subject} {predicate : Predicate} {bounds : Bounds}
  {test : InputUnit → Ending Bool} {passes : InputUnit → Prop} {count offset : Nat}
  {units : List InputUnit}

/-- Counted units are the first ones ahead. -/
theorem Counted.unitsFrom_eq (counted : Counted subject predicate bounds test count offset units) :
    subject.unitsFrom offset =
      units ++ subject.unitsFrom (lastStop InputUnit.next offset units) := by
  induction units generalizing count offset with
  | nil => rfl
  | cons unit units ih =>
    obtain ⟨accepted, _, later⟩ := counted_cons.mp counted
    have present : subject.unitAt offset = some unit := (Option.filter_eq_some_iff.mp accepted).1
    rw [Subject.unitsFrom_cons present, ih later]
    rfl

/-- Counted units are accepted and pass the test. -/
theorem Counted.accepted (counted : Counted subject predicate bounds test count offset units) :
    ∀ unit ∈ units, predicate.accepts subject.encoding unit.value = true ∧
      test unit = .matched true := by
  induction units generalizing count offset with
  | nil => exact nofun
  | cons unit units ih =>
    obtain ⟨accepted, met, later⟩ := counted_cons.mp counted
    have taken := (Option.filter_eq_some_iff.mp accepted).2
    exact List.forall_mem_cons.mpr ⟨⟨taken, met⟩, ih later⟩

/-- Counted units are the most that may be counted. -/
theorem Counted.isGreatest (counted : Counted subject predicate bounds test 0 offset units)
    (decided : ∀ unit ∈ subject.unitsFrom offset,
      ∃ passed, test unit = .matched passed ∧ (passed = true ↔ passes unit)) :
    IsGreatest {count | subject.CountsTo predicate bounds passes offset count} units.length := by
  have ahead := counted.unitsFrom_eq
  have passed {unit : InputUnit} (member : unit ∈ subject.unitsFrom offset) :
      test unit = .matched true ↔ passes unit := by
    obtain ⟨verdict, asked, means⟩ := decided unit member
    rw [asked, ← means, Ending.matched.injEq]
  constructor
  · refine ⟨?_, fun limit greatest => ?_, fun unit member => ?_⟩
    · rw [ahead, List.length_append]
      exact Nat.le_add_right _ _
    · have most := counted.limited limit greatest
      omega
    · rw [ahead, List.take_left] at member
      have present : unit ∈ subject.unitsFrom offset :=
        ahead ▸ List.mem_append_left _ member
      obtain ⟨accepted, met⟩ := counted.accepted unit member
      exact ⟨accepted, (passed present).mp met⟩
  · intro more counts
    -- One unit more would be the one that ended the count.
    by_contra beyond
    have further : units.length < more := Nat.lt_of_not_le beyond
    rcases counted.maximal with full | refused
    · have most := counts.limited _ full
      omega
    · have there := counts.present
      rw [ahead, List.length_append] at there
      cases present : subject.unitAt (lastStop InputUnit.next offset units) with
      | none =>
        rw [Subject.unitsFrom_nil present, List.length_nil] at there
        omega
      | some unit =>
        rw [Subject.unitsFrom_cons present] at ahead
        obtain ⟨extra, rfl⟩ : ∃ extra, more = units.length + (extra + 1) :=
          ⟨more - units.length - 1, by omega⟩
        have among : unit ∈ (subject.unitsFrom offset).take (units.length + (extra + 1)) := by
          rw [ahead, List.take_length_add_append]
          exact List.mem_append_right _ List.mem_cons_self
        obtain ⟨accepted, met⟩ := counts.each unit among
        have found : subject.accepted? predicate (lastStop InputUnit.next offset units) =
            some unit := by
          rw [Subject.accepted?, present, Option.filter_some, if_pos accepted]
        have asked := (passed (List.mem_of_mem_take among)).mpr met
        rw [refused unit found] at asked
        cases asked

/-- A tally is at the end where it was not at its limit and no unit follows. -/
theorem tally_atEnd {rounds : Nat} {found : Tally}
    (ended : tally subject predicate bounds test rounds count offset = .matched found) :
    found.atEnd = (!bounds.reached found.count && (subject.unitAt found.stop).isNone) := by
  induction rounds generalizing count offset with
  | zero =>
    unfold tally at ended
    split at ended
    · rename_i full
      cases ended
      simp [full]
    · cases ended
  | succ rounds ih =>
    rw [tally_succ] at ended
    split at ended
    · rename_i full
      cases ended
      simp [full]
    · rename_i unreached
      split at ended
      · cases ended
        simp [unreached]
      · rename_i unit accepted
        have present : subject.unitAt offset = some unit :=
          (Option.filter_eq_some_iff.mp accepted).1
        split at ended
        · exact ih ended
        · cases ended
          simp [present]
        all_goals cases ended

/-- A count takes the most units that may be counted, where its test has a verdict on every unit
ahead. -/
theorem count_takes_most {test : UnitTest} {state : State}
    (decided : ∀ unit ∈ subject.unitsFrom state.offset,
      ∃ passed, test subject state.offset unit = .matched passed ∧
        (passed = true ↔ passes unit)) :
    subject.TakesMost predicate bounds passes state
      ((Reading.count predicate bounds test subject state.capacity state.offset).applyTo
        state) := by
  obtain ⟨found, tallied⟩ : ∃ found, tally subject predicate bounds (test subject state.offset)
      (subject.length - state.offset + 1) 0 state.offset = .matched found :=
    exists_tally 0 (fun unit member => (decided unit member).imp fun _ asked => asked.1)
      (Nat.lt_succ_self _)
  obtain ⟨units, counted, number, stops⟩ := exists_units (fun _ _ => Nat.zero_le _) tallied
  rw [Nat.zero_add] at number
  have ahead := counted.unitsFrom_eq
  have first : (subject.unitsFrom state.offset).take units.length = units := by
    rw [ahead, List.take_left]
  refine ⟨units.length, counted.isGreatest decided, ?_⟩
  dsimp only
  rw [first, count_of_tally tallied, number, stops]
  by_cases few : units.length < bounds.least
  · have unreached : bounds.reached units.length = false :=
      Bounds.not_reached fun limit greatest => Nat.lt_of_lt_of_le few (bounds.least_le greatest)
    have ended : found.atEnd = true ↔
        (subject.unitsFrom state.offset).length = units.length := by
      rw [tally_atEnd tallied, number, unreached, stops, ahead]
      cases present : subject.unitAt (lastStop InputUnit.next state.offset units) with
      | none => simp [Subject.unitsFrom_nil present]
      | some unit => simp [Subject.unitsFrom_cons present]
    rw [if_pos few, if_neg (Nat.not_le_of_lt few), Effect.applyTo_still, Tally.failure, stops]
    simp only [ended]
  · rw [if_neg few, if_pos (Nat.le_of_not_lt few)]
    simp [Effect.applyTo, Effect.still, State.extend]

end Reading

namespace Matcher

/-- A conditional count takes the most units that it may count, whether its condition is a test of
the input, seen from where the count began, or a matcher that would match at the unit by itself,
without a store. It captures nothing, and it moves only where it matches. -/
theorem conditional_count_takes_most (predicate : Predicate) (bounds : Bounds)
    (definitions : Definitions) {subject : Subject} {state : State}
    (inside : state.offset ≤ subject.length) :
    let run (matcher : Matcher) := (matcher.attempt definitions).outcome subject state
    (∀ condition : Condition, subject.TakesMost predicate bounds
      (fun unit => condition (subject.viewFrom state.offset) unit = true) state
      (run (count predicate bounds condition))) ∧
    ∀ ahead : Matcher,
      let tried (unit : InputUnit) := (ahead.matchCursor definitions ⟨subject, unit.offset⟩).ending
      (∀ unit ∈ subject.unitsFrom state.offset, ∃ result, (tried unit).settle = .matched result) →
        subject.TakesMost predicate bounds (fun unit => ∃ span, tried unit = .matched span) state
          (run (countAhead predicate bounds ahead)) := by
  intro run
  let effect (matcher : Matcher) :=
    (matcher.readingsUnder definitions subject).span subject state.capacity state.offset
  have runs (matcher : Matcher) : run matcher = (effect matcher).applyTo state :=
    matcher.outcome_attempt definitions inside
  constructor
  · intro condition
    rw [runs]
    exact Reading.count_takes_most fun unit _ => ⟨_, rfl, Iff.rfl⟩
  · intro ahead tried returns
    rw [runs]
    apply Reading.count_takes_most
    intro unit member
    have present := Subject.unitAt_of_mem_unitsFrom member
    have within : unit.offset ≤ subject.length := Nat.le_of_lt (Subject.unitAt_bounds present).2.1
    have asked : tried unit =
        ((ahead.readingsUnder definitions subject).span subject none unit.offset).ending :=
      ahead.ending_attempt within
    obtain ⟨result, settled⟩ := returns unit member
    refine ⟨result.succeeded, ?_, ?_⟩
    · show (((ahead.readingsUnder definitions subject).span subject none
        unit.offset).ending.settle.map Result.succeeded) = _
      rw [← asked, settled]
      rfl
    · cases ended : tried unit with
      | matched span =>
        rw [ended] at settled
        cases settled
        exact ⟨fun _ => ⟨span, rfl⟩, fun _ => rfl⟩
      | failed failure =>
        rw [ended] at settled
        cases settled
        exact ⟨nofun, nofun⟩
      | _ =>
        rw [ended] at settled
        cases settled

/-- Three runes behind a capture from before. While another one follows, two of them are counted:
enough for one, and too few for three, where the third one is in the way. All three are too few for
six, where the input ends. -/
theorem conditional_count_takes_most_runes :
    let subject : Subject := ⟨.utf8, [120, 97, 0xC3, 0xA9, 98]⟩
    let state : State := ⟨1, some ((CaptureStore.ofCapacity 1).replay [(0, ⟨0, 1⟩)])⟩
    let ahead := Matcher.captured 5 (sequence (.one .wild) (.one .wild))
    let run (matcher : Matcher) := (matcher.attempt []).outcome subject state
    let tried (unit : InputUnit) := (ahead.matchCursor [] ⟨subject, unit.offset⟩).ending
    let condition := Condition.beginsBefore 5
    let another (bounds : Bounds) := subject.TakesMost .wild bounds
      (fun unit => ∃ span, tried unit = .matched span) state (run (countAhead .wild bounds ahead))
    (state.offset ≤ subject.length ∧
      (∀ unit ∈ subject.unitsFrom state.offset, ∃ result, (tried unit).settle = .matched result) ∧
      (run (countAhead .wild (.atLeast 1) ahead)).1 = .matched ⟨1, 3⟩ ∧
      (run (countAhead .wild (.atLeast 3) ahead)).1 =
        .failed (.mismatch 4 Predicate.wild.expected) ∧
      (run (count .wild (.exactly 6) condition)).1 = .failed (.outOfBounds 5)) ∧
      another (.atLeast 1) ∧ another (.atLeast 3) ∧
      subject.TakesMost .wild (.exactly 6)
        (fun unit => condition (subject.viewFrom state.offset) unit = true) state
        (run (count .wild (.exactly 6) condition)) := by
  intro subject state ahead run tried condition another
  have first : subject.unitAt 1 = some ⟨97, 1, 1⟩ := rfl
  have second : subject.unitAt (⟨97, 1, 1⟩ : InputUnit).next = some ⟨233, 2, 2⟩ := rfl
  have third : subject.unitAt (⟨233, 2, 2⟩ : InputUnit).next = some ⟨98, 4, 1⟩ := rfl
  have units : subject.unitsFrom 1 = [⟨97, 1, 1⟩, ⟨233, 2, 2⟩, ⟨98, 4, 1⟩] := by
    rw [Subject.unitsFrom_cons first, Subject.unitsFrom_cons second, Subject.unitsFrom_cons third,
      Subject.unitsFrom_nil rfl]
  have returns : ∀ unit ∈ subject.unitsFrom state.offset,
      ∃ result, (tried unit).settle = .matched result := by
    rw [units]
    simp only [List.forall_mem_cons]
    exact ⟨⟨.ok ⟨1, 3⟩, rfl⟩, ⟨.ok ⟨2, 3⟩, rfl⟩, ⟨.error (.outOfBounds 5), rfl⟩, nofun⟩
  have inside : state.offset ≤ subject.length := by decide
  have one := conditional_count_takes_most .wild (.atLeast 1) [] inside
  have three := conditional_count_takes_most .wild (.atLeast 3) [] inside
  have six := conditional_count_takes_most .wild (.exactly 6) [] inside
  refine ⟨⟨inside, returns, ?_⟩, one.2 ahead returns, three.2 ahead returns, six.1 condition⟩
  decide +kernel

end Matcher

end TextPattern
