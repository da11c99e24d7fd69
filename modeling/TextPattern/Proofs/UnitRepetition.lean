import TextPattern.Proofs.LoopOutcome
import TextPattern.Proofs.MatcherRealization
import TextPattern.Proofs.Runes

/-!
# Counted and repeated units

A count looks ahead at one unit after the other and moves once, at its end. A repetition of a single
unit moves at every round and goes back when it fails. `Matcher.count_runs_as_repetition` says that
the two cannot be told apart: they match the same span or fail for the same reason at the same
place.
-/

namespace TextPattern

open Combinator (Tally)

/-! ## One round -/

/-- Why a count failed that came this far and not further. -/
def Combinator.Tally.failure (predicate : Predicate) (tally : Tally) : Failure :=
  if tally.atEnd then .outOfBounds tally.stop else .mismatch tally.stop predicate.expected

namespace Reading

variable {subject : Subject} {capacity : Option Nat} {predicate : Predicate} {bounds : Bounds}

/-- A single unit is matched where it is accepted, and fails as a count would that came to an end
there. -/
theorem one_apply (count offset : Nat) :
    one predicate subject capacity offset =
      match subject.accepted? predicate offset with
      | some unit => ⟨.matched ⟨offset, unit.width⟩, unit.next, []⟩
      | none =>
        .still (.failed (Tally.failure predicate ⟨count, offset, (subject.unitAt offset).isNone⟩))
          offset := by
  unfold one Subject.accepted?
  cases present : subject.unitAt offset with
  | none => rfl
  | some unit =>
    have here : unit.offset = offset := (Subject.unitAt_bounds present).1
    by_cases accepted : predicate.accepts subject.encoding unit.value = true
    · simp only [Option.filter_some, if_pos accepted, here]
    · simp only [Option.filter_some, if_neg accepted, here]
      rfl

/-- One round of repeating a unit. -/
theorem repeatFrom_one_succ (rounds count offset : Nat) :
    repeatFrom bounds (one predicate) (rounds + 1) count subject capacity offset =
      if bounds.reached count then .still (.matched []) offset
      else
        match subject.accepted? predicate offset with
        | none =>
          if count < bounds.least then
            .still (.failed
              (Tally.failure predicate ⟨count, offset, (subject.unitAt offset).isNone⟩)) offset
          else .still (.matched []) offset
        | some unit =>
          (repeatFrom bounds (one predicate) rounds (count + 1) subject capacity unit.next).map
            (⟨offset, unit.width⟩ :: ·) := by
  conv => lhs; unfold repeatFrom
  dsimp only
  rw [one_apply count]
  split
  · rfl
  · cases found : subject.accepted? predicate offset with
    | none => rfl
    | some unit =>
      have further : unit.next ≠ offset := Nat.ne_of_gt (accepted?_within found).1
      simp only [Effect.andThen, if_neg further]
      rfl

/-! ## Whole loops -/

/-- A count comes to a tally where its test has a verdict on every unit ahead. -/
theorem exists_tally {test : InputUnit → Ending Bool} {rounds offset : Nat} (count : Nat)
    (decided : ∀ unit ∈ subject.unitsFrom offset, ∃ passed, test unit = .matched passed)
    (enough : subject.length - offset < rounds) :
    ∃ found, tally subject predicate bounds test rounds count offset = .matched found := by
  induction rounds generalizing count offset with
  | zero => omega
  | succ rounds ih =>
    rw [tally_succ]
    split
    · exact ⟨_, rfl⟩
    split
    · exact ⟨_, rfl⟩
    rename_i unit accepted
    have present : subject.unitAt offset = some unit := (Option.filter_eq_some_iff.mp accepted).1
    have further := (Subject.unitAt_bounds present).2
    rw [Subject.unitsFrom_cons present] at decided
    obtain ⟨passed, asked⟩ := decided unit List.mem_cons_self
    have later : ∀ other ∈ subject.unitsFrom unit.next, ∃ passed, test other = .matched passed :=
      fun other member => decided other (List.mem_cons_of_mem unit member)
    rw [asked]
    cases passed with
    | true => exact ih (count + 1) later (by omega)
    | false => exact ⟨_, rfl⟩

/-- Repeating a unit stops where the tally does. It fails where the tally is too small, unless the
limit was reached. -/
theorem repeatFrom_one (capacity : Option Nat) {rounds count offset : Nat} {found : Tally}
    (tallied : tally subject predicate bounds (fun _ => .matched true) rounds count offset =
      .matched found) :
    ∃ spans, repeatFrom bounds (one predicate) rounds count subject capacity offset =
      ⟨if bounds.reached found.count = false ∧ found.count < bounds.least then
        .failed (found.failure predicate) else .matched spans, found.stop, []⟩ := by
  induction rounds generalizing count offset with
  | zero =>
    unfold tally at tallied
    by_cases full : bounds.reached count = true
    · rw [if_pos full] at tallied
      cases tallied
      refine ⟨[], ?_⟩
      unfold repeatFrom
      simp [full, Effect.still]
    · rw [if_neg full] at tallied
      cases tallied
  | succ rounds ih =>
    rw [tally_succ] at tallied
    rw [repeatFrom_one_succ]
    by_cases full : bounds.reached count = true
    · rw [if_pos full] at tallied ⊢
      cases tallied
      exact ⟨[], by simp [full, Effect.still]⟩
    · rw [if_neg full] at tallied ⊢
      cases accepted : subject.accepted? predicate offset with
      | none =>
        rw [accepted] at tallied
        cases tallied
        refine ⟨[], ?_⟩
        by_cases few : count < bounds.least
        · simp [few, full, Effect.still]
        · simp [few, Effect.still]
      | some unit =>
        rw [accepted] at tallied
        obtain ⟨spans, repeated⟩ := ih tallied
        refine ⟨⟨offset, unit.width⟩ :: spans, ?_⟩
        dsimp only
        rw [repeated, Effect.map]
        split <;> rfl

/-- The effect of a count by its tally. -/
theorem count_of_tally {test : UnitTest} {offset : Nat} {found : Tally}
    (tallied : tally subject predicate bounds (test subject offset) (subject.length - offset + 1) 0
      offset = .matched found) :
    count predicate bounds test subject capacity offset =
      if found.count < bounds.least then .still (.failed (found.failure predicate)) offset
      else .still (.matched (.between offset found.stop)) found.stop := by
  unfold count
  dsimp only
  rw [tallied]
  unfold Tally.failure
  by_cases few : found.count < bounds.least
  · simp only [Effect.andThen, Effect.still, if_pos few]
    split <;> rfl
  · simp only [Effect.andThen, Effect.still, if_neg few]
    rfl

/-- A count without a further condition captures nothing and comes to a result. -/
theorem count_settles (subject : Subject) (capacity : Option Nat) (predicate : Predicate)
    (bounds : Bounds) (offset : Nat) :
    ∃ ending stop result,
      count predicate bounds (conditionTest fun _ _ => true) subject capacity offset =
        .still ending stop ∧ ending.settle = .matched result := by
  obtain ⟨found, tallied⟩ := exists_tally 0 (fun _ _ => ⟨true, rfl⟩) (Nat.lt_succ_self _)
  rw [count_of_tally tallied]
  by_cases few : found.count < bounds.least
  · rw [if_pos few]
    exact ⟨_, _, _, rfl, rfl⟩
  · rw [if_neg few]
    exact ⟨_, _, _, rfl, rfl⟩

/-- Repeating a unit and covering all of it has the effect of a count. -/
theorem covering_repeated_one (bounds : Bounds) (offset : Nat) :
    (repeated bounds (one predicate)).covering subject capacity offset =
      count predicate bounds (conditionTest fun _ _ => true) subject capacity offset := by
  obtain ⟨found, tallied⟩ := exists_tally 0 (fun _ _ => ⟨true, rfl⟩) (Nat.lt_succ_self _)
  obtain ⟨spans, rounds⟩ := repeatFrom_one capacity tallied
  -- The limit cannot have been reached with too few units, since bounds are in order.
  have tooFew : (bounds.reached found.count = false ∧ found.count < bounds.least) ↔
      found.count < bounds.least := by
    refine ⟨And.right, fun few => ⟨Bounds.not_reached fun limit greatest => ?_, few⟩⟩
    exact Nat.lt_of_lt_of_le few (bounds.least_le greatest)
  rw [count_of_tally tallied]
  unfold repeated covering restoring
  dsimp only
  rw [rounds]
  by_cases few : found.count < bounds.least
  · rw [if_pos (tooFew.mpr few), if_pos few]
    rfl
  · rw [if_neg (mt tooFew.mp few), if_neg few]
    rfl

end Reading

namespace Matcher

/-- Counting the units that a predicate accepts runs as repeating a single one of them: it comes to
the same span or to the same failure, at the same place, and it captures nothing. Neither of the
two ever ends without a result. -/
theorem count_runs_as_repetition (predicate : Predicate) (bounds : Bounds)
    (definitions : Definitions) {subject : Subject} {state : State}
    (inside : state.offset ≤ subject.length) :
    let counted := ((countAll predicate bounds).attempt definitions).outcome subject state
    let repetition := ((repeated (.one predicate) bounds).attempt definitions).outcome subject state
    counted = repetition ∧ counted.2.captures = state.captures ∧
      ∃ result, counted.1.settle = .matched result := by
  intro counted repetition
  have run : counted = _ := outcome_attempt (countAll predicate bounds) definitions inside
  have same : counted = repetition :=
    outcome_congr inside (Reading.covering_repeated_one bounds state.offset).symm
  obtain ⟨ending, stop, result, still, settled⟩ :=
    Reading.count_settles subject state.capacity predicate bounds state.offset
  have known : counted = (Effect.still ending stop).applyTo state :=
    run.trans (congrArg (·.applyTo state) still)
  refine ⟨same, ?_, result, ?_⟩
  · rw [known]
    simp [Effect.applyTo, Effect.still, State.extend]
  · rw [known]
    exact settled

/-- Malformed units behind a capture from before: two of them are enough, five are too many. -/
theorem count_runs_as_repetition_malformed :
    let subject : Subject := ⟨.utf8, [97, 0xFF, 0xC3, 0xE2, 0x82]⟩
    let state : State := ⟨1, some ((CaptureStore.ofCapacity 1).replay [(0, ⟨0, 1⟩)])⟩
    let count := fun bounds => ((countAll .wild bounds).attempt []).outcome subject state
    let repetition := fun bounds =>
      ((repeated (.one .wild) bounds).attempt []).outcome subject state
    let few : Bounds := ⟨1, some 2, rfl⟩
    let many := Bounds.exactly 5
    (state.offset ≤ subject.length ∧
      (count few).1 = .matched ⟨1, 2⟩ ∧ (count many).1 = .failed (.outOfBounds 5)) ∧
      count few = repetition few ∧ count many = repetition many := by
  intro subject state count repetition few many
  have known : state.offset ≤ subject.length ∧
      (count few).1 = .matched ⟨1, 2⟩ ∧ (count many).1 = .failed (.outOfBounds 5) := by
    decide +kernel
  have enough := count_runs_as_repetition .wild few [] known.1
  have tooFew := count_runs_as_repetition .wild many [] known.1
  exact ⟨known, enough.1, tooFew.1⟩

end Matcher

end TextPattern
