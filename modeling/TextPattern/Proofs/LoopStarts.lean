import TextPattern.Proofs.Runes
import TextPattern.Proofs.Termination
import TextPattern.Search

/-!
# How often loops begin a round

However many rounds are allotted to a loop, it begins no more than one for each octet that is ahead,
and one more. To count them, what a loop does in each round is marked: it writes one line to the
trace whenever it is started, and does otherwise what it did.
-/

namespace TextPattern

open Combinator (Items Tally)

variable {α β : Type}

namespace Attempt

/-! ## Marks -/

/-- The same attempt, which writes one line whenever it is started, and no other one. -/
def marked (attempt : Attempt α) : Attempt α := fun subject state =>
  { attempt subject state with trace := [⟨"start", state.offset, .ok ⟨state.offset, 0⟩⟩] }

/-- How many lines an attempt writes. -/
def lines (attempt : Attempt α) (subject : Subject) (state : State) : Nat :=
  (attempt subject state).trace.length

/-- An attempt that neither goes back nor leaves the input. -/
def Forward (attempt : Attempt α) : Prop :=
  ∀ subject state, state.offset ≤ subject.length →
    state.offset ≤ (attempt subject state).state.offset ∧
      (attempt subject state).state.offset ≤ subject.length

/-- What has a bounded reading goes forward. -/
theorem Realizes.forward {attempt : Attempt α} {reading : Reading α}
    (realizes : attempt.Realizes reading) (bounded : reading.Bounded) : attempt.Forward := by
  intro subject state inside
  have within := bounded subject state.capacity state.offset inside
  obtain ⟨_, stop⟩ := Run.ends_as (realizes subject state inside)
  rw [stop]
  exact ⟨within.forward, within.inside⟩

/-! ## Marks change nothing else -/

/-- Attempts that end alike and in the same state, whatever they write. -/
def Same (attempt other : Attempt α) : Prop :=
  ∀ subject state, attempt.outcome subject state = other.outcome subject state

namespace Same

variable {attempt other : Attempt α}

/-- An attempt is like itself. -/
theorem refl (attempt : Attempt α) : attempt.Same attempt := fun _ _ => rfl

/-- A mark changes neither the ending nor the state. -/
theorem marked (attempt : Attempt α) : attempt.marked.Same attempt := fun _ _ => rfl

/-- Alike attempts go on alike. -/
theorem bind {next onward : α → Attempt β} (same : attempt.Same other)
    (rest : ∀ value, (next value).Same (onward value)) :
    (attempt >>= next).Same (other >>= onward) := by
  intro subject state
  rw [outcome_bind, outcome_bind, same subject state]
  split
  · exact rest _ subject _
  all_goals rfl

/-- What goes on alike after the same attempt. -/
theorem andThen {next onward : α → Attempt β} (rest : ∀ value, (next value).Same (onward value)) :
    (attempt >>= next).Same (attempt >>= onward) := (refl attempt).bind rest

/-- A failure is looked at alike. -/
theorem observe (same : attempt.Same other) : (observe attempt).Same (observe other) := by
  intro subject state
  rw [outcome_observe, outcome_observe, same subject state]

end Same

/-! ## Lines -/

section
variable {first : Attempt α} {next : α → Attempt β} {subject : Subject} {state : State} {most : Nat}

end

/-! ## Loops -/

section
variable {step : Attempt α} {separator : Attempt Span} {subject : Subject} {state : State}

end

/-! ## Counting units -/

section
variable {subject : Subject} {state : State}

variable (predicate : Predicate) (bounds : Bounds) (continues : InputUnit → Attempt Bool)

end

/-! ## Searching -/

section
variable {attempt : Attempt Span} {subject : Subject} {state : State}

end

end Attempt

/-! ## Matchers -/

namespace Matcher

end Matcher

end TextPattern
