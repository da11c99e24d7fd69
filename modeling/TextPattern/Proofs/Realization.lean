import TextPattern.Proofs.CaptureLog
import TextPattern.Proofs.ReadingBounds

/-!
# Attempts and their readings

The main statement says that every attempt does what its reading says: from a state inside the
input it ends as the reading ends, at the offset where the reading ends, and the store holds the
captures from before followed by those of the reading. Nothing else about the state matters.
-/

namespace TextPattern

open Combinator (Tally Items)

variable {α β : Type}

namespace State

/-- How many slots there are, if there is a store. -/
def capacity (state : State) : Option Nat := state.captures.map CaptureStore.capacity

/-- The state after moving to an offset and recording captures. -/
def extend (state : State) (offset : Nat) (captures : List Capture) : State :=
  ⟨offset, state.captures.map fun store => store.replay captures⟩

variable (state : State) (offset : Nat) (captures : List Capture)

/-- An extended state stands where the move led. -/
@[simp] theorem offset_extend : (state.extend offset captures).offset = offset := rfl

/-- A checkpoint keeps the offset. -/
@[simp] theorem offset_checkpoint : state.checkpoint.offset = state.offset := rfl

/-- Of two moves only the later counts. -/
@[simp] theorem mk_extend (later : Nat) :
    State.mk later (state.extend offset captures).captures = state.extend later captures := rfl

/-- Recording captures adds no slot. -/
@[simp] theorem capacity_extend : (state.extend offset captures).capacity = state.capacity := by
  simp [capacity, extend, Function.comp_def]

/-- Staying put and recording nothing changes nothing. -/
@[simp] theorem extend_self : state.extend state.offset [] = state := by
  simp [extend]

/-- Two extensions are one. -/
@[simp] theorem extend_extend (later : Nat) (more : List Capture) :
    (state.extend offset captures).extend later more = state.extend later (captures ++ more) := by
  simp [extend, Function.comp_def, CaptureStore.replay_append]

/-- Dropping what was recorded since keeps only the move. -/
@[simp] theorem rollback_extend :
    (state.extend offset captures).rollback state.checkpoint.mark = state.extend offset [] := by
  cases stored : state.captures <;> simp [extend, rollback, checkpoint, stored]

/-- Going back to where a state was leaves that very state. -/
@[simp] theorem restore_extend :
    (state.extend offset captures).restore state.checkpoint = state := by
  rw [restore, rollback_extend]
  exact extend_self state

end State

/-- What an effect does to a state. -/
def Effect.applyTo (effect : Effect α) (state : State) : Ending α × State :=
  (effect.ending, state.extend effect.stop effect.captures)

/-- The effect of staying put changes nothing. -/
@[simp] theorem Effect.applyTo_still (ending : Ending α) (state : State) :
    (Effect.still ending state.offset).applyTo state = (ending, state) := by
  simp [Effect.applyTo, Effect.still]

/-- A run that does to a state what an effect does ends as the effect does, and where it does. -/
theorem Run.ends_as {run : Run α} {effect : Effect α} {state : State}
    (same : (run.ending, run.state) = effect.applyTo state) :
    run.ending = effect.ending ∧ run.state.offset = effect.stop :=
  ⟨congrArg Prod.fst same, congrArg (·.2.offset) same⟩

namespace Attempt

/-- How an attempt ends and in which state, without what it traced. -/
def outcome (attempt : Attempt α) (subject : Subject) (state : State) : Ending α × State :=
  ((attempt subject state).ending, (attempt subject state).state)

section
variable (subject : Subject) (state : State)

/-- What comes after a match goes on from its state. -/
theorem outcome_bind (first : Attempt α) (next : α → Attempt β) :
    (first >>= next).outcome subject state =
      match first.outcome subject state with
      | (.matched value, after) => (next value).outcome subject after
      | (.failed failure, after) => (.failed failure, after)
      | (.raised misuse, after) => (.raised misuse, after)
      | (.exhausted, after) => (.exhausted, after) := by
  show (((first subject state).andThen _).ending, ((first subject state).andThen _).state) = _
  unfold Run.andThen outcome
  cases (first subject state).ending <;> rfl

/-- A value passed on through a function leaves the state as it is. -/
theorem outcome_map (f : α → β) (attempt : Attempt α) :
    (f <$> attempt).outcome subject state =
      ((attempt.outcome subject state).1.map f, (attempt.outcome subject state).2) := by
  show (attempt >>= fun value => pure (f value)).outcome subject state = _
  rw [outcome_bind]
  unfold outcome
  cases (attempt subject state).ending <;> rfl

/-- A value is matched where the attempt stands. -/
theorem outcome_pure (value : α) :
    (pure value : Attempt α).outcome subject state = (.matched value, state) := rfl

/-- A failure leaves the state as it is. -/
theorem outcome_fail (failure : Failure) :
    (fail failure : Attempt α).outcome subject state = (.failed failure, state) := rfl

/-- Running out of steps leaves the state as it is. -/
theorem outcome_exhaust : (exhaust : Attempt α).outcome subject state = (.exhausted, state) := rfl

/-- Asking for the subject leaves the state as it is. -/
theorem outcome_subject :
    Attempt.subject.outcome subject state = (.matched subject, state) := rfl

/-- Asking for the offset leaves the state as it is. -/
theorem outcome_offset :
    Attempt.offset.outcome subject state = (.matched state.offset, state) := rfl

/-- A move changes the offset and leaves the store alone. -/
theorem outcome_seek (offset : Nat) :
    (seek offset).outcome subject state = (.matched (), { state with offset }) := rfl

/-- Taking a checkpoint leaves the state as it is. -/
theorem outcome_checkpoint :
    Attempt.checkpoint.outcome subject state = (.matched state.checkpoint, state) := rfl

/-- Going back to a checkpoint always matches. -/
theorem outcome_restore (checkpoint : Checkpoint) :
    (Attempt.restore checkpoint).outcome subject state =
      (.matched (), state.restore checkpoint) := rfl

/-- Dropping what was recorded always matches. -/
theorem outcome_rollback (mark : Nat) :
    (Attempt.rollback mark).outcome subject state = (.matched (), state.rollback mark) := rfl

/-- Looking at a unit leaves the state as it is. -/
theorem outcome_unitAt (offset : Nat) :
    (unitAt offset).outcome subject state = (.matched (subject.unitAt offset), state) := rfl

/-- Looking around leaves the state as it is. -/
theorem outcome_view :
    view.outcome subject state = (.matched (subject.viewFrom state.offset), state) := rfl

/-- What remains is counted from the offset on. -/
theorem outcome_remaining :
    remaining.outcome subject state = (.matched (subject.length - state.offset), state) := rfl

/-- A span ends where the attempt stands. -/
theorem outcome_spanFrom (start : Nat) :
    (spanFrom start).outcome subject state = (.matched (.between start state.offset), state) := rfl

/-- A failure that is looked at is a match, in the state it left. -/
theorem outcome_observe (attempt : Attempt α) :
    (observe attempt).outcome subject state =
      ((attempt.outcome subject state).1.settle, (attempt.outcome subject state).2) := rfl

/-- A question is answered from the state it is asked in, which comes back. -/
theorem outcome_probe (attempt : Attempt α) :
    (probe attempt).outcome subject state =
      ((attempt.outcome subject state).1.settle.map Result.succeeded,
        (attempt.outcome subject state).2.restore state.checkpoint) := rfl

/-- An attempt elsewhere runs without the store, and the state stays as it is. -/
theorem outcome_aside (offset : Nat) (attempt : Attempt α) :
    (aside offset attempt).outcome subject state =
      ((attempt.outcome subject ⟨offset, none⟩).1.settle.map fun result =>
        (result, (attempt.outcome subject ⟨offset, none⟩).2.offset), state) := rfl

/-- A slice is cut out of the input, if the span lies inside. -/
theorem outcome_slice (span : Span) :
    (slice span).outcome subject state =
      match subject.slice? span with
      | some bytes => (.matched bytes, state)
      | none => (.raised .sliceOutOfRange, state) := by
  unfold outcome slice
  cases subject.slice? span <;> rfl

/-- A result is a match or a failure. -/
theorem outcome_ofResult (result : Result α) :
    (ofResult result).outcome subject state =
      match result with
      | .ok value => (.matched value, state)
      | .error failure => (.failed failure, state) := by
  cases result <;> rfl

/-- Every slot will do where there is no store. -/
theorem outcome_requireSlot (slot : Nat) :
    (requireSlot slot).outcome subject state =
      if Reading.hasSlot state.capacity slot then (.matched (), state)
      else (.failed (.captureOutOfBounds slot), state) := by
  unfold outcome requireSlot
  cases stored : state.captures with
  | none => simp [Reading.hasSlot, State.capacity, stored]
  | some store =>
    by_cases inside : slot < store.capacity <;>
      simp [Reading.hasSlot, State.capacity, stored, inside]

/-- A capture for a slot that exists is recorded where the attempt is. -/
theorem outcome_capture (slot : Nat) (span : Span)
    (inside : Reading.hasSlot state.capacity slot = true) :
    (capture slot span).outcome subject state =
      (.matched (), state.extend state.offset [(slot, span)]) := by
  unfold outcome capture
  cases stored : state.captures with
  | none =>
    cases state
    cases stored
    rfl
  | some store =>
    have exists_slot : slot < store.capacity := by
      simpa [Reading.hasSlot, State.capacity, stored] using inside
    simp [State.extend, stored, CaptureStore.push_eq_replay span exists_slot]

/-- What an attempt covers is known where it ends. -/
theorem outcome_covering (attempt : Attempt α) :
    (Combinator.covering attempt).outcome subject state =
      let all := attempt.outcome subject state
      (all.1.map fun _ => .between state.offset all.2.offset, all.2) := by
  unfold Combinator.covering
  rw [outcome_bind, outcome_offset]
  dsimp only
  rw [outcome_bind]
  obtain ⟨ending, after⟩ := attempt.outcome subject state
  cases ending <;> rfl

/-- Tracing changes no outcome. -/
theorem outcome_traced (name : String) (attempt : Attempt Span) :
    (traced name attempt).outcome subject state = attempt.outcome subject state := rfl

end

/-- An attempt does what a reading says. -/
def Realizes (attempt : Attempt α) (reading : Reading α) : Prop :=
  ∀ subject state, state.offset ≤ subject.length →
    attempt.outcome subject state =
      (reading subject state.capacity state.offset).applyTo state

namespace Realizes

/-- A value at once. -/
theorem pure (value : α) : (Pure.pure value : Attempt α).Realizes (Pure.pure value) :=
  fun _ state _ => (Effect.applyTo_still (.matched value) state).symm

/-- Misuse at once. -/
theorem raise (misuse : Misuse) : (Attempt.raise misuse : Attempt α).Realizes (.raise misuse) :=
  fun _ state _ => (Effect.applyTo_still (.raised misuse) state).symm

/-- No steps left. -/
theorem exhaust : (Attempt.exhaust : Attempt α).Realizes .exhaust :=
  fun _ state _ => (Effect.applyTo_still .exhausted state).symm

/-- A state reached by a bounded reading lies inside the input again. -/
theorem continued {next : Attempt β} {reading : Reading β} {subject : Subject} {state : State}
    {stop : Nat} (realizes : next.Realizes reading) (inside : stop ≤ subject.length)
    (captures : List Capture) :
    next.outcome subject (state.extend stop captures) =
      (reading subject state.capacity stop).applyTo (state.extend stop captures) := by
  have same := realizes subject (state.extend stop captures) inside
  rwa [State.capacity_extend, State.offset_extend] at same

/-- An effect applied after another one, on the state from before both. -/
theorem applyTo_extend (effect : Effect α) (state : State) (stop : Nat)
    (captures : List Capture) :
    effect.applyTo (state.extend stop captures) = (effect.after captures).applyTo state := by
  simp [Effect.applyTo, Effect.after]

/-- One attempt after another does what one reading after another says. -/
theorem bind {first : Attempt α} {next : α → Attempt β} {reading : Reading α}
    {later : α → Reading β} (realizes : first.Realizes reading) (bounded : reading.Bounded)
    (rest : ∀ value, (next value).Realizes (later value)) :
    (first >>= next).Realizes (reading >>= later) := by
  intro subject state inside
  have within := bounded subject state.capacity state.offset inside
  show _ = ((reading subject state.capacity state.offset).andThen _).applyTo state
  rw [outcome_bind, realizes subject state inside, Effect.andThen]
  cases ended : (reading subject state.capacity state.offset).ending with
  | matched value =>
    simp only [Effect.applyTo, ended]
    rw [(rest value).continued within.inside, applyTo_extend]
    rfl
  | _ => simp only [Effect.applyTo, ended]

/-- Values passed on through a function. -/
theorem map {attempt : Attempt α} {reading : Reading α} (f : α → β)
    (realizes : attempt.Realizes reading) (bounded : reading.Bounded) :
    (f <$> attempt).Realizes (f <$> reading) :=
  bind realizes bounded fun _ => .pure _

/-- What an attempt covers is what its reading covers. -/
theorem covering {attempt : Attempt α} {reading : Reading α}
    (realizes : attempt.Realizes reading) :
    (Combinator.covering attempt).Realizes reading.covering := by
  intro subject state inside
  rw [outcome_covering, realizes subject state inside]
  rfl

/-- Undoing an attempt that fails leaves its effect out. -/
theorem orRestore {attempt : Attempt α} {reading : Reading α}
    (realizes : attempt.Realizes reading) :
    (Attempt.orRestore attempt).Realizes reading.restoring := by
  intro subject state inside
  unfold Attempt.orRestore Reading.restoring
  simp only [outcome_bind, outcome_checkpoint, outcome_observe, realizes subject state inside,
    Effect.orElse]
  cases ended : (reading subject state.capacity state.offset).ending with
  | failed failure =>
    simp [Effect.applyTo, Ending.settle, ended, outcome_bind, outcome_restore, outcome_fail,
      Effect.still]
  | _ => simp [Effect.applyTo, Ending.settle, ended, outcome_pure]

/-- A probe asks the reading and leaves the state alone. -/
theorem probe {attempt : Attempt α} {reading : Reading α}
    (realizes : attempt.Realizes reading) : (Attempt.probe attempt).Realizes reading.probe := by
  intro subject state inside
  rw [outcome_probe, realizes subject state inside, Effect.applyTo, State.restore_extend]
  exact (Effect.applyTo_still _ state).symm

/-- The view from the position. -/
theorem view (test : View → Bool) : (test <$> Attempt.view).Realizes (.viewTest test) := by
  intro subject state _
  rw [outcome_map, outcome_view]
  exact (Effect.applyTo_still _ state).symm

/-- Slices are checked in the same way. -/
theorem slice (span : Span) : (Attempt.slice span).Realizes (.slice span) := by
  intro subject state _
  rw [outcome_slice]
  unfold Reading.slice
  cases subject.slice? span <;> exact (Effect.applyTo_still _ state).symm

/-- The slice of a match. -/
theorem sliced {attempt : Attempt Span} {reading : Reading Span}
    (realizes : attempt.Realizes reading) (bounded : reading.Bounded) :
    (Combinator.sliced attempt).Realizes reading.sliced :=
  realizes.bind bounded fun span => (slice span).bind (.slice span) fun _ => .pure _

end Realizes

end Attempt

end TextPattern
