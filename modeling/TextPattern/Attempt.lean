import TextPattern.CaptureStore

/-!
# Attempts

An attempt is a computation over a fixed subject that moves a position, records captures and ends
in one of four ways. Whatever the ending, the run keeps the state in which it ended: nothing is
undone unless a combinator restores it. Attempts also write a trace, which nothing reads back.
-/

namespace TextPattern

/-- What an attempt changes: the position, and the capture store if there is one. -/
structure State where
  /-- Where the attempt is in its subject. -/
  offset : Nat
  /-- Where captures go. Without a store they are not recorded. -/
  captures : Option CaptureStore

/-- The ways in which an attempt ends. -/
inductive Ending (α : Type) where
  /-- The input matched. -/
  | matched (value : α)
  /-- The input did not match. -/
  | failed (failure : Failure)
  /-- A rule of use was broken. -/
  | raised (misuse : Misuse)
  /-- The steps allotted to a loop or to recursion ran out. -/
  | exhausted
deriving DecidableEq, Repr

namespace Ending

variable {α β : Type}

/-- Pass the value of a match through a function. -/
def map (f : α → β) : Ending α → Ending β
  | .matched value => .matched (f value)
  | .failed failure => .failed failure
  | .raised misuse => .raised misuse
  | .exhausted => .exhausted

/-- Match and failure alike as a value. -/
def settle : Ending α → Ending (Result α)
  | .matched value => .matched (.ok value)
  | .failed failure => .matched (.error failure)
  | .raised misuse => .raised misuse
  | .exhausted => .exhausted

end Ending

/-- One line of the trace: which combinator, where it began, and how it ended. -/
structure TraceLine where
  /-- The name of the combinator. -/
  name : String
  /-- Where it began. -/
  start : Nat
  /-- The span it matched, or why it failed. -/
  outcome : Result Span

/-- The wording of a trace line, with its line feed. -/
def TraceLine.render (line : TraceLine) : Bytes :=
  Bytes.ofString "neure: " ++ Bytes.ofString line.name ++ Bytes.ofString " @" ++
    Bytes.decimal line.start ++ Bytes.ofString " -> " ++
    (match line.outcome with
      | .ok span =>
        Bytes.ofString "ok [" ++ Bytes.decimal span.start ++ Bytes.ofString ",+" ++
          Bytes.decimal span.length ++ Bytes.ofString "]"
      | .error failure => failure.message) ++
    Bytes.ofString "\n"

/-- How an attempt ended, the state it ended in, and what it traced. -/
structure Run (α : Type) where
  /-- The ending. -/
  ending : Ending α
  /-- The state in which it ended. -/
  state : State
  /-- The trace, oldest line first. -/
  trace : List TraceLine

/-- A computation over a subject, from one state to another. -/
def Attempt (α : Type) : Type := Subject → State → Run α

/-- Go on from a match; every other ending stays as it is. -/
def Run.andThen {α β : Type} (run : Run α) (next : α → State → Run β) : Run β :=
  match run.ending with
  | .matched value =>
    let rest := next value run.state
    { rest with trace := run.trace ++ rest.trace }
  | .failed failure => ⟨.failed failure, run.state, run.trace⟩
  | .raised misuse => ⟨.raised misuse, run.state, run.trace⟩
  | .exhausted => ⟨.exhausted, run.state, run.trace⟩

instance : Monad Attempt where
  pure value := fun _ state => ⟨.matched value, state, []⟩
  bind first next := fun subject state =>
    (first subject state).andThen fun value state => next value subject state

/-- A place to which an attempt can return: a position and a mark in the store. -/
structure Checkpoint where
  /-- The position. -/
  offset : Nat
  /-- How many captures there were. -/
  mark : Nat
deriving DecidableEq, Repr

namespace State

/-- The place where a state is. Without a store the mark is zero. -/
def checkpoint (state : State) : Checkpoint :=
  ⟨state.offset, match state.captures with | some store => store.mark | none => 0⟩

/-- Drop the captures made since a mark. -/
def rollback (state : State) (mark : Nat) : State :=
  { state with captures := state.captures.map fun store => store.rollback mark }

/-- Return to a checkpoint. -/
def restore (state : State) (checkpoint : Checkpoint) : State :=
  { state.rollback checkpoint.mark with offset := checkpoint.offset }

end State

namespace Attempt

variable {α : Type}

/-- End with a failure. -/
def fail (failure : Failure) : Attempt α := fun _ state => ⟨.failed failure, state, []⟩

/-- End with a misuse. -/
def raise (misuse : Misuse) : Attempt α := fun _ state => ⟨.raised misuse, state, []⟩

/-- End because the allotted steps ran out. -/
def exhaust : Attempt α := fun _ state => ⟨.exhausted, state, []⟩

/-- What is matched against. -/
def subject : Attempt Subject := fun subject state => ⟨.matched subject, state, []⟩

/-- The position. -/
def offset : Attempt Nat := fun _ state => ⟨.matched state.offset, state, []⟩

/-- Go to a position. -/
def seek (offset : Nat) : Attempt Unit :=
  fun _ state => ⟨.matched (), { state with offset }, []⟩

/-- The place where the attempt is. -/
def checkpoint : Attempt Checkpoint := fun _ state => ⟨.matched state.checkpoint, state, []⟩

/-- Return to a checkpoint. -/
def restore (checkpoint : Checkpoint) : Attempt Unit :=
  fun _ state => ⟨.matched (), state.restore checkpoint, []⟩

/-- Drop the captures made since a mark, wherever the attempt is. -/
def rollback (mark : Nat) : Attempt Unit :=
  fun _ state => ⟨.matched (), state.rollback mark, []⟩

/-- Drop the captures made since a mark and keep them aside. -/
def takeSince (mark : Nat) : Attempt (List Capture) := fun _ state =>
  match state.captures with
  | none => ⟨.matched [], state, []⟩
  | some store =>
    let taken := store.take mark
    ⟨.matched taken.1, { state with captures := some taken.2 }, []⟩

/-- Put captures back that were kept aside. -/
def replay (captures : List Capture) : Attempt Unit := fun _ state =>
  ⟨.matched (), { state with captures := state.captures.map fun store => store.replay captures },
    []⟩

/-- Fail unless captures can go to a slot. Without a store every slot will do. -/
def requireSlot (slot : Nat) : Attempt Unit := fun _ state =>
  match state.captures with
  | none => ⟨.matched (), state, []⟩
  | some store =>
    if slot < store.capacity then ⟨.matched (), state, []⟩
    else ⟨.failed (.captureOutOfBounds slot), state, []⟩

/-- Capture a span. Without a store it is not recorded. -/
def capture (slot : Nat) (span : Span) : Attempt Unit := fun _ state =>
  match state.captures with
  | none => ⟨.matched (), state, []⟩
  | some store =>
    match store.push slot span with
    | .ok extended => ⟨.matched (), { state with captures := some extended }, []⟩
    | .error failure => ⟨.failed failure, state, []⟩

/-- The unit at an offset. -/
def unitAt (offset : Nat) : Attempt (Option InputUnit) :=
  fun subject state => ⟨.matched (subject.unitAt offset), state, []⟩

/-- The input from the position on. -/
def view : Attempt View := fun subject state =>
  ⟨.matched (subject.viewFrom state.offset), state, []⟩

/-- How many octets lie ahead. -/
def remaining : Attempt Nat :=
  fun subject state => ⟨.matched (subject.length - state.offset), state, []⟩

/-- The span from an offset to the position. -/
def spanFrom (start : Nat) : Attempt Span :=
  fun _ state => ⟨.matched (.between start state.offset), state, []⟩

/-- The slice of a span, which must not begin past the end of the input. -/
def slice (span : Span) : Attempt Bytes := fun subject state =>
  match subject.slice? span with
  | some bytes => ⟨.matched bytes, state, []⟩
  | none => ⟨.raised .sliceOutOfRange, state, []⟩

/-- A result as an attempt. -/
def ofResult : Result α → Attempt α
  | .ok value => pure value
  | .error failure => fail failure

/-- Turn a failure into a value. The state stays where the failure left it. -/
def observe (attempt : Attempt α) : Attempt (Result α) := fun subject state =>
  let run := attempt subject state
  ⟨run.ending.settle, run.state, run.trace⟩

/-- On failure, return to where the attempt began. -/
def orRestore (attempt : Attempt α) : Attempt α := do
  let start ← checkpoint
  match ← observe attempt with
  | .ok value => pure value
  | .error failure =>
    restore start
    fail failure

/-- Whether an attempt would succeed here. However it ends, it leaves no mark on the state. -/
def probe (attempt : Attempt α) : Attempt Bool := fun subject state =>
  let run := attempt subject state
  ⟨run.ending.settle.map Result.succeeded, run.state.restore state.checkpoint, run.trace⟩

/-- Run an attempt from another offset, with a position of its own and without a store. Its result
comes with the offset at which it ended. -/
def aside (offset : Nat) (attempt : Attempt α) : Attempt (Result α × Nat) := fun subject state =>
  let run := attempt subject ⟨offset, none⟩
  ⟨run.ending.settle.map fun result => (result, run.state.offset), state, run.trace⟩

/-- The trace lines of a run that began at an offset: one for a match or a failure. -/
def outcomeLines (name : String) (start : Nat) : Ending Span → List TraceLine
  | .matched span => [⟨name, start, .ok span⟩]
  | .failed failure => [⟨name, start, .error failure⟩]
  | .raised _ => []
  | .exhausted => []

/-- The trace lines of a run that are written only for a failure. -/
def failureLines (name : String) (start : Nat) : Ending Span → List TraceLine
  | .failed failure => [⟨name, start, .error failure⟩]
  | _ => []

/-- Trace how an attempt ends. -/
def traced (name : String) (attempt : Attempt Span) : Attempt Span := fun subject state =>
  let run := attempt subject state
  { run with trace := run.trace ++ outcomeLines name state.offset run.ending }

/-- Trace an attempt if it fails. -/
def tracedFailure (name : String) (attempt : Attempt Span) : Attempt Span := fun subject state =>
  let run := attempt subject state
  { run with trace := run.trace ++ failureLines name state.offset run.ending }

end Attempt

end TextPattern
