import TextPattern.Proofs.MatcherRealization

/-!
# Captures as a frame

A run leaves the captures from before as they were and puts its own behind them, however it ends.
`Matcher.attempt_appends_captures` is the main statement.
-/

namespace TextPattern

variable {α : Type}

/-- A store that holds all captures of another one, with further ones behind them, both in its
journal and in its slots. -/
structure CaptureStore.Extends (before after : CaptureStore) (added : List Capture) : Prop where
  /-- The slots are as many. -/
  capacity : after.capacity = before.capacity
  /-- The captures are those from before and then the others. -/
  captures : after.captures = before.captures ++ added
  /-- So they are in each slot. -/
  spansAt : ∀ slot, after.spansAt slot =
    before.spansAt slot ++ (added.filter fun capture => capture.1 = slot).map Prod.snd

/-- Replaying captures for slots that exist extends a store by them. -/
theorem CaptureStore.extends_replay {store : CaptureStore} {captures : List Capture}
    (inside : ∀ capture ∈ captures, capture.1 < store.capacity) :
    store.Extends (store.replay captures) captures where
  capacity := capacity_replay store captures
  captures := captures_replay inside
  spansAt := spansAt_replay inside

/-- Captures of an effect are for slots of the store. -/
theorem Effect.Within.slot_lt {effect : Effect α} {offset limit : Nat} {store : CaptureStore}
    (within : effect.Within offset limit (some store.capacity)) :
    ∀ capture ∈ effect.captures, capture.1 < store.capacity := by
  intro capture member
  simpa [Reading.hasSlot] using (within.captured capture member).1

/-- A run with such an effect ends as the effect does, and extends the store by its captures. -/
theorem Effect.Within.extends_store {effect : Effect α} {offset limit : Nat} {store : CaptureStore}
    (within : effect.Within offset limit (some store.capacity)) {run : Run α}
    (same : (run.ending, run.state) = effect.applyTo ⟨offset, some store⟩) :
    run.ending = effect.ending ∧ run.state.offset = effect.stop ∧
      ∃ after, run.state.captures = some after ∧ store.Extends after effect.captures := by
  obtain ⟨ending, stop⟩ := Run.ends_as same
  exact ⟨ending, stop, store.replay effect.captures, congrArg (·.2.captures) same,
    CaptureStore.extends_replay within.slot_lt⟩

namespace Matcher

variable (matcher : Matcher) (definitions : Definitions) {subject : Subject} {offset : Nat}

/-- What a run for the span does to a store, as the reading says it. -/
theorem attempt_extends (inside : offset ≤ subject.length) (store : CaptureStore) :
    let run := matcher.attempt definitions subject ⟨offset, some store⟩
    let effect := (matcher.readingsUnder definitions subject).span subject (some store.capacity)
      offset
    run.ending = effect.ending ∧ run.state.offset = effect.stop ∧
      ∃ after, run.state.captures = some after ∧ store.Extends after effect.captures :=
  ((matcher.readingsUnder_sound definitions subject).span.bounded subject _ offset
    inside).extends_store (matcher.outcome_attempt definitions inside)

/-- However a run ends, the captures from before are as they were, and behind them there are only
captures for slots of the store, of what lies between where the run began and where it ended. -/
theorem attempt_appends_captures (inside : offset ≤ subject.length) (store : CaptureStore) :
    let run := matcher.attempt definitions subject ⟨offset, some store⟩
    ∃ after added, run.state.captures = some after ∧ store.Extends after added ∧
      ∀ capture ∈ added, capture.1 < store.capacity ∧ offset ≤ capture.2.start ∧
        capture.2.start + capture.2.length ≤ run.state.offset := by
  intro run
  obtain ⟨_, stop, after, left, extended⟩ := matcher.attempt_extends definitions inside store
  have within := (matcher.readingsUnder_sound definitions subject).span.bounded subject
    (some store.capacity) offset inside
  refine ⟨after, _, left, extended, fun capture member => ⟨within.slot_lt capture member, ?_⟩⟩
  have bounds := within.captured capture member
  exact ⟨bounds.2.1, stop ▸ bounds.2.2⟩

/-- A run that breaks off while the captures of its first part are set aside. They are gone,
the capture from before is not. -/
theorem attempt_appends_captures_broken_off :
    let matcher := Matcher.longest (.captured 0 (.literal [97]))
      (.sequence (.captured 1 (.literal [97])) .undefined)
    let store := (CaptureStore.ofCapacity 2).replay [(0, ⟨5, 1⟩)]
    let run := matcher.attempt [] ⟨.octet, [97, 98]⟩ ⟨0, some store⟩
    run.ending = .raised .undefinedMatcher ∧ run.state.offset = 1 ∧
      run.state.captures.map CaptureStore.captures = some [(0, ⟨5, 1⟩), (1, ⟨0, 1⟩)] ∧
      ∃ after added, run.state.captures = some after ∧ store.Extends after added ∧
        ∀ capture ∈ added, capture.1 < store.capacity ∧ 0 ≤ capture.2.start ∧
          capture.2.start + capture.2.length ≤ run.state.offset := by
  intro matcher store run
  exact ⟨by decide +kernel, by decide +kernel, by decide +kernel,
    matcher.attempt_appends_captures [] (by decide) store⟩

end Matcher

end TextPattern
