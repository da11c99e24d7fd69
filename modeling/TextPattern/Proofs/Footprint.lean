import TextPattern.Proofs.Reach
import TextPattern.Proofs.RestingPlaces

/-!
# What runs let out

Besides the offset at which it ends, a run lets out the spans that it captured, the failure or the
misuse that it ended with, or its value. In a set of offsets that no move leaves, all of them keep
to that set: spans and slices lie between two of its offsets, and failures point at what lies
behind one of them. Values are put together of such slices, and of what converters produce of values
that are. `Matcher.readingsUnder_proper` is the main statement.
-/

namespace TextPattern

open Combinator (Tally Items)

variable {α β : Type}

/-! ## Grounds -/

/-- Offsets that no move leaves, and what is expected of the runs that begin there. -/
structure Ground where
  /-- What is matched against. -/
  subject : Subject
  /-- The offsets. -/
  places : Set Nat
  /-- No move leads out of them. -/
  closed : subject.Closed places
  /-- They lie inside the input. -/
  inside : ∀ {offset}, offset ∈ places → offset ≤ subject.length
  /-- Which rules may be broken. -/
  allowed : Misuse → Prop
  /-- What is expected of the slices in values. -/
  fine : Bytes → Prop
  /-- The slices between two of the offsets are as expected. -/
  cut : ∀ {start stop}, start ∈ places → stop ∈ places →
    fine (Span.slice subject.bytes (.between start stop))

namespace Ground

variable (ground : Ground)

/-- A span from one of the offsets to another. -/
def Spans (span : Span) : Prop :=
  ∃ start ∈ ground.places, ∃ stop ∈ ground.places, start ≤ stop ∧ span = .between start stop

/-- A failure of runs with a store of a capacity, if there is one: mismatches lie behind one of the
offsets, input is missed at its end only, slots are missed past the last one, and what was not
converted lies between two of the offsets. -/
def Explains (capacity : Option Nat) : Failure → Prop
  | .mismatch position _ =>
    (∃ start ∈ ground.places, start ≤ position) ∧ position ≤ ground.subject.length
  | .outOfBounds position => position = ground.subject.length
  | .captureOutOfBounds slot => Reading.hasSlot capacity slot = false
  | .conversionFailed position slice _ =>
    position ∈ ground.places ∧ ∃ stop ∈ ground.places, position ≤ stop ∧
      slice = Span.slice ground.subject.bytes (.between position stop)

/-- An ending that is no failure, and breaks a rule only if it may be broken. -/
structure Settles (ending : Ending α) : Prop where
  /-- It is no failure. -/
  settled : ∀ failure, ending ≠ .failed failure
  /-- A broken rule is one of those that may be. -/
  misuse : ∀ misuse, ending = .raised misuse → ground.allowed misuse

variable {ground}

/-- A match settles. -/
theorem Settles.matched (value : α) : ground.Settles (.matched value) := ⟨nofun, nofun⟩

/-- Running out of steps settles. -/
theorem Settles.exhausted : ground.Settles (.exhausted : Ending α) := ⟨nofun, nofun⟩

/-- Breaking a rule that may be broken settles. -/
theorem Settles.raised {misuse : Misuse} (allowed : ground.allowed misuse) :
    ground.Settles (.raised misuse : Ending α) :=
  ⟨nofun, fun _ same => by cases same; exact allowed⟩

/-- A mismatch at one of the offsets is explained. -/
theorem explains_mismatch {offset : Nat} (here : offset ∈ ground.places) (capacity : Option Nat)
    (expected : Bytes) : ground.Explains capacity (.mismatch offset expected) :=
  ⟨⟨offset, here, Nat.le_refl offset⟩, ground.inside here⟩

/-- A span that is covered from one of the offsets to another is between both. -/
theorem spans_between {start stop : Nat} (here : start ∈ ground.places)
    (there : stop ∈ ground.places) (forward : start ≤ stop) :
    ground.Spans (.between start stop) :=
  ⟨start, here, stop, there, forward, rfl⟩

/-- The octets of a span between two of the offsets are as expected. -/
theorem Spans.fine {span : Span} (spans : ground.Spans span) :
    ground.fine (span.slice ground.subject.bytes) := by
  obtain ⟨start, here, stop, there, _, rfl⟩ := spans
  exact ground.cut here there

/-- A span between two of the offsets begins inside the input. -/
theorem Spans.start_le {span : Span} (spans : ground.Spans span) :
    span.start ≤ ground.subject.length := by
  obtain ⟨start, here, stop, _, _, rfl⟩ := spans
  exact ground.inside here

end Ground

/-! ## What values are built of -/

namespace Value

/-- A value that is a slice, and one that is as expected. -/
def IsSliceOf (fine : Bytes → Prop) (value : Value) : Prop :=
  ∃ slice, value = .slice slice ∧ fine slice

/-- A value that is a list of values as expected. -/
def IsListOf (holds : Value → Prop) (value : Value) : Prop :=
  ∃ values, value = .list values ∧ ∀ member ∈ values, holds member

/-- A value that is a pair of values as expected. -/
def IsPairOf (left right : Value → Prop) (value : Value) : Prop :=
  ∃ first second, value = .pair first second ∧ left first ∧ right second

end Value

/-- A value that is put together as a matcher does it, of slices that are as expected. Whatever a
converter has produced, it has produced from a value that was put together in this way. -/
def Matcher.Builds (fine : Bytes → Prop) : Matcher → Value → Prop
  | .collected inner _ => Value.IsListOf (inner.Builds fine)
  | .sepOnce left _ right => Value.IsPairOf (left.Builds fine) (right.Builds fine)
  | .separated item _ _ _ => Value.IsListOf (item.Builds fine)
  | .enclosed _ inner _ => inner.Builds fine
  | .mapped inner converter => fun value =>
    ∃ given, inner.Builds fine given ∧ converter given = .produced value
  | _ => Value.IsSliceOf fine

/-- What is put together of slices is put together of slices of which less is expected. -/
theorem Matcher.Builds.imp {fine rough : Bytes → Prop} {matcher : Matcher} {value : Value}
    (builds : matcher.Builds fine value) (less : ∀ slice, fine slice → rough slice) :
    matcher.Builds rough value := by
  induction matcher generalizing value with
  | collected inner bounds ih =>
    obtain ⟨values, same, each⟩ := builds
    exact ⟨values, same, fun member among => ih (each member among)⟩
  | separated item separator least terminated ih _ =>
    obtain ⟨values, same, each⟩ := builds
    exact ⟨values, same, fun member among => ih (each member among)⟩
  | sepOnce left separator right first _ last =>
    obtain ⟨one, other, same, before, behind⟩ := builds
    exact ⟨one, other, same, first before, last behind⟩
  | enclosed head inner tail _ ih _ => exact ih builds
  | mapped inner converter ih =>
    obtain ⟨given, inside, made⟩ := builds
    exact ⟨given, ih inside, made⟩
  | _ =>
    obtain ⟨slice, same, expected⟩ := builds
    exact ⟨slice, same, less slice expected⟩

/-! ## Proper effects -/

/-- All that an effect lets out is as the ground expects. -/
structure Effect.Proper (effect : Effect α) (ground : Ground) (capacity : Option Nat)
    (holds : α → Prop) : Prop where
  /-- Captured spans lie between two of the offsets. -/
  captures : ∀ capture ∈ effect.captures, ground.Spans capture.2
  /-- A failure is explained. -/
  failure : ∀ failure, effect.ending = .failed failure → ground.Explains capacity failure
  /-- A broken rule is one of those that may be. -/
  misuse : ∀ misuse, effect.ending = .raised misuse → ground.allowed misuse
  /-- The value is as expected. -/
  value : ∀ value, effect.ending = .matched value → holds value

namespace Effect.Proper

variable {ground : Ground} {capacity : Option Nat} {holds : α → Prop} {holdsLater : β → Prop}
  {effect : Effect α}

/-- A match without captures. -/
theorem matched {value : α} (stop : Nat) (expected : holds value) :
    (⟨.matched value, stop, []⟩ : Effect α).Proper ground capacity holds where
  captures _ member := absurd member List.not_mem_nil
  failure _ ended := nomatch ended
  misuse _ ended := nomatch ended
  value _ ended := by
    cases ended
    exact expected

/-- A failure without captures. -/
theorem failed {failure : Failure} (stop : Nat) (explained : ground.Explains capacity failure) :
    (⟨.failed failure, stop, []⟩ : Effect α).Proper ground capacity holds where
  captures _ member := absurd member List.not_mem_nil
  failure _ ended := by
    cases ended
    exact explained
  misuse _ ended := nomatch ended
  value _ ended := nomatch ended

/-- A match, after the captures of a proper effect. -/
theorem yields {value : β} (proper : effect.Proper ground capacity holds)
    (expected : holdsLater value) :
    (⟨.matched value, effect.stop, effect.captures⟩ : Effect β).Proper ground capacity
      holdsLater where
  captures := proper.captures
  failure _ same := nomatch same
  misuse _ same := nomatch same
  value _ same := by
    cases same
    exact expected

/-- A failure, after the captures of a proper effect. -/
theorem fails {failure : Failure} (proper : effect.Proper ground capacity holds)
    (ended : effect.ending = .failed failure) :
    (⟨.failed failure, effect.stop, effect.captures⟩ : Effect β).Proper ground capacity
      holdsLater where
  captures := proper.captures
  failure _ same := by
    cases same
    exact proper.failure failure ended
  misuse _ same := nomatch same
  value _ same := nomatch same

/-- A broken rule, after the captures of a proper effect. -/
theorem raised {misuse : Misuse} (proper : effect.Proper ground capacity holds)
    (ended : effect.ending = .raised misuse) :
    (⟨.raised misuse, effect.stop, effect.captures⟩ : Effect β).Proper ground capacity
      holdsLater where
  captures := proper.captures
  failure _ same := nomatch same
  misuse _ same := by
    cases same
    exact proper.misuse misuse ended
  value _ same := nomatch same

/-- An end of steps, after the captures of a proper effect. -/
theorem exhausted (proper : effect.Proper ground capacity holds) :
    (⟨.exhausted, effect.stop, effect.captures⟩ : Effect β).Proper ground capacity
      holdsLater where
  captures := proper.captures
  failure _ same := nomatch same
  misuse _ same := nomatch same
  value _ same := nomatch same

/-- An ending that is no failure, without captures. -/
theorem still {ending : Ending α} (stop : Nat) (settles : ground.Settles ending)
    (expected : ∀ value, ending = .matched value → holds value) :
    (Effect.still ending stop).Proper ground capacity holds where
  captures _ member := absurd member List.not_mem_nil
  failure failure ended := absurd ended (settles.settled failure)
  misuse := settles.misuse
  value := expected

/-- An end of steps, without captures. -/
theorem spent (stop : Nat) :
    (Effect.still (.exhausted : Ending α) stop).Proper ground capacity holds :=
  .still stop .exhausted nofun

/-- The verdict on a proper effect. -/
theorem settles_verdict (proper : effect.Proper ground capacity holds) :
    ground.Settles (effect.ending.settle.map Result.succeeded) := by
  constructor
  · intro failure same
    cases ended : effect.ending <;> rw [ended] at same <;> cases same
  · intro misuse same
    cases ended : effect.ending <;> rw [ended] at same <;> cases same
    exact proper.misuse misuse ended

/-- Values passed through a function. -/
theorem map {f : α → β} (proper : effect.Proper ground capacity holds)
    (kept : ∀ value, effect.ending = .matched value → holds value → holdsLater (f value)) :
    (effect.map f).Proper ground capacity holdsLater := by
  refine ⟨proper.captures, ?_, ?_, ?_⟩ <;> intro _ ended <;>
    cases before : effect.ending <;> rw [Effect.map, before] at ended <;> cases ended
  · exact proper.failure _ before
  · exact proper.misuse _ before
  · exact kept _ before (proper.value _ before)

/-- Going on where a match ended. -/
theorem andThen {next : α → Nat → Effect β} (proper : effect.Proper ground capacity holds)
    (later : ∀ value, effect.ending = .matched value → holds value →
      (next value effect.stop).Proper ground capacity holdsLater) :
    (effect.andThen next).Proper ground capacity holdsLater := by
  unfold Effect.andThen
  cases ended : effect.ending with
  | matched value =>
    have second := later value ended (proper.value value ended)
    refine ⟨fun capture member => ?_, second.failure, second.misuse, second.value⟩
    rcases List.mem_append.mp member with early | late
    · exact proper.captures capture early
    · exact second.captures capture late
  | failed failure => exact proper.fails ended
  | raised misuse => exact proper.raised ended
  | exhausted => exact proper.exhausted

/-- Putting another effect in the place of a failure. -/
theorem orElse {other : Failure → Effect α} (proper : effect.Proper ground capacity holds)
    (instead : ∀ failure, ground.Explains capacity failure →
      (other failure).Proper ground capacity holds) :
    (effect.orElse other).Proper ground capacity holds := by
  unfold Effect.orElse
  cases ended : effect.ending with
  | failed failure => exact instead failure (proper.failure failure ended)
  | _ => exact proper

end Effect.Proper

/-! ## Proper readings -/

/-- Begun at one of the offsets, a reading lets out only what is expected. -/
def Reading.Proper (reading : Reading α) (ground : Ground) (holds : α → Prop) : Prop :=
  ∀ capacity offset, offset ∈ ground.places →
    (reading ground.subject capacity offset).Proper ground capacity holds

namespace Reading.Proper

variable {ground : Ground} {holds : α → Prop} {holdsLater : β → Prop}

/-! ### Building blocks -/

/-- Yielding a value. -/
theorem pure {value : α} (expected : holds value) : Proper (Pure.pure value) ground holds :=
  fun _ offset _ => .matched offset expected

/-- One reading after another. -/
theorem bind {first : Reading α} {next : α → Reading β} (proper : first.Proper ground holds)
    (rests : first.RestsIn ground.subject ground.places)
    (later : ∀ value, holds value → (next value).Proper ground holdsLater) :
    Proper (first >>= next) ground holdsLater := fun capacity offset here =>
  (proper capacity offset here).andThen fun value _ expected =>
    later value expected capacity _ (rests capacity offset here)

/-- Passing values through a function. -/
theorem map {reading : Reading α} {f : α → β} (proper : reading.Proper ground holds)
    (kept : ∀ value, holds value → holdsLater (f value)) :
    Proper (f <$> reading) ground holdsLater := by
  intro capacity offset here
  rw [map_apply]
  exact (proper capacity offset here).map fun value _ expected => kept value expected

/-- What a reading covers lies between two of the offsets. -/
theorem spans_covered {reading : Reading α} (rests : reading.RestsIn ground.subject ground.places)
    (bounded : reading.Bounded) (capacity : Option Nat) {offset : Nat}
    (here : offset ∈ ground.places) :
    ground.Spans (.between offset (reading ground.subject capacity offset).stop) :=
  Ground.spans_between here (rests capacity offset here)
    (bounded _ capacity offset (ground.inside here)).forward

/-- Covering yields a span between two of the offsets. -/
theorem covering {reading : Reading α} (proper : reading.Proper ground holds)
    (rests : reading.RestsIn ground.subject ground.places) (bounded : reading.Bounded) :
    reading.covering.Proper ground ground.Spans := fun capacity offset here =>
  (proper capacity offset here).map fun _ _ _ => spans_covered rests bounded capacity here

/-- Undoing failures lets out the failures only. -/
theorem restoring {reading : Reading α} (proper : reading.Proper ground holds) :
    reading.restoring.Proper ground holds := fun capacity offset here =>
  (proper capacity offset here).orElse fun _ explained => .failed offset explained

/-- The slice of a span between two of the offsets can be cut. -/
theorem slice {span : Span} (spans : ground.Spans span) :
    (Reading.slice span).Proper ground ground.fine := by
  intro capacity offset _
  have present : ground.subject.slice? span = some (span.slice ground.subject.bytes) :=
    if_pos spans.start_le
  unfold Reading.slice
  rw [present]
  exact .matched offset spans.fine

/-- The slice of a reading that yields spans between two of the offsets. -/
theorem sliced {reading : Reading Span} (proper : reading.Proper ground ground.Spans)
    (rests : reading.RestsIn ground.subject ground.places) :
    reading.sliced.Proper ground (Value.IsSliceOf ground.fine) :=
  proper.bind rests fun span spans => (slice spans).bind (.slice span) fun cut expected =>
    .pure ⟨cut, rfl, expected⟩

/-- A probe lets out nothing but the rule that it broke. -/
theorem probe {reading : Reading α} (proper : reading.Proper ground holds) :
    reading.probe.Proper ground fun _ => True := fun capacity offset here =>
  .still offset (proper capacity offset here).settles_verdict fun _ _ => trivial

/-- A test of what lies ahead lets out nothing. -/
theorem viewTest (test : View → Bool) : (Reading.viewTest test).Proper ground fun _ => True :=
  fun _ offset _ => .matched offset trivial

/-! ### Single units and literals -/

/-- A literal fails at the end of the input, where it began, or behind that. -/
theorem literal (text : Bytes) : (Reading.literal text).Proper ground ground.Spans := by
  intro capacity offset here
  have inside := ground.inside here
  unfold Reading.literal
  dsimp only
  split
  · split
    · rename_i stop moved
      have reached := (advance_ok inside moved).1
      have there := ground.closed.move here moved
      refine .matched stop ⟨offset, here, stop, there, by omega, ?_⟩
      rw [reached, Span.between, Nat.add_sub_cancel_left]
    · rename_i failure refused
      unfold Subject.advance at refused
      split at refused
      · cases refused
        exact .failed offset rfl
      · split at refused
        · cases refused
        · cases refused
          exact .failed offset ⟨⟨offset, here, Nat.le_add_right _ _⟩, by omega⟩
  · split
    · exact .failed offset rfl
    · exact .failed offset (Ground.explains_mismatch here capacity _)

/-- A single unit is passed over, refused where it is, or missed at the end. -/
theorem one (predicate : Predicate) : (Reading.one predicate).Proper ground ground.Spans := by
  intro capacity offset here
  have inside := ground.inside here
  unfold Reading.one
  split
  · rename_i absent
    exact .failed offset (Nat.le_antisymm inside (Subject.unitAt_eq_none_iff.mp absent))
  · rename_i unit present
    obtain ⟨same, _, forward⟩ := Subject.unitAt_bounds present
    split
    · refine .matched unit.next ⟨offset, here, unit.next, ground.closed.unit here present,
        Nat.le_of_lt forward, ?_⟩
      rw [Span.between, InputUnit.next, same, Nat.add_sub_cancel_left]
    · rw [same]
      exact .failed offset (Ground.explains_mismatch here capacity _)

/-- A span of nothing. -/
theorem spans_nothing {offset : Nat} (here : offset ∈ ground.places) :
    ground.Spans ⟨offset, 0⟩ :=
  ⟨offset, here, offset, here, Nat.le_refl offset, by rw [Span.between, Nat.sub_self]⟩

/-- Nothing read covers nothing, at a place of the ground. -/
theorem empty : Reading.empty.Proper ground ground.Spans :=
  fun _ offset here => .matched offset (spans_nothing here)

/-- The start of the input is a place of the ground, or the failure is at one. -/
theorem atStart : Reading.atStart.Proper ground ground.Spans := by
  intro capacity offset here
  unfold Reading.atStart
  by_cases first : offset = 0
  · rw [if_pos first]
    subst first
    exact .matched 0 (spans_nothing here)
  · rw [if_neg first]
    exact .failed offset (Ground.explains_mismatch here capacity _)

/-- The end of the input is a place of the ground, or the failure is at one. -/
theorem atEnd : Reading.atEnd.Proper ground ground.Spans := by
  intro capacity offset here
  unfold Reading.atEnd
  by_cases last : ground.subject.length ≤ offset
  · rw [if_pos last]
    exact .matched offset (spans_nothing here)
  · rw [if_neg last]
    exact .failed offset (Ground.explains_mismatch here capacity _)

/-! ### Counting units -/

/-- A test of units that comes to a decision. -/
def Decides (ground : Ground) (test : InputUnit → Ending Bool) : Prop :=
  ∀ unit, unit.offset ∈ ground.places → ground.Settles (test unit)

/-- A condition decides. -/
theorem conditionTest (condition : Condition) (start : Nat) :
    Decides ground (Reading.conditionTest condition ground.subject start) :=
  fun _ _ => .matched _

/-- A lookahead decides where it is proper. -/
theorem aheadTest {reading : Reading α} (proper : reading.Proper ground holds) (start : Nat) :
    Decides ground (Reading.aheadTest reading ground.subject start) :=
  fun unit here => (proper none unit.offset here).settles_verdict

/-- A tally under a test that decides comes to an end as well. -/
theorem settles_tally {predicate : Predicate} {bounds : Bounds} {test : InputUnit → Ending Bool}
    (decides : Decides ground test) {rounds count stop : Nat} (here : stop ∈ ground.places) :
    ground.Settles (Reading.tally ground.subject predicate bounds test rounds count stop) := by
  induction rounds generalizing count stop with
  | zero =>
    unfold Reading.tally
    split
    · exact .matched _
    · exact .exhausted
  | succ rounds ih =>
    unfold Reading.tally
    split
    · exact .matched _
    · dsimp only
      cases present : ground.subject.unitAt stop with
      | none => exact .matched _
      | some unit =>
        have begins : unit.offset ∈ ground.places := by
          rw [(Subject.unitAt_bounds present).1]
          exact here
        have asked := decides unit begins
        dsimp only
        split
        · cases decided : test unit with
          | matched found =>
            cases found
            · exact .matched _
            · exact ih (ground.closed.unit here present)
          | failed failure => exact absurd decided (asked.settled failure)
          | raised misuse => exact .raised (asked.misuse misuse decided)
          | exhausted => exact .exhausted
        · exact .matched _

/-- A tally that misses a unit has come to the end of the input. -/
theorem length_le_of_atEnd {predicate : Predicate} {bounds : Bounds}
    {test : InputUnit → Ending Bool} {rounds count stop : Nat} {found : Tally}
    (ended : Reading.tally ground.subject predicate bounds test rounds count stop =
      .matched found) (missing : found.atEnd = true) : ground.subject.length ≤ found.stop := by
  induction rounds generalizing count stop with
  | zero =>
    unfold Reading.tally at ended
    split at ended <;> cases ended
    cases missing
  | succ rounds ih =>
    unfold Reading.tally at ended
    split at ended
    · cases ended
      cases missing
    · dsimp only at ended
      split at ended
      · rename_i absent
        cases ended
        exact Subject.unitAt_eq_none_iff.mp absent
      · split at ended
        · split at ended
          · exact ih ended
          all_goals cases ended
          cases missing
        · cases ended
          cases missing

/-- A count fails at the end of its last unit. -/
theorem count {predicate : Predicate} {bounds : Bounds} {test : UnitTest}
    (decides : ∀ start, Decides ground (test ground.subject start)) :
    (Reading.count predicate bounds test).Proper ground ground.Spans := by
  intro capacity offset here
  have inside := ground.inside here
  have tallied : (Effect.still (Reading.tally ground.subject predicate bounds
      (test ground.subject offset) (ground.subject.length - offset + 1) 0 offset) offset).Proper
      ground capacity fun _ => True :=
    .still offset (settles_tally (decides offset) here) fun _ _ => trivial
  unfold Reading.count
  dsimp only
  refine tallied.andThen fun found ended _ => ?_
  obtain ⟨forward, limit⟩ := tally_stop inside ended
  have there := RestsIn.tally_stop_mem ground.closed here ended
  split
  · split
    · rename_i missing
      exact .failed offset (Nat.le_antisymm limit (length_le_of_atEnd ended missing))
    · exact .failed offset (Ground.explains_mismatch there capacity _)
  · exact .matched found.stop (Ground.spans_between here there forward)

/-! ### Repetition and separated items -/

/-- Values that are all as expected. -/
def Each (holds : α → Prop) (values : List α) : Prop := ∀ value ∈ values, holds value

/-- There is nothing to expect of no values. -/
theorem each_nil : Each holds [] := fun _ member => absurd member List.not_mem_nil

/-- One more value that is as expected. -/
theorem Each.cons {first : α} {later : List α} (one : holds first) (others : Each holds later) :
    Each holds (first :: later) := by
  intro value member
  rcases List.mem_cons.mp member with rfl | among
  · exact one
  · exact others value among

/-- Rounds of a proper step. -/
theorem repeatFrom {step : Reading α} (bounds : Bounds) (proper : step.Proper ground holds)
    (rests : step.RestsIn ground.subject ground.places) (rounds count : Nat) :
    (Reading.repeatFrom bounds step rounds count).Proper ground (Each holds) := by
  induction rounds generalizing count with
  | zero =>
    intro capacity offset _
    unfold Reading.repeatFrom
    split
    · exact .matched offset each_nil
    · exact .spent offset
  | succ rounds ih =>
    intro capacity offset here
    have round := proper capacity offset here
    have there := rests capacity offset here
    unfold Reading.repeatFrom
    split
    · exact .matched offset each_nil
    · dsimp only
      split
      · rename_i failure failed
        split
        · exact .failed offset (round.failure failure failed)
        · exact .matched offset each_nil
      · refine round.andThen fun value _ expected => ?_
        split
        · exact .matched _ (each_nil.cons expected)
        · exact (ih (count + 1) capacity _ there).map fun _ _ others => others.cons expected

/-- A repeated proper step. -/
theorem repeated {step : Reading α} (bounds : Bounds) (proper : step.Proper ground holds)
    (rests : step.RestsIn ground.subject ground.places) :
    (Reading.repeated bounds step).Proper ground (Each holds) :=
  restoring fun capacity offset here => repeatFrom bounds proper rests _ 0 capacity offset here

/-- Items that are as expected, and a failure that is explained. -/
structure ItemsProper (ground : Ground) (capacity : Option Nat) (holds : α → Prop)
    (items : Items α) : Prop where
  /-- The items. -/
  values : Each holds items.values
  /-- Why there was no further one. -/
  failure : ∀ failure, items.failure = some failure → ground.Explains capacity failure

/-- No item, for a failure that is explained. -/
theorem ItemsProper.ended {capacity : Option Nat} {failure : Failure}
    (explained : ground.Explains capacity failure) :
    ItemsProper ground capacity holds ⟨[], some failure⟩ where
  values := each_nil
  failure _ same := by
    cases same
    exact explained

/-- A last item that is as expected. -/
theorem ItemsProper.last {capacity : Option Nat} {value : α} (expected : holds value) :
    ItemsProper ground capacity holds ⟨[value], none⟩ :=
  ⟨each_nil.cons expected, nofun⟩

/-- Proper items between proper separators. -/
theorem itemsFrom {item : Reading α} {separator : Reading Span} {shown : Span → Prop}
    (terminated : Bool) (items : item.Proper ground holds)
    (itemsRest : item.RestsIn ground.subject ground.places)
    (separators : separator.Proper ground shown)
    (separatorsRest : separator.RestsIn ground.subject ground.places) (rounds : Nat)
    (capacity : Option Nat) {offset : Nat} (here : offset ∈ ground.places) :
    (Reading.itemsFrom item separator terminated rounds ground.subject capacity offset).Proper
      ground capacity (ItemsProper ground capacity holds) := by
  induction rounds generalizing offset with
  | zero => exact .spent offset
  | succ rounds ih =>
    have itemEnd := itemsRest capacity offset here
    have separatorEnd := separatorsRest capacity _ itemEnd
    have first := items capacity offset here
    have second := separators capacity _ itemEnd
    unfold Reading.itemsFrom
    dsimp only
    split
    · rename_i failure failed
      exact .matched offset (.ended (first.failure failure failed))
    · rename_i value matched
      have expected := first.value value matched
      split
      · rename_i failure failed
        split
        · exact .matched offset (.ended (second.failure failure failed))
        · exact first.yields (.last expected)
      · refine first.andThen fun _ _ _ => second.andThen fun _ _ _ => ?_
        split
        · exact .matched _ (.last expected)
        · exact (ih separatorEnd).map fun later _ others =>
            ⟨others.values.cons expected, others.failure⟩
    · rename_i misuse raised
      exact first.raised raised
    · exact first.exhausted

/-- Proper items of which there must be enough. -/
theorem separated {item : Reading α} {separator : Reading Span} {shown : Span → Prop}
    (least : Nat) (terminated : Bool) (items : item.Proper ground holds)
    (itemsRest : item.RestsIn ground.subject ground.places)
    (separators : separator.Proper ground shown)
    (separatorsRest : separator.RestsIn ground.subject ground.places) :
    (Reading.separated item separator least terminated).Proper ground (Each holds) := by
  refine restoring fun capacity offset here => ?_
  have all := itemsFrom terminated items itemsRest separators separatorsRest
    (ground.subject.length - offset + 1) capacity here
  refine all.andThen fun found _ expected => ?_
  split
  · refine .failed _ ?_
    cases reason : found.failure with
    | none => exact Ground.explains_mismatch here capacity _
    | some failure => exact expected.failure failure reason
  · exact .matched _ expected.values

/-! ### Order, choice and captures -/

/-- Two proper parts one after the other. -/
theorem sequence {first second : Reading Span} {shown other : Span → Prop}
    (left : first.Proper ground shown) (leftSound : first.Sound)
    (leftRests : first.RestsIn ground.subject ground.places)
    (right : second.Proper ground other) (rightSound : second.Sound)
    (rightRests : second.RestsIn ground.subject ground.places) :
    (Reading.sequence first second).Proper ground ground.Spans :=
  covering (left.bind leftRests fun _ _ => right) (leftRests.bind fun _ => rightRests)
    (leftSound.bounded.bind fun _ => rightSound.bounded)

/-- A choice between proper parts. -/
theorem choice {first second : Reading Span} (left : first.Proper ground ground.Spans)
    (right : second.Proper ground ground.Spans) :
    (Reading.choice first second).Proper ground ground.Spans := fun capacity offset here =>
  (left capacity offset here).orElse fun _ _ => right.restoring capacity offset here

/-- The longer of two proper parts. -/
theorem longest {first second : Reading Span} (left : first.Proper ground ground.Spans)
    (leftSound : first.Sound) (leftRests : first.RestsIn ground.subject ground.places)
    (right : second.Proper ground ground.Spans) :
    (Reading.longest first second).Proper ground ground.Spans := by
  intro capacity offset here
  have kept := left capacity offset here
  have other := right capacity offset here
  have whole := spans_covered leftRests leftSound.bounded capacity here
  unfold Reading.longest
  dsimp only
  split
  · split
    · split
      · exact kept.map fun _ _ _ => whole
      · exact other
    · exact kept.map fun _ _ _ => whole
    · exact other
  · rename_i failure failed
    exact other.orElse fun _ _ => .failed offset (kept.failure failure failed)
  · exact kept

/-- Two proper parts around a separator. -/
theorem sepOnce {left right : Reading α} {separator : Reading Span} {shown : Span → Prop}
    {other : α → Prop} (first : left.Proper ground holds)
    (firstRests : left.RestsIn ground.subject ground.places)
    (middle : separator.Proper ground shown)
    (middleRests : separator.RestsIn ground.subject ground.places)
    (last : right.Proper ground other) (lastRests : right.RestsIn ground.subject ground.places) :
    (Reading.sepOnce left separator right).Proper ground fun found =>
      holds found.1 ∧ other found.2 :=
  restoring (first.bind firstRests fun _ one => middle.bind middleRests fun _ _ =>
    last.bind lastRests fun _ other => .pure ⟨one, other⟩)

/-- A proper part between a proper head and a proper tail. -/
theorem enclosed {head tail : Reading Span} {inner : Reading α} {shown other : Span → Prop}
    (before : head.Proper ground shown) (beforeRests : head.RestsIn ground.subject ground.places)
    (proper : inner.Proper ground holds) (rests : inner.RestsIn ground.subject ground.places)
    (after : tail.Proper ground other) (afterRests : tail.RestsIn ground.subject ground.places) :
    (Reading.enclosed head inner tail).Proper ground holds :=
  before.bind beforeRests fun _ _ => proper.bind rests fun _ expected =>
    after.bind afterRests fun _ _ => .pure expected

/-- One of two proper parts, after a proper probe. -/
theorem branch {probe : Reading Bool} {accepted otherwise : Reading Span} {asked : Bool → Prop}
    (asks : probe.Proper ground asked) (rests : probe.RestsIn ground.subject ground.places)
    (yes : accepted.Proper ground ground.Spans) (no : otherwise.Proper ground ground.Spans) :
    (Reading.branch probe accepted otherwise).Proper ground ground.Spans := by
  refine asks.bind rests fun found _ => ?_
  cases found
  · exact no
  · exact yes

/-- A conversion fails with the slice of the match. -/
theorem converted {inner : Reading Value} {holds : Value → Prop} (converter : Converter)
    (proper : inner.Proper ground holds) (bounded : inner.Bounded)
    (rests : inner.RestsIn ground.subject ground.places) :
    (Reading.converted inner converter).Proper ground fun value =>
      ∃ given, holds given ∧ converter given = .produced value := by
  intro capacity offset here
  have inside := ground.inside here
  have there := rests capacity offset here
  have forward := (bounded _ capacity offset inside).forward
  have present : ground.subject.slice?
      (.between offset (inner ground.subject capacity offset).stop) =
        some (Span.slice ground.subject.bytes
          (.between offset (inner ground.subject capacity offset).stop)) := if_pos inside
  unfold Reading.converted
  refine (proper capacity offset here).andThen fun given _ expected => ?_
  rw [present]
  unfold Conversion.settle
  cases made : converter given with
  | produced value => exact .matched _ ⟨given, expected, made⟩
  | _ => exact .failed _ ⟨here, _, there, forward, rfl⟩

/-- A captured span is the span of the match. -/
theorem captured (slot : Nat) {inner : Reading Span} (proper : inner.Proper ground ground.Spans) :
    (Reading.captured slot inner).Proper ground ground.Spans := by
  intro capacity offset here
  unfold Reading.captured
  split
  · refine (proper capacity offset here).andThen fun span _ spans => ?_
    refine ⟨fun capture member => ?_, nofun, nofun, fun _ same => by cases same; exact spans⟩
    rw [List.mem_singleton.mp member]
    exact spans
  · rename_i missing
    exact .failed offset (Bool.eq_false_iff.mpr missing)

end Reading.Proper

/-! ## Matchers -/

/-- Readings of a matcher that let out only what is expected. -/
structure Readings.Proper (readings : Readings) (ground : Ground) (builds : Value → Prop) :
    Prop where
  /-- For the span. -/
  span : readings.span.Proper ground ground.Spans
  /-- For the value. -/
  value : readings.value.Proper ground builds

/-- What a matcher has to see to itself: that nothing is called that is not there, unless that may
be done. -/
def Ground.Admits (ground : Ground) (definitions : Definitions) : Matcher → Prop
  | .undefined => ground.allowed .undefinedMatcher
  | .handle slot => definitions.find? slot = none → ground.allowed .undefinedMatcher
  | .reference slot => definitions.find? slot = none → ground.allowed .undefinedMatcher
  | _ => True

section Matchers

variable {ground : Ground}

/-- Reading the slice of a span is proper where reading the span is. -/
theorem Readings.Proper.ofSpan {span : Reading Span} (proper : span.Proper ground ground.Spans)
    (rests : span.RestsIn ground.subject ground.places) :
    (Readings.ofSpan span).Proper ground (Value.IsSliceOf ground.fine) :=
  ⟨proper, proper.sliced rests⟩

/-- Reading what a value covers is proper where reading the value is. -/
theorem Readings.Proper.ofValue {value : Reading Value} {builds : Value → Prop}
    (proper : value.Proper ground builds)
    (rests : value.RestsIn ground.subject ground.places) (bounded : value.Bounded) :
    (Readings.ofValue value).Proper ground builds := ⟨proper.covering rests bounded, proper⟩

/-- A misuse that may be made is proper. -/
theorem Reading.Proper.raise {holds : α → Prop} {misuse : Misuse}
    (allowed : ground.allowed misuse) : (Reading.raise misuse).Proper ground holds :=
  fun _ offset _ => .still offset (.raised allowed) nofun

/-- A matcher is proper where all that it reaches is admitted and the calls are proper of the
definitions that it reaches. -/
theorem Matcher.readings_proper {definitions : Definitions} {call : Nat → Reading Span}
    (rest : ∀ slot, (call slot).RestsIn ground.subject ground.places)
    (sound : ∀ slot, (call slot).Sound)
    (calls : ∀ slot, (definitions.find? slot = none → ground.allowed .undefinedMatcher) →
      (∀ target, definitions.find? slot = some target →
        target.Everywhere definitions (ground.Admits definitions)) →
      (call slot).Proper ground ground.Spans)
    (matcher : Matcher)
    (everywhere : matcher.Everywhere definitions (ground.Admits definitions)) :
    (matcher.readings call).Proper ground (matcher.Builds ground.fine) := by
  have rests (part : Matcher) := part.readings_restIn ground.closed rest
  have known (part : Matcher) := part.readings_sound sound
  -- Over the matchers: what each part reaches is reached by the whole.
  induction matcher with
  | literal text => exact .ofSpan (.literal text) (rests (.literal text)).span
  | one predicate => exact .ofSpan (.one predicate) (rests (.one predicate)).span
  | empty => exact .ofSpan .empty (rests .empty).span
  | atStart => exact .ofSpan .atStart (rests .atStart).span
  | atEnd => exact .ofSpan .atEnd (rests .atEnd).span
  | count predicate bounds condition =>
    exact .ofSpan (.count (Reading.Proper.conditionTest condition))
      (rests (.count predicate bounds condition)).span
  | countAhead predicate bounds ahead ih =>
    have looked := ih (everywhere.part (by simp [parts]))
    exact .ofSpan (.count (Reading.Proper.aheadTest looked.span))
      (rests (.countAhead predicate bounds ahead)).span
  | repeated inner bounds ih =>
    have proper := ih (everywhere.part (by simp [parts]))
    have bounded := Reading.repeated_bounded bounds (known inner).span.bounded
    exact .ofSpan (.covering (.repeated bounds proper.span (rests inner).span)
      (rests (.repeated inner bounds)).span bounded) (rests (.repeated inner bounds)).span
  | collected inner bounds ih =>
    have proper := ih (everywhere.part (by simp [parts]))
    exact .ofValue (.map (.repeated bounds proper.value (rests inner).value)
      fun values each => ⟨values, rfl, each⟩)
      (rests (.collected inner bounds)).value (known (.collected inner bounds)).value
  | sequence first second left right =>
    have before := left (everywhere.part (by simp [parts]))
    have after := right (everywhere.part (by simp [parts]))
    exact .ofSpan (.sequence before.span (known first).span (rests first).span after.span
      (known second).span (rests second).span) (rests (.sequence first second)).span
  | choice first second left right =>
    have one := left (everywhere.part (by simp [parts]))
    have other := right (everywhere.part (by simp [parts]))
    exact .ofSpan (.choice one.span other.span) (rests (.choice first second)).span
  | longest first second left right =>
    have one := left (everywhere.part (by simp [parts]))
    have other := right (everywhere.part (by simp [parts]))
    exact .ofSpan (.longest one.span (known first).span (rests first).span other.span)
      (rests (.longest first second)).span
  | sepOnce left separator right first middle last =>
    have before := first (everywhere.part (by simp [parts]))
    have between := middle (everywhere.part (by simp [parts]))
    have after := last (everywhere.part (by simp [parts]))
    have bounded := Reading.sepOnce_bounded (known left).span.bounded
      (known separator).span.bounded (known right).span.bounded
    exact ⟨.covering (.sepOnce before.span (rests left).span between.span (rests separator).span
        after.span (rests right).span) (rests (.sepOnce left separator right)).span bounded,
      .map (.sepOnce before.value (rests left).value between.span (rests separator).span
        after.value (rests right).value) fun found both => ⟨found.1, found.2, rfl, both⟩⟩
  | separated item separator least terminated items separators =>
    have each := items (everywhere.part (by simp [parts]))
    have between := separators (everywhere.part (by simp [parts]))
    have bounded := Reading.separated_bounded least terminated (known item).span.bounded
      (known separator).span.bounded
    exact ⟨.covering (.separated least terminated each.span (rests item).span between.span
        (rests separator).span) (rests (.separated item separator least terminated)).span bounded,
      .map (.separated least terminated each.value (rests item).value between.span
        (rests separator).span) fun values each => ⟨values, rfl, each⟩⟩
  | enclosed head inner tail before ih after =>
    have opening := before (everywhere.part (by simp [parts]))
    have proper := ih (everywhere.part (by simp [parts]))
    have closing := after (everywhere.part (by simp [parts]))
    have bounded := Reading.enclosed_bounded (known head).span.bounded
      (known inner).span.bounded (known tail).span.bounded
    exact ⟨.covering (.enclosed opening.span (rests head).span proper.span (rests inner).span
        closing.span (rests tail).span) (rests (.enclosed head inner tail)).span bounded,
      .enclosed opening.span (rests head).span proper.value (rests inner).value closing.span
        (rests tail).span⟩
  | mapped inner converter ih =>
    have proper := ih (everywhere.part (by simp [parts]))
    exact .ofValue (.converted converter proper.value (known inner).value (rests inner).value)
      (rests (.mapped inner converter)).value (known (.mapped inner converter)).value
  | captured slot inner ih =>
    have proper := ih (everywhere.part (by simp [parts]))
    exact .ofSpan (.captured slot proper.span) (rests (.captured slot inner)).span
  | branch test accepted otherwise asks yes no =>
    have asked := asks (everywhere.part (by simp [parts]))
    have one := yes (everywhere.part (by simp [parts]))
    have other := no (everywhere.part (by simp [parts]))
    exact .ofSpan (.branch (.probe asked.span) (fun _ _ here => here) one.span other.span)
      (rests (.branch test accepted otherwise)).span
  | branchIf test accepted otherwise yes no =>
    have one := yes (everywhere.part (by simp [parts]))
    have other := no (everywhere.part (by simp [parts]))
    exact .ofSpan (.branch (.viewTest test) (fun _ _ here => here) one.span other.span)
      (rests (.branchIf test accepted otherwise)).span
  | boxed inner ih =>
    exact .ofSpan (ih (everywhere.part (by simp [parts]))).span (rests inner).span
  | undefined => exact .ofSpan (.raise everywhere.here) (rests .undefined).span
  | handle slot =>
    exact .ofSpan (calls slot everywhere.here everywhere.ofHandle) (rests (.handle slot)).span
  | reference slot =>
    exact .ofSpan (calls slot everywhere.here everywhere.ofReference)
      (rests (.reference slot)).span

/-- A call of a definition is proper where all that it reaches is admitted, however deeply calls
may be nested. -/
theorem Definitions.reading_proper (definitions : Definitions) (depth slot : Nat)
    (defined : definitions.find? slot = none → ground.allowed .undefinedMatcher)
    (everywhere : ∀ target, definitions.find? slot = some target →
      target.Everywhere definitions (ground.Admits definitions)) :
    (definitions.reading depth slot).Proper ground ground.Spans := by
  induction depth generalizing slot with
  | zero => exact fun _ offset _ => .spent offset
  | succ depth ih =>
    unfold Definitions.reading
    split
    · rename_i missing
      exact .raise (defined missing)
    · rename_i target present
      exact (target.readings_proper (definitions.reading_restsIn ground.closed depth)
        (definitions.reading_sound depth) ih (everywhere target present)).span

/-- Run from one of the offsets, a matcher lets out only what is expected where all that it reaches
is admitted. -/
theorem Matcher.readingsUnder_proper (matcher : Matcher) (definitions : Definitions)
    (everywhere : matcher.Everywhere definitions (ground.Admits definitions)) :
    (matcher.readingsUnder definitions ground.subject).Proper ground
      (matcher.Builds ground.fine) :=
  matcher.readings_proper (definitions.reading_restsIn ground.closed _)
    (definitions.reading_sound _) (definitions.reading_proper _) everywhere

end Matchers

end TextPattern
