import TextPattern.Condition
import TextPattern.Proofs.CallDepth
import TextPattern.Proofs.CaptureFrame
import TextPattern.Proofs.Reach

/-!
# Runs further on

Nothing looks back: what stands in front of the place where a run begins makes no difference to it,
except to matchers that ask where they are. Put behind further input, a run ends alike, and every
offset that it lets out is as many octets further on. `Matcher.attempt_translates` is the main
statement. Malformed text in front is no exception, since units and boundaries are found by what is
ahead.
-/

namespace TextPattern

open Combinator (Tally Items)

variable {α β α' β' : Type}

/-! ## Offsets further on -/

/-- A span as many octets further on. -/
def Span.shift (distance : Nat) (span : Span) : Span := ⟨distance + span.start, span.length⟩

/-- A unit as many octets further on. -/
def InputUnit.shift (distance : Nat) (unit : InputUnit) : InputUnit :=
  ⟨unit.value, distance + unit.offset, unit.width⟩

/-- A capture as many octets further on, for the same slot. -/
def Capture.shift (distance : Nat) (capture : Capture) : Capture :=
  (capture.1, capture.2.shift distance)

/-- A failure as many octets further on. A missing slot is nowhere. -/
def Failure.shift (distance : Nat) : Failure → Failure
  | .mismatch position expected => .mismatch (distance + position) expected
  | .outOfBounds position => .outOfBounds (distance + position)
  | .captureOutOfBounds slot => .captureOutOfBounds slot
  | .conversionFailed position slice cause => .conversionFailed (distance + position) slice cause

/-- A tally as many octets further on. -/
def Combinator.Tally.shift (distance : Nat) (tally : Tally) : Tally :=
  ⟨tally.count, distance + tally.stop, tally.atEnd⟩

/-- Items with their values further on, and so the failure that ended them. -/
def Combinator.Items.shift (f : α → β) (distance : Nat) (items : Items α) : Items β :=
  ⟨items.values.map f, items.failure.map (Failure.shift distance)⟩

/-- An ending as many octets further on, with a function that moves its value. -/
def Ending.shift (f : α → β) (distance : Nat) : Ending α → Ending β
  | .matched value => .matched (f value)
  | .failed failure => .failed (failure.shift distance)
  | .raised misuse => .raised misuse
  | .exhausted => .exhausted

/-- An effect as many octets further on. -/
def Effect.shift (f : α → β) (distance : Nat) (effect : Effect α) : Effect β :=
  ⟨effect.ending.shift f distance, distance + effect.stop,
    effect.captures.map (Capture.shift distance)⟩

/-- The span between two offsets further on. -/
theorem Span.between_shift (distance start stop : Nat) :
    Span.between (distance + start) (distance + stop) = (between start stop).shift distance := by
  rw [between, Nat.add_sub_add_left]
  rfl

/-- A unit further on ends further on. -/
theorem InputUnit.next_shift (distance : Nat) (unit : InputUnit) :
    (unit.shift distance).next = distance + unit.next := Nat.add_assoc _ _ _

/-- The verdict on an ending does not depend on where it is. -/
theorem Ending.verdict_shift (f : α → β) (distance : Nat) (ending : Ending α) :
    (ending.shift f distance).settle.map Result.succeeded =
      (ending.settle.map Result.succeeded).shift id distance := by
  cases ending <;> rfl

/-- Endings that run out of steps do so further on as well. -/
theorem Ending.shift_eq_exhausted {f : α → β} {distance : Nat} {ending : Ending α} :
    ending.shift f distance = .exhausted ↔ ending = .exhausted := by
  cases ending <;> simp [shift]

namespace Effect

variable {f : α → β} {g : α' → β'} {distance : Nat}

/-- What stays where it is stays there further on. -/
theorem shift_still (ending : Ending α) (offset : Nat) :
    (still ending offset).shift f distance =
      still (ending.shift f distance) (distance + offset) := rfl

/-- Captures in front are further on with the others. -/
theorem shift_after (captures : List Capture) (effect : Effect α) :
    (effect.after captures).shift f distance =
      (effect.shift f distance).after (captures.map (Capture.shift distance)) := by
  unfold shift after
  rw [List.map_append]

/-- Going on further on. -/
theorem shift_andThen {effect : Effect α} {next : α → Nat → Effect α'}
    {later : β → Nat → Effect β'}
    (rest : ∀ value, effect.ending = .matched value →
      later (f value) (distance + effect.stop) = (next value effect.stop).shift g distance) :
    (effect.shift f distance).andThen later = (effect.andThen next).shift g distance := by
  obtain ⟨ending, stop, captures⟩ := effect
  cases ending with
  | matched value =>
    show (later (f value) (distance + stop)).after _ = ((next value stop).after captures).shift g _
    rw [rest value rfl, shift_after]
    rfl
  | _ => rfl

/-- Another effect in the place of a failure, further on. -/
theorem shift_orElse {effect : Effect α} {next : Failure → Effect α} {later : Failure → Effect β}
    (rest : ∀ failure, later (failure.shift distance) = (next failure).shift f distance) :
    (effect.shift f distance).orElse later = (effect.orElse next).shift f distance := by
  obtain ⟨ending, stop, captures⟩ := effect
  cases ending with
  | failed failure => exact rest failure
  | _ => rfl

/-- Values passed through functions, further on. -/
theorem shift_map {effect : Effect α} {h : β → β'} {k : α → α'}
    (same : ∀ value, h (f value) = g (k value)) :
    (effect.shift f distance).map h = (effect.map k).shift g distance := by
  obtain ⟨ending, stop, captures⟩ := effect
  cases ending with
  | matched value =>
    show (⟨.matched (h (f value)), _, _⟩ : Effect β') = ⟨.matched (g (k value)), _, _⟩
    rw [same]
    rfl
  | _ => rfl

end Effect

/-! ## Input in front -/

namespace Subject

/-- A subject with further input in front. -/
def behind (before : Bytes) (subject : Subject) : Subject :=
  ⟨subject.encoding, before ++ subject.bytes⟩

variable (before : Bytes) (subject : Subject)

/-- Further input in front leaves the encoding as it is. -/
theorem encoding_behind : (subject.behind before).encoding = subject.encoding := rfl

/-- The octets in front count with the others. -/
theorem length_behind : (subject.behind before).length = before.length + subject.length :=
  List.length_append

/-- As much is ahead. -/
theorem ahead_behind (offset : Nat) :
    (subject.behind before).length - (before.length + offset) = subject.length - offset := by
  rw [length_behind, Nat.add_sub_add_left]

/-- The same octets are ahead. -/
theorem drop_behind (offset : Nat) :
    (subject.behind before).bytes.drop (before.length + offset) = subject.bytes.drop offset :=
  List.drop_length_add_append offset

/-- The same units are ahead. -/
theorem unitAt_behind (offset : Nat) :
    (subject.behind before).unitAt (before.length + offset) =
      (subject.unitAt offset).map (InputUnit.shift before.length) := by
  unfold unitAt
  rw [drop_behind]
  cases subject.bytes.drop offset with
  | nil => rfl
  | cons octet rest =>
    rw [encoding_behind]
    cases subject.encoding <;> rfl

/-- The same boundaries are ahead. -/
theorem isBoundary_behind (offset : Nat) :
    (subject.behind before).isBoundary (before.length + offset) = subject.isBoundary offset := by
  have octets :
      (subject.behind before).bytes[before.length + offset]? = subject.bytes[offset]? := by
    rw [← List.head?_drop, drop_behind, List.head?_drop]
  have lengths : (subject.behind before).bytes.length = before.length + subject.bytes.length :=
    subject.length_behind before
  unfold isBoundary
  rw [encoding_behind]
  cases subject.encoding with
  | utf8 =>
    show ((before.length + offset == _) || _) = ((offset == subject.bytes.length) || _)
    rw [octets, lengths, Bool.eq_iff_iff]
    simp only [Bool.or_eq_true, beq_iff_eq, Nat.add_left_cancel_iff]
  | octet =>
    show decide (before.length + offset ≤ (subject.behind before).bytes.length) =
      decide (offset ≤ subject.bytes.length)
    rw [lengths, decide_eq_decide]
    exact Nat.add_le_add_iff_left

/-- Moves lead to the same places, or fail for the same reason. -/
theorem advance_behind (offset count : Nat) :
    (subject.behind before).advance (before.length + offset) count =
      match subject.advance offset count with
      | .ok stop => .ok (before.length + stop)
      | .error failure => .error (failure.shift before.length) := by
  unfold advance
  rw [ahead_behind, length_behind, Nat.add_assoc, isBoundary_behind]
  split
  · rfl
  · split <;> rfl

/-- Spans further on have the same slices. -/
theorem slice?_behind (span : Span) :
    (subject.behind before).slice? (span.shift before.length) = subject.slice? span := by
  have start : before.length + span.start ≤ (subject.behind before).length ↔
      span.start ≤ subject.length := by
    rw [length_behind]
    exact Nat.add_le_add_iff_left
  unfold slice?
  show (if before.length + span.start ≤ _ then _ else _) = _
  rw [if_congr start rfl rfl]
  unfold Span.slice
  show (if _ then some (((subject.behind before).bytes.drop (before.length + span.start)).take _)
    else _) = _
  rw [drop_behind]
  rfl

end Subject

/-! ## What does not ask where it is -/

/-- A condition that does not ask where it is: further input in front makes no difference to it. -/
def Condition.Relative (condition : Condition) : Prop :=
  ∀ (subject : Subject) (before : Bytes) (start : Nat) (unit : InputUnit), start ≤ unit.offset →
    subject.unitAt unit.offset = some unit →
    condition ((subject.behind before).viewFrom (before.length + start))
      (unit.shift before.length) = condition (subject.viewFrom start) unit

/-- A test of what lies ahead that does not ask where it is. -/
def View.Relative (test : View → Bool) : Prop :=
  ∀ (subject : Subject) (before : Bytes) (offset : Nat), offset ≤ subject.length →
    test ((subject.behind before).viewFrom (before.length + offset)) =
      test (subject.viewFrom offset)

/-- A matcher that does not itself ask where it is. -/
def Matcher.Relative : Matcher → Prop
  | .atStart => False
  | .count _ _ condition => condition.Relative
  | .branchIf test _ _ => View.Relative test
  | _ => True

namespace Condition

/-- A condition that holds everywhere does not ask where it is. -/
theorem always_relative : always.Relative := fun _ _ _ _ _ _ => rfl

/-- A condition that holds nowhere does not ask where it is. -/
theorem never_relative : never.Relative := fun _ _ _ _ _ _ => rfl

/-- The unit behind another one is found by what is ahead. -/
theorem followedBy_relative (value : Nat) : (followedBy value).Relative := by
  intro subject before start unit _ _
  show ((subject.behind before).unitAt (unit.shift before.length).next).any _ =
    (subject.unitAt unit.next).any _
  rw [InputUnit.next_shift, Subject.unitAt_behind, Option.any_map]
  rfl

/-- A text behind a unit is found by what is ahead. -/
theorem whileMore_relative (value : Nat) (text : Bytes) : (whileMore value text).Relative := by
  intro subject before start unit _ _
  show (unit.value != value || text.occursIn ((subject.behind before).bytes.drop _)) = _
  rw [InputUnit.next_shift, Subject.drop_behind]
  rfl

end Condition

namespace View

/-- Whether the input ends here is told by what is ahead. -/
theorem isAtEnd_relative : Relative isAtEnd := by
  intro subject before offset _
  show decide ((subject.behind before).length ≤ before.length + offset) =
    decide (subject.length ≤ offset)
  rw [Subject.length_behind, decide_eq_decide]
  exact Nat.add_le_add_iff_left

/-- How much is left is told by what is ahead. -/
theorem hasMoreThan_relative (count : Nat) : Relative (hasMoreThan count) := by
  intro subject before offset _
  show decide (count < (subject.behind before).length - (before.length + offset)) = _
  rw [Subject.ahead_behind]
  rfl

/-- The next unit is told by what is ahead. -/
theorem nextIs_relative (value : Nat) : Relative (nextIs value) := by
  intro subject before offset _
  show ((subject.behind before).unitAt (before.length + offset)).any _ = _
  rw [Subject.unitAt_behind, Option.any_map]
  rfl

end View

/-! ## Readings further on -/

namespace Reading

variable {before : Bytes} {subject : Subject} {f : α → β} {g : α' → β'}

/-- With input in front, one reading does what another one does without it, further on. -/
def Shifts (before : Bytes) (subject : Subject) (f : α → β) (near : Reading α) (far : Reading β) :
    Prop :=
  ∀ capacity offset, offset ≤ subject.length →
    far (subject.behind before) capacity (before.length + offset) =
      (near subject capacity offset).shift f before.length

namespace Shifts

variable {near : Reading α} {far : Reading β}

/-! ### Building blocks -/

/-- A value at once, and its counterpart. -/
theorem pure (value : α) : Shifts before subject f (Pure.pure value) (Pure.pure (f value)) :=
  fun _ _ _ => rfl

/-- Misuse at once has no place. -/
theorem raise (misuse : Misuse) : Shifts before subject f (.raise misuse) (.raise misuse) :=
  fun _ _ _ => rfl

/-- No steps left has no place. -/
theorem exhaust : Shifts before subject f .exhaust .exhaust := fun _ _ _ => rfl

/-- One reading after another. -/
theorem bind {next : α → Reading α'} {later : β → Reading β'}
    (shifts : near.Shifts before subject f far) (bounded : near.Bounded)
    (rest : ∀ value, (next value).Shifts before subject g (later (f value))) :
    Shifts before subject g (near >>= next) (far >>= later) := by
  intro capacity offset inside
  show (far _ capacity _).andThen _ = _
  rw [shifts capacity offset inside]
  exact Effect.shift_andThen fun value _ =>
    rest value capacity _ (bounded subject capacity offset inside).inside

/-- Values passed through functions. -/
theorem map {h : β → β'} {k : α → α'} (shifts : near.Shifts before subject f far)
    (same : ∀ value, h (f value) = g (k value)) :
    Shifts before subject g (k <$> near) (h <$> far) := by
  intro capacity offset inside
  rw [map_apply, map_apply, shifts capacity offset inside]
  exact Effect.shift_map same

/-- What is covered begins and ends further on. -/
theorem covering (shifts : near.Shifts before subject f far) :
    near.covering.Shifts before subject (Span.shift before.length) far.covering := by
  intro capacity offset inside
  unfold Reading.covering
  dsimp only
  rw [shifts capacity offset inside]
  exact Effect.shift_map fun _ => Span.between_shift _ _ _

/-- Going back leads further on as well, to where the reading began. -/
theorem restoring (shifts : near.Shifts before subject f far) :
    near.restoring.Shifts before subject f far.restoring := by
  intro capacity offset inside
  unfold Reading.restoring
  rw [shifts capacity offset inside]
  exact Effect.shift_orElse fun _ => rfl

/-- A question has the same answer. -/
theorem probe (shifts : near.Shifts before subject f far) :
    near.probe.Shifts before subject id far.probe := by
  intro capacity offset inside
  unfold Reading.probe
  rw [shifts capacity offset inside, Effect.shift_still]
  exact congrArg (Effect.still · _) (Ending.verdict_shift f before.length _)

/-- A span further on cuts out the same octets. -/
theorem slice (span : Span) :
    (Reading.slice span).Shifts before subject id (.slice (span.shift before.length)) := by
  intro capacity offset _
  unfold Reading.slice
  rw [Subject.slice?_behind]
  split <;> rfl

/-- The slice of the span is the same octets. -/
theorem sliced {near far : Reading Span}
    (shifts : near.Shifts before subject (Span.shift before.length) far)
    (bounded : near.Bounded) : near.sliced.Shifts before subject id far.sliced :=
  shifts.bind bounded fun span => (slice span).bind (.slice span) fun _ => pure _

/-- A test of the surroundings that does not ask where it is. -/
theorem viewTest {test : View → Bool} (relative : View.Relative test) :
    (Reading.viewTest test).Shifts before subject id (.viewTest test) := by
  intro capacity offset inside
  unfold Reading.viewTest
  rw [relative subject before offset inside]
  rfl

/-! ### Single units and literals -/

/-- A text, which is compared with what is ahead. -/
theorem literal (text : Bytes) :
    (Reading.literal text).Shifts before subject (Span.shift before.length) (.literal text) := by
  intro capacity offset _
  unfold Reading.literal
  dsimp only
  rw [Subject.drop_behind, Subject.advance_behind, Subject.length_behind]
  split
  · cases subject.advance offset text.length <;> rfl
  · split <;> rfl

/-- One unit, which is the next of what is ahead. -/
theorem one (predicate : Predicate) :
    (Reading.one predicate).Shifts before subject (Span.shift before.length) (.one predicate) := by
  intro capacity offset _
  unfold Reading.one
  rw [Subject.unitAt_behind]
  cases subject.unitAt offset with
  | none => rfl
  | some unit =>
    show (if predicate.accepts subject.encoding unit.value then _ else _) = _
    dsimp only
    split
    · rw [InputUnit.next_shift]
      rfl
    · rfl

/-- Nothing read, here or further on. -/
theorem empty : Reading.empty.Shifts before subject (Span.shift before.length) .empty :=
  fun _ _ _ => rfl

/-- The end of the input, which is as far ahead. -/
theorem atEnd : Reading.atEnd.Shifts before subject (Span.shift before.length) .atEnd := by
  intro capacity offset _
  have ended : (subject.behind before).length ≤ before.length + offset ↔
      subject.length ≤ offset := by
    rw [Subject.length_behind]
    exact Nat.add_le_add_iff_left
  unfold Reading.atEnd
  rw [if_congr ended rfl rfl]
  split <;> rfl

/-! ### Counting units -/

/-- A test with input in front says of a unit further on what another one says without it. -/
def TestShifts (before : Bytes) (subject : Subject) (near far : UnitTest) : Prop :=
  ∀ start unit, start ≤ unit.offset → subject.unitAt unit.offset = some unit →
    far (subject.behind before) (before.length + start) (unit.shift before.length) =
      (near subject start unit).shift id before.length

/-- A condition that does not ask where it is says the same of a unit further on. -/
theorem conditionTest {condition : Condition} (relative : condition.Relative) :
    TestShifts before subject (Reading.conditionTest condition)
      (Reading.conditionTest condition) := by
  intro start unit behind present
  unfold Reading.conditionTest
  rw [relative subject before start unit behind present]
  rfl

/-- A reading at the unit succeeds further on where it does here. -/
theorem aheadTest (shifts : near.Shifts before subject f far) :
    TestShifts before subject (Reading.aheadTest near) (Reading.aheadTest far) := by
  intro start unit _ present
  have inside := Nat.le_of_lt (Subject.unitAt_bounds present).2.1
  unfold Reading.aheadTest
  show ((far _ none (before.length + unit.offset)).ending.settle.map _) = _
  rw [shifts none unit.offset inside]
  exact Ending.verdict_shift f before.length _

/-- Units are counted alike. -/
theorem tally {test other : UnitTest} (predicate : Predicate) (bounds : Bounds)
    (tests : TestShifts before subject test other) (start : Nat) (rounds count stop : Nat)
    (behind : start ≤ stop) :
    Reading.tally (subject.behind before) predicate bounds
        (other (subject.behind before) (before.length + start)) rounds count
        (before.length + stop) =
      (Reading.tally subject predicate bounds (test subject start) rounds count stop).shift
        (Tally.shift before.length) before.length := by
  induction rounds generalizing count stop with
  | zero =>
    unfold Reading.tally
    split <;> rfl
  | succ rounds ih =>
    unfold Reading.tally
    split
    · rfl
    · dsimp only
      rw [Subject.unitAt_behind]
      cases present : subject.unitAt stop with
      | none => rfl
      | some unit =>
        obtain ⟨same, _, forward⟩ := Subject.unitAt_bounds present
        have asked := tests start unit (same ▸ behind) (by rw [same, present])
        show (if predicate.accepts subject.encoding unit.value then _ else _) = _
        dsimp only
        split
        · rw [asked]
          cases test subject start unit with
          | matched passed =>
            cases passed with
            | true =>
              show Reading.tally _ _ _ _ rounds (count + 1) (unit.shift before.length).next = _
              rw [InputUnit.next_shift]
              exact ih (count + 1) unit.next (Nat.le_trans behind (Nat.le_of_lt forward))
            | false => rfl
          | _ => rfl
        · rfl

/-- A count stops behind the same units: a test says the same of each of them. -/
theorem count {test other : UnitTest} (predicate : Predicate) (bounds : Bounds)
    (tests : TestShifts before subject test other) :
    (Reading.count predicate bounds test).Shifts before subject (Span.shift before.length)
      (.count predicate bounds other) := by
  intro capacity offset _
  unfold Reading.count
  dsimp only
  rw [Subject.ahead_behind, tally predicate bounds tests offset _ 0 offset (Nat.le_refl offset),
    ← Effect.shift_still]
  refine Effect.shift_andThen fun found _ => ?_
  show (if found.count < bounds.least then _ else _) = _
  split
  · show (if found.atEnd then _ else _) = _
    split <;> rfl
  · show Effect.still (.matched (Span.between _ (before.length + found.stop))) _ = _
    rw [Span.between_shift]
    rfl

/-! ### Loops -/

/-- The rounds of a repetition, by induction on those allotted. -/
theorem repeatFrom (bounds : Bounds) (shifts : near.Shifts before subject f far)
    (bounded : near.Bounded) (rounds count : Nat) :
    (Reading.repeatFrom bounds near rounds count).Shifts before subject (List.map f)
      (.repeatFrom bounds far rounds count) := by
  induction rounds generalizing count with
  | zero =>
    intro capacity offset _
    unfold Reading.repeatFrom
    split <;> rfl
  | succ rounds ih =>
    intro capacity offset inside
    have within := bounded subject capacity offset inside
    unfold Reading.repeatFrom
    split
    · rfl
    · dsimp only
      rw [shifts capacity offset inside]
      generalize near subject capacity offset = effect at within ⊢
      obtain ⟨ending, stop, captures⟩ := effect
      cases ending with
      | failed failure =>
        show (if count < bounds.least then _ else _) = Effect.shift _ _ (if _ then _ else _)
        split <;> rfl
      | matched value =>
        show Effect.after _ (if before.length + stop = before.length + offset then _ else _) =
          Effect.shift _ _ (Effect.after captures (if stop = offset then _ else _))
        rw [Effect.shift_after, if_congr Nat.add_left_cancel_iff rfl rfl]
        refine congrArg (Effect.after _) ?_
        split
        · rfl
        · have later := ih (count + 1) capacity stop within.inside
          exact (congrArg (Effect.map (f value :: ·)) later).trans (Effect.shift_map fun _ => rfl)
      | _ => rfl

/-- A repetition is allotted the rounds that the octets ahead allow, which are as many. -/
theorem repeated (bounds : Bounds) (shifts : near.Shifts before subject f far)
    (bounded : near.Bounded) :
    (Reading.repeated bounds near).Shifts before subject (List.map f) (.repeated bounds far) := by
  refine restoring fun capacity offset inside => ?_
  rw [Subject.ahead_behind]
  exact shifts.repeatFrom bounds bounded _ 0 capacity offset inside

/-- The items of a list, by induction on the rounds allotted. -/
theorem itemsFrom {separator other : Reading Span} (terminated : Bool)
    (shifts : near.Shifts before subject f far) (bounded : near.Bounded)
    (between : separator.Shifts before subject (Span.shift before.length) other)
    (boundedBetween : separator.Bounded) (rounds : Nat) :
    (Reading.itemsFrom near separator terminated rounds).Shifts before subject
      (Items.shift f before.length) (.itemsFrom far other terminated rounds) := by
  induction rounds with
  | zero => exact exhaust
  | succ rounds ih =>
    intro capacity offset inside
    have within := bounded subject capacity offset inside
    unfold Reading.itemsFrom
    dsimp only
    rw [shifts capacity offset inside]
    generalize near subject capacity offset = effect at within ⊢
    obtain ⟨ending, stop, captures⟩ := effect
    cases ending with
    | matched value =>
      have beyond := boundedBetween subject capacity stop within.inside
      have follows := between capacity stop within.inside
      simp only [Effect.shift, Ending.shift] at follows ⊢
      rw [follows]
      generalize separator subject capacity stop = second at beyond ⊢
      obtain ⟨ending, after, more⟩ := second
      cases ending with
      | failed failure =>
        show (if terminated then _ else _) = Effect.shift _ _ (if terminated then _ else _)
        split <;> rfl
      | matched span =>
        show Effect.after _ (Effect.after _ (if before.length + after = before.length + offset
            then _ else _)) =
          Effect.shift _ _ (Effect.after captures (Effect.after more (if after = offset
            then _ else _)))
        rw [Effect.shift_after, Effect.shift_after, if_congr Nat.add_left_cancel_iff rfl rfl]
        refine congrArg (Effect.after _ <| Effect.after _ ·) ?_
        split
        · rfl
        · have later := ih capacity after beyond.inside
          exact (congrArg (Effect.map _) later).trans (Effect.shift_map fun _ => rfl)
      | _ => simp only [Effect.andThen, Effect.after, List.map_append]
    | _ => rfl

/-- A list is allotted the rounds that the octets ahead allow, which are as many. -/
theorem separated {separator other : Reading Span} (least : Nat) (terminated : Bool)
    (shifts : near.Shifts before subject f far) (bounded : near.Bounded)
    (between : separator.Shifts before subject (Span.shift before.length) other)
    (boundedBetween : separator.Bounded) :
    (Reading.separated near separator least terminated).Shifts before subject (List.map f)
      (.separated far other least terminated) := by
  refine restoring fun capacity offset inside => ?_
  rw [Subject.ahead_behind,
    shifts.itemsFrom terminated bounded between boundedBetween _ capacity offset inside]
  refine Effect.shift_andThen fun items _ => ?_
  show (if (items.values.map f).length < least then _ else _) = _
  rw [List.length_map]
  split
  · show Effect.still (.failed ((items.failure.map _).getD _)) _ = _
    cases items.failure <;> rfl
  · rfl

/-! ### Order and choice -/

section
variable {first second third first' second' third' : Reading Span}

/-- One span after another, and what both cover. -/
theorem sequence (one : first.Shifts before subject (Span.shift before.length) first')
    (bounded : first.Bounded)
    (other : second.Shifts before subject (Span.shift before.length) second') :
    (Reading.sequence first second).Shifts before subject (Span.shift before.length)
      (.sequence first' second') :=
  covering (one.bind bounded fun _ => other)

/-- The second part is tried further on where the first one fails there. -/
theorem choice (one : first.Shifts before subject (Span.shift before.length) first')
    (other : second.Shifts before subject (Span.shift before.length) second') :
    (Reading.choice first second).Shifts before subject (Span.shift before.length)
      (.choice first' second') := by
  intro capacity offset inside
  unfold Reading.choice
  rw [one capacity offset inside]
  exact Effect.shift_orElse fun _ => other.restoring capacity offset inside

/-- Both parts stop as much further on, so the same one is longer. -/
theorem longest (one : first.Shifts before subject (Span.shift before.length) first')
    (other : second.Shifts before subject (Span.shift before.length) second') :
    (Reading.longest first second).Shifts before subject (Span.shift before.length)
      (.longest first' second') := by
  intro capacity offset inside
  unfold Reading.longest
  dsimp only
  rw [one capacity offset inside, other capacity offset inside]
  generalize first subject capacity offset = left
  generalize second subject capacity offset = right
  obtain ⟨ending, stop, captures⟩ := left
  have kept (span : Span) :
      (Effect.map (fun _ => Span.between (before.length + offset) (before.length + stop))
        ⟨.matched (span.shift before.length), before.length + stop,
          captures.map (Capture.shift before.length)⟩) =
      Effect.shift (Span.shift before.length) before.length
        (Effect.map (fun _ => Span.between offset stop) ⟨.matched span, stop, captures⟩) := by
    rw [Span.between_shift]
    rfl
  cases ending with
  | matched span =>
    cases ended : right.ending with
    | matched longer =>
      simp only [Effect.shift, Ending.shift, ended, Span.shift, Nat.add_sub_add_left] at kept ⊢
      split
      · exact kept span
      · simp only [ended]
    | failed failure =>
      simp only [Effect.shift, Ending.shift, ended] at kept ⊢
      exact kept span
    | _ => simp only [Effect.shift, Ending.shift, ended]
  | failed failure => exact Effect.shift_orElse fun _ => rfl
  | _ => rfl

/-- The question has the same answer, so the same part is taken. -/
theorem branch {asked asked' : Reading Bool} (probe : asked.Shifts before subject id asked')
    (bounded : asked.Bounded)
    (yes : first.Shifts before subject (Span.shift before.length) first')
    (no : second.Shifts before subject (Span.shift before.length) second') :
    (Reading.branch asked first second).Shifts before subject (Span.shift before.length)
      (.branch asked' first' second') :=
  probe.bind bounded fun found => by cases found <;> assumption

/-- Both values of a pair. -/
theorem sepOnce {left right : Reading α} {left' right' : Reading β}
    (one : left.Shifts before subject f left') (boundedLeft : left.Bounded)
    (between : second.Shifts before subject (Span.shift before.length) second')
    (boundedBetween : second.Bounded) (other : right.Shifts before subject f right')
    (boundedRight : right.Bounded) :
    (Reading.sepOnce left second right).Shifts before subject (Prod.map f f)
      (.sepOnce left' second' right') :=
  restoring <| one.bind boundedLeft fun _ => between.bind boundedBetween fun _ =>
    other.bind boundedRight fun _ => pure _

/-- The value between two spans. -/
theorem enclosed {inner : Reading α} {inner' : Reading β}
    (head : first.Shifts before subject (Span.shift before.length) first')
    (boundedHead : first.Bounded) (body : inner.Shifts before subject f inner')
    (boundedBody : inner.Bounded)
    (tail : third.Shifts before subject (Span.shift before.length) third')
    (boundedTail : third.Bounded) :
    (Reading.enclosed first inner third).Shifts before subject f
      (.enclosed first' inner' third') :=
  head.bind boundedHead fun _ => body.bind boundedBody fun _ => tail.bind boundedTail fun _ =>
    pure _

/-! ### Values and captures -/

/-- What is converted is the same, and so is its slice. -/
theorem converted {inner inner' : Reading Value} (convert : Value → Conversion)
    (shifts : inner.Shifts before subject id inner') :
    (Reading.converted inner convert).Shifts before subject id (.converted inner' convert) := by
  intro capacity offset inside
  unfold Reading.converted
  rw [shifts capacity offset inside]
  refine Effect.shift_andThen fun value _ => ?_
  rw [Span.between_shift, Subject.slice?_behind]
  cases subject.slice? (.between offset (inner subject capacity offset).stop) with
  | none => rfl
  | some bytes =>
    dsimp only [id_eq]
    cases convert value <;> rfl

/-- The same slot takes the span further on. -/
theorem captured (slot : Nat)
    (shifts : first.Shifts before subject (Span.shift before.length) first') :
    (Reading.captured slot first).Shifts before subject (Span.shift before.length)
      (.captured slot first') := by
  intro capacity offset inside
  unfold Reading.captured
  split
  · rw [shifts capacity offset inside]
    exact Effect.shift_andThen fun _ _ => rfl
  · rfl

end

end Shifts

end Reading

/-! ## Matchers further on -/

/-- With input in front, what one matcher reads another one reads without it, further on. Values are
the same. -/
structure Readings.Shifts (before : Bytes) (subject : Subject) (near far : Readings) : Prop where
  /-- For the span. -/
  span : near.span.Shifts before subject (Span.shift before.length) far.span
  /-- For the value. -/
  value : near.value.Shifts before subject id far.value

section
variable {before : Bytes} {subject : Subject}

/-- A span further on, with the same slice for a value. -/
theorem Readings.Shifts.ofSpan {near far : Reading Span}
    (shifts : near.Shifts before subject (Span.shift before.length) far)
    (bounded : near.Bounded) : (Readings.ofSpan near).Shifts before subject (.ofSpan far) :=
  ⟨shifts, shifts.sliced bounded⟩

/-- The same value, covering a span further on. -/
theorem Readings.Shifts.ofValue {near far : Reading Value}
    (shifts : near.Shifts before subject id far) :
    (Readings.ofValue near).Shifts before subject (.ofValue far) :=
  ⟨shifts.covering, shifts⟩

open Reading.Shifts in
/-- A matcher that comes across nothing that asks where it is does the same further on, if the calls
do so of the definitions that it reaches. -/
theorem Matcher.readings_shift {definitions : Definitions} {call : Nat → Reading Span}
    (sound : ∀ slot, (call slot).Sound)
    (calls : ∀ slot, (∀ target, definitions.find? slot = some target →
      target.Everywhere definitions Relative) →
      (call slot).Shifts before subject (Span.shift before.length) (call slot))
    (matcher : Matcher) (relative : matcher.Everywhere definitions Relative) :
    (matcher.readings call).Shifts before subject (matcher.readings call) := by
  have known := fun part => readings_sound sound part
  have bounded := (known matcher).span.bounded
  induction matcher with
  | literal text => exact .ofSpan (.literal text) bounded
  | one predicate => exact .ofSpan (.one predicate) bounded
  | empty => exact .ofSpan .empty bounded
  | atStart => exact relative.here.elim
  | atEnd => exact .ofSpan .atEnd bounded
  | undefined => exact .ofSpan (.raise _) bounded
  | count predicate bounds condition =>
    exact .ofSpan (.count predicate bounds (conditionTest relative.here)) bounded
  | countAhead predicate bounds ahead ih =>
    have shifts := ih (relative.part (by simp [parts])) (known ahead).span.bounded
    exact .ofSpan (.count predicate bounds (aheadTest shifts.span)) bounded
  | repeated inner bounds ih =>
    have shifts := ih (relative.part (by simp [parts])) (known inner).span.bounded
    exact .ofSpan (covering (shifts.span.repeated bounds (known inner).span.bounded)) bounded
  | collected inner bounds ih =>
    have shifts := ih (relative.part (by simp [parts])) (known inner).span.bounded
    have same (values : List Value) : Value.list (values.map id) = id (Value.list values) := by
      rw [List.map_id]
      rfl
    exact .ofValue ((shifts.value.repeated bounds (known inner).value).map same)
  | sequence first second before after =>
    have one := before (relative.part (by simp [parts])) (known first).span.bounded
    have other := after (relative.part (by simp [parts])) (known second).span.bounded
    exact .ofSpan (one.span.sequence (known first).span.bounded other.span) bounded
  | choice first second before after =>
    have one := before (relative.part (by simp [parts])) (known first).span.bounded
    have other := after (relative.part (by simp [parts])) (known second).span.bounded
    exact .ofSpan (one.span.choice other.span) bounded
  | longest first second before after =>
    have one := before (relative.part (by simp [parts])) (known first).span.bounded
    have other := after (relative.part (by simp [parts])) (known second).span.bounded
    exact .ofSpan (one.span.longest other.span) bounded
  | sepOnce left separator right before between after =>
    have one := before (relative.part (by simp [parts])) (known left).span.bounded
    have middle := between (relative.part (by simp [parts])) (known separator).span.bounded
    have other := after (relative.part (by simp [parts])) (known right).span.bounded
    have boundedMiddle := (known separator).span.bounded
    constructor
    · exact covering (one.span.sepOnce (known left).span.bounded middle.span boundedMiddle
        other.span (known right).span.bounded)
    · exact (one.value.sepOnce (known left).value middle.span boundedMiddle other.value
        (known right).value).map fun _ => rfl
  | separated item separator least terminated items separators =>
    have each := items (relative.part (by simp [parts])) (known item).span.bounded
    have middle := separators (relative.part (by simp [parts])) (known separator).span.bounded
    have boundedMiddle := (known separator).span.bounded
    have same (values : List Value) : Value.list (values.map id) = id (Value.list values) := by
      rw [List.map_id]
      rfl
    constructor
    · exact covering (each.span.separated least terminated (known item).span.bounded middle.span
        boundedMiddle)
    · exact (each.value.separated least terminated (known item).value middle.span
        boundedMiddle).map same
  | enclosed head inner tail before ih after =>
    have opening := before (relative.part (by simp [parts])) (known head).span.bounded
    have shifts := ih (relative.part (by simp [parts])) (known inner).span.bounded
    have closing := after (relative.part (by simp [parts])) (known tail).span.bounded
    have boundedHead := (known head).span.bounded
    have boundedTail := (known tail).span.bounded
    constructor
    · exact covering (opening.span.enclosed boundedHead shifts.span (known inner).span.bounded
        closing.span boundedTail)
    · exact opening.span.enclosed boundedHead shifts.value (known inner).value closing.span
        boundedTail
  | mapped inner converter ih =>
    have shifts := ih (relative.part (by simp [parts])) (known inner).span.bounded
    exact .ofValue (shifts.value.converted converter)
  | captured slot inner ih =>
    have shifts := ih (relative.part (by simp [parts])) (known inner).span.bounded
    exact .ofSpan (shifts.span.captured slot) bounded
  | branch test accepted otherwise asks yes no =>
    have asked := asks (relative.part (by simp [parts])) (known test).span.bounded
    have one := yes (relative.part (by simp [parts])) (known accepted).span.bounded
    have other := no (relative.part (by simp [parts])) (known otherwise).span.bounded
    exact .ofSpan (asked.span.probe.branch (.probe _) one.span other.span) bounded
  | branchIf test accepted otherwise yes no =>
    have one := yes (relative.part (by simp [parts])) (known accepted).span.bounded
    have other := no (relative.part (by simp [parts])) (known otherwise).span.bounded
    exact .ofSpan ((viewTest relative.here).branch (.viewTest _) one.span other.span) bounded
  | boxed inner ih =>
    exact .ofSpan (ih (relative.part (by simp [parts])) (known inner).span.bounded).span bounded
  | handle slot => exact .ofSpan (calls slot relative.ofHandle) bounded
  | reference slot => exact .ofSpan (calls slot relative.ofReference) bounded

/-- A call of a definition that comes across nothing that asks where it is does the same further
on. -/
theorem Definitions.reading_shift (definitions : Definitions) (depth slot : Nat)
    (relative : ∀ target, definitions.find? slot = some target →
      target.Everywhere definitions Matcher.Relative) :
    (definitions.reading depth slot).Shifts before subject (Span.shift before.length)
      (definitions.reading depth slot) := by
  induction depth generalizing slot with
  | zero => exact .exhaust
  | succ depth ih =>
    unfold reading
    cases defined : definitions.find? slot with
    | none => exact .raise _
    | some target =>
      exact (target.readings_shift (definitions.reading_sound depth) ih
        (relative target defined)).span

end

/-! ## Runs further on -/

/-- Captures put behind those from before, where there is a store at all. -/
inductive Recorded : Option CaptureStore → Option CaptureStore → List Capture → Prop where
  | stored {before after : CaptureStore} {added : List Capture}
    (extended : before.Extends after added) : Recorded (some before) (some after) added
  | withoutStore (added : List Capture) : Recorded none none added

/-- A run that does what another one does, as many octets further on. Where steps run out, they do
so in both, and nothing is said about where. -/
structure Run.FurtherOn (f : α → α) (distance : Nat) (near far : Option CaptureStore)
    (run later : Run α) : Prop where
  /-- It ends alike. -/
  ending : later.ending = run.ending.shift f distance
  /-- It stops further on. -/
  offset : run.ending ≠ .exhausted → later.state.offset = distance + run.state.offset
  /-- It captures what is further on, behind whatever had been captured before. -/
  captures : run.ending ≠ .exhausted →
    ∃ added, Recorded near run.state.captures added ∧
      Recorded far later.state.captures (added.map (Capture.shift distance))

/-- An effect records its captures. -/
theorem Effect.Within.recorded {effect : Effect α} {offset limit : Nat}
    {store : Option CaptureStore}
    (within : effect.Within offset limit (store.map CaptureStore.capacity)) :
    Recorded store ((State.mk offset store).extend effect.stop effect.captures).captures
      effect.captures := by
  cases store with
  | none => exact .withoutStore _
  | some store => exact .stored (CaptureStore.extends_replay within.slot_lt)

/-- Runs are further on from each other where the readings are that they follow. -/
theorem Reading.Shifts.furtherOn {before : Bytes} {subject : Subject} {offset : Nat} {f : α → α}
    {needed deeper moved : Reading α} {near far : Option CaptureStore} {run later : Run α}
    (shifts : deeper.Shifts before subject f moved) (inside : offset ≤ subject.length)
    (same : (deeper subject (near.map CaptureStore.capacity) offset).SameIfEnds
      (needed subject (near.map CaptureStore.capacity) offset))
    (bounded : needed.Bounded) (boundedMoved : moved.Bounded)
    (capacities : near.map CaptureStore.capacity = far.map CaptureStore.capacity)
    (ends : (run.ending, run.state) =
      (needed subject (near.map CaptureStore.capacity) offset).applyTo ⟨offset, near⟩)
    (endsLater : (later.ending, later.state) =
      (moved (subject.behind before) (far.map CaptureStore.capacity)
        (before.length + offset)).applyTo ⟨before.length + offset, far⟩) :
    Run.FurtherOn f before.length near far run later := by
  have fits : before.length + offset ≤ (subject.behind before).length := by
    rw [Subject.length_behind]
    omega
  have within := bounded subject (far.map CaptureStore.capacity) offset inside
  have withinMoved := boundedMoved (subject.behind before) (far.map CaptureStore.capacity) _ fits
  have moves := shifts (near.map CaptureStore.capacity) offset inside
  rw [capacities] at moves same ends
  rw [moves] at withinMoved endsLater
  generalize needed subject (far.map CaptureStore.capacity) offset = effect at ends same within
  generalize deeper subject (far.map CaptureStore.capacity) offset = other at *
  rw [← capacities] at within
  obtain ⟨ended, stopped⟩ := Run.ends_as ends
  obtain ⟨endedLater, stoppedLater⟩ := Run.ends_as endsLater
  rcases same with rfl | ⟨otherEnded, effectEnded⟩
  · refine ⟨?_, fun _ => ?_, fun _ => ⟨other.captures, ?_, ?_⟩⟩
    · rw [endedLater, ended]
      rfl
    · rw [stoppedLater, stopped]
      rfl
    · rw [show run.state.captures = _ from congrArg (·.2.captures) ends]
      exact within.recorded
    · rw [show later.state.captures = _ from congrArg (·.2.captures) endsLater]
      exact withinMoved.recorded
  · have exhausted : run.ending = .exhausted := ended.trans effectEnded
    refine ⟨?_, fun ends => absurd exhausted ends, fun ends => absurd exhausted ends⟩
    rw [endedLater, exhausted]
    exact Ending.shift_eq_exhausted.mpr otherEnded

namespace Matcher

variable (matcher : Matcher) (definitions : Definitions) {subject : Subject} {offset : Nat}

/-- Put behind further input, however malformed, a matcher that comes across nothing that asks where
it is does what it did, as many octets further on: it ends with the same value or with the same
failure further on, at an offset further on, and captures spans further on. -/
theorem attempt_translates (inside : offset ≤ subject.length) (before : Bytes)
    (relative : matcher.Everywhere definitions Relative) {near far : Option CaptureStore}
    (capacities : near.map CaptureStore.capacity = far.map CaptureStore.capacity) :
    let later := subject.behind before
    let start : State := ⟨offset, near⟩
    let moved : State := ⟨before.length + offset, far⟩
    Run.FurtherOn (Span.shift before.length) before.length near far
        (matcher.attempt definitions subject start) (matcher.attempt definitions later moved) ∧
      Run.FurtherOn id before.length near far
        (matcher.attemptValue definitions subject start)
        (matcher.attemptValue definitions later moved) := by
  intro later start moved
  have fits : before.length + offset ≤ later.length := by
    rw [Subject.length_behind]
    omega
  have enough : definitions.depthFor subject ≤ definitions.depthFor later := by
    unfold Definitions.depthFor
    rw [Subject.length_behind]
    exact Nat.add_le_add_right (Nat.mul_le_mul_left _ (by omega)) 1
  -- The longer input allots deeper calls, which change nothing.
  obtain ⟨sameSpan, sameValue⟩ := matcher.readings_deeper definitions enough start.capacity inside
  have shifts := @readings_shift before subject definitions _
    (definitions.reading_sound (definitions.depthFor later)) (definitions.reading_shift _) matcher
    relative
  have sound := matcher.readingsUnder_sound definitions subject
  have soundLater := matcher.readingsUnder_sound definitions later
  exact ⟨shifts.span.furtherOn inside sameSpan sound.span.bounded soundLater.span.bounded capacities
      (matcher.outcome_attempt definitions inside) (matcher.outcome_attempt definitions fits),
    shifts.value.furtherOn inside sameValue sound.value soundLater.value capacities
      (matcher.outcome_attemptValue definitions inside)
      (matcher.outcome_attemptValue definitions fits)⟩

/-- A grammar that calls itself, looks ahead and captures, behind a torn rune. -/
theorem attempt_translates_behind_torn_rune :
    let marked := Matcher.captured 0 (.count .wild (.atLeast 1) (.followedBy 97))
    let body := Matcher.choice (.sequence marked (.sequence (.literal [97]) (.handle 0))) .atEnd
    let definitions : Definitions := [some body]
    let subject : Subject := ⟨.utf8, [0xC3, 0xA9, 97, 0xC3, 0xA9, 97]⟩
    let before : Bytes := [97, 0xC3]
    let near := CaptureStore.ofCapacity 1
    let far := near.replay [(0, ⟨0, 1⟩)]
    let start : State := ⟨0, some near⟩
    let moved : State := ⟨2, some far⟩
    let run := (Matcher.handle 0).attempt definitions subject start
    let later := (Matcher.handle 0).attempt definitions (subject.behind before) moved
    (run.ending = .matched ⟨0, 6⟩ ∧ later.ending = .matched ⟨2, 6⟩ ∧
      later.state.captures.map CaptureStore.captures =
        some [(0, ⟨0, 1⟩), (0, ⟨2, 2⟩), (0, ⟨5, 2⟩)]) ∧
      Run.FurtherOn (Span.shift 2) 2 (some near) (some far) run later ∧
      Run.FurtherOn id 2 (some near) (some far)
        ((Matcher.handle 0).attemptValue definitions subject start)
        ((Matcher.handle 0).attemptValue definitions (subject.behind before) moved) := by
  intro marked body definitions subject before near far start moved run later
  have defined : definitions.find? 0 = some body := rfl
  have relative : (Matcher.handle 0).Everywhere definitions Relative := by
    refine .of_closed [.handle 0, body, .sequence marked (.sequence (.literal [97]) (.handle 0)),
      .atEnd, marked, .count .wild (.atLeast 1) (.followedBy 97),
      .sequence (.literal [97]) (.handle 0), .literal [97]] List.mem_cons_self ?_ ?_
    · simp [parts, defined, body, marked]
    · simp [Relative, Condition.followedBy_relative, body, marked]
  exact ⟨by decide +kernel, attempt_translates (.handle 0) definitions (Nat.zero_le _) before
    relative (congrArg some (near.capacity_replay _).symm)⟩

end Matcher

end TextPattern
