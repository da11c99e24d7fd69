import TextPattern.Proofs.Atomicity
import TextPattern.Proofs.CallDepth
import TextPattern.Proofs.Conversions
import TextPattern.Proofs.Footprint
import TextPattern.Proofs.LoopOutcome

/-!
# Where failures point

A failure points at what lies between the offset where the run began and the end of the input.
Failures are passed on, put aside for others and handed out late, but a failure to convert always
comes from one conversion: its slice is what the matcher under the converter matched there.
`Matcher.failures_point_inside` is the main statement.
-/

namespace TextPattern

open Combinator (Tally Items)

variable {α β : Type}

/-! ## Failures to convert -/

/-- A failure to convert is one of those that are meant. Of other failures nothing is said. -/
def Failure.ConvertsAs (meant : Nat → Bytes → Bytes → Prop) : Failure → Prop
  | .conversionFailed position slice cause => meant position slice cause
  | _ => True

/-- If an effect fails to convert, it is as is meant. -/
def Effect.FailsAs (effect : Effect α) (meant : Nat → Bytes → Bytes → Prop) : Prop :=
  ∀ failure, effect.ending = .failed failure → failure.ConvertsAs meant

namespace Effect.FailsAs

variable {meant : Nat → Bytes → Bytes → Prop} {effect : Effect α}

/-- A match does not fail. -/
theorem matched (value : α) (stop : Nat) (captures : List Capture) :
    (⟨.matched value, stop, captures⟩ : Effect α).FailsAs meant := nofun

/-- A failure of which nothing bad is said. -/
theorem failed {failure : Failure} (stop : Nat) (captures : List Capture)
    (among : failure.ConvertsAs meant) :
    (⟨.failed failure, stop, captures⟩ : Effect α).FailsAs meant := by
  rintro _ ⟨⟩
  exact among

/-- A broken rule is no failure. -/
theorem raised (misuse : Misuse) (stop : Nat) (captures : List Capture) :
    (⟨.raised misuse, stop, captures⟩ : Effect α).FailsAs meant := nofun

/-- An end of steps is no failure. -/
theorem exhausted (stop : Nat) (captures : List Capture) :
    (⟨.exhausted, stop, captures⟩ : Effect α).FailsAs meant := nofun

/-- Values passed through a function. -/
theorem map (f : α → β) (fails : effect.FailsAs meant) : (effect.map f).FailsAs meant := by
  intro failure ended
  cases before : effect.ending <;> rw [Effect.map, before] at ended <;> cases ended
  exact fails _ before

/-- Going on where a match ended. -/
theorem andThen {next : α → Nat → Effect β} (fails : effect.FailsAs meant)
    (later : ∀ value, effect.ending = .matched value →
      (next value effect.stop).FailsAs meant) : (effect.andThen next).FailsAs meant := by
  unfold Effect.andThen
  cases ended : effect.ending with
  | matched value => exact later value ended
  | failed failure => exact failed _ _ (fails failure ended)
  | raised misuse => exact raised misuse _ _
  | exhausted => exact exhausted _ _

/-- Putting another effect in the place of a failure. -/
theorem orElse {other : Failure → Effect α} (fails : effect.FailsAs meant)
    (instead : ∀ failure, failure.ConvertsAs meant → (other failure).FailsAs meant) :
    (effect.orElse other).FailsAs meant := by
  unfold Effect.orElse
  cases ended : effect.ending with
  | failed failure => exact instead failure (fails failure ended)
  | _ => exact fails

end Effect.FailsAs

/-- Begun inside the input, a reading fails to convert only as is meant. -/
def Reading.FailsAs (reading : Reading α) (subject : Subject)
    (meant : Option Nat → Nat → Bytes → Bytes → Prop) : Prop :=
  ∀ capacity offset, offset ≤ subject.length →
    (reading subject capacity offset).FailsAs (meant capacity)

namespace Reading.FailsAs

variable {subject : Subject} {meant : Option Nat → Nat → Bytes → Bytes → Prop}

/-! ### Building blocks -/

/-- A value at once never fails. -/
theorem pure (value : α) : FailsAs (Pure.pure value) subject meant :=
  fun _ offset _ => .matched value offset []

/-- One reading after another. -/
theorem bind {first : Reading α} {next : α → Reading β} (fails : first.FailsAs subject meant)
    (bounded : first.Bounded) (later : ∀ value, (next value).FailsAs subject meant) :
    FailsAs (first >>= next) subject meant := fun capacity offset inside =>
  (fails capacity offset inside).andThen fun value _ =>
    later value capacity _ (bounded subject capacity offset inside).inside

/-- Values passed through a function. -/
theorem map (f : α → β) {reading : Reading α} (fails : reading.FailsAs subject meant) :
    FailsAs (f <$> reading) subject meant := by
  intro capacity offset inside
  rw [map_apply]
  exact (fails capacity offset inside).map f

/-- Covering. -/
theorem covering {reading : Reading α} (fails : reading.FailsAs subject meant) :
    reading.covering.FailsAs subject meant := fun capacity offset inside =>
  (fails capacity offset inside).map _

/-- Undoing failures. -/
theorem restoring {reading : Reading α} (fails : reading.FailsAs subject meant) :
    reading.restoring.FailsAs subject meant := fun capacity offset inside =>
  (fails capacity offset inside).orElse fun _ among => .failed offset [] among

/-- A slice is cut or not, but that is no failure. -/
theorem slice (span : Span) : (Reading.slice span).FailsAs subject meant := by
  intro capacity offset _
  unfold Reading.slice
  split
  · exact .matched _ offset []
  · exact .raised _ offset []

/-- The slice of a match. -/
theorem sliced {reading : Reading Span} (fails : reading.FailsAs subject meant)
    (bounded : reading.Bounded) : reading.sliced.FailsAs subject meant :=
  fails.bind bounded fun span => (slice span).bind (.slice span) fun _ => pure _

/-- Breaking a rule. -/
theorem raise (misuse : Misuse) : (Reading.raise misuse : Reading α).FailsAs subject meant :=
  fun _ offset _ => .raised misuse offset []

/-- Running out of steps. -/
theorem exhaust : (Reading.exhaust : Reading α).FailsAs subject meant :=
  fun _ offset _ => .exhausted offset []

/-- A probe does not fail. -/
theorem probe (reading : Reading α) : reading.probe.FailsAs subject meant :=
  fun _ _ _ failure ended => absurd ended (Matcher.settle_map_not_failed _ _ failure)

/-- A test of what lies ahead does not fail. -/
theorem viewTest (test : View → Bool) : (Reading.viewTest test).FailsAs subject meant :=
  fun _ offset _ => .matched _ offset []

/-! ### Single units, literals and counts -/

/-- A literal converts nothing. -/
theorem literal (text : Bytes) : (Reading.literal text).FailsAs subject meant := by
  intro capacity offset _
  unfold Reading.literal
  dsimp only
  split
  · split
    · exact .matched _ _ []
    · rename_i failure refused
      unfold Subject.advance at refused
      split at refused
      · cases refused
        exact .failed offset [] trivial
      · split at refused
        · cases refused
        · cases refused
          exact .failed offset [] trivial
  · split <;> exact .failed offset [] trivial

/-- A single unit converts nothing. -/
theorem one (predicate : Predicate) : (Reading.one predicate).FailsAs subject meant := by
  intro capacity offset _
  unfold Reading.one
  split
  · exact .failed offset [] trivial
  · split
    · exact .matched _ _ []
    · exact .failed offset [] trivial

/-- Nothing read never fails. -/
theorem empty : Reading.empty.FailsAs subject meant := fun _ offset _ => .matched _ offset []

/-- The start of the input fails where it is asked for. -/
theorem atStart : Reading.atStart.FailsAs subject meant := by
  intro capacity offset _
  unfold Reading.atStart
  split
  · exact .matched _ offset []
  · exact .failed offset [] trivial

/-- The end of the input fails where it is asked for. -/
theorem atEnd : Reading.atEnd.FailsAs subject meant := by
  intro capacity offset _
  unfold Reading.atEnd
  split
  · exact .matched _ offset []
  · exact .failed offset [] trivial

/-- A count converts nothing. -/
theorem count {predicate : Predicate} {bounds : Bounds} {test : UnitTest}
    (settled : ∀ start unit failure, test subject start unit ≠ .failed failure) :
    (Reading.count predicate bounds test).FailsAs subject meant := by
  intro capacity offset _
  refine Effect.FailsAs.andThen ?_ fun tally _ => ?_
  · intro failure ended
    exact absurd ended (Reading.tally_not_failed (settled offset) _ _ _ failure)
  · split
    · split <;> exact .failed offset [] trivial
    · exact .matched _ _ []

/-! ### Repetition and separated items -/

/-- Rounds of a step. -/
theorem repeatFrom {step : Reading α} (bounds : Bounds) (fails : step.FailsAs subject meant)
    (bounded : step.Bounded) (rounds count : Nat) :
    (Reading.repeatFrom bounds step rounds count).FailsAs subject meant := by
  induction rounds generalizing count with
  | zero =>
    intro capacity offset _
    unfold Reading.repeatFrom
    split
    · exact .matched _ offset []
    · exact .exhausted offset []
  | succ rounds ih =>
    intro capacity offset inside
    have round := fails capacity offset inside
    have within := bounded subject capacity offset inside
    unfold Reading.repeatFrom
    split
    · exact .matched _ offset []
    · dsimp only
      split
      · rename_i failure failed
        split
        · exact .failed offset [] (round failure failed)
        · exact .matched _ offset []
      · refine round.andThen fun value _ => ?_
        split
        · exact .matched _ _ []
        · exact (ih (count + 1) capacity _ within.inside).map _

/-- A repeated step. -/
theorem repeated {step : Reading α} (bounds : Bounds) (fails : step.FailsAs subject meant)
    (bounded : step.Bounded) : (Reading.repeated bounds step).FailsAs subject meant :=
  restoring fun capacity offset inside =>
    repeatFrom bounds fails bounded _ 0 capacity offset inside

/-- The failure that ended items is as is meant, whenever it is handed out. -/
theorem itemsFrom {item : Reading α} {separator : Reading Span} (terminated : Bool)
    (items : item.FailsAs subject meant) (itemsBounded : item.Bounded)
    (separators : separator.FailsAs subject meant) (separatorsBounded : separator.Bounded)
    (rounds : Nat) (capacity : Option Nat) {offset : Nat} (inside : offset ≤ subject.length)
    {found : Items α} {failure : Failure}
    (matched : (Reading.itemsFrom item separator terminated rounds subject capacity
      offset).ending = .matched found)
    (reason : found.failure = some failure) : failure.ConvertsAs (meant capacity) := by
  induction rounds generalizing offset found with
  | zero => cases matched
  | succ rounds ih =>
    have first := items capacity offset inside
    have itemEnd := (itemsBounded subject capacity offset inside).inside
    have second := separators capacity _ itemEnd
    have separatorEnd := (separatorsBounded subject capacity _ itemEnd).inside
    unfold Reading.itemsFrom at matched
    dsimp only at matched
    split at matched
    · rename_i failed
      cases matched
      cases reason
      exact first _ failed
    · split at matched
      · rename_i failed
        split at matched
        · cases matched
          cases reason
          exact second _ failed
        · cases matched
          cases reason
      · obtain ⟨_, _, matched⟩ := Effect.andThen_matched_iff.mp matched
        obtain ⟨_, _, matched⟩ := Effect.andThen_matched_iff.mp matched
        split at matched
        · cases matched
          cases reason
        · obtain ⟨later, deeper, rfl⟩ := Effect.map_matched_iff.mp matched
          exact ih separatorEnd deeper reason
    · cases matched
    · cases matched

/-- Items of which there must be enough. -/
theorem separated {item : Reading α} {separator : Reading Span} (least : Nat) (terminated : Bool)
    (items : item.FailsAs subject meant) (itemsBounded : item.Bounded)
    (separators : separator.FailsAs subject meant) (separatorsBounded : separator.Bounded) :
    (Reading.separated item separator least terminated).FailsAs subject meant := by
  refine restoring fun capacity offset inside => ?_
  refine Effect.FailsAs.andThen ?_ fun found matched => ?_
  · intro failure ended
    exact absurd ended (itemsFrom_not_failed _ _ _ _ _ _ _ failure)
  · split
    · refine .failed _ [] ?_
      cases reason : found.failure with
      | none => exact trivial
      | some failure =>
        exact itemsFrom terminated items itemsBounded separators separatorsBounded _ capacity
          inside matched reason
    · exact .matched _ _ []

/-! ### Order, choice and captures -/

/-- One after the other. -/
theorem sequence {first second : Reading Span} (left : first.FailsAs subject meant)
    (bounded : first.Bounded) (right : second.FailsAs subject meant) :
    (Reading.sequence first second).FailsAs subject meant :=
  (left.bind bounded fun _ => right).covering

/-- The failure of a choice is that of its second part. -/
theorem choice {first second : Reading Span} (left : first.FailsAs subject meant)
    (right : second.FailsAs subject meant) :
    (Reading.choice first second).FailsAs subject meant := fun capacity offset inside =>
  (left capacity offset inside).orElse fun _ _ => right.restoring capacity offset inside

/-- The failure of the longer of two matches is that of its first part. -/
theorem longest {first second : Reading Span} (left : first.FailsAs subject meant)
    (right : second.FailsAs subject meant) :
    (Reading.longest first second).FailsAs subject meant := by
  intro capacity offset inside
  have one := left capacity offset inside
  have other := right capacity offset inside
  unfold Reading.longest
  dsimp only
  split
  · split
    · split
      · exact one.map _
      · exact other
    · exact one.map _
    · exact other
  · rename_i failure failed
    exact other.orElse fun _ _ => .failed offset [] (one failure failed)
  · exact one

/-- Two parts around a separator. -/
theorem sepOnce {left right : Reading α} {separator : Reading Span}
    (first : left.FailsAs subject meant) (firstBounded : left.Bounded)
    (middle : separator.FailsAs subject meant) (middleBounded : separator.Bounded)
    (last : right.FailsAs subject meant) (lastBounded : right.Bounded) :
    (Reading.sepOnce left separator right).FailsAs subject meant :=
  restoring (first.bind firstBounded fun _ => middle.bind middleBounded fun _ =>
    last.bind lastBounded fun _ => pure _)

/-- An inner part between a head and a tail. -/
theorem enclosed {head tail : Reading Span} {inner : Reading α}
    (before : head.FailsAs subject meant) (beforeBounded : head.Bounded)
    (fails : inner.FailsAs subject meant) (bounded : inner.Bounded)
    (after : tail.FailsAs subject meant) (afterBounded : tail.Bounded) :
    (Reading.enclosed head inner tail).FailsAs subject meant :=
  before.bind beforeBounded fun _ => fails.bind bounded fun _ =>
    after.bind afterBounded fun _ => pure _

/-- One of two parts, after a probe. -/
theorem branch {probe : Reading Bool} {accepted otherwise : Reading Span}
    (asks : probe.FailsAs subject meant) (bounded : probe.Bounded)
    (yes : accepted.FailsAs subject meant) (no : otherwise.FailsAs subject meant) :
    (Reading.branch probe accepted otherwise).FailsAs subject meant := by
  refine asks.bind bounded fun found => ?_
  cases found
  · exact no
  · exact yes

/-- A conversion fails where it began, with the slice of what was matched. -/
theorem converted {inner : Reading Value} {converter : Value → Conversion}
    (fails : inner.FailsAs subject meant)
    (refuses : ∀ capacity offset value, offset ≤ subject.length →
      (inner subject capacity offset).ending = .matched value →
      (∀ made, converter value ≠ .produced made) →
      meant capacity offset (Span.slice subject.bytes
        (.between offset (inner subject capacity offset).stop)) (converter value).cause) :
    (Reading.converted inner converter).FailsAs subject meant := by
  intro capacity offset inside
  refine (fails capacity offset inside).andThen fun value matched => ?_
  have present : subject.slice? (.between offset (inner subject capacity offset).stop) =
      some (Span.slice subject.bytes (.between offset (inner subject capacity offset).stop)) :=
    if_pos inside
  rw [present]
  dsimp only
  split
  · exact .matched _ _ []
  · rename_i failure settled
    obtain ⟨refused, rfl⟩ := Conversion.refused_of_settle settled
    exact .failed _ [] (refuses capacity offset value inside matched refused)

/-- A match that is captured. -/
theorem captured (slot : Nat) {inner : Reading Span} (fails : inner.FailsAs subject meant) :
    (Reading.captured slot inner).FailsAs subject meant := by
  intro capacity offset inside
  unfold Reading.captured
  split
  · exact (fails capacity offset inside).andThen fun _ _ => .matched _ _ _
  · exact .failed offset [] trivial

end Reading.FailsAs

/-! ## Matchers -/

/-- A conversion that a matcher comes to: some matcher under a converter, which the matcher reaches,
matches the slice from the position on, and the converter refuses its value for that cause. -/
def Matcher.Refuses (whole : Matcher) (definitions : Definitions) (subject : Subject)
    (capacity : Option Nat) (position : Nat) (slice cause : Bytes) : Prop :=
  ∃ inner converter value, whole.Reaches definitions (.mapped inner converter) ∧
    let effect := (inner.readingsUnder definitions subject).value subject capacity position
    effect.ending = .matched value ∧
      slice = Span.slice subject.bytes (.between position effect.stop) ∧
      (∀ made, converter value ≠ .produced made) ∧ cause = (converter value).cause

/-- Readings of a matcher that fail to convert only as is meant. -/
structure Readings.FailAs (readings : Readings) (subject : Subject)
    (meant : Option Nat → Nat → Bytes → Bytes → Prop) : Prop where
  /-- For the span. -/
  span : readings.span.FailsAs subject meant
  /-- For the value. -/
  value : readings.value.FailsAs subject meant

section Matchers

variable {definitions : Definitions} {subject : Subject} {whole : Matcher}
  {meant : Option Nat → Nat → Bytes → Bytes → Prop}

/-- The slice of a span fails as the span does. -/
theorem Readings.FailAs.ofSpan {span : Reading Span} (fails : span.FailsAs subject meant)
    (bounded : span.Bounded) : (Readings.ofSpan span).FailAs subject meant :=
  ⟨fails, fails.sliced bounded⟩

/-- What a value covers fails as the value does. -/
theorem Readings.FailAs.ofValue {value : Reading Value} (fails : value.FailsAs subject meant) :
    (Readings.ofValue value).FailAs subject meant := ⟨fails.covering, fails⟩

/-- A part of a matcher fails to convert only what the whole comes to, if calls do and if matches
are no others with calls nested more deeply. -/
theorem Matcher.readings_failAs {call : Nat → Reading Span} (sound : ∀ slot, (call slot).Sound)
    (calls : ∀ slot, (∀ target, definitions.find? slot = some target →
      whole.Reaches definitions target) →
      (call slot).FailsAs subject (whole.Refuses definitions subject))
    (deeper : ∀ (inner : Matcher) capacity offset value, offset ≤ subject.length →
      ((inner.readings call).value subject capacity offset).ending = .matched value →
      (inner.readings call).value subject capacity offset =
        (inner.readingsUnder definitions subject).value subject capacity offset)
    (matcher : Matcher) (reached : whole.Reaches definitions matcher) :
    (matcher.readings call).FailAs subject (whole.Refuses definitions subject) := by
  have known (part : Matcher) := part.readings_sound sound
  -- Over the matchers: what each part reaches is reached by the whole.
  induction matcher with
  | literal text => exact .ofSpan (.literal text) (known (.literal text)).span.bounded
  | one predicate => exact .ofSpan (.one predicate) (known (.one predicate)).span.bounded
  | empty => exact .ofSpan .empty (known .empty).span.bounded
  | atStart => exact .ofSpan .atStart (known .atStart).span.bounded
  | atEnd => exact .ofSpan .atEnd (known .atEnd).span.bounded
  | count predicate bounds condition =>
    exact .ofSpan (.count fun _ _ _ => nofun)
      (known (.count predicate bounds condition)).span.bounded
  | countAhead predicate bounds ahead =>
    exact .ofSpan (.count fun _ _ failure => settle_map_not_failed _ _ failure)
      (known (.countAhead predicate bounds ahead)).span.bounded
  | repeated inner bounds ih =>
    have fails := ih (reached.tail (by simp [parts]))
    exact .ofSpan (.covering (.repeated bounds fails.span (known inner).span.bounded))
      (known (.repeated inner bounds)).span.bounded
  | collected inner bounds ih =>
    have fails := ih (reached.tail (by simp [parts]))
    exact .ofValue (.map _ (.repeated bounds fails.value (known inner).value))
  | sequence first second left right =>
    have before := left (reached.tail (by simp [parts]))
    have after := right (reached.tail (by simp [parts]))
    exact .ofSpan (.sequence before.span (known first).span.bounded after.span)
      (known (.sequence first second)).span.bounded
  | choice first second left right =>
    have one := left (reached.tail (by simp [parts]))
    have other := right (reached.tail (by simp [parts]))
    exact .ofSpan (.choice one.span other.span) (known (.choice first second)).span.bounded
  | longest first second left right =>
    have one := left (reached.tail (by simp [parts]))
    have other := right (reached.tail (by simp [parts]))
    exact .ofSpan (.longest one.span other.span) (known (.longest first second)).span.bounded
  | sepOnce left separator right first middle last =>
    have before := first (reached.tail (by simp [parts]))
    have between := middle (reached.tail (by simp [parts]))
    have after := last (reached.tail (by simp [parts]))
    have middleBounded := (known separator).span.bounded
    exact ⟨.covering (.sepOnce before.span (known left).span.bounded between.span middleBounded
        after.span (known right).span.bounded),
      .map _ (.sepOnce before.value (known left).value between.span middleBounded after.value
        (known right).value)⟩
  | separated item separator least terminated items separators =>
    have each := items (reached.tail (by simp [parts]))
    have between := separators (reached.tail (by simp [parts]))
    have middleBounded := (known separator).span.bounded
    exact ⟨.covering (.separated least terminated each.span (known item).span.bounded between.span
        middleBounded),
      .map _ (.separated least terminated each.value (known item).value between.span
        middleBounded)⟩
  | enclosed head inner tail before ih after =>
    have opening := before (reached.tail (by simp [parts]))
    have fails := ih (reached.tail (by simp [parts]))
    have closing := after (reached.tail (by simp [parts]))
    have headBounded := (known head).span.bounded
    have tailBounded := (known tail).span.bounded
    exact ⟨.covering (.enclosed opening.span headBounded fails.span (known inner).span.bounded
        closing.span tailBounded),
      .enclosed opening.span headBounded fails.value (known inner).value closing.span tailBounded⟩
  | mapped inner converter ih =>
    have fails := ih (reached.tail (by simp [parts]))
    refine .ofValue (.converted fails.value fun capacity offset value inside matched refused => ?_)
    have same := deeper inner capacity offset value inside matched
    rw [same] at matched ⊢
    exact ⟨inner, converter, value, reached, matched, rfl, refused, rfl⟩
  | captured slot inner ih =>
    have fails := ih (reached.tail (by simp [parts]))
    exact .ofSpan (.captured slot fails.span) (known (.captured slot inner)).span.bounded
  | branch test accepted otherwise asks yes no =>
    have one := yes (reached.tail (by simp [parts]))
    have other := no (reached.tail (by simp [parts]))
    exact .ofSpan (.branch (.probe _) (.probe _) one.span other.span)
      (known (.branch test accepted otherwise)).span.bounded
  | branchIf test accepted otherwise yes no =>
    have one := yes (reached.tail (by simp [parts]))
    have other := no (reached.tail (by simp [parts]))
    exact .ofSpan (.branch (.viewTest test) (.viewTest test) one.span other.span)
      (known (.branchIf test accepted otherwise)).span.bounded
  | boxed inner ih =>
    exact .ofSpan (ih (reached.tail (by simp [parts]))).span (known inner).span.bounded
  | undefined => exact .ofSpan (.raise _) (known .undefined).span.bounded
  | handle slot =>
    refine .ofSpan (calls slot fun target defined => ?_) (sound slot).bounded
    exact reached.tail (Option.mem_toList.mpr defined)
  | reference slot =>
    refine .ofSpan (calls slot fun target defined => ?_) (sound slot).bounded
    exact reached.tail (Option.mem_toList.mpr defined)

/-- A match is no other one with calls nested more deeply. -/
theorem Matcher.readings_matched (inner : Matcher) {depth : Nat}
    (shallow : depth ≤ definitions.depthFor subject) (capacity : Option Nat) {offset : Nat}
    {value : Value} (inside : offset ≤ subject.length)
    (matched : ((inner.readings (definitions.reading depth)).value subject capacity
      offset).ending = .matched value) :
    (inner.readings (definitions.reading depth)).value subject capacity offset =
      (inner.readingsUnder definitions subject).value subject capacity offset := by
  obtain ⟨extra, same⟩ := Nat.exists_eq_add_of_le shallow
  unfold readingsUnder
  rw [same]
  have onward := (inner.readings_related
    (definitions.reading_deepens_by subject capacity depth extra)
    (definitions.reading_sound depth)).2 capacity offset (.inr rfl) inside
  rcases onward.eq_or_cut with same | ⟨_, exhausted⟩
  · exact same
  · cases matched.symm.trans exhausted

/-- A call fails to convert only what the whole comes to, if the whole reaches its definition. -/
theorem Definitions.reading_failsAs {depth : Nat} (shallow : depth ≤ definitions.depthFor subject)
    (slot : Nat)
    (reached : ∀ target, definitions.find? slot = some target →
      whole.Reaches definitions target) :
    (definitions.reading depth slot).FailsAs subject (whole.Refuses definitions subject) := by
  induction depth generalizing slot with
  | zero => exact .exhaust
  | succ depth ih =>
    have less := Nat.le_of_succ_le shallow
    unfold Definitions.reading
    split
    · exact .raise _
    · rename_i target present
      exact (Matcher.readings_failAs (definitions.reading_sound depth) (ih less)
        (fun inner capacity _ _ inside matched =>
          inner.readings_matched less capacity inside matched) target (reached target present)).span

/-- A matcher fails to convert only what it comes to. -/
theorem Matcher.readingsUnder_failAs (matcher : Matcher) (definitions : Definitions)
    (subject : Subject) :
    (matcher.readingsUnder definitions subject).FailAs subject
      (matcher.Refuses definitions subject) :=
  readings_failAs (definitions.reading_sound _) (definitions.reading_failsAs (Nat.le_refl _))
    (fun _ _ _ _ _ _ => rfl) matcher .refl

end Matchers

/-! ## Failures of runs -/

/-- The offsets from one on, inside the input. -/
def Ground.from (subject : Subject) (start : Nat) : Ground where
  subject := subject
  places := {offset | start ≤ offset ∧ offset ≤ subject.length}
  closed :=
    { unit := fun here present =>
        ⟨Nat.le_trans here.1 (Nat.le_of_lt (Subject.unitAt_bounds present).2.2),
          Subject.unitAt_next_le present⟩
      move := by
        rintro offset count stop ⟨forward, inside⟩ moved
        obtain ⟨reached, within⟩ := Reading.advance_ok inside moved
        exact ⟨by omega, within⟩ }
  inside := And.right
  allowed := fun _ => True
  fine _ := True
  cut _ _ := trivial

/-- From one offset on, nothing is asked of matchers. -/
theorem Ground.from_admits (subject : Subject) (start : Nat) (definitions : Definitions)
    (matcher : Matcher) : (Ground.from subject start).Admits definitions matcher := by
  cases matcher with
  | handle | reference => exact fun _ => trivial
  | _ => trivial

/-- What a failure says of a run of a matcher from a state: a mismatch lies between the position and
the end of the input; input is missed at its end; there is a store, and a slot that is missed lies
past its last one. A slice that was not converted begins at the position of the failure, and ends
where a matcher under a converter ends that is run from there, whatever the store holds by then. The
converter refused the value of that match. -/
def Failure.PointsInto (whole : Matcher) (definitions : Definitions) (subject : Subject)
    (state : State) : Failure → Prop
  | .mismatch position _ => state.offset ≤ position ∧ position ≤ subject.length
  | .outOfBounds position => state.offset ≤ position ∧ position = subject.length
  | .captureOutOfBounds slot => ∃ store, state.captures = some store ∧ store.capacity ≤ slot
  | .conversionFailed position slice cause =>
    ∃ stop, state.offset ≤ position ∧ position ≤ stop ∧ stop ≤ subject.length ∧
      slice = Span.slice subject.bytes (.between position stop) ∧
      ∃ inner converter value, whole.Reaches definitions (.mapped inner converter) ∧
        (∀ made, converter value ≠ .produced made) ∧ cause = (converter value).cause ∧
        ∀ begins : State, begins.offset = position → begins.capacity = state.capacity →
          let run := inner.attemptValue definitions subject begins
          run.ending = .matched value ∧ run.state.offset = stop

namespace Matcher

variable {matcher : Matcher} {definitions : Definitions} {subject : Subject} {state : State}

/-- A conversion that is refused is found again by a run from its position. -/
theorem Refuses.pointsInto {position : Nat} {slice cause : Bytes}
    (refuses : matcher.Refuses definitions subject state.capacity position slice cause)
    (forward : state.offset ≤ position) (inside : position ≤ subject.length) :
    (Failure.conversionFailed position slice cause).PointsInto matcher definitions subject
      state := by
  obtain ⟨inner, converter, value, reached, matched, rfl, refused, rfl⟩ := refuses
  have within := (inner.readingsUnder_sound definitions subject).value subject state.capacity
    position inside
  refine ⟨_, forward, within.forward, within.inside, rfl, inner, converter, value, reached,
    refused, rfl, ?_⟩
  rintro begins rfl same
  obtain ⟨ended, stopped⟩ := Run.ends_as (inner.outcome_attemptValue definitions inside)
  rw [same] at ended stopped
  exact ⟨ended.trans matched, stopped⟩

/-- A failure that is explained from the position on, and that converts what the matcher comes to,
points where the run was. -/
theorem pointsInto_of_explained {failure : Failure} (inside : state.offset ≤ subject.length)
    (explained : (Ground.from subject state.offset).Explains state.capacity failure)
    (converts : failure.ConvertsAs (matcher.Refuses definitions subject state.capacity)) :
    failure.PointsInto matcher definitions subject state := by
  cases failure with
  | mismatch position expected =>
    obtain ⟨⟨start, here, before⟩, limit⟩ := explained
    exact ⟨Nat.le_trans here.1 before, limit⟩
  | outOfBounds position =>
    have last : position = subject.length := explained
    exact ⟨last ▸ inside, last⟩
  | captureOutOfBounds slot =>
    change Reading.hasSlot state.capacity slot = false at explained
    unfold State.capacity Reading.hasSlot at explained
    cases stored : state.captures with
    | none =>
      rw [stored] at explained
      cases explained
    | some store =>
      rw [stored] at explained
      exact ⟨store, stored, by simpa using explained⟩
  | conversionFailed position slice cause =>
    obtain ⟨here, _⟩ := explained
    exact Refuses.pointsInto converts here.1 here.2

/-- Whatever failure a run ends with that begins inside the input, for the span or for the value, it
points where the run was. -/
theorem failures_point_inside (inside : state.offset ≤ subject.length) (failure : Failure)
    (failed : (matcher.attempt definitions subject state).ending = .failed failure ∨
      (matcher.attemptValue definitions subject state).ending = .failed failure) :
    failure.PointsInto matcher definitions subject state := by
  have proper := @readingsUnder_proper (.from subject state.offset) matcher definitions
    fun part _ => Ground.from_admits subject state.offset definitions part
  have fails := matcher.readingsUnder_failAs definitions subject
  have here : state.offset ∈ (Ground.from subject state.offset).places :=
    ⟨Nat.le_refl _, inside⟩
  rcases failed with failed | failed
  · have ended := (Run.ends_as (matcher.outcome_attempt definitions inside)).1.symm.trans failed
    exact pointsInto_of_explained inside
      ((proper.span state.capacity state.offset here).failure failure ended)
      (fails.span state.capacity state.offset inside failure ended)
  · have ended :=
      (Run.ends_as (matcher.outcome_attemptValue definitions inside)).1.symm.trans failed
    exact pointsInto_of_explained inside
      ((proper.value state.capacity state.offset here).failure failure ended)
      (fails.value state.capacity state.offset inside failure ended)

/-- The second item of two is too short for its converter, so that there are too few of them. -/
theorem failures_point_inside_late :
    let item := Matcher.mapped (.repeated (.literal [97]) (.atLeast 1))
      (.minimumLength 2 (Bytes.ofString "short"))
    let matcher := Matcher.separated item (.literal [44]) 2 true
    let subject : Subject := ⟨.octet, [97, 97, 44, 97]⟩
    let state : State := ⟨0, some (.ofCapacity 1)⟩
    let failure := Failure.conversionFailed 3 [97] (Bytes.ofString "short")
    state.offset ≤ subject.length ∧
      (matcher.attempt [] subject state).ending = .failed failure ∧
      failure.PointsInto matcher [] subject state := by
  intro item matcher subject state failure
  have inside : state.offset ≤ subject.length := Nat.zero_le _
  have failed : (matcher.attempt [] subject state).ending = .failed failure := by decide +kernel
  exact ⟨inside, failed, failures_point_inside inside failure (.inl failed)⟩

end Matcher

end TextPattern
