import TextPattern.Proofs.LoopOutcome
import TextPattern.Proofs.MatcherRealization

/-!
# The rounds of a collection

A collection yields the values of matches that follow one another, never more of them than its
bounds allow. All but the last consume something. A match that consumes nothing ends the
collection however few there were: only a match that fails is counted against the least number.
`Matcher.collected_counts` is the main statement.
-/

namespace TextPattern

variable {α : Type}

/-- Matches that follow one another, with the values that they yield: each begins in the state in
which the one before it ended, and each consumes something. -/
inductive Consecutive (once : State → Ending α × State) : State → List α → State → Prop where
  | none (state : State) : Consecutive once state [] state
  | another {state between after : State} {value : α} {values : List α}
    (first : once state = (.matched value, between)) (onward : between.offset ≠ state.offset)
    (later : Consecutive once between values after) :
    Consecutive once state (value :: values) after

/-- One more match behind. -/
theorem Consecutive.concat {once : State → Ending α × State} {state between after : State}
    {value : α} {values : List α} (earlier : Consecutive once state values between)
    (last : once between = (.matched value, after)) (onward : after.offset ≠ between.offset) :
    Consecutive once state (values ++ [value]) after := by
  induction earlier with
  | none state => exact .another last onward (.none after)
  | another first forward _ ih => exact .another first forward (ih last onward)

/-- Matches that end too early: one that consumes nothing is the last, and with it they are fewer
than the least number. -/
inductive StopsShort (once : State → Ending α × State) (least : Nat) (state : State) :
    List α → State → Prop where
  | intro {earlier : List α} {last : α} {between after : State}
    (rounds : Consecutive once state earlier between)
    (final : once between = (.matched last, after)) (still : after.offset = between.offset)
    (few : earlier.length + 1 < least) :
    StopsShort once least state (earlier ++ [last]) after

/-- How a repetition ends that began at an origin, from a state on in which some matches were
counted before: at the limit, where a match fails, or behind a match that consumes nothing. It
fails, and is back at the origin, where too few matches came before one that failed. -/
inductive RepetitionExit (once : State → Ending α × State) (bounds : Bounds) (counted : Nat)
    (origin state : State) : Ending (List α) → State → Prop where
  | full {values : List α} {after : State} (rounds : Consecutive once state values after)
    (limit : bounds.greatest = some (counted + values.length)) :
    RepetitionExit once bounds counted origin state (.matched values) after
  | ended {values : List α} {after : State} (rounds : Consecutive once state values after)
    (enough : bounds.least ≤ counted + values.length)
    (room : ∀ limit, bounds.greatest = some limit → counted + values.length < limit) :
    RepetitionExit once bounds counted origin state (.matched values) after
  | still {earlier : List α} {last : α} {between after : State}
    (rounds : Consecutive once state earlier between)
    (final : once between = (.matched last, after)) (still : after.offset = between.offset)
    (room : ∀ limit, bounds.greatest = some limit → counted + earlier.length < limit) :
    RepetitionExit once bounds counted origin state (.matched (earlier ++ [last])) after
  | few {values : List α} {between : State} {failure : Failure}
    (rounds : Consecutive once state values between)
    (few : counted + values.length < bounds.least)
    (failed : (once between).1 = .failed failure) :
    RepetitionExit once bounds counted origin state (.failed failure) origin
  | raised (misuse : Misuse) (after : State) :
    RepetitionExit once bounds counted origin state (.raised misuse) after
  | exhausted (after : State) : RepetitionExit once bounds counted origin state .exhausted after

/-- One more match in front. -/
theorem RepetitionExit.cons {once : State → Ending α × State} {bounds : Bounds} {counted : Nat}
    {origin state between after : State} {value : α} {ending : Ending (List α)}
    (first : once state = (.matched value, between)) (onward : between.offset ≠ state.offset)
    (later : RepetitionExit once bounds (counted + 1) origin between ending after) :
    RepetitionExit once bounds counted origin state (ending.map (value :: ·)) after := by
  have more (values : List α) :
      counted + (value :: values).length = counted + 1 + values.length := by
    rw [List.length_cons]
    omega
  cases later with
  | full rounds limit => exact .full (.another first onward rounds) (more _ ▸ limit)
  | ended rounds enough room =>
    exact .ended (.another first onward rounds) (more _ ▸ enough) (more _ ▸ room)
  | still rounds final still room =>
    exact .still (.another first onward rounds) final still (more _ ▸ room)
  | few rounds few failed => exact .few (.another first onward rounds) (more _ ▸ few) failed
  | raised misuse => exact .raised misuse after
  | exhausted => exact .exhausted after

namespace Attempt

/-- An attempt that only moves on inside the input and records captures. -/
def Extends (attempt : Attempt α) (subject : Subject) : Prop :=
  ∀ state : State, state.offset ≤ subject.length →
    ∃ stop captures, (attempt.outcome subject state).2 = state.extend stop captures ∧
      state.offset ≤ stop ∧ stop ≤ subject.length

section
variable {step : Attempt α} {subject : Subject} {bounds : Bounds}

/-- One round of a repetition that has room for it. -/
theorem outcome_repeatFrom_succ (start : Checkpoint) (rounds : Nat) {count : Nat} (state : State)
    (unreached : bounds.reached count = false) :
    (Combinator.repeatFrom start bounds step (rounds + 1) count).outcome subject state =
      match step.outcome subject state with
      | (.matched value, after) =>
        if after.offset = state.offset then (.matched [value], after)
        else
          let later := (Combinator.repeatFrom start bounds step rounds (count + 1)).outcome subject
            after
          (later.1.map (value :: ·), later.2)
      | (.failed failure, after) =>
        if count < bounds.least then
          (.failed failure, (after.restore state.checkpoint).restore start)
        else (.matched [], after.restore state.checkpoint)
      | (.raised misuse, after) => (.raised misuse, after)
      | (.exhausted, after) => (.exhausted, after) := by
  rw [Combinator.repeatFrom, if_neg (Bool.eq_false_iff.mp unreached)]
  simp only [outcome_bind, outcome_checkpoint, outcome_observe]
  obtain ⟨ending, after⟩ := step.outcome subject state
  cases ending with
  | matched value =>
    simp only [Ending.settle, outcome_bind, outcome_offset, State.offset_checkpoint]
    by_cases still : after.offset = state.offset
    · simp only [still, ↓reduceIte, outcome_pure]
    · simp only [still, ↓reduceIte, outcome_bind]
      obtain ⟨ending, final⟩ :=
        (Combinator.repeatFrom start bounds step rounds (count + 1)).outcome subject after
      cases ending <;> rfl
  | failed failure =>
    simp only [Ending.settle, outcome_bind, outcome_restore]
    split <;> rfl
  | _ => rfl

/-- A repetition passes through matches that follow one another, as long as there is room. -/
theorem outcome_repeatFrom_consecutive (start : Checkpoint) (rounds : Nat) {count : Nat}
    {state between : State} {values : List α}
    (chain : Consecutive (step.outcome subject) state values between)
    (room : ∀ limit, bounds.greatest = some limit → count + values.length ≤ limit) :
    (Combinator.repeatFrom start bounds step (rounds + values.length) count).outcome subject
        state =
      let later := (Combinator.repeatFrom start bounds step rounds
        (count + values.length)).outcome subject between
      (later.1.map (values ++ ·), later.2) := by
  induction chain generalizing count with
  | none state =>
    dsimp only [List.length_nil, Nat.add_zero]
    obtain ⟨ending, after⟩ :=
      (Combinator.repeatFrom start bounds step rounds count).outcome subject state
    cases ending <;> rfl
  | @another state between after value values first onward later ih =>
    have more : count + (value :: values).length = count + 1 + values.length := by
      rw [List.length_cons]
      omega
    have unreached : bounds.reached count = false := by
      apply Bounds.not_reached
      intro limit greatest
      have most := room limit greatest
      rw [List.length_cons] at most
      omega
    rw [more] at room ⊢
    rw [List.length_cons, ← Nat.add_assoc, outcome_repeatFrom_succ start _ state unreached, first]
    dsimp only
    rw [if_neg onward, ih room]
    obtain ⟨ending, final⟩ := (Combinator.repeatFrom start bounds step rounds
      (count + 1 + values.length)).outcome subject after
    cases ending <;> rfl

/-- At the limit a repetition is over. -/
theorem outcome_repeatFrom_of_reached (start : Checkpoint) (rounds : Nat) {count : Nat}
    (state : State) (full : bounds.reached count = true) :
    (Combinator.repeatFrom start bounds step rounds count).outcome subject state =
      (.matched [], state) := by
  cases rounds <;> rw [Combinator.repeatFrom, if_pos full, outcome_pure]

/-- A repetition ends in one of the ways in which repetitions end. -/
theorem exit_of_repeatFrom (bounds : Bounds) (extending : step.Extends subject) (origin : State)
    (rounds : Nat) {count stop : Nat} (captures : List Capture) (inside : stop ≤ subject.length)
    (limited : ∀ limit, bounds.greatest = some limit → count ≤ limit) :
    let ended := (Combinator.repeatFrom origin.checkpoint bounds step rounds count).outcome subject
      (origin.extend stop captures)
    RepetitionExit (step.outcome subject) bounds count origin (origin.extend stop captures) ended.1
      ended.2 := by
  intro ended
  induction rounds generalizing count stop captures with
  | zero =>
    by_cases full : bounds.reached count = true
    · have closed : ended = _ := outcome_repeatFrom_of_reached _ _ _ full
      rw [closed]
      exact .full (.none _) ((Bounds.reached_iff limited).mp full)
    · have spent : ended = (.exhausted, origin.extend stop captures) := by
        dsimp only [ended]
        rw [Combinator.repeatFrom, if_neg full, outcome_exhaust]
      rw [spent]
      exact .exhausted _
  | succ rounds ih =>
    by_cases full : bounds.reached count = true
    · have closed : ended = _ := outcome_repeatFrom_of_reached _ _ _ full
      rw [closed]
      exact .full (.none _) ((Bounds.reached_iff limited).mp full)
    have unreached := Bool.eq_false_iff.mpr full
    have below := Bounds.lt_of_not_reached unreached
    obtain ⟨further, more, extended, _, within⟩ := extending (origin.extend stop captures) inside
    have round : ended = _ := outcome_repeatFrom_succ origin.checkpoint rounds _ unreached
    rw [State.extend_extend] at extended
    rw [round]
    cases tried : step.outcome subject (origin.extend stop captures) with
    | mk ending between =>
    rw [tried] at extended
    dsimp only at extended
    cases ending with
    | matched value =>
      dsimp only
      by_cases still : between.offset = (origin.extend stop captures).offset
      · rw [if_pos still]
        exact .still (.none _) tried still below
      · rw [if_neg still, extended]
        rw [extended] at tried still
        exact (ih (captures ++ more) within below).cons tried still
    | failed failure =>
      have failed : (step.outcome subject (origin.extend stop captures)).1 = .failed failure :=
        congrArg Prod.fst tried
      have back : between.restore (origin.extend stop captures).checkpoint =
          origin.extend stop captures := by
        rw [extended, ← State.extend_extend, State.restore_extend]
      dsimp only
      rw [back, State.restore_extend]
      by_cases few : count < bounds.least
      · rw [if_pos few]
        exact .few (.none _) few failed
      · rw [if_neg few]
        exact .ended (.none _) (Nat.le_of_not_lt few) below
    | raised misuse => exact .raised misuse between
    | exhausted => exact .exhausted between

/-- Matches that follow one another stay inside the input and are no more than the octets that they
consume. What they do to the state is to move on and to record captures. -/
theorem Extends.consecutive (extending : step.Extends subject) {state after : State}
    {values : List α} (chain : Consecutive (step.outcome subject) state values after)
    (inside : state.offset ≤ subject.length) :
    after.offset ≤ subject.length ∧ state.offset + values.length ≤ after.offset ∧
      ∃ captures, after = state.extend after.offset captures := by
  induction chain with
  | none state => exact ⟨inside, Nat.le_refl _, [], (State.extend_self state).symm⟩
  | @another state between after value values first onward later ih =>
    obtain ⟨stop, captures, extended, forward, within⟩ := extending state inside
    rw [first] at extended
    dsimp only at extended
    have reached : between.offset = stop := congrArg State.offset extended
    obtain ⟨deeper, consumed, more, rest⟩ := ih (reached ▸ within)
    refine ⟨deeper, ?_, captures ++ more, ?_⟩
    · rw [List.length_cons]
      omega
    · rw [rest, extended, State.extend_extend, State.offset_extend]

/-- A repetition loops from where it begins, with more rounds than there are octets ahead. -/
theorem outcome_repeated (state : State) :
    (Combinator.repeated bounds step).outcome subject state =
      (Combinator.repeatFrom state.checkpoint bounds step (subject.length - state.offset + 1)
        0).outcome subject (state.extend state.offset []) := by
  rw [State.extend_self]
  rfl

/-- So it ends in one of the ways in which repetitions end. -/
theorem exit_of_repeated (bounds : Bounds) (extending : step.Extends subject) {state : State}
    (inside : state.offset ≤ subject.length) :
    let ended := (Combinator.repeated bounds step).outcome subject state
    RepetitionExit (step.outcome subject) bounds 0 state state ended.1 ended.2 := by
  have exit := exit_of_repeatFrom bounds extending state (subject.length - state.offset + 1) []
    inside fun limit _ => Nat.zero_le limit
  rw [← outcome_repeated, State.extend_self] at exit
  exact exit

/-- The rounds suffice to pass through matches that follow one another and to try once more. -/
theorem repeated_through (extending : step.Extends subject) {state between : State}
    {values : List α} (inside : state.offset ≤ subject.length)
    (chain : Consecutive (step.outcome subject) state values between)
    (room : ∀ limit, bounds.greatest = some limit → values.length < limit) :
    ∃ spare, (Combinator.repeated bounds step).outcome subject state =
      let later := (Combinator.repeatFrom state.checkpoint bounds step (spare + 1)
        values.length).outcome subject between
      (later.1.map (values ++ ·), later.2) := by
  obtain ⟨deeper, consumed, _⟩ := extending.consecutive chain inside
  obtain ⟨spare, allotted⟩ : ∃ spare,
      subject.length - state.offset + 1 = spare + 1 + values.length :=
    ⟨subject.length - state.offset - values.length, by omega⟩
  have within (limit : Nat) (greatest : bounds.greatest = some limit) :
      0 + values.length ≤ limit := by
    have most := room limit greatest
    omega
  refine ⟨spare, ?_⟩
  rw [outcome_repeated, State.extend_self, allotted,
    outcome_repeatFrom_consecutive _ _ chain within, Nat.zero_add]

/-- It fails where too few matches that consume something are followed by a failure: all of them are
undone. -/
theorem repeated_of_few (extending : step.Extends subject)
    {state between : State} {values : List α} {failure : Failure}
    (inside : state.offset ≤ subject.length)
    (chain : Consecutive (step.outcome subject) state values between)
    (few : values.length < bounds.least)
    (failed : (step.outcome subject between).1 = .failed failure) :
    (Combinator.repeated bounds step).outcome subject state = (.failed failure, state) := by
  obtain ⟨deeper, _, captures, reached⟩ := extending.consecutive chain inside
  obtain ⟨stop, more, extended, _, _⟩ := extending between deeper
  have room (limit : Nat) (greatest : bounds.greatest = some limit) : values.length < limit := by
    have most := bounds.least_le greatest
    omega
  obtain ⟨spare, passes⟩ := repeated_through extending inside chain room
  rw [passes, outcome_repeatFrom_succ _ _ _ (Bounds.not_reached room)]
  cases tried : step.outcome subject between with
  | mk ending final =>
  rw [tried] at failed extended
  dsimp only at failed extended
  rw [failed]
  dsimp only
  rw [if_pos few, extended, State.restore_extend, reached, State.restore_extend]
  rfl

/-- It ends behind a match that consumes nothing. -/
theorem repeated_of_still (extending : step.Extends subject) {state between after : State}
    {values : List α} {last : α} (inside : state.offset ≤ subject.length)
    (chain : Consecutive (step.outcome subject) state values between)
    (final : step.outcome subject between = (.matched last, after))
    (still : after.offset = between.offset)
    (room : ∀ limit, bounds.greatest = some limit → values.length < limit) :
    (Combinator.repeated bounds step).outcome subject state =
      (.matched (values ++ [last]), after) := by
  obtain ⟨spare, passes⟩ := repeated_through extending inside chain room
  rw [passes, outcome_repeatFrom_succ _ _ _ (Bounds.not_reached room), final]
  dsimp only
  rw [if_pos still]
  rfl

/-- It matches too few times exactly where a match that consumes nothing ends it too early. -/
theorem repeated_stopsShort_iff (extending : step.Extends subject)
    {state after : State} {values : List α} (inside : state.offset ≤ subject.length) :
    StopsShort (step.outcome subject) bounds.least state values after ↔
      (Combinator.repeated bounds step).outcome subject state = (.matched values, after) ∧
        values.length < bounds.least := by
  constructor
  · intro short
    cases short with
    | @intro earlier last between _ rounds final still few =>
      have room (limit : Nat) (greatest : bounds.greatest = some limit) :
          earlier.length < limit := by
        have most := bounds.least_le greatest
        omega
      have fewer : (earlier ++ [last]).length < bounds.least := by
        rw [List.length_append]
        exact few
      exact ⟨repeated_of_still extending inside rounds final still room, fewer⟩
  · rintro ⟨matched, few⟩
    have exit := exit_of_repeated bounds extending inside
    dsimp only at exit
    rw [matched] at exit
    cases exit with
    | full rounds limit =>
      have most := bounds.least_le limit
      omega
    | ended rounds enough room => omega
    | @still earlier last between _ rounds final still room =>
      rw [List.length_append] at few
      exact .intro rounds final still few

end

end Attempt

namespace Matcher

variable {inner : Matcher} {bounds : Bounds} {definitions : Definitions} {subject : Subject}
  {state : State}

/-- Under definitions, calls are nested as deeply as the subject needs. -/
theorem outcome_meaning (matcher : Matcher) (definitions : Definitions) :
    let meaning := matcher.meaning (definitions.call (definitions.depthFor subject))
    (matcher.attempt definitions).outcome subject state = meaning.span.outcome subject state ∧
      (matcher.attemptValue definitions).outcome subject state =
        meaning.value.outcome subject state :=
  ⟨rfl, rfl⟩

/-- The value of a matcher only moves on inside the input and records captures. -/
theorem meaning_extends (matcher : Matcher) (definitions : Definitions) (depth : Nat)
    (subject : Subject) : (matcher.meaning (definitions.call depth)).value.Extends subject := by
  intro state inside
  have realizes := matcher.meaning_realizes (definitions.call_realizes depth)
    (definitions.reading_sound depth)
  have within := (matcher.readings_sound (definitions.reading_sound depth)).value subject
    state.capacity state.offset inside
  rw [realizes.value subject state inside]
  exact ⟨_, _, rfl, within.forward, within.inside⟩

/-- The value of a collection lists what its rounds yield. -/
theorem outcome_collected (inner : Matcher) (bounds : Bounds) (call : Nat → Attempt Span) :
    ((collected inner bounds).meaning call).value.outcome subject state =
      let loop := (Combinator.repeated bounds (inner.meaning call).value).outcome subject state
      (loop.1.map .list, loop.2) :=
  Attempt.outcome_map subject state _ _

/-- The span of a collection is what its value covers. -/
theorem outcome_collected_span (inner : Matcher) (bounds : Bounds) (call : Nat → Attempt Span) :
    ((collected inner bounds).meaning call).span.outcome subject state =
      let all := ((collected inner bounds).meaning call).value.outcome subject state
      (all.1.map fun _ => .between state.offset all.2.offset, all.2) :=
  Attempt.outcome_covering subject state ((collected inner bounds).meaning call).value

/-- It stops short exactly where it matches too few times. -/
theorem collected_stopsShort_iff
    (inside : state.offset ≤ subject.length) {values : List Value} {after : State} :
    StopsShort ((inner.attemptValue definitions).outcome subject) bounds.least state values after ↔
      ((collected inner bounds).attemptValue definitions).outcome subject state =
        (.matched (.list values), after) ∧ values.length < bounds.least := by
  let step := (inner.meaning (definitions.call (definitions.depthFor subject))).value
  have sameOnce : (inner.attemptValue definitions).outcome subject = step.outcome subject :=
    funext fun state => (outcome_meaning inner definitions).2
  have extending : step.Extends subject := inner.meaning_extends definitions _ subject
  rw [sameOnce, Attempt.repeated_stopsShort_iff extending inside,
    (outcome_meaning (collected inner bounds) definitions).2, outcome_collected]
  show (Combinator.repeated bounds step).outcome subject state = _ ∧ _ ↔ _
  obtain ⟨ending, stopped⟩ := (Combinator.repeated bounds step).outcome subject state
  cases ending <;> simp [Ending.map]

/-- What a collection does, for its span as for its value. Where it matches, its value lists those
of matches that follow one another from where it began to where it ends, and they do not exceed the
greatest number. They are at least the least number, or the last of them consumes nothing. It fails,
and changes nothing, exactly where fewer matches than the least number, all of which consume
something, are followed by an attempt that fails, and with the failure of that attempt. -/
theorem collected_counts
    (inside : state.offset ≤ subject.length) :
    let once := (inner.attemptValue definitions).outcome subject
    let all := ((collected inner bounds).attemptValue definitions).outcome subject state
    ((collected inner bounds).attempt definitions).outcome subject state =
        (all.1.map fun _ => .between state.offset all.2.offset, all.2) ∧
      (∀ value after, all = (.matched value, after) →
        ∃ values, value = .list values ∧
          (∀ limit, bounds.greatest = some limit → values.length ≤ limit) ∧
          ((Consecutive once state values after ∧ bounds.least ≤ values.length) ∨
            ∃ earlier last between, values = earlier ++ [last] ∧
              Consecutive once state earlier between ∧ once between = (.matched last, after) ∧
              after.offset = between.offset)) ∧
      ∀ failure after, all = (.failed failure, after) ↔
        after = state ∧ ∃ values between, Consecutive once state values between ∧
          values.length < bounds.least ∧ (once between).1 = .failed failure := by
  intro once all
  let call := definitions.call (definitions.depthFor subject)
  obtain ⟨sameSpan, sameValue⟩ :=
    @outcome_meaning subject state (collected inner bounds) definitions
  have sameOnce : once = (inner.meaning call).value.outcome subject :=
    funext fun state => (outcome_meaning inner definitions).2
  have listed : all = _ := sameValue.trans (outcome_collected inner bounds call)
  have extending := inner.meaning_extends definitions (definitions.depthFor subject) subject
  have exit := Attempt.exit_of_repeated bounds extending inside
  have undone {values : List Value} {between : State} {failure : Failure} :=
    @Attempt.repeated_of_few _ _ _ bounds extending state between values failure inside
  refine ⟨?_, ?_⟩
  · rw [sameSpan, outcome_collected_span, ← sameValue]
  rw [listed, sameOnce]
  generalize (Combinator.repeated bounds (inner.meaning call).value).outcome subject state = loop
    at exit undone ⊢
  obtain ⟨ending, stopped⟩ := loop
  dsimp only at exit
  constructor
  · intro value after matched
    cases exit with
    | @full values _ rounds limit =>
      cases matched
      rw [Nat.zero_add] at limit
      have sameLimit (most : Nat) (greatest : bounds.greatest = some most) :
          values.length = most :=
        Option.some.inj (limit.symm.trans greatest)
      exact ⟨values, rfl, fun most greatest => Nat.le_of_eq (sameLimit most greatest),
        .inl ⟨rounds, bounds.least_le limit⟩⟩
    | @ended values _ rounds enough room =>
      cases matched
      rw [Nat.zero_add] at enough room
      exact ⟨values, rfl, fun most greatest => Nat.le_of_lt (room most greatest),
        .inl ⟨rounds, enough⟩⟩
    | @still earlier last between _ rounds final still room =>
      cases matched
      rw [Nat.zero_add] at room
      refine ⟨earlier ++ [last], rfl, fun most greatest => ?_,
        .inr ⟨earlier, last, between, rfl, rounds, final, still⟩⟩
      rw [List.length_append]
      exact room most greatest
    | few | raised | exhausted => cases matched
  · intro failure after
    constructor
    · intro failed
      cases exit with
      | @few values between _ rounds few last =>
        cases failed
        rw [Nat.zero_add] at few
        exact ⟨rfl, values, between, rounds, few, last⟩
      | full | ended | still | raised | exhausted => cases failed
    · rintro ⟨rfl, values, between, chain, few, failed⟩
      cases undone chain few failed
      rfl

/-- Two letters where two are asked for, and one letter where it is followed by another one. -/
theorem collected_counts_twice :
    let bounds := Bounds.exactly 2
    let inner := Matcher.literal [97]
    let enough : Subject := ⟨.octet, [97, 97, 98]⟩
    let few : Subject := ⟨.octet, [97, 98]⟩
    let state : State := ⟨0, none⟩
    state.offset ≤ enough.length ∧ state.offset ≤ few.length ∧
      (∃ values, Value.list [.slice [97], .slice [97]] = .list values ∧
        (∀ limit, bounds.greatest = some limit → values.length ≤ limit) ∧
        ((Consecutive ((inner.attemptValue []).outcome enough) state values ⟨2, none⟩ ∧
          bounds.least ≤ values.length) ∨
          ∃ earlier last between, values = earlier ++ [last] ∧
            Consecutive ((inner.attemptValue []).outcome enough) state earlier between ∧
            (inner.attemptValue []).outcome enough between = (.matched last, ⟨2, none⟩) ∧
            (2 : Nat) = between.offset)) ∧
      ∃ values between, Consecutive ((inner.attemptValue []).outcome few) state values between ∧
        values.length < bounds.least ∧
        ((inner.attemptValue []).outcome few between).1 =
          .failed (.mismatch 1 (Bytes.ofString "literal string")) := by
  intro bounds inner enough few state
  have insideEnough : state.offset ≤ enough.length := Nat.zero_le _
  have insideFew : state.offset ≤ few.length := Nat.zero_le _
  obtain ⟨_, gathers, _⟩ := @collected_counts inner bounds [] enough state insideEnough
  obtain ⟨_, _, fails⟩ := @collected_counts inner bounds [] few state insideFew
  obtain ⟨_, tooFew⟩ := (fails (.mismatch 1 (Bytes.ofString "literal string")) state).mp rfl
  exact ⟨insideEnough, insideFew, gathers _ ⟨2, none⟩ rfl, tooFew⟩

/-- A collection of nothing, which is to be repeated twice, ends after its first round. -/
theorem collected_stops_short :
    let bounds := Bounds.exactly 2
    let matcher := collected .empty bounds
    let subject : Subject := ⟨.octet, []⟩
    let state : State := ⟨0, none⟩
    let values := [Value.slice []]
    (matcher.attemptValue [] subject state).ending = .matched (.list values) ∧
      (matcher.attempt [] subject state).ending = .matched ⟨0, 0⟩ ∧
      ¬ bounds.least ≤ values.length :=
  ⟨rfl, rfl, by decide⟩

end Matcher

end TextPattern
