import TextPattern.Proofs.CollectedRounds
import TextPattern.Proofs.Comparison
import TextPattern.Proofs.EffectLaws

/-!
# Separated items as lists

Separated items, of which there has to be one, are a list in the usual sense: an item, any number of
separators with an item behind each, and perhaps a separator at the end. The two run the same items
and separators at the same offsets, but they group them differently. Where a round consumes nothing
one loop ends a step later than the other: this leaves the span and the end alone, and of the
captures all but those of empty items. A separator that no item follows is tried twice by the list,
once to be undone and once to stay. `Matcher.separated_items_listed` is the main statement.
-/

namespace TextPattern

open Combinator (Items)

variable {α β γ : Type}

namespace Effect

/-! ## Effects that end alike -/

/-- Effects that end alike and at the same place, with whatever values. Where something is known,
they leave the same captures behind, too. -/
structure EndsLike (known : Prop) (left : Effect α) (right : Effect β) : Prop where
  /-- They end alike. -/
  ending : left.ending.Related (fun _ _ => True) right.ending
  /-- They end at the same place. -/
  stop : left.stop = right.stop
  /-- They leave the same captures behind. -/
  captures : known → left.captures = right.captures

namespace EndsLike

variable {known more : Prop} {left : Effect α} {right : Effect β}

/-- Matches at one place are alike, whatever their values. -/
theorem matched (value : α) (other : β) (offset : Nat) :
    (still (.matched value) offset).EndsLike known (still (.matched other) offset) :=
  ⟨.matched trivial, rfl, fun _ => rfl⟩

/-- Where more is known, less is. -/
theorem imp (alike : left.EndsLike known right) (knows : more → known) :
    left.EndsLike more right :=
  ⟨alike.ending, alike.stop, fun given => alike.captures (knows given)⟩

/-- Values may be passed through a function. -/
theorem map_right (g : β → γ) (alike : left.EndsLike known right) :
    left.EndsLike known (right.map g) := by
  have mapped : (left.map id).EndsLike known (right.map g) :=
    ⟨alike.ending.map fun _ _ _ => trivial, alike.stop, alike.captures⟩
  rw [map_id] at mapped
  exact mapped

/-- What comes behind the same captures ends alike. -/
theorem after (captures : List Capture) (alike : left.EndsLike known right) :
    (left.after captures).EndsLike known (right.after captures) :=
  ⟨alike.ending, alike.stop, fun given => congrArg (captures ++ ·) (alike.captures given)⟩

/-- What they cover is the same. -/
theorem cover_ending (offset : Nat) (alike : left.EndsLike known right) :
    (left.cover offset).ending = (right.cover offset).ending := by
  have same : (left.ending.map fun _ => Span.between offset left.stop).Related Eq
      (right.ending.map fun _ => Span.between offset right.stop) := by
    rw [alike.stop]
    exact alike.ending.map fun _ _ _ => rfl
  exact same.eq

/-- Forks behind the same effect end alike where both ways do. -/
theorem fork {effect : Effect α} {other : Failure → Effect β} {next : α → Nat → Effect β}
    {instead : Failure → Effect γ} {later : α → Nat → Effect γ}
    (back : ∀ failure, (other failure).EndsLike known (instead failure))
    (onward : ∀ value, effect.ending = .matched value →
      (next value effect.stop).EndsLike known (later value effect.stop)) :
    (effect.fork other next).EndsLike known (effect.fork instead later) := by
  unfold Effect.fork Effect.andThen
  cases ended : effect.ending with
  | matched value => exact (onward value ended).after effect.captures
  | failed failure => exact back failure
  | raised misuse => exact ⟨.raised misuse, rfl, fun _ => rfl⟩
  | exhausted => exact ⟨.exhausted, rfl, fun _ => rfl⟩

end EndsLike

end Effect

namespace Reading

/-! ## What is behind an item -/

section
variable (item : Reading α) (separator : Reading Span) (subject : Subject)
  (capacity : Option Nat) (offset : Nat)

/-- What separated items go on with behind an item that began at an offset: with nothing where no
separator follows or where it ends at that offset, and with more items elsewhere. -/
def itemsBehind (rounds start : Nat) (value : α) : Reading (Items α) :=
  fun subject capacity here =>
    (separator subject capacity here).fork (fun _ => .still (.matched ⟨[value], none⟩) here)
      fun _ stop =>
        if stop = start then .still (.matched ⟨[value], none⟩) stop
        else
          (itemsFrom item separator false rounds subject capacity stop).map fun later =>
            ⟨value :: later.values, later.failure⟩

/-- One round of items that need not be terminated: an item and what is behind it. -/
theorem itemsFrom_succ (rounds : Nat) :
    itemsFrom item separator false (rounds + 1) subject capacity offset =
      (item subject capacity offset).fork
        (fun failure => .still (.matched ⟨[], some failure⟩) offset)
        fun value here =>
          itemsBehind item separator rounds offset value subject capacity here := by
  unfold itemsBehind
  rw [itemsFrom]
  cases ended : (item subject capacity offset).ending with
  | matched value =>
    cases endedSeparator : (separator subject capacity
        (item subject capacity offset).stop).ending with
    | failed failure =>
      simp [Effect.fork, Effect.andThen, Effect.after, Effect.still, ended, endedSeparator]
    | _ => simp [Effect.fork, Effect.andThen, ended, endedSeparator]
  | _ => simp [Effect.fork, Effect.andThen, ended]

end

section
variable (item separator : Reading Span) (subject : Subject) (capacity : Option Nat) (offset : Nat)

/-- Something once or not at all. -/
theorem repeated_atMost_one_apply (step : Reading α) :
    repeated (.atMost 1) step subject capacity offset =
      (step subject capacity offset).fork (fun _ => .still (.matched []) offset)
        fun value stop => .still (.matched [value]) stop := by
  have reached : (Bounds.atMost 1).reached 1 = true := rfl
  unfold repeated restoring
  dsimp only
  rw [repeatFrom_succ _ _ _ rfl]
  simp only [repeatFrom_of_reached _ _ _ reached]
  cases ended : (step subject capacity offset).ending <;>
    simp [Effect.fork, Effect.andThen, Effect.orElse, Effect.after, Effect.map, Ending.map,
      Effect.still, Bounds.atMost, ended]

/-- A repetition without a least number does not fail. -/
theorem repeatFrom_any_not_failed (step : Reading α) (rounds count : Nat) (failure : Failure) :
    (repeatFrom .any step rounds count subject capacity offset).ending ≠ .failed failure := by
  induction rounds generalizing count offset with
  | zero =>
    rw [repeatFrom]
    intro same
    cases same
  | succ rounds ih =>
    rw [repeatFrom_succ _ _ _ rfl]
    apply Effect.fork_ending (motive := fun ending => ending ≠ .failed failure)
    · intro _ failed
      have enough : ¬ count < Bounds.any.least := Nat.not_lt_zero count
      rw [if_neg enough] at failed
      cases failed
    · intro value _ failed
      have later := ih (step subject capacity offset).stop (count + 1)
      by_cases still : (step subject capacity offset).stop = offset
      · rw [if_pos still] at failed
        cases failed
      · rw [if_neg still] at failed
        exact later (Effect.map_failed_iff.mp failed)
    · intro _ failed
      cases failed
    · intro failed
      cases failed

/-- What a list goes on with behind an item: separators with an item behind each, as long as there
are rounds, and then a separator if there is one. -/
def listBehind (rounds count : Nat) : Reading (List Span) := do
  let _ ← repeatFrom .any (sequence separator item) rounds count
  repeated (.atMost 1) separator

/-- One round of what a list goes on with. The separator that no item follows is tried anew. -/
theorem listBehind_succ (rounds count : Nat) :
    listBehind item separator (rounds + 1) count subject capacity offset =
      (separator subject capacity offset).fork (fun _ => .still (.matched []) offset)
        fun span here =>
          (item subject capacity here).fork (fun _ => .still (.matched [span]) here)
            fun _ stop =>
              if stop = offset then
                repeated (.atMost 1) separator subject capacity stop
              else listBehind item separator rounds (count + 1) subject capacity stop := by
  show (repeatFrom .any (sequence separator item) (rounds + 1) count subject capacity
    offset).andThen (fun _ stop => repeated (.atMost 1) separator subject capacity stop) = _
  have onward (value : Span) (stop : Nat) :
      (if stop = offset then Effect.still (.matched [value]) stop
        else (repeatFrom .any (sequence separator item) rounds (count + 1) subject capacity
          stop).map (value :: ·)).andThen
          (fun _ stop => repeated (.atMost 1) separator subject capacity stop) =
        if stop = offset then repeated (.atMost 1) separator subject capacity stop
        else listBehind item separator rounds (count + 1) subject capacity stop := by
    by_cases still : stop = offset
    · rw [if_pos still, if_pos still]
      rfl
    · rw [if_neg still, if_neg still, Effect.map_andThen]
      rfl
  rw [repeatFrom_succ _ _ _ rfl, Effect.fork_andThen]
  simp only [onward]
  show Effect.fork (((separator subject capacity offset).andThen fun _ here =>
    item subject capacity here).cover offset) _ _ = _
  have again := repeated_atMost_one_apply subject capacity offset separator
  cases ended : (separator subject capacity offset).ending with
  | matched span =>
    cases endedItem : (item subject capacity (separator subject capacity offset).stop).ending <;>
      simp [Effect.fork, Effect.andThen, Effect.cover, Effect.map, Ending.map, Effect.after,
        Effect.still, Bounds.any, again, ended, endedItem]
  | _ =>
    simp [Effect.fork, Effect.andThen, Effect.cover, Effect.map, Ending.map, Effect.after,
      Effect.still, Bounds.any, again, ended]

/-! ## Both loops together -/

/-- Two matches make a match of both. -/
theorem sequence_of_matched {first second : Reading Span} {subject : Subject}
    {capacity : Option Nat} {offset here stop : Nat} {span other : Span}
    (matched : (first subject capacity offset).ending = .matched span)
    (reached : (first subject capacity offset).stop = here)
    (later : (second subject capacity here).ending = .matched other)
    (landed : (second subject capacity here).stop = stop) :
    (sequence first second subject capacity offset).ending = .matched (.between offset stop) ∧
      (sequence first second subject capacity offset).stop = stop := by
  have whole : sequence first second subject capacity offset =
      ((first subject capacity offset).andThen fun _ here =>
        second subject capacity here).cover offset := rfl
  simp [whole, Effect.cover, Effect.andThen, Effect.map, Ending.map, Effect.after, matched, reached,
    later, landed]

/-- Offsets at which items begin, of which none is empty: with one of them there is the offset where
the separator behind its item ends, unless both consume nothing. -/
structure ItemStarts (item separator : Reading Span) (subject : Subject) (capacity : Option Nat)
    (among : Nat → Prop) : Prop where
  /-- An item consumes something. -/
  filled : ∀ start, among start → ∀ span,
    (item subject capacity start).ending = .matched span →
      (item subject capacity start).stop ≠ start
  /-- Another item begins behind the separator. -/
  further : ∀ start, among start → ∀ span,
    (sequence item separator subject capacity start).ending = .matched span →
      (sequence item separator subject capacity start).stop ≠ start →
        among (sequence item separator subject capacity start).stop

/-- Behind an item a list goes on as separated items do, as long as both have rounds enough. They
leave the same captures behind where no item is empty. -/
theorem listBehind_endsLike {item separator : Reading Span} (bounded : item.Bounded)
    (boundedSeparator : separator.Bounded) {subject : Subject} {capacity : Option Nat}
    {among : Nat → Prop} (starts : ItemStarts item separator subject capacity among)
    {rounds itemRounds count start here : Nat} {span : Span} (inside : start ≤ subject.length)
    (ended : (item subject capacity start).ending = .matched span)
    (reached : (item subject capacity start).stop = here)
    (enough : subject.length - here < rounds) (enoughItems : subject.length - start ≤ itemRounds) :
    (listBehind item separator rounds count subject capacity here).EndsLike (among start)
      (itemsBehind item separator itemRounds start span subject capacity here) := by
  -- Both loops go from one item to the next. They look for an end at different places: separated
  -- items where an item and its separator end where the item began, the list where a separator and
  -- its item end where the separator began.
  induction rounds generalizing itemRounds count start here span with
  | zero => omega
  | succ rounds ih =>
    have forward : start ≤ here := reached ▸ (bounded subject capacity start inside).forward
    have within : here ≤ subject.length := reached ▸ (bounded subject capacity start inside).inside
    rw [listBehind_succ]
    unfold itemsBehind
    apply Effect.EndsLike.fork
    · intro failure
      exact .matched _ _ _
    intro separation endedSeparator
    generalize landed : (separator subject capacity here).stop = stop
    have onward : here ≤ stop :=
      landed ▸ (boundedSeparator subject capacity here within).forward
    have deeper : stop ≤ subject.length :=
      landed ▸ (boundedSeparator subject capacity here within).inside
    by_cases still : stop = start
    · -- Separated items end here. The list takes the same item once more, which is empty.
      have same : here = start := by omega
      rw [if_pos still]
      subst same still
      have filled := fun given => starts.filled stop given span ended
      rw [Effect.fork_matched ended, reached, if_pos rfl, repeated_atMost_one_apply,
        Effect.fork_matched endedSeparator, landed]
      exact ⟨.matched trivial, rfl, fun given => absurd reached (filled given)⟩
    · obtain ⟨fewer, rfl⟩ : ∃ fewer, itemRounds = fewer + 1 := ⟨itemRounds - 1, by omega⟩
      rw [if_neg still, itemsFrom_succ]
      apply Effect.EndsLike.map_right
      apply Effect.EndsLike.fork
      · intro failure
        exact .matched _ _ _
      intro other endedItem
      have forwardItem := (bounded subject capacity stop deeper).forward
      have withinItem := (bounded subject capacity stop deeper).inside
      by_cases again : (item subject capacity stop).stop = here
      · -- The list ends here, with the separator that separated items find behind the item.
        have same : stop = here := by omega
        rw [if_pos again, repeated_atMost_one_apply, again]
        apply Effect.EndsLike.fork
        · intro failure
          exact .matched _ _ _
        · intro span _
          rw [landed, if_pos rfl]
          exact .matched _ _ _
      · rw [if_neg again]
        apply (ih deeper endedItem rfl (by omega) (by omega)).imp
        intro given
        obtain ⟨found, last⟩ := sequence_of_matched ended reached endedSeparator landed
        have further := starts.further start given _ found
        rw [last] at further
        exact further still

/-- Behind an item nothing fails, and that item is always there. -/
theorem itemsBehind_ending (item : Reading α) (separator : Reading Span) (rounds start : Nat)
    (value : α) (subject : Subject) (capacity : Option Nat) (here : Nat) :
    let effect := itemsBehind item separator rounds start value subject capacity here
    (∀ failure, effect.ending ≠ .failed failure) ∧
      ∀ items, effect.ending = .matched items → 1 ≤ items.values.length := by
  have alone (offset : Nat) :
      let effect := Effect.still (.matched (Items.mk [value] none)) offset
      (∀ failure, effect.ending ≠ .failed failure) ∧
        ∀ items, effect.ending = .matched items → 1 ≤ items.values.length := by
    refine ⟨fun _ => nofun, fun items same => ?_⟩
    cases same
    exact Nat.le_refl 1
  apply Effect.fork_ending (motive := fun (ending : Ending (Items α)) =>
    (∀ failure, ending ≠ .failed failure) ∧
      ∀ items, ending = .matched items → 1 ≤ items.values.length)
  · intro _
    exact alone here
  · intro span _
    by_cases still : (separator subject capacity here).stop = start
    · rw [if_pos still]
      exact alone _
    · rw [if_neg still]
      constructor
      · intro failure failed
        exact itemsFrom_not_failed _ _ _ _ _ _ _ failure (Effect.map_failed_iff.mp failed)
      · intro items matched
        obtain ⟨later, _, same⟩ := Effect.map_matched_iff.mp matched
        rw [← same, List.length_cons]
        omega
  · exact fun _ => ⟨fun _ => nofun, fun _ => nofun⟩
  · exact ⟨fun _ => nofun, fun _ => nofun⟩

/-- Separated items, of which there must be one: the first, and what is behind it. -/
theorem separated_one_apply (item : Reading α) (separator : Reading Span) (subject : Subject)
    (capacity : Option Nat) (offset : Nat) :
    separated item separator 1 false subject capacity offset =
      (item subject capacity offset).fork (fun failure => .still (.failed failure) offset)
        fun value here =>
          (itemsBehind item separator (subject.length - offset) offset value subject capacity
            here).map Items.values := by
  unfold separated restoring
  dsimp only
  rw [itemsFrom_succ, Effect.fork_andThen]
  cases ended : (item subject capacity offset).ending with
  | matched value =>
    obtain ⟨ends, present⟩ := itemsBehind_ending item separator (subject.length - offset) offset
      value subject capacity (item subject capacity offset).stop
    rw [Effect.fork_matched ended, Effect.fork_matched ended]
    generalize itemsBehind item separator (subject.length - offset) offset value subject capacity
      (item subject capacity offset).stop = effect at ends present
    obtain ⟨ending, stop, captures⟩ := effect
    cases ending with
    | matched items =>
      have enough : ¬ items.values.length < 1 := Nat.not_lt.mpr (present items rfl)
      simp [Effect.andThen, Effect.orElse, Effect.after, Effect.map, Ending.map, Effect.still,
        enough]
    | failed failure => exact absurd rfl (ends failure)
    | _ => rfl
  | _ => simp [Effect.fork, Effect.andThen, Effect.orElse, Effect.still, Effect.after, ended]

/-- A repetition without a least number has nothing to undo. -/
theorem repeated_any_apply (step : Reading α) (subject : Subject) (capacity : Option Nat)
    (offset : Nat) :
    repeated .any step subject capacity offset =
      repeatFrom .any step (subject.length - offset + 1) 0 subject capacity offset := by
  have ends := repeatFrom_any_not_failed subject capacity offset step
    (subject.length - offset + 1) 0
  show Effect.orElse _ _ = _
  unfold Effect.orElse
  split
  · rename_i failure failed
    exact absurd failed (ends failure)
  · rfl

/-- A list is an item and what it goes on with. -/
theorem list_apply (item separator : Reading Span) (subject : Subject) (capacity : Option Nat)
    (offset : Nat) :
    sequence item (sequence (covering (repeated .any (sequence separator item)))
        (covering (repeated (.atMost 1) separator))) subject capacity offset =
      ((item subject capacity offset).andThen fun _ here =>
        listBehind item separator (subject.length - here + 1) 0 subject capacity here).cover
          offset := by
  let rounds := repeated .any (sequence separator item)
  let last := repeated (.atMost 1) separator
  have behind : sequence (covering rounds) (covering last) =
      (rounds >>= fun _ => last).covering := by
    show (covering rounds >>= fun _ => covering last).covering = _
    rw [covering_bind_covering, covering_bind]
  have whole : sequence item (rounds >>= fun _ => last).covering =
      (item >>= fun _ => rounds >>= fun _ => last).covering :=
    covering_bind_covering item _
  rw [behind, whole]
  show ((item subject capacity offset).andThen fun _ here =>
    (rounds subject capacity here).andThen fun _ stop =>
      last subject capacity stop).cover offset = _
  simp only [rounds, repeated_any_apply]
  rfl

/-- Separated items, of which there must be one, end as the list of them does. Unless they fail,
they end at the same place, and where no item is empty they leave the same captures behind. -/
theorem separated_listed {item separator : Reading Span} (bounded : item.Bounded)
    (boundedSeparator : separator.Bounded) {subject : Subject} {capacity : Option Nat}
    {among : Nat → Prop} (starts : ItemStarts item separator subject capacity among) {offset : Nat}
    (inside : offset ≤ subject.length) :
    let items := covering (separated item separator 1 false) subject capacity offset
    let list := sequence item (sequence (covering (repeated .any (sequence separator item)))
      (covering (repeated (.atMost 1) separator))) subject capacity offset
    items.ending = list.ending ∧ ((∀ failure, items.ending ≠ .failed failure) →
      items.stop = list.stop ∧ (among offset → items.captures = list.captures)) := by
  intro items list
  have listed : list = _ := list_apply item separator subject capacity offset
  have itemized : items = (separated item separator 1 false subject capacity offset).cover offset :=
    rfl
  rw [listed, itemized, separated_one_apply]
  cases ended : (item subject capacity offset).ending with
  | matched span =>
    have behind : (listBehind item separator
        (subject.length - (item subject capacity offset).stop + 1) 0 subject capacity
        (item subject capacity offset).stop).EndsLike (among offset)
        (itemsBehind item separator (subject.length - offset) offset span subject capacity
          (item subject capacity offset).stop) :=
      listBehind_endsLike bounded boundedSeparator starts inside ended rfl (Nat.lt_succ_self _)
        (Nat.le_refl _)
    have alike := (behind.map_right Items.values).after (item subject capacity offset).captures
    rw [Effect.fork_matched ended, Effect.andThen_matched ended]
    exact ⟨(alike.cover_ending offset).symm, fun _ =>
      ⟨alike.stop.symm, fun given => (alike.captures given).symm⟩⟩
  | _ =>
    simp [Effect.fork, Effect.andThen, Effect.cover, Effect.map, Ending.map, Effect.still, ended]

end

end Reading

namespace Matcher

/-- Matching for the span from a state that was reached before. -/
theorem outcome_attempt_extend (matcher : Matcher) (definitions : Definitions) {subject : Subject}
    (state : State) {offset : Nat} (captures : List Capture) (inside : offset ≤ subject.length) :
    let effect := (matcher.readingsUnder definitions subject).span subject state.capacity offset
    (matcher.attempt definitions).outcome subject (state.extend offset captures) =
      (effect.ending, state.extend effect.stop (captures ++ effect.captures)) := by
  have ran := @outcome_attempt matcher definitions subject (state.extend offset captures) inside
  rw [State.capacity_extend, State.offset_extend, Attempt.Realizes.applyTo_extend] at ran
  exact ran

/-- No item is empty that is tried in a run of items and separators from a state on. -/
def FilledItems (item separator : Matcher) (definitions : Definitions) (subject : Subject)
    (state : State) : Prop :=
  let run (matcher : Matcher) := (matcher.attempt definitions).outcome subject
  ∀ spans here, Consecutive (run (sequence item separator)) state spans here →
    ∀ span after, run item here = (.matched span, after) → after.offset ≠ here.offset

/-- Single units are not empty. -/
theorem filledItems_one (predicate : Predicate) (separator : Matcher) (definitions : Definitions)
    (subject : Subject) (state : State) :
    FilledItems (.one predicate) separator definitions subject state := by
  intro spans here _ span after matched
  have ran : (Combinator.one predicate).outcome subject here = (.matched span, after) := matched
  unfold Combinator.one at ran
  simp only [Attempt.outcome_bind, Attempt.outcome_subject, Attempt.outcome_offset] at ran
  cases present : subject.unitAt here.offset with
  | none =>
    rw [present] at ran
    cases ran
  | some unit =>
    have further := (Subject.unitAt_bounds present).2.2
    rw [present] at ran
    by_cases accepted : predicate.accepts subject.encoding unit.value = true
    · simp only [accepted, ↓reduceIte, Attempt.outcome_bind, Attempt.outcome_seek] at ran
      cases ran
      exact Nat.ne_of_gt further
    · simp only [accepted] at ran
      cases ran

/-- The offsets that items and separators lead to, where no item is empty, are offsets at which
items begin. -/
theorem FilledItems.starts (item separator : Matcher) (definitions : Definitions)
    (subject : Subject) (state : State) :
    Reading.ItemStarts (item.readingsUnder definitions subject).span
      (separator.readingsUnder definitions subject).span subject state.capacity
      fun offset => FilledItems item separator definitions subject state ∧
        offset ≤ subject.length ∧ ∃ spans captures,
          Consecutive (((sequence item separator).attempt definitions).outcome subject) state spans
            (state.extend offset captures) := by
  constructor
  · intro start ⟨filled, inside, spans, captures, chain⟩ span matched
    have ran := item.outcome_attempt_extend definitions state captures inside
    dsimp only at ran
    rw [matched] at ran
    exact filled spans _ chain span _ ran
  · intro start ⟨filled, inside, spans, captures, chain⟩ span matched onward
    have ran := (sequence item separator).outcome_attempt_extend definitions state captures inside
    have within := ((sequence item separator).readingsUnder_sound definitions subject).span.bounded
      subject state.capacity start inside
    dsimp only at ran
    have ended : (((sequence item separator).readingsUnder definitions subject).span subject
      state.capacity start).ending = .matched span := matched
    rw [ended] at ran
    exact ⟨filled, within.inside, spans ++ [span], _, chain.concat ran onward⟩

/-- Separated items are matched as the list of them, which is an item, any number of separators with
an item behind each, and a separator at the end if there is one: with the same span and end, or
with the same failure. Where no item is empty that is matched on the way, the captures are the same,
too. -/
theorem separated_items_listed (item separator : Matcher) (definitions : Definitions)
    {subject : Subject} {state : State} (inside : state.offset ≤ subject.length) :
    let run (matcher : Matcher) := (matcher.attempt definitions).outcome subject
    let items := run (separated item separator 1 false) state
    let list := run (sequenceOf item (zeroOrMore (sequence separator item)) [optional separator])
      state
    items.1 = list.1 ∧
      ((∀ failure, items.1 ≠ .failed failure) →
        items.2.offset = list.2.offset ∧
        (FilledItems item separator definitions subject state → items.2 = list.2)) := by
  intro run items list
  have starts := FilledItems.starts item separator definitions subject state
  have bounded := (item.readingsUnder_sound definitions subject).span.bounded
  have boundedSeparator := (separator.readingsUnder_sound definitions subject).span.bounded
  obtain ⟨sameEnding, samePlace⟩ := Reading.separated_listed bounded boundedSeparator starts inside
  have itemized : items = _ := outcome_attempt (separated item separator 1 false) definitions inside
  have listed : list = _ := outcome_attempt
    (sequenceOf item (zeroOrMore (sequence separator item)) [optional separator]) definitions inside
  rw [itemized, listed]
  refine ⟨sameEnding, fun unfailed => ?_⟩
  obtain ⟨sameStop, sameCaptures⟩ := samePlace unfailed
  refine ⟨sameStop, fun filled => ?_⟩
  have begun : ∃ spans captures,
      Consecutive (((sequence item separator).attempt definitions).outcome subject) state spans
        (state.extend state.offset captures) := by
    use [], []
    rw [State.extend_self]
    exact .none state
  exact congrArg₂ state.extend sameStop (sameCaptures ⟨filled, inside, begun⟩)

/-- Two letters with a comma behind each of them: the last comma is taken by both. -/
theorem separated_items_listed_commas :
    let item := ofValue 97
    let separator := Matcher.captured 0 (.literal [44])
    let subject : Subject := ⟨.octet, [97, 44, 97, 44]⟩
    let state : State := ⟨0, some (.ofCapacity 1)⟩
    let run (matcher : Matcher) := (matcher.attempt []).outcome subject
    let items := run (separated item separator 1 false) state
    let list := run (sequenceOf item (zeroOrMore (sequence separator item)) [optional separator])
      state
    (state.offset ≤ subject.length ∧ (∀ failure, items.1 ≠ .failed failure) ∧
      FilledItems item separator [] subject state) ∧
      items.1 = list.1 ∧ items.2.offset = list.2.offset ∧ items.2 = list.2 := by
  intro item separator subject state run items list
  have inside : state.offset ≤ subject.length := Nat.zero_le _
  have unfailed : ∀ failure, items.1 ≠ .failed failure := by
    have matched : items.1 = .matched ⟨0, 4⟩ := by decide +kernel
    intro failure failed
    rw [matched] at failed
    cases failed
  have filled : FilledItems item separator [] subject state := filledItems_one _ _ _ _ _
  obtain ⟨alike, places⟩ := separated_items_listed item separator [] inside
  obtain ⟨place, captures⟩ := places unfailed
  exact ⟨⟨inside, unfailed, filled⟩, alike, place, captures filled⟩

/-- An item that is empty between separators that are empty, too, is captured twice by the list. -/
example :
    let item := Matcher.captured 0 .empty
    let separator := Matcher.captured 1 .empty
    let taken (matcher : Matcher) := (matcher.attempt [] ⟨.octet, []⟩
      ⟨0, some (.ofCapacity 2)⟩).state.captures.map fun store => store.captures.map Prod.fst
    taken (separated item separator 1 false) = some [0, 1] ∧
      taken (sequenceOf item (zeroOrMore (sequence separator item)) [optional separator]) =
        some [0, 1, 0, 1] := by
  decide +kernel

end Matcher

end TextPattern

