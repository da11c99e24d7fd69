import TextPattern.Proofs.Agreement
import TextPattern.Proofs.EffectLaws
import TextPattern.Proofs.LoopOutcome

/-!
# Outcomes of matchers

The outcome of every matcher, run for its value, by the outcomes of its parts, run for their
values.
-/

namespace TextPattern

variable {α : Type}

/-- The longer of two effects makes the longer parse. -/
theorem Effect.parse?_longer (offset : Nat) (left right : Effect α) :
    (Effect.longer offset left right).parse? = left.parse?.longer right.parse? := by
  obtain ⟨ending, stop, captures⟩ := left
  obtain ⟨otherEnding, otherStop, otherCaptures⟩ := right
  cases ending with
  | matched value =>
    cases otherEnding with
    | matched other =>
      show Effect.parse? (if otherStop ≤ stop then _ else _) =
        some (some (if otherStop ≤ stop then _ else _))
      split <;> rfl
    | _ => rfl
  | failed failure => cases otherEnding <;> rfl
  | _ => rfl

namespace Reading

variable {subject : Subject} {capacity : Option Nat} {offset : Nat}

/-- The slice of a sound span takes the place of the span. -/
theorem Sound.outcomes_sliced {reading : Reading Span} (sound : reading.Sound)
    (inside : offset ≤ subject.length) :
    reading.sliced.outcomes subject capacity offset =
      (reading.outcomes subject capacity offset).mapParse (.hidden subject offset) := by
  rw [outcomes, sliced_apply sound capacity inside, Effect.parse?_map, outcomes,
    ← sound.covering_eq inside, parse?_covering, Outcome.mapParse_mapParse,
    Outcome.mapParse_mapParse]
  rfl

/-- A choice comes to what the first of its parts that does not fail comes to. -/
theorem outcomes_choice (first second : Reading Span) :
    (choice first second).outcomes subject capacity offset =
      (first.outcomes subject capacity offset).orElse
        (second.outcomes subject capacity offset) :=
  Effect.parse?_orElse _ fun _ => parse?_restoring subject capacity offset second

/-- The longer of two sound spans is the longer parse. -/
theorem Sound.outcomes_longest {first second : Reading Span} (left : first.Sound)
    (right : second.Sound) (inside : offset ≤ subject.length) :
    (longest first second).outcomes subject capacity offset =
      (first.outcomes subject capacity offset).longer
        (second.outcomes subject capacity offset) := by
  rw [outcomes, left.longest_apply right inside, Effect.parse?_longer, outcomes, outcomes]

end Reading

namespace Matcher

open Outcome (byCases)

variable {call : Nat → Reading Span} {subject : Subject} {capacity : Option Nat} {offset : Nat}

/-- The outcome of a matcher from an offset, run for its value. -/
def outcome (call : Nat → Reading Span) (subject : Subject) (capacity : Option Nat)
    (matcher : Matcher) (offset : Nat) : Outcome Value :=
  (matcher.readings call).value.outcomes subject capacity offset

section
variable (sound : ∀ slot, (call slot).Sound)
include sound

/-- A matcher run for its span comes to the same outcome with its span for a value. -/
theorem outcomes_span (matcher : Matcher) (inside : offset ≤ subject.length) :
    (matcher.readings call).span.outcomes subject capacity offset =
      (matcher.outcome call subject capacity offset).mapParse fun parse =>
        parse.map fun _ => .between offset parse.stop := by
  have alike := (matcher.readings_alike (.whole subject) sound).covering capacity offset trivial
    inside
  have spanSound := (matcher.readings_sound sound).span
  rw [Reading.outcomes, ← spanSound.covering_eq inside]
  rcases alike.eq_or_cut with same | ⟨impossible, _⟩
  · exact (congrArg Effect.parse? same).trans (Reading.parse?_covering subject capacity offset _)
  · exact impossible.elim

/-- The slice of the span of a matcher hides its value. -/
theorem outcomes_hidden (matcher : Matcher) (inside : offset ≤ subject.length) :
    (matcher.readings call).span.sliced.outcomes subject capacity offset =
      (matcher.outcome call subject capacity offset).mapParse (.hidden subject offset) := by
  rw [(matcher.readings_sound sound).span.outcomes_sliced inside,
    outcomes_span sound matcher inside, Outcome.mapParse_mapParse]
  rfl

/-- A lookahead has a verdict where its matcher has an outcome: whether there is a parse. -/
theorem aheadTest_iff (ahead : Matcher) (start : Nat) {unit : InputUnit}
    (inside : unit.offset ≤ subject.length) {verdict : Bool} :
    Reading.aheadTest (ahead.readings call).span subject start unit = .matched verdict ↔
      ∃ found, ahead.outcome call subject none unit.offset = some found ∧
        found.isSome = verdict := by
  have spanned := @outcomes_span call subject none unit.offset sound ahead inside
  unfold Reading.aheadTest
  cases asked : ahead.outcome call subject none unit.offset with
  | none =>
    rw [asked, Outcome.mapParse_none] at spanned
    rcases Effect.parse?_eq_nothing.mp spanned with ⟨misuse, ended⟩ | ended <;>
      simp [ended, Ending.settle, Ending.map]
  | some found =>
    rw [asked, Outcome.mapParse_some] at spanned
    cases found with
    | none =>
      obtain ⟨failure, ended⟩ := Effect.parse?_eq_none.mp spanned
      simp [ended, Ending.settle, Ending.map, Result.succeeded]
    | some parse =>
      rw [Effect.parse?_eq_parse.mp spanned]
      simp [Ending.settle, Ending.map, Result.succeeded]

/-- A part that is gone on with hides its value. -/
theorem outcomes_taken (matcher : Matcher) (inside : offset ≤ subject.length) :
    (((matcher.readings call).span.outcomes subject capacity offset).mapParse
        (.after [])).mapParse (.hidden subject offset) =
      (matcher.outcome call subject capacity offset).mapParse (.hidden subject offset) := by
  rw [outcomes_span sound matcher inside, Outcome.mapParse_mapParse, Outcome.mapParse_mapParse]
  rfl

/-- Parses of matchers stop inside the input. -/
theorem outcome_within (matcher : Matcher) {parse : Parse Value} (inside : offset ≤ subject.length)
    (found : matcher.outcome call subject capacity offset = some (some parse)) :
    offset ≤ parse.stop ∧ parse.stop ≤ subject.length :=
  (matcher.readings_sound sound).value.parse_within inside found

end

/-! ## Leaves -/

/-- A text is parsed where its octets are ahead, up to their end. -/
theorem outcome_literal (text : Bytes) (inside : offset ≤ subject.length) :
    (literal text).outcome call subject capacity offset =
      some ((subject.textEnd? text offset).map fun stop => .sliced subject offset stop []) := by
  show (Reading.literal text).sliced.outcomes subject capacity offset = _
  rw [(Reading.literal_sound text).outcomes_sliced inside]
  unfold Reading.outcomes Reading.literal Subject.textEnd?
  dsimp only
  by_cases ahead : text.isPrefixOf (subject.bytes.drop offset) = true
  · have room : text.length ≤ subject.length - offset := by
      have shorter := (List.isPrefixOf_iff_prefix.mp ahead).length_le
      rwa [List.length_drop] at shorter
    have moved : subject.advance offset text.length =
        if subject.isBoundary (offset + text.length) then .ok (offset + text.length)
        else .error (.mismatch (offset + text.length) (Bytes.ofString "code point boundary")) := by
      unfold Subject.advance
      rw [if_neg (Nat.not_lt_of_le room)]
    rw [if_pos ahead, moved, ahead, Bool.true_and]
    by_cases boundary : subject.isBoundary (offset + text.length) = true
    · rw [if_pos boundary, if_pos boundary]
      rfl
    · rw [if_neg boundary, if_neg boundary]
      rfl
  · rw [if_neg ahead, Bool.eq_false_iff.mpr ahead, Bool.false_and]
    split <;> rfl

/-- A unit is parsed where a predicate accepts it. -/
theorem outcome_one (predicate : Predicate) (inside : offset ≤ subject.length) :
    (one predicate).outcome call subject capacity offset =
      some ((subject.accepted? predicate offset).map fun unit =>
        .sliced subject offset unit.next []) := by
  show (Reading.one predicate).sliced.outcomes subject capacity offset = _
  rw [(Reading.one_sound predicate).outcomes_sliced inside]
  unfold Reading.outcomes Reading.one Subject.accepted?
  cases subject.unitAt offset with
  | none => rfl
  | some unit =>
    dsimp only [Option.filter]
    split <;> rfl

/-- Nothing is parsed everywhere. -/
theorem outcome_empty (inside : offset ≤ subject.length) :
    empty.outcome call subject capacity offset =
      some (some (.sliced subject offset offset [])) := by
  show Reading.empty.sliced.outcomes subject capacity offset = _
  rw [Reading.empty_sound.outcomes_sliced inside]
  rfl

/-- The start is parsed at the start only. -/
theorem outcome_atStart (inside : offset ≤ subject.length) :
    atStart.outcome call subject capacity offset =
      some (if offset = 0 then some (.sliced subject offset offset []) else none) := by
  show Reading.atStart.sliced.outcomes subject capacity offset = _
  rw [Reading.atStart_sound.outcomes_sliced inside]
  unfold Reading.outcomes Reading.atStart
  split <;> rfl

/-- The end is parsed at the end only. -/
theorem outcome_atEnd (inside : offset ≤ subject.length) :
    atEnd.outcome call subject capacity offset =
      some (if subject.length ≤ offset then some (.sliced subject offset offset []) else none) := by
  show Reading.atEnd.sliced.outcomes subject capacity offset = _
  rw [Reading.atEnd_sound.outcomes_sliced inside]
  unfold Reading.outcomes Reading.atEnd
  split <;> rfl

/-- A count of units that pass a test, run for its slice. -/
theorem counted_iff {predicate : Predicate} {bounds : Bounds} {test : Reading.UnitTest}
    (inside : offset ≤ subject.length)
    (decided : ∀ unit failure, test subject offset unit ≠ .failed failure)
    {result : Option (Parse Value)} :
    (Reading.count predicate bounds test).sliced.outcomes subject capacity offset = some result ↔
      ∃ units, Reading.Counted subject predicate bounds (test subject offset) 0 offset units ∧
        result = if units.length < bounds.least then none
          else some (.sliced subject offset (lastStop InputUnit.next offset units) []) := by
  rw [(Reading.count_sound predicate bounds test).outcomes_sliced inside]
  constructor
  · intro reached
    obtain ⟨before, tallied, rfl⟩ := Outcome.mapParse_eq_some reached
    obtain ⟨units, counted, rfl⟩ := (Reading.parse?_count_iff inside decided).mp tallied
    refine ⟨units, counted, ?_⟩
    split <;> rfl
  · rintro ⟨units, counted, rfl⟩
    rw [(Reading.parse?_count_iff inside decided).mpr ⟨units, counted, rfl⟩]
    split <;> rfl

/-- A count of units that a condition accepts. -/
theorem outcome_count_iff (predicate : Predicate) (bounds : Bounds) (condition : Condition)
    (inside : offset ≤ subject.length) {result : Option (Parse Value)} :
    (count predicate bounds condition).outcome call subject capacity offset = some result ↔
      ∃ units, Reading.Counted subject predicate bounds
          (Reading.conditionTest condition subject offset) 0 offset units ∧
        result = if units.length < bounds.least then none
          else some (.sliced subject offset (lastStop InputUnit.next offset units) []) := by
  apply counted_iff inside
  intro unit failure failed
  cases failed

/-- A count of units at each of which a lookahead succeeds. -/
theorem outcome_countAhead_iff (predicate : Predicate) (bounds : Bounds) (ahead : Matcher)
    (inside : offset ≤ subject.length) {result : Option (Parse Value)} :
    (countAhead predicate bounds ahead).outcome call subject capacity offset = some result ↔
      ∃ units, Reading.Counted subject predicate bounds
          (Reading.aheadTest (ahead.readings call).span subject offset) 0 offset units ∧
        result = if units.length < bounds.least then none
          else some (.sliced subject offset (lastStop InputUnit.next offset units) []) := by
  refine counted_iff inside fun unit failure failed => ?_
  unfold Reading.aheadTest at failed
  generalize ((ahead.readings call).span subject none unit.offset).ending = ending at failed
  cases ending <;> cases failed

/-! ## Parts -/

/-- What is parsed is converted, or there is a failure. -/
theorem outcome_mapped (inner : Matcher) (converter : Converter)
    (inside : offset ≤ subject.length) :
    (mapped inner converter).outcome call subject capacity offset =
      (inner.outcome call subject capacity offset).map
        fun result => result.bind (Parse.converted converter) := by
  show (Reading.converted (inner.readings call).value converter subject capacity
    offset).parse? = _
  rw [Reading.converted, Effect.parse?_andThen]
  show (inner.outcome call subject capacity offset).andThen _ = _
  cases found : inner.outcome call subject capacity offset using byCases with
  | nothing => rfl
  | failed => rfl
  | parsed parse =>
    have present : subject.slice? (.between offset parse.stop) =
        some (Span.slice subject.bytes (.between offset parse.stop)) := if_pos inside
    rw [Outcome.andThen_some, present, Option.map_some, Option.bind_some]
    unfold Parse.converted Conversion.settle
    cases converter parse.value <;> simp [Parse.after]

section
variable (sound : ∀ slot, (call slot).Sound) (inside : offset ≤ subject.length)
include sound inside

/-- A sequence goes on where its first part stops, and hides the values of both. -/
theorem outcome_sequence (first second : Matcher) :
    (sequence first second).outcome call subject capacity offset =
      (first.outcome call subject capacity offset).andThen fun left =>
        (second.outcome call subject capacity left.stop).mapParse (.hidden subject offset) := by
  have left := (first.readings_sound sound).span
  have right := (second.readings_sound sound).span
  show (Reading.sequence (first.readings call).span (second.readings call).span).sliced.outcomes
    subject capacity offset = _
  rw [(Reading.sequence_sound left right).outcomes_sliced inside, Reading.outcomes,
    Reading.sequence, Reading.parse?_covering, Reading.parse?_bind, ← Reading.outcomes,
    outcomes_span sound first inside]
  cases found : first.outcome call subject capacity offset using byCases with
  | nothing => rfl
  | failed => rfl
  | parsed left =>
    have within := outcome_within sound first inside found
    rw [Outcome.mapParse_some, Option.map_some, Outcome.andThen_some, Outcome.andThen_some]
    dsimp only [Parse.map]
    rw [← Reading.outcomes, outcomes_span sound second within.2]
    cases second.outcome call subject capacity left.stop using byCases with
    | nothing => rfl
    | failed => rfl
    | parsed right => rfl

/-- A choice hides the value of the part that is parsed. -/
theorem outcome_choice (first second : Matcher) :
    (choice first second).outcome call subject capacity offset =
      ((first.outcome call subject capacity offset).orElse
        (second.outcome call subject capacity offset)).mapParse (.hidden subject offset) := by
  have left := (first.readings_sound sound).span
  have right := (second.readings_sound sound).span
  show (Reading.choice (first.readings call).span (second.readings call).span).sliced.outcomes
    subject capacity offset = _
  rw [(Reading.choice_sound left right).outcomes_sliced inside,
    Reading.outcomes_choice, outcomes_span sound first inside, outcomes_span sound second inside,
    ← Outcome.mapParse_orElse, Outcome.mapParse_mapParse]
  rfl

/-- The longest hides the value of the part that is parsed further. -/
theorem outcome_longest (first second : Matcher) :
    (longest first second).outcome call subject capacity offset =
      ((first.outcome call subject capacity offset).longer
        (second.outcome call subject capacity offset)).mapParse (.hidden subject offset) := by
  have left := (first.readings_sound sound).span
  have right := (second.readings_sound sound).span
  show (Reading.longest (first.readings call).span (second.readings call).span).sliced.outcomes
    subject capacity offset = _
  have kept (parse : Parse Value) :
      (parse.map fun _ => Span.between offset parse.stop).stop = parse.stop := rfl
  rw [(Reading.longest_sound left right).outcomes_sliced inside,
    left.outcomes_longest right inside, outcomes_span sound first inside,
    outcomes_span sound second inside, ← Outcome.mapParse_longer kept, Outcome.mapParse_mapParse]
  rfl

/-- A pair keeps the values of both sides and drops that of the separator. -/
theorem outcome_sepOnce (left separator right : Matcher) :
    (sepOnce left separator right).outcome call subject capacity offset =
      (left.outcome call subject capacity offset).andThen fun first =>
        (separator.outcome call subject capacity first.stop).andThen fun middle =>
          (right.outcome call subject capacity middle.stop).mapParse
            (.map (.pair first.value)) := by
  show (((fun found : Value × Value => Value.pair found.1 found.2) <$> Reading.sepOnce
    (left.readings call).value (separator.readings call).span (right.readings call).value :
      Reading Value) subject capacity offset).parse? = _
  rw [Reading.parse?_functor, Reading.sepOnce, Reading.parse?_restoring, Reading.parse?_bind]
  show Outcome.mapParse _ ((left.outcome call subject capacity offset).andThen _) = _
  cases found : left.outcome call subject capacity offset using byCases with
  | nothing => rfl
  | failed => rfl
  | parsed first =>
    have within := outcome_within sound left inside found
    rw [Outcome.andThen_some, Outcome.andThen_some, Reading.parse?_bind, ← Reading.outcomes,
      outcomes_span sound separator within.2]
    cases foundMiddle : separator.outcome call subject capacity first.stop using byCases with
    | nothing => rfl
    | failed => rfl
    | parsed middle =>
      rw [Outcome.mapParse_some, Option.map_some, Outcome.andThen_some, Outcome.andThen_some,
        Reading.parse?_bind]
      show Outcome.mapParse _ (Outcome.mapParse _ (Outcome.mapParse _
        ((right.outcome call subject capacity middle.stop).andThen _))) = _
      cases right.outcome call subject capacity middle.stop using byCases with
      | nothing => rfl
      | failed => rfl
      | parsed last => simp [Parse.map, Parse.after, pure, Effect.parse?, Effect.still]

/-- An enclosed part keeps its value, and the captures of all three. -/
theorem outcome_enclosed (head inner tail : Matcher) :
    (enclosed head inner tail).outcome call subject capacity offset =
      (head.outcome call subject capacity offset).andThen fun before =>
        (inner.outcome call subject capacity before.stop).andThen fun middle =>
          (tail.outcome call subject capacity middle.stop).mapParse
            (.map fun _ => middle.value) := by
  show (Reading.enclosed (head.readings call).span (inner.readings call).value
    (tail.readings call).span subject capacity offset).parse? = _
  rw [Reading.enclosed, Reading.parse?_bind, ← Reading.outcomes, outcomes_span sound head inside]
  cases found : head.outcome call subject capacity offset using byCases with
  | nothing => rfl
  | failed => rfl
  | parsed before =>
    have within := outcome_within sound head inside found
    rw [Outcome.mapParse_some, Option.map_some, Outcome.andThen_some, Outcome.andThen_some,
      Reading.parse?_bind]
    show Outcome.mapParse _ ((inner.outcome call subject capacity before.stop).andThen _) = _
    cases foundInner : inner.outcome call subject capacity before.stop using byCases with
    | nothing => rfl
    | failed => rfl
    | parsed middle =>
      have further := outcome_within sound inner within.2 foundInner
      rw [Outcome.andThen_some, Outcome.andThen_some, Reading.parse?_bind, ← Reading.outcomes,
        outcomes_span sound tail further.2]
      cases tail.outcome call subject capacity middle.stop using byCases with
      | nothing => rfl
      | failed => rfl
      | parsed last => simp [Parse.map, Parse.after, pure, Effect.parse?, Effect.still]

/-- A capture stands behind those of what it captures. Without its slot there is a failure. -/
theorem outcome_captured (slot : Nat) (inner : Matcher) :
    (captured slot inner).outcome call subject capacity offset =
      if Reading.hasSlot capacity slot then
        (inner.outcome call subject capacity offset).mapParse fun parse =>
          .sliced subject offset parse.stop
            (parse.captures ++ [(slot, .between offset parse.stop)])
      else some none := by
  have known := (inner.readings_sound sound).span
  show (Reading.captured slot (inner.readings call).span).sliced.outcomes subject capacity
    offset = _
  rw [(Reading.captured_sound slot known).outcomes_sliced inside, Reading.outcomes,
    Reading.captured]
  split
  · rw [Effect.parse?_andThen, ← Reading.outcomes, outcomes_span sound inner inside]
    cases inner.outcome call subject capacity offset using byCases with
    | nothing => rfl
    | failed => rfl
    | parsed parse => rfl
  · rfl

/-- A branch parses the part that its question picks, from where it is asked. -/
theorem outcome_branch (probe accepted otherwise : Matcher) :
    (branch probe accepted otherwise).outcome call subject capacity offset =
      match probe.outcome call subject capacity offset with
      | none => none
      | some verdict =>
        ((if verdict.isSome then accepted else otherwise).outcome call subject capacity
          offset).mapParse (.hidden subject offset) := by
  have yes := (accepted.readings_sound sound).span
  have no := (otherwise.readings_sound sound).span
  show (Reading.branch (.probe (probe.readings call).span) (accepted.readings call).span
    (otherwise.readings call).span).sliced.outcomes subject capacity offset = _
  rw [(Reading.branch_sound (fun _ _ _ => rfl) (.probe _) yes no).outcomes_sliced inside,
    Reading.outcomes, Reading.branch, Reading.parse?_bind, Reading.parse?_probe,
    ← Reading.outcomes, outcomes_span sound probe inside]
  cases probe.outcome call subject capacity offset using byCases with
  | nothing => rfl
  | failed => exact outcomes_taken sound otherwise inside
  | parsed _ => exact outcomes_taken sound accepted inside

/-- A branch on a test parses the part that the test picks. -/
theorem outcome_branchIf (test : View → Bool) (accepted otherwise : Matcher) :
    (branchIf test accepted otherwise).outcome call subject capacity offset =
      ((if test (subject.viewFrom offset) then accepted else otherwise).outcome call subject
        capacity offset).mapParse (.hidden subject offset) := by
  have yes := (accepted.readings_sound sound).span
  have no := (otherwise.readings_sound sound).span
  show (Reading.branch (.viewTest test) (accepted.readings call).span
    (otherwise.readings call).span).sliced.outcomes subject capacity offset = _
  rw [(Reading.branch_sound (fun _ _ _ => rfl) (.viewTest _) yes no).outcomes_sliced inside,
    Reading.outcomes, Reading.branch, Reading.parse?_bind]
  have decided : (Reading.viewTest test subject capacity offset).parse? =
      some (some ⟨offset, [], test (subject.viewFrom offset)⟩) := rfl
  rw [decided, Outcome.andThen_some]
  cases test (subject.viewFrom offset)
  · exact outcomes_taken sound otherwise inside
  · exact outcomes_taken sound accepted inside

/-- A repetition is a collection whose values are hidden. -/
theorem outcome_repeated (inner : Matcher) (bounds : Bounds) :
    (repeated inner bounds).outcome call subject capacity offset =
      ((collected inner bounds).outcome call subject capacity offset).mapParse
        (.hidden subject offset) := by
  have bounded := (inner.readings_sound sound).span.bounded
  have alike := ((inner.readings_alike (.whole subject) sound).repeated bounds bounded).covering
    capacity offset trivial inside
  have same : (Reading.repeated bounds (inner.readings call).span).covering.outcomes subject
      capacity offset =
      (Reading.repeated bounds (inner.readings call).value).covering.outcomes subject capacity
        offset := by
    rcases alike.eq_or_cut with same | ⟨impossible, _⟩
    · exact congrArg Effect.parse? same
    · exact impossible.elim
  show (Reading.repeated bounds (inner.readings call).span).covering.sliced.outcomes subject
    capacity offset = _
  rw [(Reading.Sound.covering (Reading.repeated_bounded bounds bounded)).outcomes_sliced inside,
    same, Reading.outcomes, Reading.parse?_covering]
  show _ = Outcome.mapParse _ ((Value.list <$> Reading.repeated bounds
    (inner.readings call).value : Reading Value) subject capacity offset).parse?
  rw [Reading.parse?_functor, Outcome.mapParse_mapParse, Outcome.mapParse_mapParse]
  rfl

/-- A collection comes to a result where a chain of rounds does. -/
theorem outcome_collected_iff (inner : Matcher) (bounds : Bounds)
    {result : Option (Parse Value)} :
    (collected inner bounds).outcome call subject capacity offset = some result ↔
      ∃ (rounds : List (Parse Value)) (listed : Option (Parse (List Value))),
        (∀ start round, (start, round) ∈ stations Parse.stop offset rounds →
          inner.outcome call subject capacity start = some (some round)) ∧
        (∀ start round, (start, round) ∈ stations Parse.stop offset rounds →
          round.stop ≠ start) ∧
        RoundsEnd bounds (inner.outcome call subject capacity) 0 offset rounds listed ∧
        result = listed.map (.map .list) := by
  have bounded := (inner.readings_sound sound).value
  have whole : (collected inner bounds).outcome call subject capacity offset =
      ((Reading.repeated bounds (inner.readings call).value).outcomes subject capacity
        offset).mapParse (.map .list) :=
    Reading.parse?_functor subject capacity offset Value.list _
  rw [whole]
  constructor
  · intro reached
    obtain ⟨listed, ended, rfl⟩ := Outcome.mapParse_eq_some reached
    obtain ⟨rounds, each, onward, ends⟩ := (Reading.parse?_repeated_iff bounded inside).mp ended
    exact ⟨rounds, listed, each, onward, ends, rfl⟩
  · rintro ⟨rounds, listed, each, onward, ends, rfl⟩
    have ended := (Reading.parse?_repeated_iff bounded inside).mpr ⟨rounds, each, onward, ends⟩
    rw [ended]
    rfl

/-- Separated items come to a result where a chain of items with their separators does. -/
theorem outcome_separated_iff (item separator : Matcher) (least : Nat) (terminated : Bool)
    {result : Option (Parse Value)} :
    (separated item separator least terminated).outcome call subject capacity offset =
        some result ↔
      ∃ (pairs : List (Parse Value × Parse Value)) (listed : Parse (List Value)),
        (∀ start pair, (start, pair) ∈ stations (·.2.stop) offset pairs →
          item.outcome call subject capacity start = some (some pair.1)) ∧
        (∀ start pair, (start, pair) ∈ stations (·.2.stop) offset pairs →
          separator.outcome call subject capacity pair.1.stop = some (some pair.2)) ∧
        (∀ start pair, (start, pair) ∈ stations (·.2.stop) offset pairs →
          pair.2.stop ≠ start) ∧
        Reading.ItemsEnd terminated (item.outcome call subject capacity)
          (separator.outcome call subject capacity) offset pairs listed ∧
        result = listed.ofLeast least := by
  have bounded := (item.readings_sound sound).value
  have boundedSeparator := (separator.readings_sound sound).value
  have covered := fun start within =>
    @outcomes_span call subject capacity start sound separator within
  have whole : (separated item separator least terminated).outcome call subject capacity offset =
      ((Reading.separated (item.readings call).value (separator.readings call).span least
        terminated).outcomes subject capacity offset).mapParse (.map .list) :=
    Reading.parse?_functor subject capacity offset Value.list _
  have enough (listed : Parse (List Value)) :
      (if listed.value.length < least then none else some listed).map (Parse.map Value.list) =
        listed.ofLeast least := by
    unfold Parse.ofLeast
    split <;> rfl
  rw [whole]
  constructor
  · intro reached
    obtain ⟨found, ended, rfl⟩ := Outcome.mapParse_eq_some reached
    obtain ⟨pairs, listed, items, separators, onward, ends, rfl⟩ :=
      (Reading.parse?_separated_iff covered bounded boundedSeparator least inside).mp ended
    exact ⟨pairs, listed, items, separators, onward, ends, enough listed⟩
  · rintro ⟨pairs, listed, items, separators, onward, ends, rfl⟩
    have ended := (Reading.parse?_separated_iff covered bounded boundedSeparator least
      inside).mpr ⟨pairs, listed, items, separators, onward, ends, rfl⟩
    rw [ended, Outcome.mapParse_some, enough]

/-- A box hides the value inside. -/
theorem outcome_boxed (inner : Matcher) :
    (boxed inner).outcome call subject capacity offset =
      (inner.outcome call subject capacity offset).mapParse (.hidden subject offset) :=
  outcomes_hidden sound inner inside

end

end Matcher

end TextPattern
