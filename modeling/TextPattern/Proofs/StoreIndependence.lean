import TextPattern.Proofs.CaptureFrame
import TextPattern.Proofs.Reach

/-!
# Runs with different stores

Of a store, a run only asks whether slots exist. What has been captured before makes no difference
to it, and where all slots that a matcher may come across exist it does what it would do without a
store. `Matcher.attempt_ignores_captures` is the main statement.
-/

namespace TextPattern

open Combinator (Items)

variable {α β : Type}

/-! ## Readings for a fixed capacity -/

/-- A reading for a capacity, whatever the store. -/
def Reading.under (capacity : Option Nat) (reading : Reading α) : Reading α :=
  fun subject _ offset => reading subject capacity offset

namespace Reading

variable (capacity : Option Nat)

/-- Both of two readings are read for the capacity. -/
theorem under_bind (first : Reading α) (next : α → Reading β) :
    under capacity (first >>= next) =
      under capacity first >>= fun value => under capacity (next value) := rfl

/-- A function on values does not ask for a capacity. -/
theorem under_map (f : α → β) (reading : Reading α) :
    under capacity (f <$> reading) = f <$> under capacity reading := rfl

/-- Covering what was read does not ask for a capacity. -/
theorem under_covering (reading : Reading α) :
    under capacity reading.covering = (under capacity reading).covering := rfl

/-- A question is asked for the capacity. -/
theorem under_probe (reading : Reading α) :
    under capacity reading.probe = (under capacity reading).probe := rfl

/-- The slice of a span is that of the span read for the capacity. -/
theorem under_sliced (reading : Reading Span) :
    under capacity reading.sliced = (under capacity reading).sliced := rfl

/-- Rounds of a step. -/
theorem under_repeatFrom (bounds : Bounds) (step : Reading α) (rounds count : Nat) :
    under capacity (repeatFrom bounds step rounds count) =
      repeatFrom bounds (under capacity step) rounds count := by
  induction rounds generalizing count with
  | zero =>
    funext subject other offset
    unfold under repeatFrom
    rfl
  | succ rounds ih =>
    funext subject other offset
    have later (stop : Nat) :
        repeatFrom bounds step rounds (count + 1) subject capacity stop =
          repeatFrom bounds (under capacity step) rounds (count + 1) subject other stop :=
      congrFun (congrFun (congrFun (ih (count + 1)) subject) other) stop
    show repeatFrom bounds step (rounds + 1) count subject capacity offset = _
    unfold repeatFrom
    simp only [later]
    rfl

/-- A repeated step. -/
theorem under_repeated (bounds : Bounds) (step : Reading α) :
    under capacity (repeated bounds step) = repeated bounds (under capacity step) := by
  funext subject other offset
  have rounds := congrFun (congrFun (congrFun (under_repeatFrom capacity bounds step
    (subject.length - offset + 1) 0) subject) other) offset
  exact congrArg (Effect.orElse · fun failure => .still (.failed failure) offset) rounds

/-- Items with their separators. -/
theorem under_itemsFrom (item : Reading α) (separator : Reading Span) (terminated : Bool)
    (rounds : Nat) :
    under capacity (itemsFrom item separator terminated rounds) =
      itemsFrom (under capacity item) (under capacity separator) terminated rounds := by
  induction rounds with
  | zero => rfl
  | succ rounds ih =>
    funext subject other offset
    have later (stop : Nat) :
        itemsFrom item separator terminated rounds subject capacity stop =
          itemsFrom (under capacity item) (under capacity separator) terminated rounds subject
            other stop := congrFun (congrFun (congrFun ih subject) other) stop
    show itemsFrom item separator terminated (rounds + 1) subject capacity offset = _
    unfold itemsFrom
    simp only [later]
    rfl

/-- Separated items. -/
theorem under_separated (item : Reading α) (separator : Reading Span) (least : Nat)
    (terminated : Bool) :
    under capacity (separated item separator least terminated) =
      separated (under capacity item) (under capacity separator) least terminated := by
  funext subject other offset
  have items := congrFun (congrFun (congrFun (under_itemsFrom capacity item separator terminated
    (subject.length - offset + 1)) subject) other) offset
  show ((under capacity (itemsFrom item separator terminated (subject.length - offset + 1))
    subject other offset).andThen _).orElse _ = _
  rw [items]
  rfl

/-- Both parts of a sequence. -/
theorem under_sequence (first second : Reading Span) :
    under capacity (sequence first second) =
      sequence (under capacity first) (under capacity second) := rfl

/-- Both parts of a choice. -/
theorem under_choice (first second : Reading Span) :
    under capacity (choice first second) =
      choice (under capacity first) (under capacity second) := rfl

/-- Both parts that are compared. -/
theorem under_longest (first second : Reading Span) :
    under capacity (longest first second) =
      longest (under capacity first) (under capacity second) := rfl

/-- Both sides and what separates them. -/
theorem under_sepOnce (left : Reading α) (separator : Reading Span) (right : Reading α) :
    under capacity (sepOnce left separator right) =
      sepOnce (under capacity left) (under capacity separator) (under capacity right) := rfl

/-- The enclosed part and what encloses it. -/
theorem under_enclosed (head : Reading Span) (inner : Reading α) (tail : Reading Span) :
    under capacity (enclosed head inner tail) =
      enclosed (under capacity head) (under capacity inner) (under capacity tail) := rfl

/-- The part that a branch goes on with. -/
theorem under_branch (probe : Reading Bool) (accepted otherwise : Reading Span) :
    under capacity (branch probe accepted otherwise) =
      branch (under capacity probe) (under capacity accepted) (under capacity otherwise) := by
  unfold branch
  rw [under_bind]
  congr 1
  funext found
  cases found <;> rfl

/-- What is converted: a converter does not ask for a capacity. -/
theorem under_converted (inner : Reading Value) (converter : Converter) :
    under capacity (converted inner converter) =
      converted (under capacity inner) converter := rfl

/-- A capture depends on whether its slot exists. -/
theorem under_captured {left right : Option Nat} {slot : Nat} {inner : Reading Span}
    (slots : hasSlot left slot = hasSlot right slot)
    (same : under left inner = under right inner) :
    under left (captured slot inner) = under right (captured slot inner) := by
  funext subject other offset
  have effects : inner subject left offset = inner subject right offset :=
    congrFun (congrFun (congrFun same subject) other) offset
  show captured slot inner subject left offset = captured slot inner subject right offset
  unfold captured
  rw [slots, effects]

end Reading

/-! ## Matchers -/

/-- Readings that are the same for two capacities. -/
structure Readings.SameUnder (left right : Option Nat) (readings : Readings) : Prop where
  /-- For the span. -/
  span : readings.span.under left = readings.span.under right
  /-- For the value. -/
  value : readings.value.under left = readings.value.under right

/-- Slots that a matcher captures for exist for both of two capacities or for neither. -/
def Matcher.SlotsAlike (left right : Option Nat) : Matcher → Prop
  | .captured slot _ => Reading.hasSlot left slot = Reading.hasSlot right slot
  | _ => True

section
variable {left right : Option Nat}

/-- Reading a slice is the same where reading the span is. -/
theorem Readings.SameUnder.ofSpan {span : Reading Span}
    (same : span.under left = span.under right) :
    (Readings.ofSpan span).SameUnder left right := by
  refine ⟨same, ?_⟩
  show span.sliced.under left = span.sliced.under right
  rw [Reading.under_sliced, Reading.under_sliced, same]

/-- Reading what a value covers is the same where reading the value is. -/
theorem Readings.SameUnder.ofValue {value : Reading Value}
    (same : value.under left = value.under right) :
    (Readings.ofValue value).SameUnder left right := by
  refine ⟨?_, same⟩
  show value.covering.under left = value.covering.under right
  rw [Reading.under_covering, Reading.under_covering, same]

/-- A matcher does the same for two capacities where all slots that it comes across exist for both
or for neither, and the calls do the same of the definitions that it reaches. -/
theorem Matcher.readings_sameUnder {definitions : Definitions} {call : Nat → Reading Span}
    (calls : ∀ slot, (∀ target, definitions.find? slot = some target →
      target.Everywhere definitions (SlotsAlike left right)) →
      (call slot).under left = (call slot).under right)
    (matcher : Matcher) (everywhere : matcher.Everywhere definitions (SlotsAlike left right)) :
    (matcher.readings call).SameUnder left right := by
  -- Over the matchers: a reading under a capacity is that of its parts under it.
  induction matcher with
  | literal | one | empty | atStart | atEnd | count | countAhead | undefined => exact .ofSpan rfl
  | repeated inner bounds ih =>
    have same := ih (everywhere.part (by simp [parts]))
    refine .ofSpan ?_
    simp only [Reading.under_covering, Reading.under_repeated, same.span]
  | collected inner bounds ih =>
    have same := ih (everywhere.part (by simp [parts]))
    refine .ofValue ?_
    simp only [Reading.under_map, Reading.under_repeated, same.value]
  | sequence first second before after =>
    have one := before (everywhere.part (by simp [parts]))
    have other := after (everywhere.part (by simp [parts]))
    refine .ofSpan ?_
    simp only [Reading.under_sequence, one.span, other.span]
  | choice first second before after =>
    have one := before (everywhere.part (by simp [parts]))
    have other := after (everywhere.part (by simp [parts]))
    refine .ofSpan ?_
    simp only [Reading.under_choice, one.span, other.span]
  | longest first second before after =>
    have one := before (everywhere.part (by simp [parts]))
    have other := after (everywhere.part (by simp [parts]))
    refine .ofSpan ?_
    simp only [Reading.under_longest, one.span, other.span]
  | sepOnce first separator last before between after =>
    have one := before (everywhere.part (by simp [parts]))
    have middle := between (everywhere.part (by simp [parts]))
    have other := after (everywhere.part (by simp [parts]))
    constructor
    · simp only [readings, Reading.under_covering, Reading.under_sepOnce, one.span, middle.span,
        other.span]
    · simp only [readings, Reading.under_map, Reading.under_sepOnce, one.value, middle.span,
        other.value]
  | separated item separator least terminated items separators =>
    have each := items (everywhere.part (by simp [parts]))
    have middle := separators (everywhere.part (by simp [parts]))
    constructor
    · simp only [readings, Reading.under_covering, Reading.under_separated, each.span, middle.span]
    · simp only [readings, Reading.under_map, Reading.under_separated, each.value, middle.span]
  | enclosed head inner tail before ih after =>
    have opening := before (everywhere.part (by simp [parts]))
    have same := ih (everywhere.part (by simp [parts]))
    have closing := after (everywhere.part (by simp [parts]))
    constructor
    · simp only [readings, Reading.under_covering, Reading.under_enclosed, opening.span, same.span,
        closing.span]
    · simp only [readings, Reading.under_enclosed, opening.span, same.value, closing.span]
  | mapped inner converter ih =>
    have same := ih (everywhere.part (by simp [parts]))
    refine .ofValue ?_
    simp only [Reading.under_converted, same.value]
  | captured slot inner ih =>
    have same := ih (everywhere.part (by simp [parts]))
    exact .ofSpan (Reading.under_captured everywhere.here same.span)
  | branch test accepted otherwise asks yes no =>
    have asked := asks (everywhere.part (by simp [parts]))
    have one := yes (everywhere.part (by simp [parts]))
    have other := no (everywhere.part (by simp [parts]))
    refine .ofSpan ?_
    simp only [Reading.under_branch, Reading.under_probe, asked.span, one.span, other.span]
  | branchIf test accepted otherwise yes no =>
    have one := yes (everywhere.part (by simp [parts]))
    have other := no (everywhere.part (by simp [parts]))
    refine .ofSpan ?_
    simp only [Reading.under_branch, one.span, other.span]
    rfl
  | boxed inner ih => exact .ofSpan (ih (everywhere.part (by simp [parts]))).span
  | handle slot => exact .ofSpan (calls slot everywhere.ofHandle)
  | reference slot => exact .ofSpan (calls slot everywhere.ofReference)

/-- A call of a definition does the same for two capacities where all slots that it comes across
exist for both or for neither. -/
theorem Definitions.reading_sameUnder (definitions : Definitions) (depth slot : Nat)
    (everywhere : ∀ target, definitions.find? slot = some target →
      target.Everywhere definitions (Matcher.SlotsAlike left right)) :
    (definitions.reading depth slot).under left = (definitions.reading depth slot).under right := by
  induction depth generalizing slot with
  | zero => rfl
  | succ depth ih =>
    unfold Definitions.reading
    split
    · rfl
    · rename_i target present
      exact (target.readings_sameUnder ih (everywhere target present)).span

end

namespace Matcher

variable (matcher : Matcher) (definitions : Definitions) {subject : Subject} {offset : Nat}

/-- Where all slots that a matcher reaches exist, a run does what it does without a store. -/
theorem attempt_without_store (inside : offset ≤ subject.length) (store : CaptureStore)
    (slots : ∀ slot inner, matcher.Reaches definitions (.captured slot inner) →
      slot < store.capacity) :
    let run := matcher.attempt definitions subject ⟨offset, some store⟩
    let bare := matcher.attempt definitions subject ⟨offset, none⟩
    run.ending = bare.ending ∧ run.state.offset = bare.state.offset := by
  have alike : matcher.Everywhere definitions (SlotsAlike (some store.capacity) none) := by
    intro part reached
    cases part with
    | captured slot inner => exact decide_eq_true (slots slot inner reached)
    | _ => trivial
  have same := (matcher.readings_sameUnder (definitions.reading_sameUnder
    (definitions.depthFor subject)) alike).span
  have effects : (matcher.readingsUnder definitions subject).span subject (some store.capacity)
      offset = (matcher.readingsUnder definitions subject).span subject none offset :=
    congrFun (congrFun (congrFun same subject) none) offset
  intro run bare
  obtain ⟨ending, stop, _⟩ := matcher.attempt_extends definitions inside store
  obtain ⟨bareEnding, bareStop⟩ :=
    @Run.ends_as _ bare _ ⟨offset, none⟩ (matcher.outcome_attempt definitions inside)
  rw [effects] at ending stop
  exact ⟨ending.trans bareEnding.symm, stop.trans bareStop.symm⟩

/-- Runs with stores that have as many slots do the same, whatever had been captured before: they
end alike, at the same offset, and put the same captures behind those from before. Where all slots
that the matcher reaches exist, a run without a store ends in the same way and at the same
offset. -/
theorem attempt_ignores_captures (inside : offset ≤ subject.length) {first second : CaptureStore}
    (same : first.capacity = second.capacity) :
    let left := matcher.attempt definitions subject ⟨offset, some first⟩
    let right := matcher.attempt definitions subject ⟨offset, some second⟩
    (left.ending = right.ending ∧ left.state.offset = right.state.offset ∧
      ∃ leftAfter rightAfter added,
        left.state.captures = some leftAfter ∧ right.state.captures = some rightAfter ∧
        first.Extends leftAfter added ∧ second.Extends rightAfter added) ∧
    ((∀ slot inner, matcher.Reaches definitions (.captured slot inner) → slot < first.capacity) →
      let bare := matcher.attempt definitions subject ⟨offset, none⟩
      left.ending = bare.ending ∧ left.state.offset = bare.state.offset) := by
  intro left right
  refine ⟨?_, matcher.attempt_without_store definitions inside first⟩
  obtain ⟨leftEnding, leftStop, leftAfter, leftCaptures, leftExtends⟩ :=
    matcher.attempt_extends definitions inside first
  obtain ⟨rightEnding, rightStop, rightAfter, rightCaptures, rightExtends⟩ :=
    matcher.attempt_extends definitions inside second
  rw [← same] at rightEnding rightStop rightExtends
  exact ⟨leftEnding.trans rightEnding.symm, leftStop.trans rightStop.symm, leftAfter, rightAfter,
    _, leftCaptures, rightCaptures, leftExtends, rightExtends⟩

/-- A grammar that captures and calls itself, with an empty store, a filled one and none. -/
theorem attempt_ignores_captures_recursive :
    let body := Matcher.choice
      (.sequence (.captured 0 (.literal [97]))
        (.sequence (.handle 0) (.captured 1 (.literal [98]))))
      .empty
    let definitions : Definitions := [some body]
    let subject : Subject := ⟨.octet, [97, 97, 98, 98]⟩
    let first := CaptureStore.ofCapacity 2
    let second := first.replay [(1, ⟨7, 1⟩), (0, ⟨3, 2⟩)]
    let left := (Matcher.handle 0).attempt definitions subject ⟨0, some first⟩
    let right := (Matcher.handle 0).attempt definitions subject ⟨0, some second⟩
    let bare := (Matcher.handle 0).attempt definitions subject ⟨0, none⟩
    left.state.captures.map CaptureStore.captures =
        some [(0, ⟨0, 1⟩), (0, ⟨1, 1⟩), (1, ⟨2, 1⟩), (1, ⟨3, 1⟩)] ∧
      (left.ending = right.ending ∧ left.state.offset = right.state.offset ∧
        ∃ leftAfter rightAfter added,
          left.state.captures = some leftAfter ∧ right.state.captures = some rightAfter ∧
          first.Extends leftAfter added ∧ second.Extends rightAfter added) ∧
      left.ending = bare.ending ∧ left.state.offset = bare.state.offset := by
  intro body definitions subject first second left right bare
  -- What the grammar reaches is closed under going to a part.
  have slots : (Matcher.handle 0).Everywhere definitions fun part =>
      part ∈ [.handle 0, body,
        .sequence (.captured 0 (.literal [97]))
          (.sequence (.handle 0) (.captured 1 (.literal [98]))),
        .sequence (.handle 0) (.captured 1 (.literal [98])),
        .captured 0 (.literal [97]), .captured 1 (.literal [98]),
        .literal [97], .literal [98], .empty] := by
    have defined : definitions.find? 0 = some body := rfl
    refine .of_passes List.mem_cons_self fun matcher member part among => ?_
    simp only [List.mem_cons, List.not_mem_nil, or_false] at member ⊢
    rcases member with rfl | rfl | rfl | rfl | rfl | rfl | rfl | rfl | rfl <;>
      simp only [parts, defined, body, Option.toList_some, List.mem_cons, List.not_mem_nil,
        or_false] at among <;> grind
  obtain ⟨alike, without⟩ := @attempt_ignores_captures (.handle 0) definitions subject 0
    (Nat.zero_le _) first second (first.capacity_replay _).symm
  refine ⟨by decide +kernel, alike, without fun slot inner reached => ?_⟩
  have member := slots _ reached
  simp only [body, List.mem_cons, List.not_mem_nil, or_false, reduceCtorEq, false_or,
    captured.injEq]
    at member
  have two : first.capacity = 2 := rfl
  omega

end Matcher

end TextPattern
