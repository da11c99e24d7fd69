import TextPattern.Proofs.CollectedRounds
import TextPattern.Proofs.EffectLaws

/-!
# Terminated items

Where every item has to be followed by a separator, separated items are the repetition of an item
with its separator behind it. Both loops undo an item whose separator is missing, and both end with
it: one hands its failure on at once, the other keeps it until the items are counted. They come
apart where the loop ends by itself, with an item and a separator that consume nothing: the
repetition is content with what it has, and separated items still count.
`Matcher.terminated_items_collected` is the main statement.
-/

namespace TextPattern

open Combinator (Items)

variable {α : Type}

namespace Reading

variable (item : Reading α) (separator : Reading Span) (least : Nat) (subject : Subject)
  (capacity : Option Nat) (offset : Nat)

/-- One round of terminated items: an item with its separator, or neither. -/
theorem itemsFrom_terminated_succ (rounds : Nat) :
    itemsFrom item separator true (rounds + 1) subject capacity offset =
      (enclosed empty item separator subject capacity offset).fork
        (fun failure => .still (.matched ⟨[], some failure⟩) offset)
        fun value stop =>
          if stop = offset then .still (.matched ⟨[value], none⟩) stop
          else
            (itemsFrom item separator true rounds subject capacity stop).map fun later =>
              ⟨value :: later.values, later.failure⟩ := by
  show _ = Effect.fork ((item subject capacity offset).andThen fun value stop =>
    (separator subject capacity stop).andThen fun _ last => .still (.matched value) last) _ _
  rw [itemsFrom]
  cases ended : (item subject capacity offset).ending with
  | matched value =>
    cases endedSeparator : (separator subject capacity
        (item subject capacity offset).stop).ending with
    | matched span =>
      simp [Effect.fork, Effect.andThen, Effect.after, Effect.still, ended, endedSeparator]
    | _ => simp [Effect.fork, Effect.andThen, Effect.after, ended, endedSeparator]
  | _ => simp [Effect.fork, Effect.andThen, ended]

/-- What terminated items are as a repetition, when some rounds were counted before: where their end
is a failure, they are so many or it is the failure of all. -/
def closeItems (least count : Nat) (items : Items α) (stop : Nat) : Effect (List α) :=
  match items.failure with
  | some failure =>
    if count + items.values.length < least then .still (.failed failure) stop
    else .still (.matched items.values) stop
  | none => .still (.matched items.values) stop

/-- One more item in front counts as one more round before. -/
theorem closeItems_cons (count : Nat) (value : α) (items : Items α) (stop : Nat) :
    closeItems least count ⟨value :: items.values, items.failure⟩ stop =
      (closeItems least (count + 1) items stop).map (value :: ·) := by
  obtain ⟨values, failure⟩ := items
  cases failure with
  | none => rfl
  | some failure =>
    have more : count + (value :: values).length = count + 1 + values.length := by
      rw [List.length_cons]
      omega
    dsimp only [closeItems]
    rw [more]
    by_cases few : count + 1 + values.length < least
    · rw [if_pos few, if_pos few]
      rfl
    · rw [if_neg few, if_neg few]
      rfl

/-- To repeat an item with its separator is to match terminated items. -/
theorem repeatFrom_enclosed (rounds count : Nat) :
    repeatFrom (.atLeast least) (enclosed empty item separator) rounds count subject capacity
        offset =
      (itemsFrom item separator true rounds subject capacity offset).andThen
        (closeItems least count) := by
  induction rounds generalizing count offset with
  | zero => rfl
  | succ rounds ih =>
    rw [repeatFrom_succ _ _ _ rfl, itemsFrom_terminated_succ, Effect.fork_andThen]
    -- A round that fails ends both alike: what is left to compare is a round that matches.
    congr 1
    funext value stop
    by_cases still : stop = offset
    · rw [if_pos still, if_pos still]
      rfl
    · rw [if_neg still, if_neg still, ih, Effect.map_andThen, Effect.andThen_map]
      congr 1
      funext items last
      exact (closeItems_cons least count value items last).symm

/-- Terminated items are a repetition of an item with its separator, unless this one matches too few
times: then they fail. -/
theorem separated_terminated_apply :
    let all := repeated (.atLeast least) (enclosed empty item separator) subject capacity offset
    separated item separator least true subject capacity offset =
      match all.ending with
      | .matched values =>
        if values.length < least then
          .still (.failed (.mismatch offset (Bytes.ofString "separated items"))) offset
        else all
      | _ => all := by
  intro all
  have loop : all = ((itemsFrom item separator true (subject.length - offset + 1) subject capacity
      offset).andThen (closeItems least 0)).orElse fun failure =>
        .still (.failed failure) offset := by
    rw [← repeatFrom_enclosed]
    rfl
  rw [loop]
  unfold separated restoring
  dsimp only
  have ends := itemsFrom_not_failed item separator true (subject.length - offset + 1) subject
    capacity offset
  generalize itemsFrom item separator true (subject.length - offset + 1) subject capacity
    offset = effect at ends
  obtain ⟨ending, stop, captures⟩ := effect
  cases ending with
  | matched items =>
    obtain ⟨values, failure⟩ := items
    by_cases few : values.length < least <;> cases failure <;>
      simp [Effect.andThen, Effect.orElse, Effect.after, Effect.still, closeItems, few]
  | failed failure => exact absurd rfl (ends failure)
  | _ => rfl

end Reading

namespace Matcher

/-- Terminated items are matched as a collection of items, each padded with its separator: with the
same values or the same failure, the same end and the same captures. They differ exactly where a
repetition of an item and its separator that consumes nothing ends the collection too early. Then
the collection has those few values, while terminated items fail and change nothing. -/
theorem terminated_items_collected (item separator : Matcher) (least : Nat)
    (definitions : Definitions) {subject : Subject} {state : State}
    (inside : state.offset ≤ subject.length) :
    let run (matcher : Matcher) := (matcher.attemptValue definitions).outcome subject
    let items := run (separated item separator least true) state
    let collection := run (collected (padded item separator) (.atLeast least)) state
    let Short := StopsShort (run (padded item separator)) least state
    (∀ values after,
        Short values after ↔ collection = (.matched (.list values), after) ∧
          values.length < least) ∧
      (∀ values after, Short values after →
        items = (.failed (.mismatch state.offset (Bytes.ofString "separated items")), state)) ∧
      ((∀ values after, ¬ Short values after) → items = collection) := by
  intro run items collection Short
  let part := (item.readingsUnder definitions subject).value
  let tail := (separator.readingsUnder definitions subject).span
  let all := Reading.repeated (.atLeast least) (.enclosed .empty part tail) subject state.capacity
    state.offset
  have collects : collection = (all.map .list).applyTo state := by
    rw [← Reading.map_apply]
    exact outcome_attemptValue _ definitions inside
  have separates : items = ((Reading.separated part tail least true subject state.capacity
      state.offset).map .list).applyTo state := by
    rw [← Reading.map_apply]
    exact outcome_attemptValue _ definitions inside
  have short (values : List Value) (after : State) :
      Short values after ↔
        collection = (.matched (.list values), after) ∧ values.length < least :=
    @collected_stopsShort_iff (padded item separator) (.atLeast least) _ _ _ inside values after
  rw [Reading.separated_terminated_apply] at separates
  refine ⟨short, ?_, ?_⟩
  · intro values after stops
    obtain ⟨matched, few⟩ := (short values after).mp stops
    have ended : all.ending = .matched values := by
      have same : all.ending.map Value.list = .matched (.list values) :=
        congrArg Prod.fst (collects.symm.trans matched)
      cases ended : all.ending <;> simp_all [Ending.map]
    rw [separates, ended]
    dsimp only
    rw [if_pos few]
    exact Effect.applyTo_still _ state
  · intro never
    rw [separates, collects]
    cases ended : all.ending with
    | matched values =>
      have enough : ¬ values.length < least := by
        intro few
        apply never values collection.2
        apply (short values collection.2).mpr
        have matched : collection.1 = .matched (.list values) := by
          rw [collects]
          show all.ending.map Value.list = _
          rw [ended]
          rfl
        exact ⟨Prod.ext matched rfl, few⟩
      dsimp only
      rw [if_neg enough]
    | _ => rfl

/-- Letters that may be missing, each with a capture of nothing behind it: two letters, and then
nothing. That is enough for three items and too few for four. -/
theorem terminated_items_collected_letters :
    let item := optional (.literal [97])
    let separator := Matcher.captured 0 .empty
    let subject : Subject := ⟨.octet, [97, 97, 98]⟩
    let state : State := ⟨0, some (.ofCapacity 1)⟩
    let run (matcher : Matcher) := (matcher.attemptValue []).outcome subject
    let items (least : Nat) := run (separated item separator least true) state
    let collection (least : Nat) := run (collected (padded item separator) (.atLeast least)) state
    let Short (least : Nat) := StopsShort (run (padded item separator)) least state
    let values := [Value.slice [97], .slice [97], .slice []]
    (state.offset ≤ subject.length ∧ Short 4 values (collection 4).2 ∧
      ∀ values after, ¬ Short 3 values after) ∧
      items 4 = (.failed (.mismatch 0 (Bytes.ofString "separated items")), state) ∧
      items 3 = collection 3 := by
  have gatheredFour : (((collected (padded (optional (.literal [97])) (.captured 0 .empty))
      (.atLeast 4)).attemptValue []).outcome ⟨.octet, [97, 97, 98]⟩
        ⟨0, some (.ofCapacity 1)⟩).1 =
      .matched (.list [.slice [97], .slice [97], .slice []]) := rfl
  have gatheredThree : (((collected (padded (optional (.literal [97])) (.captured 0 .empty))
      (.atLeast 3)).attemptValue []).outcome ⟨.octet, [97, 97, 98]⟩
        ⟨0, some (.ofCapacity 1)⟩).1 =
      .matched (.list [.slice [97], .slice [97], .slice []]) := rfl
  intro item separator subject state run items collection Short values
  have inside : state.offset ≤ subject.length := Nat.zero_le _
  have short (least : Nat) (found : List Value) (after : State) :
      Short least found after ↔
        collection least = (.matched (.list found), after) ∧ found.length < least :=
    (terminated_items_collected item separator least [] inside).1 found after
  obtain ⟨_, fails, _⟩ := terminated_items_collected item separator 4 [] inside
  obtain ⟨_, _, alike⟩ := terminated_items_collected item separator 3 [] inside
  have four : (collection 4).1 = .matched (.list values) := gatheredFour
  have three : (collection 3).1 = .matched (.list values) := gatheredThree
  have stops : Short 4 values (collection 4).2 := by
    rw [short, ← four]
    exact ⟨(Prod.eta _).symm, by decide⟩
  have never : ∀ found after, ¬ Short 3 found after := by
    intro found after stops
    obtain ⟨matched, less⟩ := (short 3 found after).mp stops
    have same : found = values := by
      have endings := (congrArg Prod.fst matched).symm.trans three
      cases endings
      rfl
    rw [same] at less
    exact absurd less (by decide)
  exact ⟨⟨inside, stops, never⟩, fails _ _ stops, alike never⟩

end Matcher

end TextPattern
