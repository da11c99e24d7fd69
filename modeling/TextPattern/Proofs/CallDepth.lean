import Mathlib.Data.Fintype.Prod
import TextPattern.Proofs.Comparison

/-!
# How deeply calls nest

A deeper nesting of calls changes nothing but that some calls no longer run out of steps. There are
only so many ways to begin a call, and each further level of nesting finishes at least one more of
them or none ever again. The depth allotted to a subject is therefore deep enough:
`Definitions.reading_depthFor` is the main statement.
-/

namespace TextPattern

open Reading (Related)

/-! ## Deeper calls -/

namespace Matcher

/-- Calls that agree, or run out of steps where they may, make readings that do. -/
theorem readings_related {scope : Scope} {call other : Nat → Reading Span}
    (calls : ∀ slot, (call slot).Related scope Eq (other slot)) (sound : ∀ slot, (call slot).Sound)
    (matcher : Matcher) :
    (matcher.readings call).span.Related scope Eq (matcher.readings other).span ∧
      (matcher.readings call).value.Related scope Eq (matcher.readings other).value := by
  have known := fun part => readings_sound sound part
  induction matcher with
  | literal | one | empty | atStart | atEnd | count | undefined =>
    exact ⟨.refl (fun _ => rfl) _, .refl (fun _ => rfl) _⟩
  | countAhead predicate bounds ahead ih =>
    have counted := Related.count predicate bounds ih.1.aheadTest
    exact ⟨counted, counted.sliced (Reading.count_sound predicate bounds _).bounded⟩
  | repeated inner bounds ih =>
    have bounded := Reading.repeated_bounded bounds (known inner).span.bounded
    have all := (ih.1.repeated bounds (known inner).span.bounded).covering
    exact ⟨all, all.sliced bounded.covering⟩
  | collected inner bounds ih =>
    have bounded := Reading.repeated_bounded bounds (known inner).value
    have all := (ih.2.repeated bounds (known inner).value).map (g := Value.list) bounded
      fun _ _ same => congrArg Value.list (List.forall₂_eq_eq_eq ▸ same)
    exact ⟨all.covering, all⟩
  | sequence first second left right =>
    have both := Related.sequence left.1 (known first).span.bounded right.1
    exact ⟨both, both.sliced (known (.sequence first second)).span.bounded⟩
  | choice first second left right =>
    have both := Related.choice left.1 right.1
    exact ⟨both, both.sliced (known (.choice first second)).span.bounded⟩
  | longest first second left right =>
    have both := Related.longest left.1 right.1
    exact ⟨both, both.sliced (known (.longest first second)).span.bounded⟩
  | sepOnce left separator right first middle last =>
    have leftSound := known left
    have middleBounded := (known separator).span.bounded
    have rightSound := known right
    constructor
    · exact (first.1.sepOnce leftSound.span.bounded middle.1.alike middleBounded last.1
        rightSound.span.bounded).covering
    · have bounded := Reading.sepOnce_bounded leftSound.value middleBounded rightSound.value
      have both := first.2.sepOnce leftSound.value middle.1.alike middleBounded last.2
        rightSound.value
      exact both.map bounded fun _ _ same => congrArg₂ Value.pair same.1 same.2
  | separated item separator least terminated items separators =>
    have itemSound := known item
    have middleBounded := (known separator).span.bounded
    constructor
    · exact (items.1.separated least terminated itemSound.span.bounded separators.1.alike
        middleBounded).covering
    · have bounded := Reading.separated_bounded least terminated itemSound.value middleBounded
      have all := items.2.separated least terminated itemSound.value separators.1.alike
        middleBounded
      exact all.map bounded fun _ _ same => congrArg Value.list (List.forall₂_eq_eq_eq ▸ same)
  | enclosed head inner tail before ih after =>
    have headBounded := (known head).span.bounded
    have tailBounded := (known tail).span.bounded
    constructor
    · exact (Related.enclosed before.1.alike headBounded ih.1 (known inner).span.bounded
        after.1.alike tailBounded).covering
    · exact .enclosed before.1.alike headBounded ih.2 (known inner).value after.1.alike tailBounded
  | mapped inner converter ih =>
    have all := ih.2.converted converter
    exact ⟨all.covering, all⟩
  | captured slot inner ih =>
    have all := ih.1.captured slot
    exact ⟨all, all.sliced (known (.captured slot inner)).span.bounded⟩
  | branch test accepted otherwise asked yes no =>
    have all := Related.branch asked.1.probe (.probe _) yes.1 no.1
    exact ⟨all, all.sliced (known (.branch test accepted otherwise)).span.bounded⟩
  | branchIf test accepted otherwise yes no =>
    have all :=
      Related.branch (.refl (fun _ => rfl) (Reading.viewTest test)) (.viewTest _) yes.1 no.1
    exact ⟨all, all.sliced (known (.branchIf test accepted otherwise)).span.bounded⟩
  | boxed inner ih => exact ⟨ih.1, ih.1.sliced (known inner).span.bounded⟩
  | handle slot => exact ⟨calls slot, (calls slot).sliced (sound slot).bounded⟩
  | reference slot => exact ⟨calls slot, (calls slot).sliced (sound slot).bounded⟩

end Matcher

namespace Definitions

variable (definitions : Definitions) (subject : Subject) (capacity : Option Nat)

/-- Deeper calls against shallower ones, with a store of a capacity or without one. -/
def nesting : Scope where
  subject := subject
  capacities kept := kept = none ∨ kept = capacity
  withoutStore := .inl rfl
  partly := True

/-- A deeper call goes on where a shallower one runs out of steps. -/
theorem reading_deepens (depth slot : Nat) :
    (definitions.reading depth slot).Related (nesting subject capacity) Eq
      (definitions.reading (depth + 1) slot) := by
  induction depth generalizing slot with
  | zero => exact fun _ _ _ _ => .cut trivial rfl
  | succ depth ih =>
    unfold reading
    cases definitions.find? slot with
    | none => exact .refl (fun _ => rfl) _
    | some matcher => exact (matcher.readings_related ih (definitions.reading_sound depth)).1

/-- One more level of nesting finishes no further call. -/
def Settled (depth : Nat) : Prop :=
  ∀ slot, (definitions.reading (depth + 1) slot).Related (nesting subject capacity) Eq
    (definitions.reading depth slot)

/-- So does any call that is deeper. -/
theorem reading_deepens_by (depth extra slot : Nat) :
    (definitions.reading depth slot).Related (nesting subject capacity) Eq
      (definitions.reading (depth + extra) slot) := by
  induction extra with
  | zero => exact .refl (fun _ => rfl) _
  | succ extra ih => exact ih.trans (definitions.reading_deepens subject capacity _ slot)

variable {definitions subject capacity}

/-- What is settled stays settled. -/
theorem Settled.succ {depth : Nat} (settled : definitions.Settled subject capacity depth) :
    definitions.Settled subject capacity (depth + 1) := by
  intro slot
  unfold reading
  cases definitions.find? slot with
  | none => exact .refl (fun _ => rfl) _
  | some matcher =>
    exact (matcher.readings_related settled (definitions.reading_sound (depth + 1))).1

/-- What is settled stays settled at every greater depth. -/
theorem Settled.add {depth : Nat} (settled : definitions.Settled subject capacity depth)
    (extra : Nat) : definitions.Settled subject capacity (depth + extra) := by
  induction extra with
  | zero => exact settled
  | succ extra ih => exact ih.succ

/-- Where nothing changes any more, no deeper call does anything else. -/
theorem Settled.above {depth : Nat} (settled : definitions.Settled subject capacity depth)
    (extra slot : Nat) :
    (definitions.reading (depth + extra) slot).Related (nesting subject capacity) Eq
      (definitions.reading depth slot) := by
  induction extra with
  | zero => exact .refl (fun _ => rfl) _
  | succ extra ih => exact (settled.add extra slot).trans ih

variable (definitions subject)

/-- A way to begin a call: a definition, an offset, and whether there is a store. -/
abbrev Opening : Type := Fin definitions.length × Fin (subject.length + 1) × Bool

variable (capacity)

/-- Whether a call comes to an end at a depth. -/
def Finishes (depth : Nat) (opening : definitions.Opening subject) : Prop :=
  (definitions.reading depth opening.1 subject (if opening.2.2 then capacity else none)
    opening.2.1).ending ≠ .exhausted

instance (depth : Nat) : DecidablePred (definitions.Finishes subject capacity depth) :=
  fun _ => inferInstanceAs (Decidable (_ ≠ _))

/-- The calls that come to an end at a depth. -/
def finished (depth : Nat) : Finset (definitions.Opening subject) :=
  Finset.univ.filter (definitions.Finishes subject capacity depth)

/-- There are no more calls than the allotted depth has room for. -/
theorem card_finished_lt (depth : Nat) :
    (definitions.finished subject capacity depth).card < definitions.depthFor subject := by
  have most := Finset.card_le_univ (definitions.finished subject capacity depth)
  simp only [Fintype.card_prod, Fintype.card_fin, Fintype.card_bool] at most
  unfold depthFor
  have order : definitions.length * ((subject.length + 1) * 2) =
      2 * definitions.length * (subject.length + 1) := by
    rw [Nat.mul_comm (subject.length + 1) 2, ← Nat.mul_assoc, Nat.mul_comm definitions.length 2]
  omega

variable {definitions subject capacity}

/-- The capacity with which a call begins is one of the two that matter. -/
theorem nesting_capacities (stored : Bool) :
    (nesting subject capacity).capacities (if stored then capacity else none) := by
  cases stored
  · exact .inl rfl
  · exact .inr rfl

/-- A call that comes to an end does so at every greater depth. -/
theorem finished_subset (depth : Nat) :
    definitions.finished subject capacity depth ⊆
      definitions.finished subject capacity (depth + 1) := by
  intro opening member
  have finishes := (Finset.mem_filter.mp member).2
  have deeper := definitions.reading_deepens subject capacity depth opening.1 _ opening.2.1
    (nesting_capacities opening.2.2) (Nat.le_of_lt_succ opening.2.1.isLt)
  refine Finset.mem_filter.mpr ⟨Finset.mem_univ opening, ?_⟩
  rcases deeper.eq_or_cut with same | ⟨_, exhausted⟩
  · exact fun exhausted => finishes ((congrArg Effect.ending same).trans exhausted)
  · exact absurd exhausted finishes

/-- Where one more level finishes no further call, nothing changes any more. -/
theorem settled_of_subset {depth : Nat}
    (subset : definitions.finished subject capacity (depth + 2) ⊆
      definitions.finished subject capacity (depth + 1)) :
    definitions.Settled subject capacity (depth + 1) := by
  intro slot kept offset among inside
  by_cases outside : definitions.length ≤ slot
  · have missing : definitions.find? slot = none := by
      rw [find?, List.getElem?_eq_none outside]
      rfl
    rw [reading, reading, missing]
    exact .refl (fun _ => rfl) _
  · have deeper := definitions.reading_deepens subject capacity (depth + 1) slot kept offset among
      inside
    rcases deeper.eq_or_cut with same | ⟨_, exhausted⟩
    · rw [← same]
      exact .refl (fun _ => rfl) _
    · refine .cut trivial ?_
      obtain ⟨stored, chosen⟩ : ∃ stored : Bool, kept = if stored then capacity else none := by
        rcases among with rfl | rfl
        · exact ⟨false, rfl⟩
        · exact ⟨true, rfl⟩
      let opening : definitions.Opening subject :=
        ⟨⟨slot, Nat.lt_of_not_le outside⟩, ⟨offset, Nat.lt_succ_of_le inside⟩, stored⟩
      have unfinished : opening ∉ definitions.finished subject capacity (depth + 1) := by
        intro member
        have finishes := (Finset.mem_filter.mp member).2
        exact finishes (chosen ▸ exhausted)
      by_contra finishes
      refine unfinished (subset (Finset.mem_filter.mpr ⟨Finset.mem_univ opening, ?_⟩))
      exact fun exhausted => finishes (chosen ▸ exhausted)

/-- One more level of nesting finishes a further call, or nothing changes any more. -/
theorem settled_or_card_lt (depth : Nat) :
    definitions.Settled subject capacity (depth + 1) ∨
      (definitions.finished subject capacity (depth + 1)).card <
        (definitions.finished subject capacity (depth + 2)).card := by
  by_cases subset : definitions.finished subject capacity (depth + 2) ⊆
      definitions.finished subject capacity (depth + 1)
  · exact .inl (settled_of_subset subset)
  · exact .inr (Finset.card_lt_card ((finished_subset (depth + 1)).ssubset_of_not_subset subset))

/-- Every level of nesting finishes a further call until nothing changes any more. -/
theorem settled_or_card (depth : Nat) :
    definitions.Settled subject capacity (depth + 1) ∨
      depth + 1 ≤ (definitions.finished subject capacity (depth + 2)).card := by
  induction depth with
  | zero =>
    rcases settled_or_card_lt 0 with settled | more
    · exact .inl settled
    · exact .inr (Nat.lt_of_le_of_lt (Nat.zero_le _) more)
  | succ depth ih =>
    rcases ih with settled | many
    · exact .inl settled.succ
    · rcases settled_or_card_lt (depth + 1) with settled | more
      · exact .inl settled
      · exact .inr (Nat.lt_of_le_of_lt many more)

/-- The depth allotted to a subject is deep enough for every call. -/
theorem settled_depthFor :
    definitions.Settled subject capacity (definitions.depthFor subject) := by
  rcases settled_or_card (definitions.depthFor subject - 1) with settled | many
  · exact settled
  · have few := definitions.card_finished_lt subject capacity (definitions.depthFor subject - 1 + 2)
    unfold depthFor at few many
    omega

/-- A call of a definition does what the definition does, if that comes to an end. -/
theorem reading_depthFor {slot : Nat} {matcher : Matcher}
    (defined : definitions.find? slot = some matcher) {offset : Nat}
    (inside : offset ≤ subject.length)
    (ends : ((matcher.readingsUnder definitions subject).span subject capacity offset).ending ≠
      .exhausted) :
    definitions.reading (definitions.depthFor subject) slot subject capacity offset =
      (matcher.readingsUnder definitions subject).span subject capacity offset := by
  have settled : definitions.Settled subject capacity (definitions.depthFor subject) :=
    settled_depthFor
  have deeper := settled slot capacity offset (.inr rfl) inside
  rw [reading, defined] at deeper
  rcases deeper.eq_or_cut with same | ⟨_, exhausted⟩
  · exact same.symm
  · exact absurd exhausted ends

end Definitions

/-! ## More depth than needed -/

/-- Effects that are the same, unless the steps run out in both. -/
def Effect.SameIfEnds {α : Type} (left right : Effect α) : Prop :=
  left = right ∨ left.ending = .exhausted ∧ right.ending = .exhausted

/-- Effects that are the same but for the one being cut short, and but for the other. -/
theorem Effect.sameIfEnds_of_related {α : Type} {left right : Effect α} {partly other : Prop}
    (one : left.Related partly Eq right) (back : right.Related other Eq left) :
    left.SameIfEnds right := by
  rcases one.eq_or_cut with same | ⟨_, ended⟩
  · exact .inl same
  · rcases back.eq_or_cut with same | ⟨_, endedToo⟩
    · exact .inl same.symm
    · exact .inr ⟨ended, endedToo⟩

/-- A matcher does the same with calls nested more deeply than the subject needs. -/
theorem Matcher.readings_deeper (matcher : Matcher) (definitions : Definitions) {subject : Subject}
    {depth : Nat} (enough : definitions.depthFor subject ≤ depth) (capacity : Option Nat)
    {offset : Nat} (inside : offset ≤ subject.length) :
    let deeper := matcher.readings (definitions.reading depth)
    let needed := matcher.readingsUnder definitions subject
    (deeper.span subject capacity offset).SameIfEnds (needed.span subject capacity offset) ∧
      (deeper.value subject capacity offset).SameIfEnds (needed.value subject capacity offset) := by
  obtain ⟨extra, rfl⟩ := Nat.exists_eq_add_of_le enough
  have settled : definitions.Settled subject capacity (definitions.depthFor subject) :=
    Definitions.settled_depthFor
  have back := matcher.readings_related (settled.above extra) (definitions.reading_sound _)
  have onward := matcher.readings_related
    (definitions.reading_deepens_by subject capacity (definitions.depthFor subject) extra)
    (definitions.reading_sound _)
  intro deeper needed
  exact ⟨Effect.sameIfEnds_of_related (back.1 capacity offset (.inr rfl) inside)
      (onward.1 capacity offset (.inr rfl) inside),
    Effect.sameIfEnds_of_related (back.2 capacity offset (.inr rfl) inside)
      (onward.2 capacity offset (.inr rfl) inside)⟩

end TextPattern
