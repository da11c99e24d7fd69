import Mathlib.Data.List.Forall2
import TextPattern.Proofs.ReadingBounds

/-!
# Comparing readings

Two readings are compared step by step: they end alike, at the same place and with the same
captures, and their values stand in a relation. In a partial comparison the left one may also run
out of steps wherever it likes. Every combinator turns compared parts into compared wholes.
-/

namespace TextPattern

open Combinator (Items Tally)

variable {α β α' β' : Type}

/-! ## Compared effects -/

/-- Endings of the same kind, with related values, or with the same failure or misuse. -/
inductive Ending.Related (related : α → β → Prop) : Ending α → Ending β → Prop where
  | matched {left : α} {right : β} (values : related left right) :
    Related related (.matched left) (.matched right)
  | failed (failure : Failure) : Related related (.failed failure) (.failed failure)
  | raised (misuse : Misuse) : Related related (.raised misuse) (.raised misuse)
  | exhausted : Related related .exhausted .exhausted

/-- Only the values of two matches have to be related anew. -/
theorem Ending.Related.imp {related other : α → β → Prop} {left : Ending α} {right : Ending β}
    (alike : left.Related related right)
    (values : ∀ one two, left = .matched one → right = .matched two → related one two →
      other one two) : left.Related other right := by
  cases alike with
  | matched kept => exact .matched (values _ _ rfl rfl kept)
  | failed failure => exact .failed failure
  | raised misuse => exact .raised misuse
  | exhausted => exact .exhausted

/-- Related endings stay so through functions that keep what relates their values. -/
theorem Ending.Related.map {related : α → β → Prop} {other : α' → β' → Prop} {left : Ending α}
    {right : Ending β} {f : α → α'} {g : β → β'} (alike : left.Related related right)
    (kept : ∀ one two, related one two → other (f one) (g two)) :
    (left.map f).Related other (right.map g) := by
  cases alike with
  | matched values => exact .matched (kept _ _ values)
  | failed failure => exact .failed failure
  | raised misuse => exact .raised misuse
  | exhausted => exact .exhausted

/-- Every ending is related to itself. -/
theorem Ending.Related.refl {related : α → α → Prop} (same : ∀ value, related value value)
    (ending : Ending α) : ending.Related related ending := by
  cases ending with
  | matched value => exact .matched (same value)
  | failed failure => exact .failed failure
  | raised misuse => exact .raised misuse
  | exhausted => exact .exhausted

/-- Related endings with equal values are the same. -/
theorem Ending.Related.eq {left right : Ending α} (alike : left.Related Eq right) :
    left = right := by
  cases alike with
  | matched values => rw [values]
  | _ => rfl

/-- Effects with related endings that are the same otherwise. A partial comparison lets the left
one run out of steps. -/
inductive Effect.Related (partly : Prop) (related : α → β → Prop) (left : Effect α)
    (right : Effect β) : Prop where
  | same (ending : left.ending.Related related right.ending) (stop : left.stop = right.stop)
    (captures : left.captures = right.captures)
  | cut (allowed : partly) (ended : left.ending = .exhausted)

namespace Effect

/-- Nothing goes on where the steps ran out. -/
theorem andThen_exhausted {effect : Effect α} {next : α → Nat → Effect β}
    (ended : effect.ending = .exhausted) : (effect.andThen next).ending = .exhausted := by
  rw [andThen, ended]

/-- No other effect takes the place where the steps ran out. -/
theorem orElse_exhausted {effect : Effect α} {other : Failure → Effect α}
    (ended : effect.ending = .exhausted) : (effect.orElse other).ending = .exhausted := by
  rw [orElse, ended]
  exact ended

namespace Related

variable {partly : Prop} {related : α → β → Prop} {relatedLater : α' → β' → Prop}
  {left : Effect α} {right : Effect β}

/-- Effects that stay put are related as their endings are. -/
theorem still {one : Ending α} {other : Ending β} (alike : one.Related related other)
    (offset : Nat) : (Effect.still one offset).Related partly related (.still other offset) :=
  .same alike rfl rfl

/-- Effects that are not cut short end alike. -/
theorem ending_of_not (alike : left.Related partly related right) (whole : ¬ partly) :
    left.ending.Related related right.ending := by
  cases alike with
  | same ending _ _ => exact ending
  | cut allowed _ => exact absurd allowed whole

/-- Every effect is related to itself. -/
theorem refl {related : α → α → Prop} (same : ∀ value, related value value) (effect : Effect α) :
    effect.Related partly related effect :=
  .same (.refl same _) rfl rfl

/-- Effects that are not cut short end at the same place and leave the same captures behind. -/
theorem place_of_not (alike : left.Related partly related right) (whole : ¬ partly) :
    left.stop = right.stop ∧ left.captures = right.captures := by
  cases alike with
  | same _ stop captures => exact ⟨stop, captures⟩
  | cut allowed _ => exact absurd allowed whole

/-- Effects with equal values are the same unless one is cut short. -/
theorem eq_or_cut {left right : Effect α} (alike : left.Related partly Eq right) :
    left = right ∨ partly ∧ left.ending = .exhausted := by
  cases alike with
  | same ended stop captures =>
    left
    obtain ⟨_, _, _⟩ := left
    obtain ⟨_, _, _⟩ := right
    cases ended.eq
    cases stop
    cases captures
    rfl
  | cut allowed ended => exact .inr ⟨allowed, ended⟩

/-- Effects that are the same as a third one, but for being cut short. -/
theorem trans {first second third : Effect α} (one : first.Related partly Eq second)
    (other : second.Related partly Eq third) : first.Related partly Eq third := by
  rcases one.eq_or_cut with same | ⟨allowed, ended⟩
  · rw [same]
    exact other
  · exact .cut allowed ended

/-- What comes after the same captures stays related. -/
theorem after (captures : List Capture) (alike : left.Related partly related right) :
    (left.after captures).Related partly related (right.after captures) := by
  cases alike with
  | same ending stop same => exact .same ending stop (congrArg (captures ++ ·) same)
  | cut allowed ended => exact .cut allowed ended

/-- Related effects go on in related ways. -/
theorem andThen {next : α → Nat → Effect α'} {later : β → Nat → Effect β'}
    (alike : left.Related partly related right)
    (rest : ∀ one other, related one other →
      (next one left.stop).Related partly relatedLater (later other left.stop)) :
    (left.andThen next).Related partly relatedLater (right.andThen later) := by
  cases alike with
  | same ended stop captures =>
    unfold Effect.andThen
    rw [← stop, ← captures]
    generalize left.ending = one at ended ⊢
    generalize right.ending = other at ended ⊢
    cases ended with
    | matched values => exact (rest _ _ values).after left.captures
    | failed failure => exact .same (.failed failure) rfl rfl
    | raised misuse => exact .same (.raised misuse) rfl rfl
    | exhausted => exact .same .exhausted rfl rfl
  | cut allowed ended => exact .cut allowed (andThen_exhausted ended)

/-- Related effects, passed through functions that keep to a relation. -/
theorem map {f : α → α'} {g : β → β'} (alike : left.Related partly related right)
    (kept : ∀ one other, related one other → relatedLater (f one) (g other)) :
    (left.map f).Related partly relatedLater (right.map g) := by
  cases alike with
  | same ended stop captures => exact .same (ended.map kept) stop captures
  | cut allowed ended =>
    refine .cut allowed ?_
    rw [Effect.map, ended]
    rfl

/-- Values passed through functions do not matter where values do not. -/
theorem forget (f : α → α') (g : β → β') (alike : left.Related partly related right) :
    (left.map f).Related partly (fun _ _ => True) (right.map g) :=
  alike.map fun _ _ _ => trivial

/-- Related effects are both failures or neither is. -/
theorem orElse {next : Failure → Effect α} {later : Failure → Effect β}
    (alike : left.Related partly related right)
    (rest : ∀ failure, (next failure).Related partly related (later failure)) :
    (left.orElse next).Related partly related (right.orElse later) := by
  cases alike with
  | same ended stop captures =>
    have whole : left.Related partly related right := .same ended stop captures
    unfold Effect.orElse
    generalize left.ending = one at ended ⊢
    generalize right.ending = other at ended ⊢
    cases ended with
    | failed failure => exact rest failure
    | _ => exact whole
  | cut allowed ended => exact .cut allowed (orElse_exhausted ended)

/-- What related effects cover is the same. -/
theorem covering (offset : Nat) (alike : left.Related partly related right) :
    (left.map fun _ => Span.between offset left.stop).Related partly Eq
      (right.map fun _ => Span.between offset right.stop) := by
  cases alike with
  | same ended stop captures =>
    rw [← stop]
    exact .same (ended.map fun _ _ _ => rfl) stop captures
  | cut allowed ended =>
    refine .cut allowed ?_
    rw [Effect.map, ended]
    rfl

end Related

end Effect

/-! ## Compared readings -/

/-- What two readings are compared on: a subject, capacities of stores, and whether the left one
may be cut short. -/
structure Scope where
  /-- The subject. -/
  subject : Subject
  /-- The capacities. -/
  capacities : Option Nat → Prop
  /-- There may always be no store. -/
  withoutStore : capacities none
  /-- Whether the left reading may run out of steps wherever it likes. -/
  partly : Prop

namespace Reading

variable {scope : Scope}

/-- Readings with related effects from everywhere inside the input. -/
def Related (scope : Scope) (related : α → β → Prop) (left : Reading α) (right : Reading β) :
    Prop :=
  ∀ capacity offset, scope.capacities capacity → offset ≤ scope.subject.length →
    (left scope.subject capacity offset).Related scope.partly related
      (right scope.subject capacity offset)

/-- Readings with the same effects but for their values. -/
abbrev Alike (scope : Scope) (left : Reading α) (right : Reading β) : Prop :=
  left.Related scope (fun _ _ => True) right

namespace Related

variable {related : α → β → Prop} {relatedLater : α' → β' → Prop}
  {left : Reading α} {right : Reading β}

/-- Related values at once. -/
theorem pure {one : α} {other : β} (alike : related one other) :
    Related scope related (Pure.pure one) (Pure.pure other) :=
  fun _ offset _ _ => .still (.matched alike) offset

/-- Every reading is related to itself. -/
theorem refl {related : α → α → Prop} (same : ∀ value, related value value) (reading : Reading α) :
    reading.Related scope related reading :=
  fun _ _ _ _ => .same (.refl same _) rfl rfl

/-- Every reading is alike to itself. -/
theorem itself (reading : Reading α) : reading.Alike scope reading :=
  refl (fun _ => trivial) reading

/-- Readings that are the same as a third one, but for being cut short. -/
theorem trans {first second third : Reading α} (one : first.Related scope Eq second)
    (other : second.Related scope Eq third) : first.Related scope Eq third :=
  fun capacity offset kept inside =>
    (one capacity offset kept inside).trans (other capacity offset kept inside)

/-- Related readings are alike. -/
theorem alike (same : left.Related scope related right) : left.Alike scope right := by
  intro capacity offset kept inside
  cases same capacity offset kept inside with
  | same ended stop captures => exact .same (ended.imp fun _ _ _ _ _ => trivial) stop captures
  | cut allowed ended => exact .cut allowed ended

/-- Related readings go on in related ways. -/
theorem bind {next : α → Reading α'} {later : β → Reading β'}
    (alike : left.Related scope related right) (bounded : left.Bounded)
    (rest : ∀ one other, related one other → (next one).Related scope relatedLater (later other)) :
    Related scope relatedLater (left >>= next) (right >>= later) :=
  fun capacity offset kept inside =>
    (alike capacity offset kept inside).andThen fun one other values =>
      rest one other values capacity _ kept (bounded _ capacity offset inside).inside

/-- Functions that keep to a relation keep readings related. -/
theorem map {f : α → α'} {g : β → β'} (alike : left.Related scope related right)
    (bounded : left.Bounded)
    (kept : ∀ one other, related one other → relatedLater (f one) (g other)) :
    Related scope relatedLater (f <$> left) (g <$> right) :=
  alike.bind bounded fun _ _ values => .pure (kept _ _ values)

/-- Undoing failures keeps readings related. -/
theorem restoring (alike : left.Related scope related right) :
    left.restoring.Related scope related right.restoring :=
  fun capacity offset kept inside =>
    (alike capacity offset kept inside).orElse fun failure => .still (.failed failure) offset

/-- Related readings cover the same. -/
theorem covering (alike : left.Related scope related right) :
    left.covering.Related scope Eq right.covering :=
  fun capacity offset kept inside => (alike capacity offset kept inside).covering offset

/-- Related readings give the same verdict. -/
theorem probe (alike : left.Related scope related right) :
    left.probe.Related scope Eq right.probe := by
  intro capacity offset kept inside
  unfold Reading.probe
  cases alike capacity offset kept inside with
  | same ended _ _ =>
    generalize (left scope.subject capacity offset).ending = one at ended ⊢
    generalize (right scope.subject capacity offset).ending = other at ended ⊢
    refine .still ?_ offset
    cases ended with
    | matched _ => exact .matched rfl
    | failed _ => exact .matched rfl
    | raised misuse => exact .raised misuse
    | exhausted => exact .exhausted
  | cut allowed ended =>
    refine .cut allowed ?_
    rw [ended]
    rfl

/-- The same slice is cut from the same spans. -/
theorem sliced {left right : Reading Span} (alike : left.Related scope Eq right)
    (bounded : left.Bounded) : left.sliced.Related scope Eq right.sliced :=
  alike.bind bounded fun _ _ same => by
    cases same
    exact refl (fun _ => rfl) _

/-- Tests that agree, or run out of steps where they may. -/
def TestsAgree (scope : Scope) (left right : UnitTest) : Prop :=
  ∀ start unit, scope.subject.unitAt unit.offset = some unit →
    left scope.subject start unit = right scope.subject start unit ∨
      scope.partly ∧ left scope.subject start unit = .exhausted

/-- Lookaheads that are related agree as tests. -/
theorem aheadTest (alike : left.Related scope related right) :
    TestsAgree scope (Reading.aheadTest left) (Reading.aheadTest right) := by
  intro start unit found
  have inside := Nat.le_of_lt (Subject.unitAt_bounds found).2.1
  unfold Reading.aheadTest
  cases alike none unit.offset scope.withoutStore inside with
  | same ended _ _ =>
    left
    generalize (left scope.subject none unit.offset).ending = one at ended ⊢
    generalize (right scope.subject none unit.offset).ending = other at ended ⊢
    cases ended <;> rfl
  | cut allowed ended =>
    right
    rw [ended]
    exact ⟨allowed, rfl⟩

/-- Tallies by tests that agree are the same. -/
theorem tally {test other : UnitTest} (predicate : Predicate) (bounds : Bounds) (start : Nat)
    (agree : TestsAgree scope test other) (rounds count stop : Nat) :
    Reading.tally scope.subject predicate bounds (test scope.subject start) rounds count stop =
        Reading.tally scope.subject predicate bounds (other scope.subject start) rounds count stop ∨
      scope.partly ∧ Reading.tally scope.subject predicate bounds (test scope.subject start) rounds
        count stop = .exhausted := by
  induction rounds generalizing count stop with
  | zero =>
    left
    unfold Reading.tally
    rfl
  | succ rounds ih =>
    unfold Reading.tally
    split
    · exact .inl rfl
    · dsimp only
      cases found : scope.subject.unitAt stop with
      | none => exact .inl rfl
      | some unit =>
        dsimp only
        split
        · have begins := (Subject.unitAt_bounds found).1
          rcases agree start unit (by rw [begins, found]) with same | ⟨allowed, exhausted⟩
          · rw [same]
            split
            · exact ih (count + 1) unit.next
            all_goals exact .inl rfl
          · rw [exhausted]
            exact .inr ⟨allowed, rfl⟩
        · exact .inl rfl

/-- Counts by tests that agree are related. -/
theorem count {test other : UnitTest} (predicate : Predicate) (bounds : Bounds)
    (agree : TestsAgree scope test other) :
    (count predicate bounds test).Related scope Eq (count predicate bounds other) := by
  intro capacity offset _ _
  have tallied : (Effect.still (Reading.tally scope.subject predicate bounds
      (test scope.subject offset) (scope.subject.length - offset + 1) 0 offset) offset).Related
      scope.partly Eq (Effect.still (Reading.tally scope.subject predicate bounds
        (other scope.subject offset) (scope.subject.length - offset + 1) 0 offset) offset) := by
    rcases tally predicate bounds offset agree (scope.subject.length - offset + 1) 0 offset with
      same | ⟨allowed, exhausted⟩
    · rw [same]
      exact .still (.refl (fun _ => rfl) _) offset
    · exact .cut allowed exhausted
  unfold Reading.count
  refine tallied.andThen fun one two same => ?_
  rw [same]
  exact .same (.refl (fun _ => rfl) _) rfl rfl

/-- Steps that are related repeat in related ways. -/
theorem repeatFrom (bounds : Bounds) (alike : left.Related scope related right)
    (bounded : left.Bounded) (rounds count : Nat) :
    (repeatFrom bounds left rounds count).Related scope (List.Forall₂ related)
      (repeatFrom bounds right rounds count) := by
  induction rounds generalizing count with
  | zero =>
    intro capacity offset _ _
    unfold Reading.repeatFrom
    split
    · exact .still (.matched .nil) offset
    · exact .still .exhausted offset
  | succ rounds ih =>
    intro capacity offset kept inside
    have same := alike capacity offset kept inside
    have within := bounded scope.subject capacity offset inside
    unfold Reading.repeatFrom
    split
    · exact .still (.matched .nil) offset
    · dsimp only
      cases same with
      | cut allowed ended =>
        rw [ended]
        exact .cut allowed (Effect.andThen_exhausted ended)
      | same ended stop captures =>
        have whole : (left scope.subject capacity offset).Related scope.partly related
          (right scope.subject capacity offset) := .same ended stop captures
        generalize (left scope.subject capacity offset).ending = one at ended ⊢
        generalize (right scope.subject capacity offset).ending = other at ended ⊢
        cases ended with
        | failed failure =>
          dsimp only
          split
          · exact .still (.failed failure) offset
          · exact .still (.matched .nil) offset
        | _ =>
          refine whole.andThen fun one other values => ?_
          split
          · exact .still (.matched (.cons values .nil)) _
          · exact (ih (count + 1) capacity _ kept within.inside).map fun _ _ => .cons values

/-- Repetitions of related steps are related. -/
theorem repeated (bounds : Bounds) (alike : left.Related scope related right)
    (bounded : left.Bounded) :
    (repeated bounds left).Related scope (List.Forall₂ related) (repeated bounds right) :=
  restoring fun capacity offset kept inside =>
    alike.repeatFrom bounds bounded _ 0 capacity offset kept inside

/-- Items that are related and end for the same reason. -/
def ItemsRelated (related : α → β → Prop) (left : Items α) (right : Items β) : Prop :=
  List.Forall₂ related left.values right.values ∧ left.failure = right.failure

/-- Related items between related separators are related, and end for the same reason. -/
theorem itemsFrom {separator otherSeparator : Reading Span} (terminated : Bool)
    (alike : left.Related scope related right) (bounded : left.Bounded)
    (alikeSeparator : separator.Alike scope otherSeparator)
    (boundedSeparator : separator.Bounded)
    (rounds : Nat) :
    (itemsFrom left separator terminated rounds).Related scope (ItemsRelated related)
      (itemsFrom right otherSeparator terminated rounds) := by
  induction rounds with
  | zero => exact fun _ offset _ _ => .still .exhausted offset
  | succ rounds ih =>
    intro capacity offset kept inside
    have first := bounded scope.subject capacity offset inside
    have second := boundedSeparator scope.subject capacity _ first.inside
    have same := alike capacity offset kept inside
    unfold Reading.itemsFrom
    dsimp only
    cases same with
    | cut allowed ended =>
      rw [ended]
      exact .cut allowed rfl
    | same ended stop captures =>
      have whole : (left scope.subject capacity offset).Related scope.partly related
        (right scope.subject capacity offset) := .same ended stop captures
      have sameSeparator := alikeSeparator capacity _ kept first.inside
      rw [← stop, ← captures]
      generalize leftEnded : (left scope.subject capacity offset).ending = one at ended ⊢
      generalize (right scope.subject capacity offset).ending = other at ended ⊢
      cases ended with
      | failed failure => exact .still (.matched ⟨.nil, rfl⟩) offset
      | raised misuse => exact .same (.raised misuse) rfl rfl
      | exhausted => exact .same .exhausted rfl rfl
      | matched values =>
        dsimp only
        cases sameSeparator with
        | cut allowed endedSeparator =>
          rw [endedSeparator]
          refine .cut allowed ?_
          rw [Effect.andThen, leftEnded]
          exact Effect.andThen_exhausted endedSeparator
        | same endedSeparator stopSeparator capturesSeparator =>
          have wholeSeparator : (separator scope.subject capacity
              (left scope.subject capacity offset).stop).Related scope.partly (fun _ _ => True)
              (otherSeparator scope.subject capacity (left scope.subject capacity offset).stop) :=
            .same endedSeparator stopSeparator capturesSeparator
          generalize (separator scope.subject capacity
            (left scope.subject capacity offset).stop).ending = one at endedSeparator ⊢
          generalize (otherSeparator scope.subject capacity
            (left scope.subject capacity offset).stop).ending = two at endedSeparator ⊢
          cases endedSeparator with
          | failed failure =>
            dsimp only
            split
            · exact .still (.matched ⟨.nil, rfl⟩) offset
            · exact .same (.matched ⟨.cons values .nil, rfl⟩) rfl rfl
          | _ =>
            refine whole.andThen fun _ _ _ => wholeSeparator.andThen fun _ _ _ => ?_
            split
            · exact .still (.matched ⟨.cons values .nil, rfl⟩) _
            · refine (ih capacity _ kept second.inside).map fun _ _ later => ?_
              exact ⟨.cons values later.1, later.2⟩

/-- Related items between related separators are related as lists. -/
theorem separated {separator otherSeparator : Reading Span} (least : Nat) (terminated : Bool)
    (alike : left.Related scope related right) (bounded : left.Bounded)
    (alikeSeparator : separator.Alike scope otherSeparator)
    (boundedSeparator : separator.Bounded) :
    (separated left separator least terminated).Related scope (List.Forall₂ related)
      (separated right otherSeparator least terminated) := by
  apply restoring
  intro capacity offset kept inside
  refine (alike.itemsFrom terminated bounded alikeSeparator boundedSeparator
    (scope.subject.length - offset + 1) capacity offset kept inside).andThen ?_
  rintro one other ⟨values, reason⟩
  rw [values.length_eq, reason]
  split
  · exact .still (.failed _) _
  · exact .still (.matched values) _

/-- Parts that are related are related around a separator. -/
theorem sepOnce {middle otherMiddle : Reading Span} {last : Reading α} {otherLast : Reading β}
    (alike : left.Related scope related right) (bounded : left.Bounded)
    (alikeMiddle : middle.Alike scope otherMiddle) (boundedMiddle : middle.Bounded)
    (alikeLast : last.Related scope related otherLast) (boundedLast : last.Bounded) :
    (sepOnce left middle last).Related scope
      (fun one other => related one.1 other.1 ∧ related one.2 other.2)
      (sepOnce right otherMiddle otherLast) :=
  (alike.bind bounded fun _ _ first => alikeMiddle.bind boundedMiddle fun _ _ _ =>
    alikeLast.bind boundedLast fun _ _ second => .pure ⟨first, second⟩).restoring

/-- Parts that are related are related between a head and a tail. -/
theorem enclosed {before otherBefore after otherAfter : Reading Span}
    (alikeBefore : before.Alike scope otherBefore) (boundedBefore : before.Bounded)
    (alike : left.Related scope related right) (bounded : left.Bounded)
    (alikeAfter : after.Alike scope otherAfter) (boundedAfter : after.Bounded) :
    (enclosed before left after).Related scope related (enclosed otherBefore right otherAfter) :=
  alikeBefore.bind boundedBefore fun _ _ _ => alike.bind bounded fun _ _ values =>
    alikeAfter.bind boundedAfter fun _ _ _ => .pure values

section
variable {left right first second : Reading Span}

/-- One after the other. -/
theorem sequence (alike : left.Related scope Eq right) (bounded : left.Bounded)
    (alikeSecond : first.Related scope Eq second) :
    (sequence left first).Related scope Eq (sequence right second) :=
  (alike.bind bounded fun _ _ _ => alikeSecond).covering

/-- The first or the second. -/
theorem choice (alike : left.Related scope Eq right) (alikeSecond : first.Related scope Eq second) :
    (choice left first).Related scope Eq (choice right second) :=
  fun capacity offset kept inside => (alike capacity offset kept inside).orElse fun _ =>
    alikeSecond.restoring capacity offset kept inside

/-- Going on with one of two. -/
theorem branch {probe other : Reading Bool} (alikeProbe : probe.Related scope Eq other)
    (bounded : probe.Bounded) (alike : left.Related scope Eq right)
    (alikeSecond : first.Related scope Eq second) :
    (branch probe left first).Related scope Eq (branch other right second) := by
  refine alikeProbe.bind bounded ?_
  rintro one _ rfl
  cases one
  · exact alikeSecond
  · exact alike

/-- The longer of two. -/
theorem longest (alike : left.Related scope Eq right)
    (alikeSecond : first.Related scope Eq second) :
    (longest left first).Related scope Eq (longest right second) := by
  intro capacity offset kept inside
  unfold Reading.longest
  dsimp only
  rcases (alike capacity offset kept inside).eq_or_cut with same | ⟨allowed, ended⟩
  · rw [same]
    rcases (alikeSecond capacity offset kept inside).eq_or_cut with same | ⟨allowed, ended⟩
    · rw [same]
      exact .refl (fun _ => rfl) _
    · rw [ended]
      generalize (right scope.subject capacity offset).ending = one
      cases one with
      | matched span => exact .cut allowed ended
      | failed failure => exact .cut allowed (Effect.orElse_exhausted ended)
      | _ => exact .refl (fun _ => rfl) _
  · rw [ended]
    exact .cut allowed ended

/-- The span of a match as a capture. -/
theorem captured (slot : Nat) (alike : left.Related scope Eq right) :
    (captured slot left).Related scope Eq (captured slot right) := by
  intro capacity offset kept inside
  unfold Reading.captured
  split
  · refine (alike capacity offset kept inside).andThen fun one other same => ?_
    rw [same]
    exact .same (.matched rfl) rfl rfl
  · exact .still (.failed _) offset

end

/-- The converted value of a match. -/
theorem converted {left right : Reading Value} (converter : Converter)
    (alike : left.Related scope Eq right) :
    (converted left converter).Related scope Eq (converted right converter) := by
  intro capacity offset kept inside
  refine (alike capacity offset kept inside).andThen fun one other same => ?_
  rw [same]
  exact .same (.refl (fun _ => rfl) _) rfl rfl

end Related

end Reading

end TextPattern
