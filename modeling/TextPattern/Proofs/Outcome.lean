import TextPattern.Proofs.Comparison
import TextPattern.Proofs.Parsing

/-!
# Effects as outcomes

The outcome of an effect is the parse that it makes or its failure; an effect that breaks a rule or
runs out of steps has none. Each way to put effects together is described by the outcomes of the
parts.
-/

namespace TextPattern

open Combinator (Items Tally)

variable {α β : Type}

/-- What an effect comes to: a parse, a failure, or nothing that has an outcome. -/
abbrev Outcome (α : Type) : Type := Option (Option (Parse α))

namespace Outcome

/-- Go on from a parse, with the captures that it made in front. -/
def andThen (first : Outcome α) (next : Parse α → Outcome β) : Outcome β :=
  match first with
  | some (some parse) => (next parse).map (Option.map (Parse.after parse.captures))
  | some none => some none
  | none => none

/-- Pass a parse through a function. -/
def mapParse (f : Parse α → Parse β) (outcome : Outcome α) : Outcome β :=
  outcome.map (Option.map f)

/-- Put another outcome in the place of a failure. -/
def orElse (first second : Outcome α) : Outcome α :=
  match first with
  | some (some parse) => some (some parse)
  | some none => second
  | none => none

/-- The longer parse of two outcomes. -/
def longer (first second : Outcome α) : Outcome α :=
  first.bind fun left => second.map (Parse.longer left)

/-- An outcome is nothing, a failure or a parse. -/
@[elab_as_elim]
theorem byCases {motive : Outcome α → Prop} (outcome : Outcome α) (nothing : motive none)
    (failed : motive (some none)) (parsed : ∀ parse, motive (some (some parse))) :
    motive outcome := by
  cases outcome with
  | none => exact nothing
  | some result =>
    cases result with
    | none => exact failed
    | some parse => exact parsed parse

/-- Nothing has no parse to pass on. -/
@[simp] theorem mapParse_none (f : Parse α → Parse β) : mapParse f none = none := rfl

/-- A parse is passed on, and a failure stays one. -/
@[simp] theorem mapParse_some (f : Parse α → Parse β) (parse : Option (Parse α)) :
    mapParse f (some parse) = some (parse.map f) := rfl

/-- A parse is gone on from with its captures in front. -/
@[simp] theorem andThen_some (next : Parse α → Outcome β) (parse : Parse α) :
    andThen (some (some parse)) next = (next parse).mapParse (.after parse.captures) := rfl

/-- Two functions on parses are one. -/
@[simp] theorem mapParse_mapParse {γ : Type} (f : Parse α → Parse β) (g : Parse β → Parse γ)
    (outcome : Outcome α) :
    (outcome.mapParse f).mapParse g = outcome.mapParse fun parse => g (f parse) := by
  cases outcome using byCases with
  | nothing => rfl
  | failed => rfl
  | parsed parse => rfl

/-- A function on parses is one on whichever outcome is taken. -/
@[simp] theorem mapParse_orElse (f : Parse α → Parse β) (first second : Outcome α) :
    (first.orElse second).mapParse f = (first.mapParse f).orElse (second.mapParse f) := by
  cases first using byCases with
  | nothing => rfl
  | failed => rfl
  | parsed parse => rfl

/-- The longer parse stays the longer one where the stops are kept. -/
theorem mapParse_longer {f : Parse α → Parse β} (kept : ∀ parse, (f parse).stop = parse.stop)
    (first second : Outcome α) :
    (first.longer second).mapParse f = (first.mapParse f).longer (second.mapParse f) := by
  cases first using byCases with
  | nothing => rfl
  | failed => cases second using byCases <;> rfl
  | parsed left =>
    cases second using byCases with
    | nothing => rfl
    | failed => rfl
    | parsed right =>
      have compared : (right.stop ≤ left.stop) = ((f right).stop ≤ (f left).stop) := by
        rw [kept right, kept left]
      show some (some (f (if right.stop ≤ left.stop then left else right))) =
        some (some (if (f right).stop ≤ (f left).stop then f left else f right))
      simp only [← compared, apply_ite f]

/-- An outcome that is reached by passing a parse on was reached before. -/
theorem mapParse_eq_some {f : Parse α → Parse β} {outcome : Outcome α} {result : Option (Parse β)}
    (reached : outcome.mapParse f = some result) :
    ∃ before, outcome = some before ∧ result = before.map f := by
  cases outcome with
  | none => cases reached
  | some before => exact ⟨before, rfl, (Option.some.inj reached).symm⟩

/-- What is passed on fails where it failed before. -/
theorem mapParse_eq_failed {f : Parse α → Parse β} {outcome : Outcome α} :
    outcome.mapParse f = some none ↔ outcome = some none := by
  cases outcome using byCases with
  | nothing => exact ⟨nofun, nofun⟩
  | failed => exact ⟨fun _ => rfl, fun _ => rfl⟩
  | parsed parse => exact ⟨nofun, nofun⟩

/-- What is passed on is a parse where it was one before. -/
theorem exists_mapParse_iff {f : Parse α → Parse β} {outcome : Outcome α} :
    (∃ parse, outcome.mapParse f = some (some parse)) ↔ ∃ parse, outcome = some (some parse) := by
  cases outcome using byCases with
  | nothing => exact ⟨nofun, nofun⟩
  | failed => exact ⟨nofun, nofun⟩
  | parsed parse => exact ⟨fun _ => ⟨parse, rfl⟩, fun _ => ⟨f parse, rfl⟩⟩

/-- What goes on fails at once, or goes on from a parse. -/
theorem andThen_eq_some {first : Outcome α} {next : Parse α → Outcome β}
    {result : Option (Parse β)} (reached : first.andThen next = some result) :
    (first = some none ∧ result = none) ∨
      ∃ parse later, first = some (some parse) ∧ next parse = some later ∧
        result = later.map (.after parse.captures) := by
  cases first using byCases with
  | nothing => cases reached
  | failed => exact .inl ⟨rfl, (Option.some.inj reached).symm⟩
  | parsed parse =>
    obtain ⟨later, found, same⟩ := mapParse_eq_some reached
    exact .inr ⟨parse, later, rfl, found, same⟩

/-- Of two outcomes the first counts, or the second where the first is a failure. -/
theorem orElse_eq_some {first second : Outcome α} {result : Option (Parse α)}
    (reached : first.orElse second = some result) :
    (∃ parse, first = some (some parse) ∧ result = some parse) ∨
      (first = some none ∧ second = some result) := by
  cases first using byCases with
  | nothing => cases reached
  | failed => exact .inr ⟨rfl, reached⟩
  | parsed parse => exact .inl ⟨parse, rfl, (Option.some.inj reached).symm⟩

/-- The longer of two outcomes is that of the parses that both come to. -/
theorem longer_eq_some {first second : Outcome α} {result : Option (Parse α)}
    (reached : first.longer second = some result) :
    ∃ left right, first = some left ∧ second = some right ∧ result = Parse.longer left right := by
  obtain ⟨left, foundFirst, mapped⟩ := Option.bind_eq_some_iff.mp reached
  obtain ⟨right, foundSecond, same⟩ := Option.map_eq_some_iff.mp mapped
  exact ⟨left, right, foundFirst, foundSecond, same.symm⟩

end Outcome

namespace Effect

/-- The outcome of an effect. -/
def parse? (effect : Effect α) : Outcome α :=
  match effect.ending with
  | .matched value => some (some ⟨effect.stop, effect.captures, value⟩)
  | .failed _ => some none
  | .raised _ => none
  | .exhausted => none

/-- A parse is all there is to an effect that makes one. -/
theorem parse?_eq_parse {effect : Effect α} {parse : Parse α} :
    effect.parse? = some (some parse) ↔
      effect = ⟨.matched parse.value, parse.stop, parse.captures⟩ := by
  obtain ⟨ending, stop, captures⟩ := effect
  obtain ⟨stop', captures', value⟩ := parse
  cases ending <;> simp [parse?]
  constructor
  · rintro ⟨rfl, rfl, rfl⟩
    exact ⟨rfl, rfl, rfl⟩
  · rintro ⟨rfl, rfl, rfl⟩
    exact ⟨rfl, rfl, rfl⟩

/-- There is a parse where the effect is a match. -/
theorem exists_parse?_iff {effect : Effect α} :
    (∃ value, effect.ending = .matched value) ↔ ∃ parse, effect.parse? = some (some parse) := by
  constructor
  · rintro ⟨value, matched⟩
    exact ⟨⟨effect.stop, effect.captures, value⟩, by rw [parse?, matched]⟩
  · rintro ⟨parse, found⟩
    exact ⟨parse.value, congrArg ending (parse?_eq_parse.mp found)⟩

/-- The outcome is a failure where the effect is one. -/
theorem parse?_eq_none {effect : Effect α} :
    effect.parse? = some none ↔ ∃ failure, effect.ending = .failed failure := by
  unfold parse?
  cases effect.ending <;> simp

/-- There is no outcome where a rule is broken or the steps run out. -/
theorem parse?_eq_nothing {effect : Effect α} :
    effect.parse? = none ↔ (∃ misuse, effect.ending = .raised misuse) ∨
      effect.ending = .exhausted := by
  unfold parse?
  cases effect.ending <;> simp

/-- A value at once is a parse without captures. -/
@[simp] theorem parse?_still_matched (value : α) (offset : Nat) :
    (still (.matched value) offset).parse? = some (some ⟨offset, [], value⟩) := rfl

/-- A failure at once is a failure. -/
@[simp] theorem parse?_still_failed (failure : Failure) (offset : Nat) :
    (still (.failed failure) offset : Effect α).parse? = some none := rfl

/-- Captures in front of an effect are in front of its parse. -/
@[simp] theorem parse?_after (captures : List Capture) (effect : Effect α) :
    (effect.after captures).parse? = effect.parse?.mapParse (.after captures) := by
  unfold parse? after
  cases effect.ending <;> rfl

/-- A function on values is one on the value of the parse. -/
@[simp] theorem parse?_map (f : α → β) (effect : Effect α) :
    (effect.map f).parse? = effect.parse?.mapParse (.map f) := by
  unfold parse? map Ending.map
  cases effect.ending <;> rfl

/-- Going on from an effect is going on from its parse. -/
@[simp] theorem parse?_andThen (effect : Effect α) (next : α → Nat → Effect β) :
    (effect.andThen next).parse? =
      effect.parse?.andThen fun parse => (next parse.value parse.stop).parse? := by
  unfold andThen
  cases ended : effect.ending with
  | matched value =>
    have known : effect.parse? = some (some ⟨effect.stop, effect.captures, value⟩) := by
      rw [parse?, ended]
    rw [parse?_after, known]
    rfl
  | failed failure =>
    rw [parse?_eq_none.mpr ⟨failure, ended⟩]
    rfl
  | _ =>
    have known : effect.parse? = none := by
      rw [parse?, ended]
    rw [known]
    rfl

/-- Another effect in the place of a failure is another outcome there, if that does not depend on
the failure. -/
theorem parse?_orElse (effect : Effect α) {other : Failure → Effect α} {outcome : Outcome α}
    (same : ∀ failure, (other failure).parse? = outcome) :
    (effect.orElse other).parse? = effect.parse?.orElse outcome := by
  unfold orElse
  cases ended : effect.ending with
  | matched value =>
    have known : effect.parse? = some (some ⟨effect.stop, effect.captures, value⟩) := by
      rw [parse?, ended]
    rw [known]
    rfl
  | failed failure =>
    rw [parse?_eq_none.mpr ⟨failure, ended⟩]
    exact same failure
  | _ =>
    have known : effect.parse? = none := by
      rw [parse?, ended]
    rw [known]
    rfl

end Effect

namespace Reading

variable (subject : Subject) (capacity : Option Nat) (offset : Nat)

/-- Going back after a failure makes no other parse. -/
@[simp] theorem parse?_restoring (reading : Reading α) :
    (reading.restoring subject capacity offset).parse? =
      (reading subject capacity offset).parse? := by
  unfold restoring Effect.orElse
  cases ended : (reading subject capacity offset).ending with
  | failed failure => exact (Effect.parse?_eq_none.mpr ⟨failure, ended⟩).symm
  | _ => rfl

/-- What a reading covers. -/
@[simp] theorem parse?_covering (reading : Reading α) :
    (reading.covering subject capacity offset).parse? =
      (reading subject capacity offset).parse?.mapParse fun parse =>
        parse.map fun _ => .between offset parse.stop := by
  show ((reading subject capacity offset).map _).parse? = _
  rw [Effect.parse?_map]
  unfold Effect.parse?
  cases (reading subject capacity offset).ending <;> rfl

/-- A probe asks whether there is a parse. -/
theorem parse?_probe (reading : Reading α) :
    (reading.probe subject capacity offset).parse? =
      (reading subject capacity offset).parse?.map fun verdict =>
        some ⟨offset, [], verdict.isSome⟩ := by
  unfold probe Effect.parse?
  cases (reading subject capacity offset).ending <;> rfl

/-- One reading after another parses the second from where the first stops. -/
@[simp] theorem parse?_bind (reading : Reading α) (next : α → Reading β) :
    ((reading >>= next) subject capacity offset).parse? =
      (reading subject capacity offset).parse?.andThen fun parse =>
        (next parse.value subject capacity parse.stop).parse? :=
  Effect.parse?_andThen _ _

/-- A function on the value of a reading is one on the value of its parse. -/
@[simp] theorem parse?_functor (f : α → β) (reading : Reading α) :
    ((f <$> reading) subject capacity offset).parse? =
      (reading subject capacity offset).parse?.mapParse (.map f) := by
  rw [map_apply, Effect.parse?_map]

end Reading

end TextPattern
