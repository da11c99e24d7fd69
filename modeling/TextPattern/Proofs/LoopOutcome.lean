import TextPattern.Proofs.Outcome

/-!
# Loops as chains

A loop comes to an outcome where its rounds form a chain that ends as loops end: at the limit, at
a round that fails, or at one that consumes nothing. Both directions are stated for counts of
units, for repetitions and for separated items. The rounds that are allotted to a loop suffice
because every round but the last makes progress.
-/

namespace TextPattern

open Combinator (Items Tally)

variable {α β : Type}

/-! ## Chains -/

section
variable {stop : α → Nat} {offset limit : Nat} {first : α} {later : List α}

/-- Something holds along a chain where it holds of the first member and along the others. -/
theorem forall_stations_cons {holds : Nat → α → Prop} :
    (∀ start member, (start, member) ∈ stations stop offset (first :: later) →
        holds start member) ↔
      holds offset first ∧
        ∀ start member, (start, member) ∈ stations stop (stop first) later →
          holds start member := by
  have unfolded : stations stop offset (first :: later) =
      (offset, first) :: stations stop (stop first) later := rfl
  rw [unfolded]
  constructor
  · intro all
    exact ⟨all _ _ List.mem_cons_self, fun _ _ inside => all _ _ (List.mem_cons_of_mem _ inside)⟩
  · rintro ⟨one, others⟩ start member inside
    rcases List.mem_cons.mp inside with same | inside
    · cases same
      exact one
    · exact others start member inside

/-- Without members there are no stations. -/
theorem forall_stations_nil {holds : Nat → α → Prop} :
    ∀ start member, (start, member) ∈ stations stop offset [] → holds start member :=
  fun _ _ inside => absurd inside List.not_mem_nil

/-- A chain stops inside the input where all its members do. -/
theorem lastStop_le {members : List α} (inside : offset ≤ limit)
    (within : ∀ start member, (start, member) ∈ stations stop offset members →
      start ≤ limit → stop member ≤ limit) : lastStop stop offset members ≤ limit := by
  induction members generalizing offset with
  | nil => exact inside
  | cons first later ih =>
    obtain ⟨further, others⟩ := forall_stations_cons.mp within
    exact ih (further inside) others

/-- Every member of a chain begins inside the input where all members stop there. -/
theorem start_le {members : List α} (inside : offset ≤ limit)
    (within : ∀ start member, (start, member) ∈ stations stop offset members →
      start ≤ limit → stop member ≤ limit) :
    ∀ start member, (start, member) ∈ stations stop offset members → start ≤ limit := by
  induction members generalizing offset with
  | nil => exact forall_stations_nil
  | cons first later ih =>
    obtain ⟨further, others⟩ := forall_stations_cons.mp within
    exact forall_stations_cons.mpr ⟨inside, ih (further inside) others⟩

/-- A chain that makes progress is no longer than the stretch that is left to it. -/
theorem length_le_of_progress {members : List α} (inside : offset ≤ limit)
    (within : ∀ start member, (start, member) ∈ stations stop offset members →
      start ≤ limit → start < stop member ∧ stop member ≤ limit) :
    members.length ≤ limit - offset := by
  induction members generalizing offset with
  | nil => exact Nat.zero_le _
  | cons first later ih =>
    obtain ⟨further, others⟩ := forall_stations_cons.mp within
    have progress := further inside
    have rest := ih progress.2 others
    rw [List.length_cons]
    omega

end

namespace Parse

/-- A round in front of the rounds after it. -/
def cons (round : Parse α) (rest : Parse (List α)) : Parse (List α) :=
  ⟨rest.stop, round.captures ++ rest.captures, round.value :: rest.value⟩

end Parse

/-- A limit that is not exceeded is not reached, or it is reached right now. -/
theorem Bounds.reached_iff {bounds : Bounds} {count : Nat}
    (limited : ∀ limit, bounds.greatest = some limit → count ≤ limit) :
    bounds.reached count = true ↔ bounds.greatest = some count := by
  unfold Bounds.reached
  cases greatest : bounds.greatest with
  | none => simp
  | some limit =>
    have most := limited limit greatest
    simp only [Option.any_some, decide_eq_true_eq, Option.some.injEq]
    omega

/-- A count below every limit has reached none. -/
theorem Bounds.not_reached {bounds : Bounds} {count : Nat}
    (unlimited : ∀ limit, bounds.greatest = some limit → count < limit) :
    bounds.reached count = false := by
  unfold Bounds.reached
  cases greatest : bounds.greatest with
  | none => rfl
  | some limit =>
    have more := unlimited limit greatest
    rw [Option.any_some, decide_eq_false_iff_not]
    omega

/-- A limit that is neither exceeded nor reached leaves room. -/
theorem Bounds.lt_of_not_reached {bounds : Bounds} {count : Nat}
    (unreached : bounds.reached count = false) (limit : Nat)
    (greatest : bounds.greatest = some limit) : count < limit := by
  rw [Bounds.reached, greatest, Option.any_some, decide_eq_false_iff_not] at unreached
  omega

/-! ## Repetitions -/

/-- Rounds from an offset on that come to a result, when some were counted before. -/
inductive RoundsEnd (bounds : Bounds) (step : Nat → Outcome α) (count offset : Nat)
    (rounds : List (Parse α)) : Option (Parse (List α)) → Prop where
  | full (full : bounds.greatest = some (count + rounds.length)) :
    RoundsEnd bounds step count offset rounds (some (.listed offset rounds))
  | ended
    (unlimited : ∀ limit, bounds.greatest = some limit → count + rounds.length < limit)
    (failed : step (lastStop Parse.stop offset rounds) = some none) :
    RoundsEnd bounds step count offset rounds
      (if count + rounds.length < bounds.least then none else some (.listed offset rounds))
  | still
    (unlimited : ∀ limit, bounds.greatest = some limit → count + rounds.length < limit)
    {last : Parse α} (final : step (lastStop Parse.stop offset rounds) = some (some last))
    (still : last.stop = lastStop Parse.stop offset rounds) :
    RoundsEnd bounds step count offset rounds (some (.listed offset (rounds ++ [last])))

/-- No round before the end. -/
theorem roundsEnd_nil {bounds : Bounds} {step : Nat → Outcome α} {count offset : Nat}
    {result : Option (Parse (List α))} :
    RoundsEnd bounds step count offset [] result ↔
      (bounds.greatest = some count ∧ result = some ⟨offset, [], []⟩) ∨
      (∀ limit, bounds.greatest = some limit → count < limit) ∧
        ((step offset = some none ∧
            result = if count < bounds.least then none else some ⟨offset, [], []⟩) ∨
          ∃ last, step offset = some (some last) ∧ last.stop = offset ∧
            result = some ⟨last.stop, last.captures, [last.value]⟩) := by
  constructor
  · intro ends
    cases ends with
    | full full => exact .inl ⟨full, rfl⟩
    | ended unlimited failed => exact .inr ⟨unlimited, .inl ⟨failed, rfl⟩⟩
    | @still unlimited last final still =>
      refine .inr ⟨unlimited, .inr ⟨last, final, still, ?_⟩⟩
      simp [Parse.listed, lastStop]
  · rintro (⟨full, rfl⟩ | ⟨unlimited, ⟨failed, rfl⟩ | ⟨last, final, still, rfl⟩⟩)
    · exact .full full
    · exact .ended unlimited failed
    · have ends : RoundsEnd bounds step count offset [] (some (.listed offset ([] ++ [last]))) :=
        .still unlimited final still
      simpa [Parse.listed, lastStop] using ends

/-- One more round in front. -/
theorem roundsEnd_cons {bounds : Bounds} {step : Nat → Outcome α} {count offset : Nat}
    {round : Parse α} {rounds : List (Parse α)} {result : Option (Parse (List α))} :
    RoundsEnd bounds step count offset (round :: rounds) result ↔
      ∃ rest, RoundsEnd bounds step (count + 1) round.stop rounds rest ∧
        result = rest.map (.cons round) := by
  have shifted : count + (round :: rounds).length = count + 1 + rounds.length := by
    rw [List.length_cons]
    omega
  constructor
  · intro ends
    cases ends with
    | full full => exact ⟨_, .full (shifted ▸ full), rfl⟩
    | ended unlimited failed =>
      refine ⟨_, .ended (shifted ▸ unlimited) failed, ?_⟩
      rw [shifted]
      split <;> rfl
    | still unlimited final still => exact ⟨_, .still (shifted ▸ unlimited) final still, rfl⟩
  · rintro ⟨rest, ends, rfl⟩
    cases ends with
    | full full => exact .full (shifted ▸ full)
    | ended unlimited failed =>
      have whole : RoundsEnd bounds step count offset (round :: rounds) _ :=
        .ended (shifted ▸ unlimited) failed
      rw [shifted] at whole
      by_cases few : count + 1 + rounds.length < bounds.least
      · rw [if_pos few] at whole ⊢
        exact whole
      · rw [if_neg few] at whole ⊢
        exact whole
    | still unlimited final still => exact .still (shifted ▸ unlimited) final still

namespace Reading

section
variable {bounds : Bounds} {step : Reading α} {subject : Subject} {capacity : Option Nat}

/-- The outcomes of a step, by offset. -/
abbrev outcomes (step : Reading α) (subject : Subject) (capacity : Option Nat) (offset : Nat) :
    Outcome α := (step subject capacity offset).parse?

/-- One round of a repetition. -/
theorem parse?_repeatFrom_succ (rounds count offset : Nat) :
    (repeatFrom bounds step (rounds + 1) count subject capacity offset).parse? =
      if bounds.reached count then some (some ⟨offset, [], []⟩)
      else
        match step.outcomes subject capacity offset with
        | none => none
        | some none => if count < bounds.least then some none else some (some ⟨offset, [], []⟩)
        | some (some round) =>
          if round.stop = offset then some (some ⟨round.stop, round.captures, [round.value]⟩)
          else
            (repeatFrom bounds step rounds (count + 1) subject capacity round.stop).parse?.mapParse
              (.cons round) := by
  conv => lhs; unfold repeatFrom
  split
  · rfl
  · dsimp only
    cases ended : (step subject capacity offset).ending with
    | failed failure =>
      rw [outcomes, Effect.parse?_eq_none.mpr ⟨failure, ended⟩]
      dsimp only
      split <;> rfl
    | matched value =>
      have known : step.outcomes subject capacity offset =
          some (some ⟨(step subject capacity offset).stop,
            (step subject capacity offset).captures, value⟩) := by
        rw [outcomes, Effect.parse?, ended]
      rw [Effect.parse?_andThen, known, ← outcomes, known, Outcome.andThen_some]
      dsimp only
      split
      · simp [Parse.after]
      · rw [Effect.parse?_map]
        cases (repeatFrom bounds step rounds (count + 1) subject capacity
          (step subject capacity offset).stop).parse? with
        | none => rfl
        | some rest => cases rest <;> rfl
    | _ =>
      have known : step.outcomes subject capacity offset = none := by
        rw [outcomes, Effect.parse?, ended]
      rw [Effect.parse?_andThen, ← outcomes, known]
      rfl

/-- A repetition that comes to a result runs through a chain of rounds. -/
theorem exists_rounds {fuel count offset : Nat} {result : Option (Parse (List α))}
    (limited : ∀ limit, bounds.greatest = some limit → count ≤ limit)
    (reached : (repeatFrom bounds step fuel count subject capacity offset).parse? = some result) :
    ∃ rounds : List (Parse α),
      (∀ start round, (start, round) ∈ stations Parse.stop offset rounds →
        step.outcomes subject capacity start = some (some round)) ∧
      (∀ start round, (start, round) ∈ stations Parse.stop offset rounds → round.stop ≠ start) ∧
      RoundsEnd bounds (step.outcomes subject capacity) count offset rounds result := by
  induction fuel generalizing count offset result with
  | zero =>
    unfold repeatFrom at reached
    by_cases full : bounds.reached count = true
    · rw [if_pos full] at reached
      cases reached
      exact ⟨[], forall_stations_nil, forall_stations_nil,
        roundsEnd_nil.mpr (.inl ⟨(Bounds.reached_iff limited).mp full, rfl⟩)⟩
    · rw [if_neg full] at reached
      cases reached
  | succ fuel ih =>
    rw [parse?_repeatFrom_succ] at reached
    by_cases full : bounds.reached count = true
    · rw [if_pos full] at reached
      cases reached
      exact ⟨[], forall_stations_nil, forall_stations_nil,
        roundsEnd_nil.mpr (.inl ⟨(Bounds.reached_iff limited).mp full, rfl⟩)⟩
    rw [if_neg full] at reached
    have unlimited := Bounds.lt_of_not_reached (Bool.eq_false_iff.mpr full)
    cases found : step.outcomes subject capacity offset using Outcome.byCases with
    | nothing =>
      rw [found] at reached
      cases reached
    | failed =>
      rw [found] at reached
      refine ⟨[], forall_stations_nil, forall_stations_nil,
        roundsEnd_nil.mpr (.inr ⟨unlimited, .inl ⟨found, ?_⟩⟩)⟩
      dsimp only at reached
      by_cases few : count < bounds.least
      · rw [if_pos few] at reached ⊢
        exact (Option.some.inj reached).symm
      · rw [if_neg few] at reached ⊢
        exact (Option.some.inj reached).symm
    | parsed round =>
      rw [found] at reached
      dsimp only at reached
      by_cases still : round.stop = offset
      · rw [if_pos still] at reached
        cases reached
        exact ⟨[], forall_stations_nil, forall_stations_nil,
          roundsEnd_nil.mpr (.inr ⟨unlimited, .inr ⟨round, found, still, rfl⟩⟩)⟩
      · rw [if_neg still] at reached
        obtain ⟨rest, deeper, same⟩ := Outcome.mapParse_eq_some reached
        obtain ⟨rounds, each, onward, ends⟩ := ih unlimited deeper
        exact ⟨round :: rounds, forall_stations_cons.mpr ⟨found, each⟩,
          forall_stations_cons.mpr ⟨still, onward⟩, roundsEnd_cons.mpr ⟨rest, ends, same⟩⟩

/-- Before another round the limit is not reached. -/
theorem RoundsEnd.unreached {bounds : Bounds} {step : Nat → Outcome α} {count offset : Nat}
    {round : Parse α} {rounds : List (Parse α)} {result : Option (Parse (List α))}
    (ends : RoundsEnd bounds step count offset (round :: rounds) result) :
    bounds.reached count = false := by
  apply Bounds.not_reached
  intro limit greatest
  cases ends with
  | full full =>
    rw [full] at greatest
    cases greatest
    rw [List.length_cons]
    omega
  | ended unlimited _ => exact Nat.lt_of_le_of_lt (Nat.le_add_right _ _) (unlimited limit greatest)
  | still unlimited _ _ =>
    exact Nat.lt_of_le_of_lt (Nat.le_add_right _ _) (unlimited limit greatest)

/-- A chain of rounds makes a repetition come to its result. -/
theorem repeatFrom_of_rounds {fuel count offset : Nat} {rounds : List (Parse α)}
    {result : Option (Parse (List α))}
    (each : ∀ start round, (start, round) ∈ stations Parse.stop offset rounds →
      step.outcomes subject capacity start = some (some round))
    (onward : ∀ start round, (start, round) ∈ stations Parse.stop offset rounds →
      round.stop ≠ start)
    (ends : RoundsEnd bounds (step.outcomes subject capacity) count offset rounds result)
    (enough : rounds.length < fuel) :
    (repeatFrom bounds step fuel count subject capacity offset).parse? = some result := by
  induction rounds generalizing count offset result fuel with
  | nil =>
    obtain ⟨fuel, rfl⟩ := Nat.exists_eq_add_of_lt enough
    rw [parse?_repeatFrom_succ]
    rcases roundsEnd_nil.mp ends with ⟨full, rfl⟩ |
      ⟨unlimited, ⟨failed, rfl⟩ | ⟨last, final, still, rfl⟩⟩
    · have reached : bounds.reached count = true := by
        rw [Bounds.reached, full]
        exact decide_eq_true (Nat.le_refl count)
      rw [if_pos reached]
    · rw [Bounds.not_reached unlimited, failed]
      simp only [Bool.false_eq_true, ↓reduceIte]
      split <;> rfl
    · rw [Bounds.not_reached unlimited, final]
      exact if_pos still
  | cons round rounds ih =>
    obtain ⟨fuel, rfl⟩ := Nat.exists_eq_add_of_lt enough
    obtain ⟨found, each⟩ := forall_stations_cons.mp each
    obtain ⟨further, onward⟩ := forall_stations_cons.mp onward
    have unreached := RoundsEnd.unreached ends
    obtain ⟨rest, later, rfl⟩ := roundsEnd_cons.mp ends
    have room : rounds.length < (round :: rounds).length + fuel := by
      rw [List.length_cons]
      omega
    have deeper := ih each onward later room
    rw [parse?_repeatFrom_succ, unreached, found]
    dsimp only
    rw [if_neg further, deeper]
    rfl

/-- A parse of a bounded step lies between where it began and the end of the input. -/
theorem Bounded.parse_within {reading : Reading α} (bounded : reading.Bounded) {offset : Nat}
    {parse : Parse α} (inside : offset ≤ subject.length)
    (found : reading.outcomes subject capacity offset = some (some parse)) :
    offset ≤ parse.stop ∧ parse.stop ≤ subject.length := by
  have within := bounded subject capacity offset inside
  rw [Effect.parse?_eq_parse.mp found] at within
  exact ⟨within.forward, within.inside⟩

/-- A repetition comes to a result where a chain of rounds does. -/
theorem parse?_repeated_iff (bounded : step.Bounded) {offset : Nat}
    (inside : offset ≤ subject.length) {result : Option (Parse (List α))} :
    (repeated bounds step).outcomes subject capacity offset = some result ↔
      ∃ rounds : List (Parse α),
        (∀ start round, (start, round) ∈ stations Parse.stop offset rounds →
          step.outcomes subject capacity start = some (some round)) ∧
        (∀ start round, (start, round) ∈ stations Parse.stop offset rounds →
          round.stop ≠ start) ∧
        RoundsEnd bounds (step.outcomes subject capacity) 0 offset rounds result := by
  have whole : (repeated bounds step).outcomes subject capacity offset =
      (repeatFrom bounds step (subject.length - offset + 1) 0 subject capacity offset).parse? :=
    parse?_restoring subject capacity offset _
  rw [whole]
  constructor
  · exact exists_rounds fun _ _ => Nat.zero_le _
  · rintro ⟨rounds, each, onward, ends⟩
    apply repeatFrom_of_rounds each onward ends
    apply Nat.lt_succ_of_le
    apply length_le_of_progress inside
    intro start round member begins
    have within := bounded.parse_within begins (each start round member)
    have further := onward start round member
    omega

end

/-! ## Counts of units -/

section
variable {subject : Subject} {predicate : Predicate} {bounds : Bounds}
  {test : InputUnit → Ending Bool}

/-- An accepted unit begins where it was asked for and makes progress inside the input. -/
theorem accepted?_within {offset : Nat} {unit : InputUnit}
    (found : subject.accepted? predicate offset = some unit) :
    offset < unit.next ∧ unit.next ≤ subject.length := by
  have present := (Option.filter_eq_some_iff.mp found).1
  exact ⟨(Subject.unitAt_bounds present).2.2, Subject.unitAt_next_le present⟩

/-- One unit of a count. -/
theorem tally_succ (rounds count stop : Nat) :
    tally subject predicate bounds test (rounds + 1) count stop =
      if bounds.reached count then .matched ⟨count, stop, false⟩
      else
        match subject.accepted? predicate stop with
        | none => .matched ⟨count, stop, (subject.unitAt stop).isNone⟩
        | some unit =>
          match test unit with
          | .matched true => tally subject predicate bounds test rounds (count + 1) unit.next
          | .matched false => .matched ⟨count, stop, false⟩
          | .failed failure => .failed failure
          | .raised misuse => .raised misuse
          | .exhausted => .exhausted := by
  conv => lhs; unfold tally
  split
  · rfl
  · unfold Subject.accepted?
    cases subject.unitAt stop with
    | none => rfl
    | some unit =>
      dsimp only [Option.filter]
      split <;> rfl

/-- Units that are accepted and pass a test follow each other, up to the limit or to a unit that
is not accepted or does not pass. -/
structure Counted (subject : Subject) (predicate : Predicate) (bounds : Bounds)
    (test : InputUnit → Ending Bool) (count offset : Nat) (units : List InputUnit) : Prop where
  /-- Each unit is accepted where it begins. -/
  each : ∀ start unit, (start, unit) ∈ stations InputUnit.next offset units →
    subject.accepted? predicate start = some unit
  /-- Each unit passes the test. -/
  met : ∀ start unit, (start, unit) ∈ stations InputUnit.next offset units →
    test unit = .matched true
  /-- The limit is not exceeded. -/
  limited : ∀ limit, bounds.greatest = some limit → count + units.length ≤ limit
  /-- There is a reason to stop. -/
  maximal : bounds.greatest = some (count + units.length) ∨
    ∀ unit, subject.accepted? predicate (lastStop InputUnit.next offset units) = some unit →
      test unit = .matched false

/-- One more unit in front. -/
theorem counted_cons {count offset : Nat} {unit : InputUnit} {units : List InputUnit} :
    Counted subject predicate bounds test count offset (unit :: units) ↔
      subject.accepted? predicate offset = some unit ∧ test unit = .matched true ∧
        Counted subject predicate bounds test (count + 1) unit.next units := by
  have shifted : count + (unit :: units).length = count + 1 + units.length := by
    rw [List.length_cons]
    omega
  constructor
  · rintro ⟨each, met, limited, maximal⟩
    obtain ⟨found, each⟩ := forall_stations_cons.mp each
    obtain ⟨passed, met⟩ := forall_stations_cons.mp met
    exact ⟨found, passed, each, met, shifted ▸ limited, shifted ▸ maximal⟩
  · rintro ⟨found, passed, each, met, limited, maximal⟩
    exact ⟨forall_stations_cons.mpr ⟨found, each⟩, forall_stations_cons.mpr ⟨passed, met⟩,
      shifted ▸ limited, shifted ▸ maximal⟩

/-- A tally counts units. -/
theorem exists_units {fuel count offset : Nat} {found : Tally}
    (limited : ∀ limit, bounds.greatest = some limit → count ≤ limit)
    (ended : tally subject predicate bounds test fuel count offset = .matched found) :
    ∃ units, Counted subject predicate bounds test count offset units ∧
      found.count = count + units.length ∧
      found.stop = lastStop InputUnit.next offset units := by
  induction fuel generalizing count offset with
  | zero =>
    unfold tally at ended
    by_cases full : bounds.reached count = true
    · rw [if_pos full] at ended
      cases ended
      exact ⟨[], ⟨forall_stations_nil, forall_stations_nil, limited,
        .inl ((Bounds.reached_iff limited).mp full)⟩, rfl, rfl⟩
    · rw [if_neg full] at ended
      cases ended
  | succ fuel ih =>
    rw [tally_succ] at ended
    by_cases full : bounds.reached count = true
    · rw [if_pos full] at ended
      cases ended
      exact ⟨[], ⟨forall_stations_nil, forall_stations_nil, limited,
        .inl ((Bounds.reached_iff limited).mp full)⟩, rfl, rfl⟩
    rw [if_neg full] at ended
    have unlimited := Bounds.lt_of_not_reached (Bool.eq_false_iff.mpr full)
    cases present : subject.accepted? predicate offset with
    | none =>
      rw [present] at ended
      cases ended
      refine ⟨[], ⟨forall_stations_nil, forall_stations_nil, limited, .inr ?_⟩, rfl, rfl⟩
      intro unit again
      change subject.accepted? predicate offset = _ at again
      rw [present] at again
      cases again
    | some unit =>
      rw [present] at ended
      dsimp only at ended
      cases verdict : test unit with
      | matched passed =>
        rw [verdict] at ended
        cases passed with
        | true =>
          obtain ⟨units, counted, number, stop⟩ := ih unlimited ended
          refine ⟨unit :: units, counted_cons.mpr ⟨present, verdict, counted⟩, ?_, stop⟩
          rw [number, List.length_cons]
          omega
        | false =>
          cases ended
          refine ⟨[], ⟨forall_stations_nil, forall_stations_nil, limited, .inr ?_⟩, rfl, rfl⟩
          intro other again
          change subject.accepted? predicate offset = _ at again
          rw [present] at again
          cases again
          exact verdict
      | _ =>
        rw [verdict] at ended
        cases ended

/-- Counted units are tallied. -/
theorem tally_of_counted {fuel count offset : Nat} {units : List InputUnit}
    (counted : Counted subject predicate bounds test count offset units)
    (enough : units.length < fuel) :
    ∃ atEnd, tally subject predicate bounds test fuel count offset =
      .matched ⟨count + units.length, lastStop InputUnit.next offset units, atEnd⟩ := by
  induction units generalizing count offset fuel with
  | nil =>
    obtain ⟨fuel, rfl⟩ := Nat.exists_eq_add_of_lt enough
    rw [tally_succ]
    rcases counted.maximal with full | refused
    · have reached := (Bounds.reached_iff counted.limited).mpr full
      rw [List.length_nil, Nat.add_zero] at reached
      exact ⟨false, if_pos reached⟩
    · split
      · exact ⟨false, rfl⟩
      · change ∀ unit, subject.accepted? predicate offset = some unit → _ at refused
        split
        · exact ⟨_, rfl⟩
        · rename_i unit present
          rw [refused unit present]
          exact ⟨false, rfl⟩
  | cons unit units ih =>
    obtain ⟨fuel, rfl⟩ := Nat.exists_eq_add_of_lt enough
    obtain ⟨present, passed, later⟩ := counted_cons.mp counted
    have room : units.length < (unit :: units).length + fuel := by
      rw [List.length_cons]
      omega
    obtain ⟨atEnd, deeper⟩ := ih later room
    have unreached : bounds.reached count = false := by
      apply Bounds.not_reached
      intro limit greatest
      have most := counted.limited limit greatest
      rw [List.length_cons] at most
      omega
    refine ⟨atEnd, ?_⟩
    rw [tally_succ, unreached, present]
    simp only [Bool.false_eq_true, ↓reduceIte, passed]
    rw [deeper, List.length_cons, lastStop, Nat.add_assoc, Nat.add_comm 1]

/-- A tally does not fail where its test does not. -/
theorem tally_not_failed (decided : ∀ unit failure, test unit ≠ .failed failure)
    (fuel count offset : Nat) (failure : Failure) :
    tally subject predicate bounds test fuel count offset ≠ .failed failure := by
  induction fuel generalizing count offset with
  | zero =>
    unfold tally
    split <;> (intro failed; cases failed)
  | succ fuel ih =>
    rw [tally_succ]
    split
    · intro failed
      cases failed
    · split
      · intro failed
        cases failed
      · rename_i unit _
        split
        · exact ih (count + 1) unit.next
        · intro failed
          cases failed
        · rename_i found failed
          exact absurd failed (decided unit found)
        · intro failed
          cases failed
        · intro failed
          cases failed

/-- A count comes to a result where counted units do, if its test always has a verdict. -/
theorem parse?_count_iff {test : UnitTest} {capacity : Option Nat} {offset : Nat}
    (inside : offset ≤ subject.length)
    (decided : ∀ unit failure, test subject offset unit ≠ .failed failure)
    {result : Option (Parse Span)} :
    (count predicate bounds test).outcomes subject capacity offset = some result ↔
      ∃ units, Counted subject predicate bounds (test subject offset) 0 offset units ∧
        result = if units.length < bounds.least then none
          else some ⟨lastStop InputUnit.next offset units, [],
            .between offset (lastStop InputUnit.next offset units)⟩ := by
  have tallied {found : Tally} (ended : tally subject predicate bounds (test subject offset)
      (subject.length - offset + 1) 0 offset = .matched found) :
      (count predicate bounds test).outcomes subject capacity offset =
        some (if found.count < bounds.least then none
          else some ⟨found.stop, [], .between offset found.stop⟩) := by
    rw [outcomes, count, ended, Effect.parse?_andThen, Effect.parse?_still_matched,
      Outcome.andThen_some]
    dsimp only
    split
    · split <;> rfl
    · rfl
  constructor
  · intro reached
    cases ended : tally subject predicate bounds (test subject offset)
        (subject.length - offset + 1) 0 offset with
    | matched found =>
      obtain ⟨units, counted, number, stop⟩ := exists_units (fun _ _ => Nat.zero_le _) ended
      refine ⟨units, counted, ?_⟩
      rw [tallied ended, number, stop, Nat.zero_add] at reached
      exact (Option.some.inj reached).symm
    | failed failure => exact absurd ended (tally_not_failed decided _ _ _ failure)
    | _ =>
      rw [outcomes, count, ended] at reached
      cases reached
  · rintro ⟨units, counted, rfl⟩
    have room : units.length < subject.length - offset + 1 := by
      apply Nat.lt_succ_of_le
      apply length_le_of_progress inside
      intro start unit member _
      exact accepted?_within (counted.each start unit member)
    obtain ⟨atEnd, ended⟩ := tally_of_counted counted room
    rw [tallied ended, Nat.zero_add]

end

/-! ## Separated items -/

section
variable {item : Reading α} {separator : Reading Span} {separatorValue : Reading Value}
  {subject : Subject} {capacity : Option Nat} {terminated : Bool}

/-- The values of items, without the failure that ended them. -/
abbrev gathered (item : Reading α) (separator : Reading Span) (terminated : Bool) (rounds : Nat)
    (subject : Subject) (capacity : Option Nat) (offset : Nat) : Outcome (List α) :=
  ((itemsFrom item separator terminated rounds).outcomes subject capacity offset).mapParse
    (.map Items.values)

/-- One item with its separator. -/
theorem gathered_succ
    (covered : ∀ offset, offset ≤ subject.length → separator.outcomes subject capacity offset =
      (separatorValue.outcomes subject capacity offset).mapParse fun parse =>
        parse.map fun _ => .between offset parse.stop)
    (bounded : item.Bounded) (rounds : Nat) {offset : Nat} (inside : offset ≤ subject.length) :
    gathered item separator terminated (rounds + 1) subject capacity offset =
      match item.outcomes subject capacity offset with
      | none => none
      | some none => some (some ⟨offset, [], []⟩)
      | some (some first) =>
        match separatorValue.outcomes subject capacity first.stop with
        | none => none
        | some none =>
          some (some (if terminated then ⟨offset, [], []⟩
            else ⟨first.stop, first.captures, [first.value]⟩))
        | some (some second) =>
          if second.stop = offset then
            some (some ⟨second.stop, first.captures ++ second.captures, [first.value]⟩)
          else
            (gathered item separator terminated rounds subject capacity second.stop).mapParse
              (.cons (.closed (first, second))) := by
  rw [gathered, outcomes]
  unfold itemsFrom
  dsimp only
  cases found : item.outcomes subject capacity offset with
  | none =>
    rcases Effect.parse?_eq_nothing.mp found with ⟨misuse, ended⟩ | ended <;>
      (rw [ended]; rfl)
  | some result =>
    cases result with
    | none =>
      obtain ⟨failure, ended⟩ := Effect.parse?_eq_none.mp found
      rw [ended]
      rfl
    | some first =>
      have within := bounded.parse_within inside found
      have same := covered first.stop within.2
      rw [Effect.parse?_eq_parse.mp found]
      dsimp only
      cases foundSeparator : separatorValue.outcomes subject capacity first.stop with
      | none =>
        rw [foundSeparator, Outcome.mapParse_none] at same
        rcases Effect.parse?_eq_nothing.mp same with ⟨misuse, ended⟩ | ended <;>
          (rw [ended]; simp [Effect.andThen, Effect.parse?, Effect.after, ended])
      | some result =>
        cases result with
        | none =>
          rw [foundSeparator, Outcome.mapParse_some] at same
          obtain ⟨failure, ended⟩ := Effect.parse?_eq_none.mp same
          rw [ended]
          dsimp only
          split <;> rfl
        | some second =>
          rw [foundSeparator, Outcome.mapParse_some] at same
          rw [Effect.parse?_eq_parse.mp same]
          dsimp only [Parse.map, Effect.andThen]
          by_cases still : second.stop = offset
          · rw [if_pos still, if_pos still]
            simp [Effect.after, Effect.still, Effect.parse?, Parse.map]
          · rw [if_neg still, if_neg still, Effect.parse?_after, Effect.parse?_after,
              Effect.parse?_map, gathered, outcomes]
            generalize (itemsFrom item separator terminated rounds subject capacity
              second.stop).parse? = rest
            cases rest using Outcome.byCases with
            | nothing => rfl
            | failed => rfl
            | parsed rest => simp [Parse.map, Parse.after, Parse.cons, Parse.closed]

end

/-- Items that come to an end, with the values that count. -/
inductive ItemsEnd (terminated : Bool) (item : Nat → Outcome α) (separator : Nat → Outcome β)
    (offset : Nat) (pairs : List (Parse α × Parse β)) : Parse (List α) → Prop where
  | ended (failed : item (lastStop (·.2.stop) offset pairs) = some none) :
    ItemsEnd terminated item separator offset pairs (.listed offset (pairs.map .closed))
  | last {last : Parse α} (final : item (lastStop (·.2.stop) offset pairs) = some (some last))
    (unclosed : separator last.stop = some none) :
    ItemsEnd terminated item separator offset pairs
      (.listed offset (pairs.map .closed ++ if terminated then [] else [last]))
  | still {last : Parse α × Parse β}
    (final : item (lastStop (·.2.stop) offset pairs) = some (some last.1))
    (close : separator last.1.stop = some (some last.2))
    (still : last.2.stop = lastStop (·.2.stop) offset pairs) :
    ItemsEnd terminated item separator offset pairs
      (.listed offset (pairs.map .closed ++ [.closed last]))

/-- One more item in front. -/
theorem itemsEnd_cons {terminated : Bool} {item : Nat → Outcome α} {separator : Nat → Outcome β}
    {offset : Nat} {pair : Parse α × Parse β} {pairs : List (Parse α × Parse β)}
    {parse : Parse (List α)} :
    ItemsEnd terminated item separator offset (pair :: pairs) parse ↔
      ∃ rest, ItemsEnd terminated item separator pair.2.stop pairs rest ∧
        parse = .cons (.closed pair) rest := by
  constructor
  · intro ends
    cases ends with
    | ended failed => exact ⟨_, .ended failed, rfl⟩
    | last final unclosed => exact ⟨_, .last final unclosed, rfl⟩
    | still final close still => exact ⟨_, .still final close still, rfl⟩
  · rintro ⟨rest, ends, rfl⟩
    cases ends with
    | ended failed => exact .ended failed
    | last final unclosed => exact .last final unclosed
    | still final close still => exact .still final close still

section
variable {item : Reading α} {separator : Reading Span} {separatorValue : Reading Value}
  {subject : Subject} {capacity : Option Nat} {terminated : Bool}

/-- Items that come to an end form a chain with their separators. -/
theorem exists_pairs
    (covered : ∀ offset, offset ≤ subject.length → separator.outcomes subject capacity offset =
      (separatorValue.outcomes subject capacity offset).mapParse fun parse =>
        parse.map fun _ => .between offset parse.stop)
    (bounded : item.Bounded) (boundedSeparator : separatorValue.Bounded) {fuel offset : Nat}
    (inside : offset ≤ subject.length) {result : Option (Parse (List α))}
    (reached : gathered item separator terminated fuel subject capacity offset = some result) :
    ∃ (pairs : List (Parse α × Parse Value)) (parse : Parse (List α)),
      (∀ start pair, (start, pair) ∈ stations (·.2.stop) offset pairs →
        item.outcomes subject capacity start = some (some pair.1)) ∧
      (∀ start pair, (start, pair) ∈ stations (·.2.stop) offset pairs →
        separatorValue.outcomes subject capacity pair.1.stop = some (some pair.2)) ∧
      (∀ start pair, (start, pair) ∈ stations (·.2.stop) offset pairs → pair.2.stop ≠ start) ∧
      ItemsEnd terminated (item.outcomes subject capacity)
        (separatorValue.outcomes subject capacity) offset pairs parse ∧
      result = some parse := by
  induction fuel generalizing offset result with
  | zero => cases reached
  | succ fuel ih =>
    rw [gathered_succ covered bounded fuel inside] at reached
    cases found : item.outcomes subject capacity offset using Outcome.byCases with
    | nothing =>
      rw [found] at reached
      cases reached
    | failed =>
      rw [found] at reached
      cases reached
      exact ⟨[], _, forall_stations_nil, forall_stations_nil, forall_stations_nil,
        .ended found, rfl⟩
    | parsed first =>
      rw [found] at reached
      dsimp only at reached
      have within := bounded.parse_within inside found
      cases close : separatorValue.outcomes subject capacity first.stop using Outcome.byCases with
      | nothing =>
        rw [close] at reached
        cases reached
      | failed =>
        rw [close] at reached
        cases reached
        have ends : ItemsEnd terminated (item.outcomes subject capacity)
            (separatorValue.outcomes subject capacity) offset [] _ := .last found close
        refine ⟨[], _, forall_stations_nil, forall_stations_nil, forall_stations_nil, ends, ?_⟩
        cases terminated <;> simp [Parse.listed, lastStop]
      | parsed second =>
        rw [close] at reached
        dsimp only at reached
        have closed := boundedSeparator.parse_within within.2 close
        by_cases still : second.stop = offset
        · rw [if_pos still] at reached
          cases reached
          have ends : ItemsEnd terminated (item.outcomes subject capacity)
              (separatorValue.outcomes subject capacity) offset [] _ :=
            @ItemsEnd.still _ _ terminated _ _ offset [] (first, second) found close still
          refine ⟨[], _, forall_stations_nil, forall_stations_nil, forall_stations_nil, ends, ?_⟩
          simp [Parse.listed, lastStop, Parse.closed]
        · rw [if_neg still] at reached
          obtain ⟨rest, deeper, same⟩ := Outcome.mapParse_eq_some reached
          obtain ⟨pairs, parse, items, separators, onward, ends, rfl⟩ := ih closed.2 deeper
          refine ⟨(first, second) :: pairs, _, forall_stations_cons.mpr ⟨found, items⟩,
            forall_stations_cons.mpr ⟨close, separators⟩,
            forall_stations_cons.mpr ⟨still, onward⟩, itemsEnd_cons.mpr ⟨parse, ends, rfl⟩, same⟩

/-- A chain of items with their separators makes a loop over items come to an end. -/
theorem gathered_of_pairs
    (covered : ∀ offset, offset ≤ subject.length → separator.outcomes subject capacity offset =
      (separatorValue.outcomes subject capacity offset).mapParse fun parse =>
        parse.map fun _ => .between offset parse.stop)
    (bounded : item.Bounded) (boundedSeparator : separatorValue.Bounded) {fuel offset : Nat}
    (inside : offset ≤ subject.length) {pairs : List (Parse α × Parse Value)}
    {parse : Parse (List α)}
    (items : ∀ start pair, (start, pair) ∈ stations (·.2.stop) offset pairs →
      item.outcomes subject capacity start = some (some pair.1))
    (separators : ∀ start pair, (start, pair) ∈ stations (·.2.stop) offset pairs →
      separatorValue.outcomes subject capacity pair.1.stop = some (some pair.2))
    (onward : ∀ start pair, (start, pair) ∈ stations (·.2.stop) offset pairs →
      pair.2.stop ≠ start)
    (ends : ItemsEnd terminated (item.outcomes subject capacity)
      (separatorValue.outcomes subject capacity) offset pairs parse)
    (enough : pairs.length < fuel) :
    gathered item separator terminated fuel subject capacity offset = some (some parse) := by
  induction pairs generalizing offset parse fuel with
  | nil =>
    obtain ⟨fuel, rfl⟩ := Nat.exists_eq_add_of_lt enough
    rw [gathered_succ covered bounded _ inside]
    cases ends with
    | ended failed =>
      change item.outcomes subject capacity offset = _ at failed
      rw [failed]
      rfl
    | last final unclosed =>
      change item.outcomes subject capacity offset = _ at final
      rw [final]
      dsimp only
      rw [unclosed]
      cases terminated <;> simp [Parse.listed, lastStop]
    | @still last final close still =>
      change item.outcomes subject capacity offset = _ at final
      change last.2.stop = offset at still
      rw [final]
      dsimp only
      rw [close]
      dsimp only
      rw [if_pos still]
      simp [Parse.listed, lastStop, Parse.closed]
  | cons pair pairs ih =>
    obtain ⟨fuel, rfl⟩ := Nat.exists_eq_add_of_lt enough
    obtain ⟨found, items⟩ := forall_stations_cons.mp items
    obtain ⟨close, separators⟩ := forall_stations_cons.mp separators
    obtain ⟨further, onward⟩ := forall_stations_cons.mp onward
    obtain ⟨rest, later, rfl⟩ := itemsEnd_cons.mp ends
    have within := bounded.parse_within inside found
    have closed := boundedSeparator.parse_within within.2 close
    have room : pairs.length < (pair :: pairs).length + fuel := by
      rw [List.length_cons]
      omega
    have deeper := ih closed.2 items separators onward later room
    rw [gathered_succ covered bounded _ inside, found]
    dsimp only
    rw [close]
    dsimp only
    rw [if_neg further, deeper]
    rfl

/-- Separated items come to a result where a chain of items with their separators does. -/
theorem parse?_separated_iff
    (covered : ∀ offset, offset ≤ subject.length → separator.outcomes subject capacity offset =
      (separatorValue.outcomes subject capacity offset).mapParse fun parse =>
        parse.map fun _ => .between offset parse.stop)
    (bounded : item.Bounded) (boundedSeparator : separatorValue.Bounded) (least : Nat)
    {offset : Nat} (inside : offset ≤ subject.length) {result : Option (Parse (List α))} :
    (separated item separator least terminated).outcomes subject capacity offset = some result ↔
      ∃ (pairs : List (Parse α × Parse Value)) (parse : Parse (List α)),
        (∀ start pair, (start, pair) ∈ stations (·.2.stop) offset pairs →
          item.outcomes subject capacity start = some (some pair.1)) ∧
        (∀ start pair, (start, pair) ∈ stations (·.2.stop) offset pairs →
          separatorValue.outcomes subject capacity pair.1.stop = some (some pair.2)) ∧
        (∀ start pair, (start, pair) ∈ stations (·.2.stop) offset pairs →
          pair.2.stop ≠ start) ∧
        ItemsEnd terminated (item.outcomes subject capacity)
          (separatorValue.outcomes subject capacity) offset pairs parse ∧
        result = if parse.value.length < least then none else some parse := by
  have whole : (separated item separator least terminated).outcomes subject capacity offset =
      (gathered item separator terminated (subject.length - offset + 1) subject capacity
        offset).andThen fun parse =>
          if parse.value.length < least then some none
          else some (some ⟨parse.stop, [], parse.value⟩) := by
    refine (parse?_restoring subject capacity offset _).trans ?_
    rw [Effect.parse?_andThen, gathered, outcomes]
    generalize (itemsFrom item separator terminated (subject.length - offset + 1) subject capacity
      offset).parse? = found
    match found with
    | none => rfl
    | some none => rfl
    | some (some parse) =>
      rw [Outcome.andThen_some, Outcome.mapParse_some, Option.map_some, Outcome.andThen_some]
      by_cases few : parse.value.values.length < least
      · simp only [Parse.map, few, ↓reduceIte]
        rfl
      · simp only [Parse.map, few, ↓reduceIte]
        rfl
  rw [whole]
  constructor
  · intro reached
    rcases Outcome.andThen_eq_some reached with ⟨failed, rfl⟩ | ⟨parse, later, found, kept, rfl⟩
    · obtain ⟨_, _, _, _, _, _, wrong⟩ :=
        exists_pairs covered bounded boundedSeparator inside failed
      cases wrong
    · obtain ⟨pairs, _, items, separators, onward, ends, same⟩ :=
        exists_pairs covered bounded boundedSeparator inside found
      cases same
      refine ⟨pairs, parse, items, separators, onward, ends, ?_⟩
      by_cases few : parse.value.length < least
      · rw [if_pos few] at kept ⊢
        cases kept
        rfl
      · rw [if_neg few] at kept ⊢
        cases kept
        simp [Parse.after]
  · rintro ⟨pairs, parse, items, separators, onward, ends, rfl⟩
    have room : pairs.length < subject.length - offset + 1 := by
      apply Nat.lt_succ_of_le
      apply length_le_of_progress inside
      intro start pair member begins
      have first := bounded.parse_within begins (items start pair member)
      have second := boundedSeparator.parse_within first.2 (separators start pair member)
      have further := onward start pair member
      omega
    rw [gathered_of_pairs covered bounded boundedSeparator inside items separators onward ends room,
      Outcome.andThen_some]
    split
    · rfl
    · simp [Parse.after]

end

end Reading

end TextPattern
