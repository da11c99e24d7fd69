import TextPattern.Proofs.CallDepth
import TextPattern.Proofs.MatcherOutcome

/-!
# The engine and the meaning of matchers

The main statement says that a run of a matcher makes the parse that the matcher means, and fails
where the matcher means a failure. One direction is an induction on the matcher inside an
induction on the depth of calls; the other one is an induction on the derivation, at the depth
that is allotted to the subject.
-/

namespace TextPattern

variable {definitions : Definitions} {subject : Subject} {call : Nat → Reading Span}

/-! ## From outcomes to parses -/

/-- Outcomes of calls are those of the definitions. -/
def Definitions.Describes (definitions : Definitions) (subject : Subject)
    (call : Nat → Reading Span) : Prop :=
  ∀ slot capacity offset result, offset ≤ subject.length →
    (call slot).sliced.outcomes subject capacity offset = some result →
    ∃ matcher outcome, definitions.find? slot = some matcher ∧
      Parses definitions subject capacity matcher offset outcome ∧
      result = outcome.map (.hidden subject offset)

/-- The outcomes of a matcher are those that it means. -/
def Matcher.Described (definitions : Definitions) (subject : Subject)
    (call : Nat → Reading Span) (matcher : Matcher) : Prop :=
  ∀ capacity offset result, offset ≤ subject.length →
    matcher.outcome call subject capacity offset = some result →
    Parses definitions subject capacity matcher offset result

namespace Matcher.Described

variable {inner first second third : Matcher}

section
variable (sound : ∀ slot, (call slot).Sound)
include sound

/-- A chain of outcomes begins every round inside the input. -/
theorem rounds_inside (inner : Matcher) {capacity : Option Nat} {offset : Nat}
    {rounds : List (Parse Value)} (inside : offset ≤ subject.length)
    (each : ∀ start round, (start, round) ∈ stations Parse.stop offset rounds →
      inner.outcome call subject capacity start = some (some round)) :
    (∀ start round, (start, round) ∈ stations Parse.stop offset rounds →
      start ≤ subject.length) ∧ lastStop Parse.stop offset rounds ≤ subject.length := by
  have within : ∀ start round, (start, round) ∈ stations Parse.stop offset rounds →
      start ≤ subject.length → round.stop ≤ subject.length :=
    fun start round member begins => (outcome_within sound inner begins (each start round member)).2
  exact ⟨start_le inside within, lastStop_le inside within⟩

/-- The outcomes of a collection are those that it means. -/
theorem collected (described : inner.Described definitions subject call) (bounds : Bounds) :
    (Matcher.collected inner bounds).Described definitions subject call := by
  intro capacity offset result inside reached
  obtain ⟨rounds, listed, each, onward, ends, rfl⟩ :=
    (outcome_collected_iff sound inside inner bounds).mp reached
  obtain ⟨starts, last⟩ := rounds_inside sound inner inside each
  have parses : ∀ start round, (start, round) ∈ stations Parse.stop offset rounds →
      Parses definitions subject capacity inner start (some round) :=
    fun start round member =>
      described capacity start _ (starts start round member) (each start round member)
  cases ends with
  | full full =>
    rw [Nat.zero_add] at full
    exact .collected_full parses onward full
  | ended unlimited failed =>
    rw [Nat.zero_add] at unlimited ⊢
    have ended := Parses.collected_ended parses onward unlimited
      (described capacity _ _ last failed)
    unfold Parse.ofLeast at ended
    have number : (Parse.listed offset rounds).value.length = rounds.length := List.length_map _
    rw [number] at ended
    by_cases few : rounds.length < bounds.least
    · rw [if_pos few] at ended ⊢
      exact ended
    · rw [if_neg few] at ended ⊢
      exact ended
  | still unlimited final still =>
    rw [Nat.zero_add] at unlimited
    exact .collected_still parses onward unlimited (described capacity _ _ last final) still

/-- The outcomes of separated items are those that they mean. -/
theorem separated (items : first.Described definitions subject call)
    (separators : second.Described definitions subject call) (least : Nat) (terminated : Bool) :
    (Matcher.separated first second least terminated).Described definitions subject call := by
  intro capacity offset result inside reached
  obtain ⟨pairs, listed, each, closing, onward, ends, rfl⟩ :=
    (outcome_separated_iff sound inside first second least terminated).mp reached
  have within : ∀ start pair, (start, pair) ∈ stations (·.2.stop) offset pairs →
      start ≤ subject.length → pair.1.stop ≤ subject.length ∧ pair.2.stop ≤ subject.length := by
    intro start pair member begins
    have item := outcome_within sound first begins (each start pair member)
    have separator := outcome_within sound second item.2 (closing start pair member)
    exact ⟨item.2, separator.2⟩
  have starts := start_le inside fun start pair member begins => (within start pair member begins).2
  have last := lastStop_le inside fun start pair member begins =>
    (within start pair member begins).2
  have itemParses : ∀ start pair, (start, pair) ∈ stations (·.2.stop) offset pairs →
      Parses definitions subject capacity first start (some pair.1) :=
    fun start pair member =>
      items capacity start _ (starts start pair member) (each start pair member)
  have separatorParses : ∀ start pair, (start, pair) ∈ stations (·.2.stop) offset pairs →
      Parses definitions subject capacity second pair.1.stop (some pair.2) :=
    fun start pair member =>
      separators capacity _ _ (within start pair member (starts start pair member)).1
        (closing start pair member)
  cases ends with
  | ended failed =>
    exact .separated_ended terminated itemParses separatorParses onward
      (items capacity _ _ last failed)
  | last final unclosed =>
    have further := outcome_within sound first last final
    exact .separated_last terminated itemParses separatorParses onward
      (items capacity _ _ last final) (separators capacity _ _ further.2 unclosed)
  | still final close still =>
    have further := outcome_within sound first last final
    exact .separated_still terminated itemParses separatorParses onward
      (items capacity _ _ last final) (separators capacity _ _ further.2 close) still

/-- The outcomes of a count with a lookahead are those that it means. -/
theorem countAhead (described : inner.Described definitions subject call) (predicate : Predicate)
    (bounds : Bounds) :
    (Matcher.countAhead predicate bounds inner).Described definitions subject call := by
  intro capacity offset result inside reached
  obtain ⟨units, ⟨each, met, limited, maximal⟩, rfl⟩ :=
    (outcome_countAhead_iff predicate bounds inner inside).mp reached
  rw [Nat.zero_add] at maximal
  simp only [Nat.zero_add] at limited
  let found (start : Nat) : Parse Value :=
    ((inner.outcome call subject none start).join).getD (.sliced subject start start [])
  have asked {start : Nat} {unit : InputUnit} {verdict : Bool}
      (present : subject.accepted? predicate start = some unit)
      (decided : Reading.aheadTest (inner.readings call).span subject offset unit =
        .matched verdict) :
      Parses definitions subject none inner start
        (if verdict then some (found start) else none) := by
    have bounds := Subject.unitAt_bounds (Option.filter_eq_some_iff.mp present).1
    have begins : unit.offset ≤ subject.length := by omega
    obtain ⟨answer, outcome, same⟩ := (aheadTest_iff sound inner offset begins).mp decided
    rw [bounds.1] at outcome begins
    have parsed := described none start answer begins outcome
    cases answer with
    | none =>
      cases same
      exact parsed
    | some parse =>
      cases same
      have chosen : found start = parse := by
        show ((inner.outcome call subject none start).join).getD _ = parse
        rw [outcome]
        rfl
      rw [chosen]
      exact parsed
  have passed : ∀ start unit, (start, unit) ∈ stations InputUnit.next offset units →
      Parses definitions subject none inner start (some (found start)) :=
    fun start unit member => asked (each start unit member) (met start unit member)
  by_cases full : bounds.greatest = some units.length
  · exact .countAhead capacity each passed limited (.inl full)
  · have refusing := maximal.resolve_left full
    cases present : subject.accepted? predicate (lastStop InputUnit.next offset units) with
    | none => exact .countAhead capacity each passed limited (.inr present)
    | some unit =>
      have unlimited : ∀ limit, bounds.greatest = some limit → units.length < limit := by
        intro limit greatest
        have most := limited limit greatest
        have other : limit ≠ units.length := fun same => full (same ▸ greatest)
        omega
      have refused := asked present (refusing unit present)
      exact .countAhead_refused capacity each passed unlimited present refused

/-- The outcomes of a sequence are those that it means. -/
theorem sequence (left : first.Described definitions subject call)
    (right : second.Described definitions subject call) :
    (Matcher.sequence first second).Described definitions subject call := by
  intro capacity offset result inside reached
  rw [outcome_sequence sound inside] at reached
  rcases Outcome.andThen_eq_some reached with ⟨failed, rfl⟩ | ⟨parse, later, found, kept, rfl⟩
  · exact .sequence_first second (left capacity offset _ inside failed)
  · obtain ⟨outcome, follows, rfl⟩ := Outcome.mapParse_eq_some kept
    have within := outcome_within sound first inside found
    have parsed := Parses.sequence (left capacity offset _ inside found)
      (right capacity parse.stop outcome within.2 follows)
    cases outcome <;> exact parsed

/-- The outcomes of a choice are those that it means. -/
theorem choice (left : first.Described definitions subject call)
    (right : second.Described definitions subject call) :
    (Matcher.choice first second).Described definitions subject call := by
  intro capacity offset result inside reached
  rw [outcome_choice sound inside] at reached
  obtain ⟨outcome, chosen, rfl⟩ := Outcome.mapParse_eq_some reached
  rcases Outcome.orElse_eq_some chosen with ⟨parse, found, rfl⟩ | ⟨failed, found⟩
  · exact .choice_first second (left capacity offset _ inside found)
  · exact .choice_second (left capacity offset _ inside failed)
      (right capacity offset outcome inside found)

/-- The outcomes of the longer of two are those that it means. -/
theorem longest (left : first.Described definitions subject call)
    (right : second.Described definitions subject call) :
    (Matcher.longest first second).Described definitions subject call := by
  intro capacity offset result inside reached
  rw [outcome_longest sound inside] at reached
  obtain ⟨outcome, chosen, rfl⟩ := Outcome.mapParse_eq_some reached
  obtain ⟨one, other, foundFirst, foundSecond, rfl⟩ := Outcome.longer_eq_some chosen
  exact .longest (left capacity offset one inside foundFirst)
    (right capacity offset other inside foundSecond)

/-- The outcomes of a separated pair are those that it means. -/
theorem sepOnce (left : first.Described definitions subject call)
    (separator : second.Described definitions subject call)
    (right : third.Described definitions subject call) :
    (Matcher.sepOnce first second third).Described definitions subject call := by
  intro capacity offset result inside reached
  rw [outcome_sepOnce sound inside] at reached
  rcases Outcome.andThen_eq_some reached with ⟨failed, rfl⟩ | ⟨before, rest, found, going, rfl⟩
  · exact .sepOnce_left second third (left capacity offset _ inside failed)
  · have leads := left capacity offset _ inside found
    have within := outcome_within sound first inside found
    rcases Outcome.andThen_eq_some going with ⟨failed, rfl⟩ | ⟨middle, later, closed, kept, rfl⟩
    · exact .sepOnce_separator third leads (separator capacity _ _ within.2 failed)
    · obtain ⟨outcome, follows, rfl⟩ := Outcome.mapParse_eq_some kept
      have further := outcome_within sound second within.2 closed
      have parsed := Parses.sepOnce leads (separator capacity _ _ within.2 closed)
        (right capacity middle.stop outcome further.2 follows)
      cases outcome with
      | none => exact parsed
      | some last => simpa [Parse.map, Parse.after] using parsed

/-- The outcomes of an enclosed matcher are those that it means. -/
theorem enclosed (head : first.Described definitions subject call)
    (inner : second.Described definitions subject call)
    (tail : third.Described definitions subject call) :
    (Matcher.enclosed first second third).Described definitions subject call := by
  intro capacity offset result inside reached
  rw [outcome_enclosed sound inside] at reached
  rcases Outcome.andThen_eq_some reached with ⟨failed, rfl⟩ | ⟨before, rest, found, going, rfl⟩
  · exact .enclosed_head second third (head capacity offset _ inside failed)
  · have leads := head capacity offset _ inside found
    have within := outcome_within sound first inside found
    rcases Outcome.andThen_eq_some going with ⟨failed, rfl⟩ | ⟨middle, later, filled, kept, rfl⟩
    · exact .enclosed_inner third leads (inner capacity _ _ within.2 failed)
    · obtain ⟨outcome, follows, rfl⟩ := Outcome.mapParse_eq_some kept
      have further := outcome_within sound second within.2 filled
      have parsed := Parses.enclosed leads (inner capacity _ _ within.2 filled)
        (tail capacity middle.stop outcome further.2 follows)
      cases outcome with
      | none => exact parsed
      | some last => simpa [Parse.map, Parse.after] using parsed

/-- The outcomes of a capture are those that it means. -/
theorem captured (described : inner.Described definitions subject call) (slot : Nat) :
    (Matcher.captured slot inner).Described definitions subject call := by
  intro capacity offset result inside reached
  rw [outcome_captured sound inside] at reached
  by_cases known : Reading.hasSlot capacity slot = true
  · rw [if_pos known] at reached
    obtain ⟨outcome, found, rfl⟩ := Outcome.mapParse_eq_some reached
    refine .captured ?_ (described capacity offset outcome inside found)
    intro limit same
    rw [same] at known
    exact of_decide_eq_true known
  · rw [if_neg known] at reached
    cases reached
    cases capacity with
    | none => exact absurd rfl known
    | some limit =>
      refine .captured_missing inner offset (Nat.le_of_not_lt fun less => known ?_)
      exact decide_eq_true less

/-- The outcomes of a branch are those that it means. -/
theorem branch (probe : first.Described definitions subject call)
    (accepted : second.Described definitions subject call)
    (otherwise : third.Described definitions subject call) :
    (Matcher.branch first second third).Described definitions subject call := by
  intro capacity offset result inside reached
  rw [outcome_branch sound inside] at reached
  cases asked : first.outcome call subject capacity offset with
  | none =>
    rw [asked] at reached
    cases reached
  | some verdict =>
    rw [asked] at reached
    obtain ⟨outcome, found, rfl⟩ := Outcome.mapParse_eq_some reached
    refine .branch (probe capacity offset verdict inside asked) ?_
    by_cases chosen : verdict.isSome = true
    · rw [if_pos chosen] at found ⊢
      exact accepted capacity offset outcome inside found
    · rw [if_neg chosen] at found ⊢
      exact otherwise capacity offset outcome inside found

end

end Matcher.Described

/-- Every outcome of a matcher is one that it means, where this holds of the calls. -/
theorem Matcher.described (sound : ∀ slot, (call slot).Sound)
    (calls : definitions.Describes subject call) (matcher : Matcher) :
    matcher.Described definitions subject call := by
  induction matcher with
  | collected inner bounds ih => exact Described.collected sound ih bounds
  | separated item separator least terminated items separators =>
    exact Described.separated sound items separators least terminated
  | countAhead predicate bounds ahead ih => exact Described.countAhead sound ih predicate bounds
  | literal text =>
    intro capacity offset result inside reached
    rw [outcome_literal text inside] at reached
    cases reached
    exact .literal capacity text offset
  | one predicate =>
    intro capacity offset result inside reached
    rw [outcome_one predicate inside] at reached
    cases reached
    exact .one capacity predicate offset
  | empty =>
    intro capacity offset result inside reached
    rw [outcome_empty inside] at reached
    cases reached
    exact .empty capacity offset
  | atStart =>
    intro capacity offset result inside reached
    rw [outcome_atStart inside] at reached
    cases reached
    exact .atStart capacity offset
  | atEnd =>
    intro capacity offset result inside reached
    rw [outcome_atEnd inside] at reached
    cases reached
    exact .atEnd capacity offset
  | count predicate bounds condition =>
    intro capacity offset result inside reached
    obtain ⟨units, ⟨each, met, limited, maximal⟩, rfl⟩ :=
      (outcome_count_iff predicate bounds condition inside).mp reached
    rw [Nat.zero_add] at maximal
    simp only [Nat.zero_add] at limited
    refine .count capacity each (fun start unit member => ?_) limited (maximal.imp_right ?_)
    · exact Ending.matched.inj (met start unit member)
    · exact fun refusing unit present => Ending.matched.inj (refusing unit present)
  | repeated inner bounds ih =>
    intro capacity offset result inside reached
    rw [outcome_repeated sound inside] at reached
    obtain ⟨outcome, found, rfl⟩ := Outcome.mapParse_eq_some reached
    exact .repeated (Described.collected sound ih bounds capacity offset outcome inside found)
  | sequence first second left right => exact Described.sequence sound left right
  | choice first second left right => exact Described.choice sound left right
  | longest first second left right => exact Described.longest sound left right
  | sepOnce left separator right first middle last =>
    exact Described.sepOnce sound first middle last
  | enclosed head inner tail before middle after =>
    exact Described.enclosed sound before middle after
  | mapped inner converter ih =>
    intro capacity offset result inside reached
    rw [outcome_mapped inner converter inside] at reached
    obtain ⟨outcome, found, rfl⟩ := Option.map_eq_some_iff.mp reached
    exact .mapped converter (ih capacity offset outcome inside found)
  | captured slot inner ih => exact Described.captured sound ih slot
  | branch probe accepted otherwise asked yes no => exact Described.branch sound asked yes no
  | branchIf test accepted otherwise yes no =>
    intro capacity offset result inside reached
    rw [outcome_branchIf sound inside] at reached
    obtain ⟨outcome, found, rfl⟩ := Outcome.mapParse_eq_some reached
    refine .branchIf ?_
    by_cases chosen : test (subject.viewFrom offset) = true
    · rw [if_pos chosen] at found ⊢
      exact yes capacity offset outcome inside found
    · rw [if_neg chosen] at found ⊢
      exact no capacity offset outcome inside found
  | boxed inner ih =>
    intro capacity offset result inside reached
    rw [outcome_boxed sound inside] at reached
    obtain ⟨outcome, found, rfl⟩ := Outcome.mapParse_eq_some reached
    exact .boxed (ih capacity offset outcome inside found)
  | undefined =>
    intro capacity offset result inside reached
    cases reached
  | handle slot =>
    intro capacity offset result inside reached
    obtain ⟨matcher, outcome, defined, parsed, rfl⟩ :=
      calls slot capacity offset result inside reached
    exact .handle defined parsed
  | reference slot =>
    intro capacity offset result inside reached
    obtain ⟨matcher, outcome, defined, parsed, rfl⟩ :=
      calls slot capacity offset result inside reached
    exact .reference defined parsed

/-- Calls come to the outcomes of the definitions, however deeply they may be nested. -/
theorem Definitions.reading_describes (definitions : Definitions) (subject : Subject)
    (depth : Nat) : definitions.Describes subject (definitions.reading depth) := by
  induction depth with
  | zero =>
    intro slot capacity offset result inside reached
    cases reached
  | succ depth ih =>
    intro slot capacity offset result inside reached
    rw [Definitions.reading] at reached
    cases defined : definitions.find? slot with
    | none =>
      rw [defined] at reached
      cases reached
    | some matcher =>
      rw [defined] at reached
      have sound := definitions.reading_sound depth
      dsimp only at reached
      rw [Matcher.outcomes_hidden sound matcher inside] at reached
      obtain ⟨outcome, found, rfl⟩ := Outcome.mapParse_eq_some reached
      have described := matcher.described sound ih capacity offset outcome inside found
      exact ⟨matcher, outcome, rfl, described, rfl⟩

/-! ## From parses to outcomes -/

/-- What calls do at the depth that is allotted to a subject. -/
abbrev Definitions.calls (definitions : Definitions) (subject : Subject) : Nat → Reading Span :=
  definitions.reading (definitions.depthFor subject)

/-- A call comes to the outcome of its definition with the value hidden. -/
theorem Definitions.outcomes_calls {slot : Nat} {matcher : Matcher}
    (defined : definitions.find? slot = some matcher) {capacity : Option Nat} {offset : Nat}
    (inside : offset ≤ subject.length) {result : Option (Parse Value)}
    (reached : matcher.outcome (definitions.calls subject) subject capacity offset =
      some result) :
    (definitions.calls subject slot).sliced.outcomes subject capacity offset =
      some (result.map (.hidden subject offset)) := by
  have sound := definitions.reading_sound (definitions.depthFor subject)
  have spanned := @Matcher.outcomes_span _ subject capacity offset sound matcher inside
  rw [reached, Outcome.mapParse_some] at spanned
  have ends : ((matcher.readingsUnder definitions subject).span subject capacity offset).ending ≠
      .exhausted := by
    intro exhausted
    have nothing := Effect.parse?_eq_nothing.mpr (.inr exhausted)
    exact absurd (nothing.symm.trans spanned) nofun
  have same := Definitions.reading_depthFor defined inside ends
  have spanSound := (matcher.readings_sound sound).span
  rw [(sound slot).outcomes_sliced inside, Reading.outcomes, same]
  refine (spanSound.outcomes_sliced inside).symm.trans ?_
  rw [Matcher.outcomes_hidden sound matcher inside, reached]
  rfl

namespace Matcher

variable (sound : ∀ slot, (call slot).Sound) {capacity : Option Nat} {offset : Nat}
include sound

/-- Rounds that are parses where they begin inside the input are parses. -/
theorem rounds_reached (inner : Matcher) {rounds : List (Parse Value)}
    (inside : offset ≤ subject.length)
    (each : ∀ start round, (start, round) ∈ stations Parse.stop offset rounds →
      start ≤ subject.length → inner.outcome call subject capacity start = some (some round)) :
    (∀ start round, (start, round) ∈ stations Parse.stop offset rounds →
      inner.outcome call subject capacity start = some (some round)) ∧
    lastStop Parse.stop offset rounds ≤ subject.length := by
  have starts := start_le inside fun start round member begins =>
    (outcome_within sound inner begins (each start round member begins)).2
  have reached : ∀ start round, (start, round) ∈ stations Parse.stop offset rounds →
      inner.outcome call subject capacity start = some (some round) :=
    fun start round member => each start round member (starts start round member)
  exact ⟨reached, (Described.rounds_inside sound inner inside reached).2⟩

/-- A collection comes to the outcome of a chain of rounds that ends. -/
theorem collected_reached (inner : Matcher) (bounds : Bounds) {rounds : List (Parse Value)}
    {listed : Option (Parse (List Value))} (inside : offset ≤ subject.length)
    (each : ∀ start round, (start, round) ∈ stations Parse.stop offset rounds →
      start ≤ subject.length → inner.outcome call subject capacity start = some (some round))
    (onward : ∀ start round, (start, round) ∈ stations Parse.stop offset rounds →
      round.stop ≠ start)
    (ends : lastStop Parse.stop offset rounds ≤ subject.length →
      RoundsEnd bounds (inner.outcome call subject capacity) 0 offset rounds listed) :
    (collected inner bounds).outcome call subject capacity offset =
      some (listed.map (.map .list)) := by
  obtain ⟨reached, last⟩ := rounds_reached sound inner inside each
  exact (outcome_collected_iff sound inside inner bounds).mpr
    ⟨rounds, listed, reached, onward, ends last, rfl⟩

/-- Separated items come to the outcome of a chain of items that ends. -/
theorem separated_reached (item separator : Matcher) (least : Nat) (terminated : Bool)
    {pairs : List (Parse Value × Parse Value)} {listed : Parse (List Value)}
    (inside : offset ≤ subject.length)
    (items : ∀ start pair, (start, pair) ∈ stations (·.2.stop) offset pairs →
      start ≤ subject.length → item.outcome call subject capacity start = some (some pair.1))
    (separators : ∀ start pair, (start, pair) ∈ stations (·.2.stop) offset pairs →
      pair.1.stop ≤ subject.length →
      separator.outcome call subject capacity pair.1.stop = some (some pair.2))
    (onward : ∀ start pair, (start, pair) ∈ stations (·.2.stop) offset pairs → pair.2.stop ≠ start)
    (ends : lastStop (·.2.stop) offset pairs ≤ subject.length →
      Reading.ItemsEnd terminated (item.outcome call subject capacity)
        (separator.outcome call subject capacity) offset pairs listed) :
    (separated item separator least terminated).outcome call subject capacity offset =
      some (listed.ofLeast least) := by
  have within : ∀ start pair, (start, pair) ∈ stations (·.2.stop) offset pairs →
      start ≤ subject.length → pair.1.stop ≤ subject.length ∧ pair.2.stop ≤ subject.length := by
    intro start pair member begins
    have first := outcome_within sound item begins (items start pair member begins)
    have second := outcome_within sound separator first.2 (separators start pair member first.2)
    exact ⟨first.2, second.2⟩
  have stops := fun start pair member begins => (within start pair member begins).2
  have starts := start_le inside stops
  refine (outcome_separated_iff sound inside item separator least terminated).mpr
    ⟨pairs, listed, fun start pair member => ?_, fun start pair member => ?_, onward,
      ends (lastStop_le inside stops), rfl⟩
  · exact items start pair member (starts start pair member)
  · exact separators start pair member (within start pair member (starts start pair member)).1

/-- Where a lookahead has an outcome at a unit, it has a verdict. -/
theorem aheadTest_eq (ahead : Matcher) (start : Nat) {predicate : Predicate} {unit : InputUnit}
    (present : subject.accepted? predicate offset = some unit) {found : Option (Parse Value)}
    (asked : offset ≤ subject.length → ahead.outcome call subject none offset = some found) :
    Reading.aheadTest (ahead.readings call).span subject start unit = .matched found.isSome := by
  have bounds := Subject.unitAt_bounds (Option.filter_eq_some_iff.mp present).1
  have begins : unit.offset ≤ subject.length := by omega
  refine (aheadTest_iff sound ahead start begins).mpr ⟨found, ?_, rfl⟩
  rw [bounds.1]
  exact asked (Nat.le_of_lt bounds.2.1)

end Matcher

/-- A matcher comes to the outcome that it means. -/
theorem Parses.reached {capacity : Option Nat} {matcher : Matcher} {offset : Nat}
    {result : Option (Parse Value)}
    (parsed : Parses definitions subject capacity matcher offset result)
    (inside : offset ≤ subject.length) :
    matcher.outcome (definitions.calls subject) subject capacity offset = some result := by
  have sound := definitions.reading_sound (definitions.depthFor subject)
  have within (part : Matcher) {start : Nat} {parse : Parse Value} {kept : Option Nat}
      (begins : start ≤ subject.length)
      (found : part.outcome (definitions.calls subject) subject kept start = some (some parse)) :
      parse.stop ≤ subject.length := (Matcher.outcome_within sound part begins found).2
  induction parsed with
  | literal capacity text offset => exact Matcher.outcome_literal text inside
  | one capacity predicate offset => exact Matcher.outcome_one predicate inside
  | empty capacity offset => exact Matcher.outcome_empty inside
  | atStart capacity offset => exact Matcher.outcome_atStart inside
  | atEnd capacity offset => exact Matcher.outcome_atEnd inside
  | @count capacity predicate bounds condition offset units each met limited maximal =>
    refine (Matcher.outcome_count_iff predicate bounds condition inside).mpr ⟨units, ?_, rfl⟩
    refine ⟨each, fun start unit member => ?_, ?_, ?_⟩
    · exact congrArg Ending.matched (met start unit member)
    · simpa only [Nat.zero_add] using limited
    · rw [Nat.zero_add]
      exact maximal.imp_right fun refusing unit present =>
        congrArg Ending.matched (refusing unit present)
  | @countAhead capacity predicate bounds ahead offset units found each _ limited maximal met =>
    refine (Matcher.outcome_countAhead_iff predicate bounds ahead inside).mpr ⟨units, ?_, rfl⟩
    refine ⟨each, fun start unit member => ?_, ?_, ?_⟩
    · exact Matcher.aheadTest_eq sound ahead offset (each start unit member) (met start unit member)
    · simpa only [Nat.zero_add] using limited
    · rw [Nat.zero_add]
      refine maximal.imp_right fun refusing unit present => ?_
      rw [refusing] at present
      cases present
  | @countAhead_refused capacity predicate bounds ahead offset units found each _ unlimited unit
      present _ met refused =>
    refine (Matcher.outcome_countAhead_iff predicate bounds ahead inside).mpr ⟨units, ?_, rfl⟩
    refine ⟨each, fun start unit member => ?_, fun limit greatest => ?_, .inr ?_⟩
    · exact Matcher.aheadTest_eq sound ahead offset (each start unit member) (met start unit member)
    · have more := unlimited limit greatest
      omega
    · intro other again
      rw [present] at again
      cases again
      exact Matcher.aheadTest_eq sound ahead offset present refused
  | @collected_full capacity inner bounds offset rounds _ onward full each =>
    rw [← Nat.zero_add rounds.length] at full
    exact Matcher.collected_reached sound inner bounds inside each onward fun _ => .full full
  | @collected_ended capacity inner bounds offset rounds _ onward unlimited _ each failed =>
    rw [← Nat.zero_add rounds.length] at unlimited
    refine (Matcher.collected_reached sound inner bounds inside each onward fun last =>
      .ended unlimited (failed last)).trans ?_
    have number : (Parse.listed offset rounds).value.length = rounds.length := List.length_map _
    rw [Parse.ofLeast, number, Nat.zero_add]
    split <;> rfl
  | @collected_still capacity inner bounds offset rounds last _ onward unlimited _ still each
      final =>
    rw [← Nat.zero_add rounds.length] at unlimited
    exact Matcher.collected_reached sound inner bounds inside each onward fun begins =>
      .still unlimited (final begins) still
  | repeated _ all =>
    rw [Matcher.outcome_repeated sound inside, all inside]
    rfl
  | sequence_first second _ failed =>
    rw [Matcher.outcome_sequence sound inside, failed inside]
    rfl
  | @sequence _ first second _ left outcome _ _ leads follows =>
    have found := leads inside
    rw [Matcher.outcome_sequence sound inside, found, Outcome.andThen_some,
      follows (within first inside found)]
    cases outcome <;> rfl
  | choice_first second _ matched =>
    rw [Matcher.outcome_choice sound inside, matched inside]
    rfl
  | choice_second _ _ failed other =>
    rw [Matcher.outcome_choice sound inside, failed inside, other inside]
    rfl
  | longest _ _ one other =>
    rw [Matcher.outcome_longest sound inside, one inside, other inside]
    rfl
  | sepOnce_left separator right _ failed =>
    rw [Matcher.outcome_sepOnce sound inside, failed inside]
    rfl
  | @sepOnce_separator _ left _ _ _ _ _ _ leads failed =>
    have found := leads inside
    rw [Matcher.outcome_sepOnce sound inside, found, Outcome.andThen_some,
      failed (within left inside found)]
    rfl
  | @sepOnce _ left separator _ _ _ _ outcome _ _ _ leads between follows =>
    have found := leads inside
    have closed := between (within left inside found)
    rw [Matcher.outcome_sepOnce sound inside, found, Outcome.andThen_some, closed,
      Outcome.andThen_some, follows (within separator (within left inside found) closed)]
    cases outcome <;> simp [Parse.map, Parse.after]
  | @separated_ended _ item separator least terminated offset pairs _ _ onward _ items separators
      failed =>
    exact Matcher.separated_reached sound item separator least terminated inside items separators
      onward fun last => .ended (failed last)
  | @separated_last _ item separator least terminated offset pairs last _ _ onward _ _ items
      separators final unclosed =>
    exact Matcher.separated_reached sound item separator least terminated inside items separators
      onward fun begins => .last (final begins) (unclosed (within item begins (final begins)))
  | @separated_still _ item separator least terminated offset pairs last _ _ onward _ _ still items
      separators final close =>
    exact Matcher.separated_reached sound item separator least terminated inside items separators
      onward fun begins => .still (final begins) (close (within item begins (final begins))) still
  | enclosed_head inner tail _ failed =>
    rw [Matcher.outcome_enclosed sound inside, failed inside]
    rfl
  | @enclosed_inner _ head _ _ _ _ _ _ leads failed =>
    have found := leads inside
    rw [Matcher.outcome_enclosed sound inside, found, Outcome.andThen_some,
      failed (within head inside found)]
    rfl
  | @enclosed _ head inner _ _ _ _ outcome _ _ _ leads between follows =>
    have found := leads inside
    have filled := between (within head inside found)
    rw [Matcher.outcome_enclosed sound inside, found, Outcome.andThen_some, filled,
      Outcome.andThen_some, follows (within inner (within head inside found) filled)]
    cases outcome <;> simp [Parse.map, Parse.after]
  | mapped converter _ matched =>
    rw [Matcher.outcome_mapped _ converter inside, matched inside]
    rfl
  | @captured_missing limit slot inner offset missing =>
    rw [Matcher.outcome_captured sound inside, if_neg]
    intro present
    have less : slot < limit := of_decide_eq_true present
    omega
  | @captured capacity slot _ _ _ present _ matched =>
    have known : Reading.hasSlot capacity slot = true := by
      cases capacity with
      | none => rfl
      | some limit => exact decide_eq_true (present limit rfl)
    rw [Matcher.outcome_captured sound inside, if_pos known, matched inside]
    rfl
  | branch _ _ asked taken =>
    rw [Matcher.outcome_branch sound inside, asked inside]
    dsimp only
    rw [taken inside]
    rfl
  | branchIf _ taken =>
    rw [Matcher.outcome_branchIf sound inside, taken inside]
    rfl
  | boxed _ matched =>
    rw [Matcher.outcome_boxed sound inside, matched inside]
    rfl
  | handle defined _ matched => exact Definitions.outcomes_calls defined inside (matched inside)
  | reference defined _ matched => exact Definitions.outcomes_calls defined inside (matched inside)

/-- A matcher comes to an outcome exactly where it means that outcome. -/
theorem Matcher.outcome_iff_parses (matcher : Matcher) {capacity : Option Nat} {offset : Nat}
    (inside : offset ≤ subject.length) {result : Option (Parse Value)} :
    matcher.outcome (definitions.calls subject) subject capacity offset = some result ↔
      Parses definitions subject capacity matcher offset result :=
  ⟨matcher.described (definitions.reading_sound _) (definitions.reading_describes subject _)
    capacity offset result inside, fun parsed => parsed.reached inside⟩

/-- A matcher means one thing at most. -/
theorem Parses.unique {capacity : Option Nat} {matcher : Matcher} {offset : Nat}
    {first second : Option (Parse Value)} (inside : offset ≤ subject.length)
    (one : Parses definitions subject capacity matcher offset first)
    (other : Parses definitions subject capacity matcher offset second) : first = second :=
  Option.some.inj ((one.reached inside).symm.trans (other.reached inside))

/-! ## Runs -/

/-- A state moves to where a parse stops and captures what the parse captures: the log of its
store and every slot go on with the captures of the parse. -/
structure State.Makes (before after : State) (parse : Parse Value) : Prop where
  /-- The position is where the parse stops. -/
  offset : after.offset = parse.stop
  /-- There are as many slots as before, or still no store. -/
  capacity : after.capacity = before.capacity
  /-- The log goes on with the captures of the parse. -/
  captures : ∀ store later, before.captures = some store → after.captures = some later →
    later.captures = store.captures ++ parse.captures
  /-- Every slot goes on with the spans that the parse captures for it. -/
  spansAt : ∀ store later slot, before.captures = some store → after.captures = some later →
    later.spansAt slot = store.spansAt slot ++
      (parse.captures.filter fun capture => capture.1 = slot).map Prod.snd

/-- The state after an effect that stays inside its bounds makes what the effect captured. -/
theorem State.makes_extend {α : Type} {state : State} {effect : Effect α} {limit : Nat}
    (within : effect.Within state.offset limit state.capacity) {parse : Parse Value}
    (stop : effect.stop = parse.stop) (captures : effect.captures = parse.captures) :
    state.Makes (state.extend effect.stop effect.captures) parse := by
  have slots {store : CaptureStore} (stored : state.captures = some store) :
      ∀ capture ∈ effect.captures, capture.1 < store.capacity := by
    intro capture member
    have known := (within.captured capture member).1
    rw [State.capacity, stored] at known
    exact of_decide_eq_true known
  refine ⟨stop, State.capacity_extend state _ _, ?_, ?_⟩
  · intro store later stored extended
    rw [State.extend, stored] at extended
    cases extended
    rw [CaptureStore.captures_replay (slots stored), captures]
  · intro store later slot stored extended
    rw [State.extend, stored] at extended
    cases extended
    rw [CaptureStore.spansAt_replay (slots stored), captures]

namespace Matcher

/-- A run of a matcher makes the parse that the matcher means and fails where the matcher means a
failure, whether it is run for its span or for its value. Where the matcher means nothing, the run
neither matches nor fails. -/
theorem run_makes_parse (matcher : Matcher) (definitions : Definitions) {subject : Subject}
    {state : State} (inside : state.offset ≤ subject.length) :
    let run := matcher.attempt definitions subject state
    let valueRun := matcher.attemptValue definitions subject state
    let means := Parses definitions subject state.capacity matcher state.offset
    (∀ parse, means (some parse) →
      run.ending = .matched (.between state.offset parse.stop) ∧ state.Makes run.state parse ∧
        valueRun.ending = .matched parse.value ∧ state.Makes valueRun.state parse) ∧
    ((∃ span, run.ending = .matched span) ↔ ∃ parse, means (some parse)) ∧
    ((∃ value, valueRun.ending = .matched value) ↔ ∃ parse, means (some parse)) ∧
    ((∃ failure, run.ending = .failed failure) ↔ means none) ∧
    ((∃ failure, valueRun.ending = .failed failure) ↔ means none) := by
  intro run valueRun means
  have sound := definitions.reading_sound (definitions.depthFor subject)
  have within := (matcher.readings_sound sound).value subject state.capacity state.offset inside
  have spanWithin :=
    (matcher.readings_sound sound).span.bounded subject state.capacity state.offset inside
  have spanned := @outcomes_span _ subject state.capacity state.offset sound matcher inside
  have meaning {result : Option (Parse Value)} :=
    @outcome_iff_parses definitions subject matcher state.capacity state.offset inside result
  have ended : run.ending = _ := congrArg Prod.fst (matcher.outcome_attempt definitions inside)
  have moved : run.state = _ := congrArg Prod.snd (matcher.outcome_attempt definitions inside)
  have valueEnded : valueRun.ending = _ :=
    congrArg Prod.fst (matcher.outcome_attemptValue definitions inside)
  have valueMoved : valueRun.state = _ :=
    congrArg Prod.snd (matcher.outcome_attemptValue definitions inside)
  refine ⟨fun parse parsed => ?_, ?_, ?_, ?_, ?_⟩
  · have reached := meaning.mpr parsed
    rw [reached, Outcome.mapParse_some] at spanned
    have effect := Effect.parse?_eq_parse.mp spanned
    have valueEffect := Effect.parse?_eq_parse.mp reached
    refine ⟨?_, ?_, ?_, ?_⟩
    · exact ended.trans (congrArg Effect.ending effect)
    · rw [moved]
      exact State.makes_extend spanWithin (congrArg Effect.stop effect)
        (congrArg Effect.captures effect)
    · exact valueEnded.trans (congrArg Effect.ending valueEffect)
    · rw [valueMoved]
      exact State.makes_extend within (congrArg Effect.stop valueEffect)
        (congrArg Effect.captures valueEffect)
  · rw [ended]
    refine Effect.exists_parse?_iff.trans ?_
    show (∃ parse, (matcher.readings (definitions.calls subject)).span.outcomes _ _ _ = _) ↔ _
    rw [spanned, Outcome.exists_mapParse_iff]
    exact exists_congr fun parse => meaning
  · rw [valueEnded]
    exact Effect.exists_parse?_iff.trans (exists_congr fun parse => meaning)
  · rw [ended]
    refine Effect.parse?_eq_none.symm.trans ?_
    show (matcher.readings (definitions.calls subject)).span.outcomes _ _ _ = _ ↔ _
    rw [spanned, Outcome.mapParse_eq_failed]
    exact meaning
  · rw [valueEnded]
    exact Effect.parse?_eq_none.symm.trans meaning

/-- A definition that calls itself takes the letters ahead one after the other and captures each. -/
theorem run_makes_parse_recursive :
    (State.mk 0 (some (.ofCapacity 1))).offset ≤ (Subject.mk .utf8 [97, 97, 98]).length ∧
      ∃ parse, Parses
          [some (.choice (.sequence (.captured 0 (.literal [97])) (.reference 0)) .empty)]
          ⟨.utf8, [97, 97, 98]⟩ (some 1) (.reference 0) 0 (some parse) ∧
        parse.stop = 2 ∧ parse.captures = [(0, ⟨0, 1⟩), (0, ⟨1, 1⟩)] := by
  have ended : ((reference 0).attempt
      [some (.choice (.sequence (.captured 0 (.literal [97])) (.reference 0)) .empty)]
      ⟨.utf8, [97, 97, 98]⟩ ⟨0, some (.ofCapacity 1)⟩).ending = .matched ⟨0, 2⟩ :=
    rfl
  have moved : ((reference 0).attempt
      [some (.choice (.sequence (.captured 0 (.literal [97])) (.reference 0)) .empty)]
      ⟨.utf8, [97, 97, 98]⟩ ⟨0, some (.ofCapacity 1)⟩).state.offset = 2 := by
    decide +kernel
  have stored : ((reference 0).attempt
      [some (.choice (.sequence (.captured 0 (.literal [97])) (.reference 0)) .empty)]
      ⟨.utf8, [97, 97, 98]⟩ ⟨0, some (.ofCapacity 1)⟩).state.captures.map CaptureStore.captures =
        some [(0, ⟨0, 1⟩), (0, ⟨1, 1⟩)] := by
    decide +kernel
  have begins : (State.mk 0 (some (.ofCapacity 1))).offset ≤
      (Subject.mk .utf8 [97, 97, 98]).length := Nat.zero_le _
  obtain ⟨makes, matched, _⟩ := (reference 0).run_makes_parse _ begins
  obtain ⟨parse, parsed⟩ := matched.mp ⟨⟨0, 2⟩, ended⟩
  obtain ⟨_, made, _⟩ := makes parse parsed
  obtain ⟨later, found, log⟩ := Option.map_eq_some_iff.mp stored
  refine ⟨begins, parse, parsed, ?_, ?_⟩
  · exact made.offset.symm.trans moved
  · have grown := made.captures _ later rfl found
    rw [log] at grown
    exact grown.symm

end Matcher

end TextPattern
