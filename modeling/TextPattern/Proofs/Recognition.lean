import TextPattern.Proofs.Adequacy
import TextPattern.Proofs.Runes
import TextPattern.Proofs.Words

/-!
# Matchers that recognise languages

A matcher recognises a language where it always comes to an outcome, consumes only words of the
language, and consumes a word that is ahead whenever what follows the word is of a given kind. The
kind is what a matcher needs that never goes back: it says that the word ends where the matcher
would stop. For every combinator it is stated which kind the whole needs and what the kinds of the
parts have to do with it.
-/

namespace TextPattern

open scoped Computability
open Words

/-- What may follow a word. -/
abbrev Follow : Type := List Nat → Prop

/-- From some offset on, a matcher recognises the words of a language before what may follow. -/
structure Recognises (definitions : Definitions) (subject : Subject) (capacity : Option Nat)
    (least : Nat) (matcher : Matcher) (language : Language Nat) (follow : Follow) : Prop where
  /-- It comes to an outcome, and consumes a word of the language if it succeeds. -/
  decides : ∀ offset, least ≤ offset → offset ≤ subject.length →
    ∃ result, Parses definitions subject capacity matcher offset result ∧
      ∀ parse, result = some parse →
        ∃ word ∈ language, subject.unitsAhead offset = word ++ subject.unitsAhead parse.stop
  /-- It consumes a word of the language that is followed by what may follow. -/
  accepts : ∀ offset word later, least ≤ offset → offset ≤ subject.length → word ∈ language →
    follow later → subject.unitsAhead offset = word ++ later →
    ∃ parse, Parses definitions subject capacity matcher offset (some parse) ∧
      subject.unitsAhead parse.stop = later

/-- A parse lies between where it began and the end of the input. -/
theorem Parses.within {definitions : Definitions} {subject : Subject} {capacity : Option Nat}
    {matcher : Matcher} {offset : Nat} {parse : Parse Value}
    (parsed : Parses definitions subject capacity matcher offset (some parse))
    (inside : offset ≤ subject.length) : offset ≤ parse.stop ∧ parse.stop ≤ subject.length :=
  Matcher.outcome_within (definitions.reading_sound _) matcher inside (parsed.reached inside)

/-- One unit is the accepted one. -/
theorem Parses.of_one {definitions : Definitions} {subject : Subject} {capacity : Option Nat}
    {predicate : Predicate} {offset : Nat} {result : Option (Parse Value)}
    (parsed : Parses definitions subject capacity (.one predicate) offset result) :
    result = (subject.accepted? predicate offset).map fun unit =>
      .sliced subject offset unit.next [] := by
  cases parsed
  rfl

/-- What stands at the end stops there. -/
theorem Parses.of_atEnd {definitions : Definitions} {subject : Subject} {capacity : Option Nat}
    {offset : Nat} {result : Option (Parse Value)}
    (parsed : Parses definitions subject capacity .atEnd offset result) :
    ∀ stop ∈ result.map Parse.stop, subject.length ≤ stop := by
  cases parsed
  split
  · rename_i past
    intro stop same
    cases same
    exact past
  · exact nofun

/-- A sequence fails with a part, or its parts follow each other. -/
theorem Parses.of_sequence {definitions : Definitions} {subject : Subject} {capacity : Option Nat}
    {first second : Matcher} {offset : Nat} {result : Option (Parse Value)}
    (parsed : Parses definitions subject capacity (.sequence first second) offset result) :
    (Parses definitions subject capacity first offset none ∧ result = none) ∨
      ∃ before outcome, Parses definitions subject capacity first offset (some before) ∧
        Parses definitions subject capacity second before.stop outcome ∧
        result.map Parse.stop = outcome.map Parse.stop := by
  cases parsed with
  | sequence_first _ failed => exact .inl ⟨failed, rfl⟩
  | sequence leads follows =>
    refine .inr ⟨_, _, leads, follows, ?_⟩
    rw [Option.map_map]
    rfl

namespace Recognises

variable {definitions : Definitions} {subject : Subject} {capacity : Option Nat} {least : Nat}
  {matcher inner first second : Matcher} {language left right : Language Nat}
  {follow leftFollow : Follow}

/-- What a recognising matcher consumes is a word. -/
theorem sound (recognises : Recognises definitions subject capacity least matcher language follow)
    {offset : Nat} {parse : Parse Value} (above : least ≤ offset) (inside : offset ≤ subject.length)
    (parsed : Parses definitions subject capacity matcher offset (some parse)) :
    ∃ word ∈ language, subject.unitsAhead offset = word ++ subject.unitsAhead parse.stop := by
  obtain ⟨result, reached, consumes⟩ := recognises.decides offset above inside
  exact consumes parse (reached.unique inside parsed)

/-- A word with a rune moves the position. -/
theorem advances
    (recognises : Recognises definitions subject capacity least matcher language follow)
    (filled : [] ∉ language) {offset : Nat} {parse : Parse Value} (above : least ≤ offset)
    (inside : offset ≤ subject.length)
    (parsed : Parses definitions subject capacity matcher offset (some parse)) :
    offset < parse.stop := by
  have within := parsed.within inside
  obtain ⟨word, member, ahead⟩ := recognises.sound above inside parsed
  apply Nat.lt_of_le_of_ne within.1
  intro still
  rw [← still] at ahead
  have empty : word = [] := List.self_eq_append_left.mp ahead
  exact filled (empty ▸ member)

/-- Fewer things may follow. -/
theorem strengthen
    (recognises : Recognises definitions subject capacity least matcher language follow)
    {stronger : Follow} (implies : ∀ later, stronger later → follow later) :
    Recognises definitions subject capacity least matcher language stronger :=
  ⟨recognises.decides, fun offset word later above inside member follows =>
    recognises.accepts offset word later above inside member (implies later follows)⟩

/-! ## Leaves -/

/-- One accepted unit. -/
theorem one (predicate : Predicate) :
    Recognises definitions subject capacity least (.one predicate)
      (single fun rune => predicate.accepts subject.encoding rune = true) fun _ => True := by
  constructor
  · intro offset _ _
    refine ⟨_, .one capacity predicate offset, ?_⟩
    intro parse same
    obtain ⟨unit, found, rfl⟩ := Option.map_eq_some_iff.mp same
    obtain ⟨present, accepted⟩ := Option.filter_eq_some_iff.mp found
    exact ⟨[unit.value], ⟨unit.value, accepted, rfl⟩, Subject.unitsAhead_cons present⟩
  · rintro offset _ later _ _ ⟨rune, accepted, rfl⟩ _ ahead
    obtain ⟨unit, present, rfl, onward⟩ := Subject.exists_unitAt ahead
    have found : subject.accepted? predicate offset = some unit :=
      Option.filter_eq_some_iff.mpr ⟨present, accepted⟩
    have parsed := @Parses.one definitions subject capacity predicate offset
    rw [found] at parsed
    exact ⟨_, parsed, onward⟩

/-- A text of octets below 128, unless a malformed stretch or a greater rune follows. -/
theorem literal {bytes text : Bytes} (ascii : ∀ octet ∈ text, octet < 0x80) :
    Recognises definitions ⟨.utf8, bytes⟩ capacity least (.literal text)
      {text.map UInt8.toNat} fun later => ∀ rune ∈ later.head?, rune < 0x80 := by
  constructor
  · intro offset _ _
    refine ⟨_, .literal capacity text offset, ?_⟩
    intro parse same
    obtain ⟨stop, found, rfl⟩ := Option.map_eq_some_iff.mp same
    exact ⟨_, Set.mem_singleton _, Subject.unitsAhead_of_textEnd? ascii found⟩
  · rintro offset word later _ inside member small ahead
    rw [Set.mem_singleton_iff.mp member] at ahead
    obtain ⟨stop, found, onward⟩ := Subject.textEnd?_of_unitsAhead ascii inside ahead small
    have parsed := @Parses.literal definitions ⟨.utf8, bytes⟩ capacity text offset
    rw [found] at parsed
    exact ⟨_, parsed, onward⟩

/-- Nothing. -/
theorem empty : Recognises definitions subject capacity least .empty 1 fun _ => True := by
  constructor
  · intro offset _ _
    refine ⟨_, .empty capacity offset, ?_⟩
    rintro parse same
    cases same
    exact ⟨[], Language.nil_mem_one, rfl⟩
  · rintro offset word later _ _ member _ ahead
    rw [Language.mem_one] at member
    rw [member] at ahead
    exact ⟨_, .empty capacity offset, ahead⟩

/-- The end of the input. -/
theorem atEnd : Recognises definitions subject capacity least .atEnd 1 fun later => later = [] := by
  constructor
  · intro offset _ _
    refine ⟨_, .atEnd capacity offset, ?_⟩
    intro parse same
    split at same
    · cases same
      exact ⟨[], Language.nil_mem_one, rfl⟩
    · cases same
  · rintro offset word later _ _ member rfl ahead
    rw [(Language.mem_one word).mp member] at ahead
    have ended := Subject.unitsAhead_eq_nil_iff.mp ahead
    have parsed := @Parses.atEnd definitions subject capacity offset
    rw [if_pos ended] at parsed
    exact ⟨_, parsed, ahead⟩

/-! ## Parts -/

/-- A word of the first part and a word of the second one, which may begin later if the first one
always moves on. -/
theorem sequence {middle : Nat}
    (one : Recognises definitions subject capacity least first left leftFollow)
    (other : Recognises definitions subject capacity middle second right follow)
    (reached : middle ≤ least ∨ middle ≤ least + 1 ∧ [] ∉ left)
    (fits : ∀ word ∈ right, ∀ later, follow later → leftFollow (word ++ later)) :
    Recognises definitions subject capacity least (.sequence first second) (left * right)
      follow := by
  have onward {offset : Nat} {parse : Parse Value} (above : least ≤ offset)
      (inside : offset ≤ subject.length)
      (parsed : Parses definitions subject capacity first offset (some parse)) :
      middle ≤ parse.stop := by
    rcases reached with early | ⟨next, filled⟩
    · have within := parsed.within inside
      omega
    · have further := one.advances filled above inside parsed
      omega
  constructor
  · intro offset above inside
    obtain ⟨result, parsed, consumes⟩ := one.decides offset above inside
    cases result with
    | none => exact ⟨none, .sequence_first second parsed, nofun⟩
    | some before =>
      have within := parsed.within inside
      obtain ⟨result, follows, goes⟩ :=
        other.decides before.stop (onward above inside parsed) within.2
      refine ⟨_, .sequence parsed follows, ?_⟩
      intro parse same
      obtain ⟨last, found, rfl⟩ := Option.map_eq_some_iff.mp same
      obtain ⟨word, member, ahead⟩ := consumes before rfl
      obtain ⟨next, alsoMember, further⟩ := goes last found
      refine ⟨word ++ next, Language.append_mem_mul member alsoMember, ?_⟩
      rw [ahead, further, List.append_assoc]
      rfl
  · rintro offset _ later above inside member follows ahead
    obtain ⟨word, inLeft, next, inRight, rfl⟩ := Language.mem_mul.mp member
    rw [List.append_assoc] at ahead
    obtain ⟨before, parsed, rest⟩ :=
      one.accepts offset word _ above inside inLeft (fits next inRight later follows) ahead
    have within := parsed.within inside
    obtain ⟨last, goes, same⟩ := other.accepts before.stop next later
      (onward above inside parsed) within.2 inRight follows rest
    exact ⟨_, .sequence parsed goes, same⟩

/-- A word of either part, where no word of the first one can be ahead instead of a word of the
second one. -/
theorem choice (one : Recognises definitions subject capacity least first left follow)
    (other : Recognises definitions subject capacity least second right follow)
    (exclusive : ∀ word ∈ left, ∀ instead ∈ right, ∀ rest later,
      word ++ rest ≠ instead ++ later) :
    Recognises definitions subject capacity least (.choice first second) (left + right)
      follow := by
  constructor
  · intro offset above inside
    obtain ⟨result, parsed, consumes⟩ := one.decides offset above inside
    cases result with
    | some parse =>
      refine ⟨_, .choice_first second parsed, ?_⟩
      intro found same
      cases same
      obtain ⟨word, member, ahead⟩ := consumes parse rfl
      exact ⟨word, .inl member, ahead⟩
    | none =>
      obtain ⟨result, follows, goes⟩ := other.decides offset above inside
      refine ⟨_, .choice_second parsed follows, ?_⟩
      intro parse same
      obtain ⟨found, rfl, rfl⟩ := Option.map_eq_some_iff.mp same
      obtain ⟨word, member, ahead⟩ := goes found rfl
      exact ⟨word, .inr member, ahead⟩
  · rintro offset word later above inside (member | member) follows ahead
    · obtain ⟨parse, parsed, onward⟩ :=
        one.accepts offset word later above inside member follows ahead
      exact ⟨_, .choice_first second parsed, onward⟩
    · obtain ⟨result, parsed, consumes⟩ := one.decides offset above inside
      cases result with
      | some parse =>
        obtain ⟨instead, taken, also⟩ := consumes parse rfl
        exact absurd (also.symm.trans ahead) (exclusive instead taken word member _ _)
      | none =>
        obtain ⟨parse, goes, onward⟩ :=
          other.accepts offset word later above inside member follows ahead
        exact ⟨_, .choice_second parsed goes, onward⟩

/-- A word of either part, where words of one begin unlike words of the other. -/
theorem choice_of_begins {kind unlike : Nat → Prop}
    (one : Recognises definitions subject capacity least first left follow)
    (other : Recognises definitions subject capacity least second right follow)
    (begins : Begins left kind) (also : Begins right unlike)
    (differ : ∀ rune, kind rune → ¬ unlike rune) :
    Recognises definitions subject capacity least (.choice first second) (left + right) follow :=
  one.choice other fun _ member _ instead => begins.ne_append also differ member instead

/-- What comes to outcomes with the same stops recognises the same words. -/
theorem transfer {whole : Matcher}
    (recognises : Recognises definitions subject capacity least matcher language follow)
    (same : ∀ offset result, Parses definitions subject capacity matcher offset result →
      ∃ other, Parses definitions subject capacity whole offset other ∧
        other.map Parse.stop = result.map Parse.stop) :
    Recognises definitions subject capacity least whole language follow := by
  constructor
  · intro offset above inside
    obtain ⟨result, parsed, consumes⟩ := recognises.decides offset above inside
    obtain ⟨other, reached, stops⟩ := same offset result parsed
    refine ⟨other, reached, ?_⟩
    rintro parse rfl
    obtain ⟨before, rfl, stop⟩ := Option.map_eq_some_iff.mp stops.symm
    obtain ⟨word, member, ahead⟩ := consumes before rfl
    rw [stop] at ahead
    exact ⟨word, member, ahead⟩
  · intro offset word later above inside member follows ahead
    obtain ⟨parse, parsed, onward⟩ :=
      recognises.accepts offset word later above inside member follows ahead
    obtain ⟨other, reached, stops⟩ := same offset _ parsed
    obtain ⟨found, rfl, stop⟩ := Option.map_eq_some_iff.mp stops
    rw [← stop] at onward
    exact ⟨found, reached, onward⟩

/-- What hides the value of a matcher recognises what the matcher recognises. -/
theorem hidden {whole : Matcher}
    (recognises : Recognises definitions subject capacity least matcher language follow)
    (hides : ∀ {offset result}, Parses definitions subject capacity matcher offset result →
      Parses definitions subject capacity whole offset (result.map (.hidden subject offset))) :
    Recognises definitions subject capacity least whole language follow := by
  refine recognises.transfer fun offset result parsed => ⟨_, hides parsed, ?_⟩
  rw [Option.map_map]
  rfl

/-- A box recognises what is inside. -/
theorem boxed (recognises : Recognises definitions subject capacity least inner language follow) :
    Recognises definitions subject capacity least (.boxed inner) language follow :=
  recognises.hidden .boxed

/-- A handle recognises what its definition does. -/
theorem handle {slot : Nat} (defined : definitions.find? slot = some matcher)
    (recognises : Recognises definitions subject capacity least matcher language follow) :
    Recognises definitions subject capacity least (.handle slot) language follow :=
  recognises.hidden (.handle defined)

/-- A reference recognises what its definition does. -/
theorem reference {slot : Nat} (defined : definitions.find? slot = some matcher)
    (recognises : Recognises definitions subject capacity least matcher language follow) :
    Recognises definitions subject capacity least (.reference slot) language follow :=
  recognises.hidden (.reference defined)

/-- An enclosed matcher recognises what its parts recognise one after the other. -/
theorem enclosed {head tail : Matcher}
    (recognises : Recognises definitions subject capacity least
      (.sequence head (.sequence inner tail)) language follow) :
    Recognises definitions subject capacity least (.enclosed head inner tail) language
      follow := by
  refine recognises.transfer fun offset result parsed => ?_
  rcases parsed.of_sequence with ⟨failed, rfl⟩ | ⟨before, outcome, leads, rest, stops⟩
  · exact ⟨none, .enclosed_head inner tail failed, rfl⟩
  · rw [stops]
    rcases rest.of_sequence with ⟨failed, rfl⟩ | ⟨middle, outcome, between, last, stops⟩
    · exact ⟨none, .enclosed_inner tail leads failed, rfl⟩
    · refine ⟨_, .enclosed leads between last, ?_⟩
      rw [stops, Option.map_map]
      rfl

/-! ## Loops -/

section
variable (recognises : Recognises definitions subject capacity least inner language leftFollow)
  (filled : [] ∉ language) {offset : Nat} (above : least ≤ offset)
  (inside : offset ≤ subject.length)
include recognises filled above inside

/-- Rounds follow each other up to a limit or to one that fails, and consume words. -/
theorem exists_rounds (limit : Option Nat) :
    ∃ (rounds : List (Parse Value)) (parts : List (List Nat)),
    (∀ start round, (start, round) ∈ stations Parse.stop offset rounds →
      Parses definitions subject capacity inner start (some round)) ∧
    (∀ start round, (start, round) ∈ stations Parse.stop offset rounds → round.stop ≠ start) ∧
    (limit = some rounds.length ∨ (∀ most, limit = some most → rounds.length < most) ∧
      Parses definitions subject capacity inner (lastStop Parse.stop offset rounds) none) ∧
    parts.length = rounds.length ∧ (∀ part ∈ parts, part ∈ language) ∧
    subject.unitsAhead offset =
      parts.flatten ++ subject.unitsAhead (lastStop Parse.stop offset rounds) := by
  induction ahead : subject.length - offset
    using Nat.strong_induction_on generalizing offset limit with
  | _ rest ih =>
    by_cases full : limit = some 0
    · exact ⟨[], [], forall_stations_nil, forall_stations_nil, .inl full, rfl, nofun, rfl⟩
    · have room : ∀ most, limit = some most → 0 < most := by
        intro most same
        have other : most ≠ 0 := fun zero => full (zero ▸ same)
        omega
      obtain ⟨result, parsed, consumes⟩ := recognises.decides offset above inside
      cases result with
      | none =>
        exact ⟨[], [], forall_stations_nil, forall_stations_nil, .inr ⟨room, parsed⟩, rfl, nofun,
          rfl⟩
      | some round =>
        have within := parsed.within inside
        have further := recognises.advances filled above inside parsed
        obtain ⟨word, member, taken⟩ := consumes round rfl
        obtain ⟨rounds, parts, each, onward, ends, number, all, left⟩ :=
          ih (subject.length - round.stop) (by omega) (Nat.le_trans above within.1) within.2
            (limit.map (· - 1)) rfl
        refine ⟨round :: rounds, word :: parts, forall_stations_cons.mpr ⟨parsed, each⟩,
          forall_stations_cons.mpr ⟨Nat.ne_of_gt further, onward⟩, ?_, ?_,
          List.forall_mem_cons.mpr ⟨member, all⟩, ?_⟩
        · rcases ends with full | ⟨unlimited, failed⟩
          · obtain ⟨most, same, less⟩ := Option.map_eq_some_iff.mp full
            have positive := room most same
            have reached : most = (round :: rounds).length := by
              rw [List.length_cons]
              omega
            exact .inl (reached ▸ same)
          · refine .inr ⟨fun most same => ?_, failed⟩
            have positive := room most same
            have fewer := unlimited (most - 1) (by rw [same, Option.map_some])
            rw [List.length_cons]
            omega
        · rw [List.length_cons, List.length_cons, number]
        · rw [taken, left, List.flatten_cons, List.append_assoc]
          rfl

/-- Rounds follow each other along words that are ahead. -/
theorem rounds_of_parts {parts : List (List Nat)} {later : List Nat}
    (onward : parts.length ≤ 1 ∨ ∀ word ∈ language, ∀ later, leftFollow (word ++ later))
    (all : ∀ part ∈ parts, part ∈ language)
    (last : leftFollow later) (ahead : subject.unitsAhead offset = parts.flatten ++ later) :
    ∃ rounds, (∀ start round, (start, round) ∈ stations Parse.stop offset rounds →
        Parses definitions subject capacity inner start (some round)) ∧
      (∀ start round, (start, round) ∈ stations Parse.stop offset rounds →
        round.stop ≠ start) ∧ rounds.length = parts.length ∧
      least ≤ lastStop Parse.stop offset rounds ∧
      lastStop Parse.stop offset rounds ≤ subject.length ∧
      subject.unitsAhead (lastStop Parse.stop offset rounds) = later := by
  induction parts generalizing offset with
  | nil =>
    exact ⟨[], forall_stations_nil, forall_stations_nil, rfl, above, inside, ahead⟩
  | cons word parts ih =>
    obtain ⟨member, others⟩ := List.forall_mem_cons.mp all
    rw [List.flatten_cons, List.append_assoc] at ahead
    have follows : leftFollow (parts.flatten ++ later) := by
      cases parts with
      | nil => exact last
      | cons next rest =>
        rcases onward with few | onward
        · exact absurd few (by simp)
        · rw [List.flatten_cons, List.append_assoc]
          exact onward next (others next List.mem_cons_self) _
    obtain ⟨round, parsed, further⟩ :=
      recognises.accepts offset word _ above inside member follows ahead
    have within := parsed.within inside
    have moved := recognises.advances filled above inside parsed
    have fewer : parts.length ≤ 1 ∨ ∀ word ∈ language, ∀ later, leftFollow (word ++ later) :=
      onward.imp_left fun few => Nat.le_of_lt (Nat.lt_of_succ_le few)
    obtain ⟨rounds, each, progress, number, low, high, same⟩ :=
      ih (Nat.le_trans above within.1) within.2 fewer others further
    refine ⟨round :: rounds, forall_stations_cons.mpr ⟨parsed, each⟩,
      forall_stations_cons.mpr ⟨Nat.ne_of_gt moved, progress⟩, ?_, low, high, same⟩
    rw [List.length_cons, List.length_cons, number]

end

/-- A repetition of words, where no further word can be ahead of what may follow unless the number
of words is fixed. -/
theorem repeated
    (recognises : Recognises definitions subject capacity least inner language leftFollow)
    (filled : [] ∉ language) {bounds : Bounds}
    (onward : bounds.greatest = some 1 ∨ ∀ word ∈ language, ∀ later, leftFollow (word ++ later))
    (last : ∀ later, follow later → leftFollow later)
    (ends : bounds.greatest = some bounds.least ∨
      ∀ word ∈ language, ∀ rest, ¬ follow (word ++ rest)) :
    Recognises definitions subject capacity least (.repeated inner bounds)
      (times language bounds) follow := by
  constructor
  · intro offset above inside
    obtain ⟨rounds, parts, each, progress, final, number, all, ahead⟩ :=
      recognises.exists_rounds filled above inside bounds.greatest
    rcases final with full | ⟨unlimited, failed⟩
    · refine ⟨_, .repeated (.collected_full each progress full), ?_⟩
      intro parse same
      cases same
      refine ⟨parts.flatten, ⟨parts, rfl, all, ?_⟩, ahead⟩
      refine Bounds.contains_iff.mpr ⟨number ▸ bounds.least_le full, fun limit same => ?_⟩
      rw [full] at same
      cases same
      exact Nat.le_of_eq number
    · refine ⟨_, .repeated (.collected_ended each progress unlimited failed), ?_⟩
      intro parse same
      obtain ⟨listed, enough, rfl⟩ := Option.map_eq_some_iff.mp same
      have length : (Parse.listed offset rounds).value.length = rounds.length := List.length_map _
      unfold Parse.ofLeast at enough
      split at enough
      · cases enough
      · rename_i most
        cases enough
        refine ⟨parts.flatten, ⟨parts, rfl, all, ?_⟩, ahead⟩
        refine Bounds.contains_iff.mpr ⟨by omega, fun limit same => ?_⟩
        have fewer := unlimited limit same
        omega
  · rintro offset _ later above inside ⟨parts, rfl, all, contained⟩ follows ahead
    obtain ⟨enough, limited⟩ := Bounds.contains_iff.mp contained
    obtain ⟨rounds, each, progress, number, low, high, same⟩ :=
      recognises.rounds_of_parts filled above inside (onward.imp_left (limited 1)) all
        (last later follows) ahead
    by_cases full : bounds.greatest = some rounds.length
    · exact ⟨_, .repeated (.collected_full each progress full), same⟩
    · have unlimited : ∀ limit, bounds.greatest = some limit → rounds.length < limit := by
        intro limit greatest
        have most := limited limit greatest
        have other : limit ≠ rounds.length := fun equal => full (equal ▸ greatest)
        omega
      obtain ⟨result, parsed, consumes⟩ := recognises.decides _ low high
      cases result with
      | some round =>
        obtain ⟨word, member, taken⟩ := consumes round rfl
        rw [same] at taken
        rcases ends with fixed | ends
        · have most := unlimited _ fixed
          omega
        · exact absurd (taken ▸ follows) (ends word member _)
      | none =>
        have length : (Parse.listed offset rounds).value.length = rounds.length :=
          List.length_map _
        have least : ¬ (Parse.listed offset rounds).value.length < bounds.least := by omega
        have repeated := Parses.repeated (.collected_ended each progress unlimited parsed)
        rw [Parse.ofLeast, if_neg least] at repeated
        exact ⟨_, repeated, same⟩

/-- Rounds of one unit each are units that follow each other. -/
theorem units_of_rounds {predicate : Predicate} {offset : Nat} {rounds : List (Parse Value)}
    (each : ∀ start round, (start, round) ∈ stations Parse.stop offset rounds →
      Parses definitions subject capacity (.one predicate) start (some round)) :
    ∃ units, (∀ start unit, (start, unit) ∈ stations InputUnit.next offset units →
        subject.accepted? predicate start = some unit) ∧
      units.length = rounds.length ∧
      lastStop InputUnit.next offset units = lastStop Parse.stop offset rounds := by
  induction rounds generalizing offset with
  | nil => exact ⟨[], forall_stations_nil, rfl, rfl⟩
  | cons round rounds ih =>
    obtain ⟨parsed, others⟩ := forall_stations_cons.mp each
    obtain ⟨unit, found, rfl⟩ := Option.map_eq_some_iff.mp parsed.of_one.symm
    obtain ⟨units, accepted, number, stop⟩ := ih others
    refine ⟨unit :: units, forall_stations_cons.mpr ⟨found, accepted⟩, ?_, stop⟩
    rw [List.length_cons, List.length_cons, number]

/-- A count of units is a repetition of one unit. -/
theorem count_of_repeated {predicate : Predicate} {bounds : Bounds}
    {offset : Nat}
    {result : Option (Parse Value)}
    (parsed : Parses definitions subject capacity (.repeated (.one predicate) bounds) offset
      result) :
    ∃ other, Parses definitions subject capacity (.countAll predicate bounds) offset other ∧
      other.map Parse.stop = result.map Parse.stop := by
  cases parsed with
  | repeated all =>
    cases all with
    | collected_full each _ full =>
      obtain ⟨units, accepted, number, stop⟩ := Recognises.units_of_rounds each
      rw [← number] at full
      have limited : ∀ limit, bounds.greatest = some limit → units.length ≤ limit := by
        intro limit greatest
        rw [full] at greatest
        cases greatest
        exact Nat.le_refl _
      refine ⟨_, .count capacity accepted (fun _ _ _ => rfl) limited (.inl full), ?_⟩
      rw [if_neg (Nat.not_lt_of_le (bounds.least_le full))]
      exact congrArg some stop
    | @collected_ended _ _ _ _ rounds each _ unlimited ended =>
      obtain ⟨units, accepted, number, stop⟩ := Recognises.units_of_rounds each
      have refused := Option.map_eq_none_iff.mp ended.of_one.symm
      rw [← stop] at refused
      have limited : ∀ limit, bounds.greatest = some limit → units.length ≤ limit := by
        intro limit greatest
        have fewer := unlimited limit greatest
        omega
      refine ⟨_, .count capacity accepted (fun _ _ _ => rfl) limited (.inr ?_), ?_⟩
      · intro unit present
        rw [refused] at present
        cases present
      · have length : (Parse.listed offset rounds).value.length = rounds.length :=
          List.length_map _
        rw [Parse.ofLeast, length, number]
        split
        · rfl
        · exact congrArg some stop
    | collected_still _ _ _ final still =>
      obtain ⟨unit, found, rfl⟩ := Option.map_eq_some_iff.mp final.of_one.symm
      have further := (Reading.accepted?_within found).1
      exact absurd still (Nat.ne_of_gt further)

/-- A count of accepted units, where no further one may follow unless the number is fixed. -/
theorem countAll (predicate : Predicate) {bounds : Bounds}
    (ends : bounds.greatest = some bounds.least ∨
      ∀ rune, predicate.accepts subject.encoding rune = true → ∀ rest, ¬ follow (rune :: rest)) :
    Recognises definitions subject capacity least (.countAll predicate bounds)
      (times (single fun rune => predicate.accepts subject.encoding rune = true) bounds)
      follow := by
  have begins := Begins.single fun rune => predicate.accepts subject.encoding rune = true
  have stops : bounds.greatest = some bounds.least ∨ ∀ word ∈
      single (fun rune => predicate.accepts subject.encoding rune = true), ∀ rest,
        ¬ follow (word ++ rest) := by
    refine ends.imp_right ?_
    rintro refused _ ⟨rune, accepted, rfl⟩ rest
    exact refused rune accepted rest
  have units : Recognises definitions subject capacity least (.repeated (.one predicate) bounds)
      _ follow :=
    (one predicate).repeated begins.nil_notMem (.inr fun _ _ _ => trivial)
      (fun _ _ => trivial) stops
  exact units.transfer fun offset result parsed => count_of_repeated parsed

end Recognises

end TextPattern
