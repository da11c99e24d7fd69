import Mathlib.Data.List.Chain
import Mathlib.Tactic.IntervalCases
import TextPattern.Search
import TextPattern.Proofs.CollectedRounds

/-!
# Successive matches

Two loops go through the matches of a matcher that follow one another: a repetition without bounds,
and a traversal, whose iterator moves on at the caller's request and stops by rules of its own. The
matches that an iterator stands on tile the input from where it begins to where the repetition ends.
The one difference is at the end of the input, where only the repetition tries once more, and that
match consumes nothing. `Matcher.spans_tile_repetition` is the main statement.
-/

namespace TextPattern

/-! ## Tilings -/

/-- Spans that lie side by side from one offset to another. -/
structure Tiling (start : Nat) (spans : List Span) (stop : Nat) : Prop where
  /-- The first one begins at the start. -/
  begins : ∀ first ∈ spans.head?, first.start = start
  /-- Every other one begins where the one before it ends. -/
  adjoins : spans.IsChain fun left right => left.start + left.length = right.start
  /-- Only the last one may be empty. -/
  consumes : ∀ span ∈ spans.dropLast, 0 < span.length
  /-- The last one ends at the stop. Where there is none, the stop is the start. -/
  ends : (spans.getLast?.map fun span => span.start + span.length).getD start = stop

namespace Tiling

variable {start next stop : Nat} {spans : List Span}

/-- No span at all. -/
theorem none (start : Nat) : Tiling start [] start := ⟨nofun, .nil, nofun, rfl⟩

/-- One empty span. -/
theorem empty (start : Nat) : Tiling start [⟨start, 0⟩] start where
  begins := by
    rintro first ⟨⟩
    rfl
  adjoins := .singleton _
  consumes := nofun
  ends := rfl

/-- One more span in front, which is not empty. -/
theorem cons (onward : start < next) (later : Tiling next spans stop) :
    Tiling start (.between start next :: spans) stop := by
  have reached : start + (next - start) = next := by omega
  constructor
  · rintro first ⟨⟩
    rfl
  · apply later.adjoins.cons
    intro first member
    rw [later.begins first member]
    exact reached
  · intro span member
    cases spans with
    | nil => cases member
    | cons second others =>
      rw [List.dropLast_cons_cons] at member
      rcases List.mem_cons.mp member with rfl | further
      · exact Nat.sub_pos_of_lt onward
      · exact later.consumes span further
  · have ends := later.ends
    cases spans with
    | nil =>
      rw [← ends]
      exact reached
    | cons second others =>
      rw [List.getLast?_cons_cons, ← ends]
      rw [List.getLast?_eq_some_getLast (List.cons_ne_nil second others)]
      rfl

/-- Without the first span, the others lie side by side. -/
theorem tail {first second : Span} (tiling : Tiling start (first :: second :: spans) stop) :
    Tiling second.start (second :: spans) stop where
  begins := by
    rintro span ⟨⟩
    rfl
  adjoins := tiling.adjoins.tail
  consumes := fun span member => tiling.consumes span (List.mem_cons_of_mem first member)
  ends := by
    have ends := tiling.ends
    rw [List.getLast?_cons_cons, List.getLast?_eq_some_getLast (List.cons_ne_nil second spans)]
      at ends
    rw [List.getLast?_eq_some_getLast (List.cons_ne_nil second spans)]
    exact ends

/-- Spans that lie side by side begin at ascending offsets. -/
theorem ascending (tiling : Tiling start spans stop) :
    spans.Pairwise fun left right => left.start < right.start := by
  induction spans generalizing start with
  | nil => exact .nil
  | cons first later ih =>
    cases later with
    | nil => exact List.pairwise_singleton _ _
    | cons second others =>
      have ascends := ih tiling.tail
      have adjoins : first.start + first.length = second.start :=
        (List.isChain_cons_cons.mp tiling.adjoins).1
      have consumes : 0 < first.length := tiling.consumes first List.mem_cons_self
      refine .cons ?_ ascends
      intro span member
      rcases List.mem_cons.mp member with rfl | further
      · omega
      · have behind := (List.pairwise_cons.mp ascends).1 span further
        omega

/-- Only the first span is equal to the first one. -/
theorem eq_head?_iff (tiling : Tiling start spans stop) {place : Nat} {span : Span}
    (found : spans[place]? = some span) : some span = spans.head? ↔ place = 0 := by
  obtain ⟨short, same⟩ := List.getElem?_eq_some_iff.mp found
  rw [List.head?_eq_getElem?, ← found]
  constructor
  · intro first
    by_contra further
    have before : 0 < place := Nat.pos_of_ne_zero further
    have ascends := List.pairwise_iff_getElem.mp tiling.ascending 0 place (by omega) short before
    rw [List.getElem?_eq_getElem short, List.getElem?_eq_getElem (by omega)] at first
    rw [Option.some.inj first] at ascends
    exact Nat.lt_irrefl _ ascends
  · rintro rfl
    rfl

end Tiling

/-! ## Successions -/

/-- How an attempt ends that begins at an offset without a store. -/
def Attempt.bare (attempt : Attempt Span) (subject : Subject) (offset : Nat) :
    Ending Span × State :=
  attempt.outcome subject ⟨offset, none⟩

/-- What comes of an offset where there is a result: a failure somewhere, or a match of what was
passed over. -/
inductive Settled (once : Nat → Ending Span × State) (limit offset : Nat) : Prop where
  | failed {failure : Failure} {stop : Nat} (ran : once offset = (.failed failure, ⟨stop, none⟩))
  | matched {stop : Nat} (forward : offset ≤ stop) (inside : stop ≤ limit)
    (ran : once offset = (.matched (.between offset stop), ⟨stop, none⟩))

/-- The successive matches from an offset on, and where they end: at the end of the input, before a
failure, or with a match that consumes nothing. -/
inductive Succession (once : Nat → Ending Span × State) (limit : Nat) : Nat → List Span → Nat → Prop
    where
  | done : Succession once limit limit [] limit
  | refused {offset stop : Nat} {failure : Failure} (inside : offset < limit)
    (ran : once offset = (.failed failure, ⟨stop, none⟩)) :
    Succession once limit offset [] offset
  | empty {offset : Nat} (inside : offset < limit)
    (ran : once offset = (.matched ⟨offset, 0⟩, ⟨offset, none⟩)) :
    Succession once limit offset [⟨offset, 0⟩] offset
  | another {offset next stop : Nat} {spans : List Span} (onward : offset < next)
    (ran : once offset = (.matched (.between offset next), ⟨next, none⟩))
    (later : Succession once limit next spans stop) :
    Succession once limit offset (.between offset next :: spans) stop

namespace Succession

variable {once : Nat → Ending Span × State} {limit offset stop : Nat} {spans : List Span}

/-- From every offset in the input there is a succession. -/
theorem of_settled (inside : offset ≤ limit)
    (settled : ∀ later, offset ≤ later → later ≤ limit → Settled once limit later) :
    ∃ spans stop, Succession once limit offset spans stop := by
  induction ahead : limit - offset using Nat.strong_induction_on generalizing offset with
  | _ _ ih =>
    rcases Nat.eq_or_lt_of_le inside with ended | short
    · subst ended
      exact ⟨[], _, .done⟩
    cases settled offset (Nat.le_refl offset) inside with
    | failed ran => exact ⟨[], offset, .refused short ran⟩
    | @matched next forward within ran =>
      rcases Nat.eq_or_lt_of_le forward with still | onward
      · subst still
        rw [Span.between, Nat.sub_self] at ran
        exact ⟨_, offset, .empty short ran⟩
      · have further (later : Nat) (behind : next ≤ later) (before : later ≤ limit) :
            Settled once limit later := settled later (Nat.le_trans forward behind) before
        obtain ⟨spans, stop, later⟩ := ih (limit - next) (by omega) within further rfl
        exact ⟨_, stop, .another onward ran later⟩

/-- A succession begins in the input. -/
theorem le_limit (chain : Succession once limit offset spans stop) : offset ≤ limit := by
  induction chain with
  | done => exact Nat.le_refl _
  | refused inside _ => exact Nat.le_of_lt inside
  | empty inside _ => exact Nat.le_of_lt inside
  | another onward _ _ ih => exact Nat.le_trans (Nat.le_of_lt onward) ih

/-- A succession ends where it begins or behind. -/
theorem le_stop (chain : Succession once limit offset spans stop) : offset ≤ stop := by
  induction chain with
  | done | refused | empty => exact Nat.le_refl _
  | another onward _ _ ih => exact Nat.le_trans (Nat.le_of_lt onward) ih

/-- There are no more matches than octets ahead. -/
theorem length_le (chain : Succession once limit offset spans stop) :
    spans.length ≤ limit - offset := by
  induction chain with
  | done | refused => exact Nat.zero_le _
  | empty inside _ => exact Nat.sub_pos_of_lt inside
  | another onward _ later ih =>
    have inside := later.le_limit
    rw [List.length_cons]
    omega

/-- The matches tile what lies before the end. -/
theorem tiling (chain : Succession once limit offset spans stop) : Tiling offset spans stop := by
  induction chain with
  | done | refused => exact .none _
  | empty => exact .empty _
  | another onward _ _ ih => exact .cons onward ih

end Succession

/-! ## As a repetition -/

namespace Attempt

variable {attempt : Attempt Span} {subject : Subject} {offset stop : Nat} {spans : List Span}

/-- A repetition without bounds stays where an attempt fails, or matches without consuming
anything. -/
theorem repeatFrom_any_stays (start : Checkpoint) (rounds count : Nat)
    (stays : (∃ failure stop, attempt.bare subject offset = (.failed failure, ⟨stop, none⟩)) ∨
      ∃ span, attempt.bare subject offset = (.matched span, ⟨offset, none⟩)) :
    ∃ values, (Combinator.repeatFrom start .any attempt (rounds + 1) count).outcome subject
      ⟨offset, none⟩ = (.matched values, ⟨offset, none⟩) := by
  rw [outcome_repeatFrom_succ start rounds _ rfl, ← bare]
  rcases stays with ⟨failure, stop, ran⟩ | ⟨span, ran⟩
  · rw [ran]
    exact ⟨[], if_neg (Nat.not_lt_zero count)⟩
  · rw [ran]
    exact ⟨[span], if_pos rfl⟩

/-- A repetition without bounds that has rounds enough ends where the succession ends. -/
theorem repeatFrom_any_of_succession
    (chain : Succession (attempt.bare subject) subject.length offset spans stop)
    (last : Settled (attempt.bare subject) subject.length subject.length) (start : Checkpoint)
    {rounds count : Nat} (enough : subject.length - offset ≤ rounds) :
    ∃ values, (Combinator.repeatFrom start .any attempt (rounds + 1) count).outcome subject
      ⟨offset, none⟩ = (.matched values, ⟨stop, none⟩) := by
  induction chain generalizing rounds count with
  | done =>
    -- Only the repetition tries once more at the end of the input.
    apply repeatFrom_any_stays
    cases last with
    | failed ran => exact .inl ⟨_, _, ran⟩
    | matched forward inside ran =>
      cases Nat.le_antisymm forward inside
      exact .inr ⟨_, ran⟩
  | refused _ ran => exact repeatFrom_any_stays start rounds count (.inl ⟨_, _, ran⟩)
  | empty _ ran => exact repeatFrom_any_stays start rounds count (.inr ⟨_, ran⟩)
  | @another offset next stop spans onward ran later ih =>
    have within : next ≤ subject.length := later.le_limit
    obtain ⟨spare, rfl⟩ : ∃ spare, rounds = spare + 1 := ⟨rounds - 1, by omega⟩
    obtain ⟨values, ends⟩ := @ih spare (count + 1) (by omega)
    rw [outcome_repeatFrom_succ start (spare + 1) _ rfl, ← bare, ran]
    dsimp only
    rw [if_neg (Nat.ne_of_gt onward), ends]
    exact ⟨_, rfl⟩

end Attempt

/-! ## As a traversal -/

namespace SpanIterator

variable {shared : SharedMatcher} {subject : Subject} {state : State}

/-- The iterator over matches of a matcher that stands on a span and rests at its end. -/
def standing (shared : SharedMatcher) (span : Span) : SpanIterator :=
  ⟨some shared, span.start + span.length, some span⟩

/-- The iterators that come one after another from one iterator on, up to one that is at the end. -/
inductive Traversal (subject : Subject) (state : State) :
    SpanIterator → List SpanIterator → SpanIterator → Prop where
  /-- An iterator at the end. -/
  | done {iterator : SpanIterator} (ended : iterator.current = none) :
    Traversal subject state iterator [] iterator
  /-- An iterator that stands on a match, and those that come after it. -/
  | step {iterator following final : SpanIterator} {later : List SpanIterator}
    (stands : iterator.current ≠ none)
    (moved : iterator.next.outcome subject state = (.matched following, state))
    (rest : Traversal subject state following later final) :
    Traversal subject state iterator (iterator :: later) final

namespace Traversal

variable {first final : SpanIterator} {iterators : List SpanIterator}

/-- To walk with steps enough is to come through all iterators of a traversal. -/
theorem outcome_walk (traversal : Traversal subject state first iterators final)
    {rounds : Nat} (enough : iterators.length ≤ rounds) :
    (walk rounds first).outcome subject state = (.matched iterators, state) := by
  induction traversal generalizing rounds with
  | done ended =>
    have stopped : Option.isNone _ = true := Option.isNone_iff_eq_none.mpr ended
    unfold walk
    rw [if_pos stopped]
    rfl
  | step stands moved rest ih =>
    have goes : ¬ Option.isNone _ = true := mt Option.isNone_iff_eq_none.mp stands
    obtain ⟨spare, rfl⟩ := Nat.exists_eq_add_one_of_ne_zero (Nat.ne_zero_of_lt enough)
    rw [walk, if_neg goes, Attempt.outcome_bind, moved]
    dsimp only
    rw [Attempt.outcome_bind, ih (Nat.le_of_succ_le_succ enough)]
    rfl

/-- It ends at the end. -/
theorem final_current (traversal : Traversal subject state first iterators final) :
    final.current = none := by
  induction traversal with
  | done ended => exact ended
  | step _ _ _ ih => exact ih

/-- It begins on its first iterator. -/
theorem first_eq {leading : SpanIterator} {later : List SpanIterator}
    (traversal : Traversal subject state first (leading :: later) final) : first = leading := by
  cases traversal
  rfl

/-- An iterator of a traversal is the same as the first one only where that one is. -/
theorem same_first_iff {spans : List Span} {start stop : Nat}
    (traversal : Traversal subject state first (spans.map (standing shared)) final)
    (tiling : Tiling start spans stop) {place : Nat} {span : Span}
    (found : spans[place]? = some span) :
    (standing shared span).same first = true ↔ place = 0 := by
  rw [← tiling.eq_head?_iff found]
  cases spans with
  | nil => cases found
  | cons leading later =>
    rw [traversal.first_eq, List.head?_cons]
    simp [same, standing]

end Traversal

/-- To stand on the match at the place where an iterator rests, if there is one. -/
theorem outcome_start (offset : Nat) :
    (start shared offset).outcome subject state =
      if subject.length ≤ offset then (.matched ⟨some shared, offset, none⟩, state)
      else
        match shared.attempt.bare subject offset with
        | (.matched span, after) => (.matched ⟨some shared, after.offset, some span⟩, state)
        | (.failed _, after) => (.matched ⟨some shared, after.offset, none⟩, state)
        | (.raised misuse, _) => (.raised misuse, state)
        | (.exhausted, _) => (.exhausted, state) := by
  rw [start, settle, Attempt.outcome_bind, Attempt.outcome_subject]
  dsimp only
  split
  · rfl
  · rw [Attempt.outcome_bind, Attempt.outcome_aside, ← Attempt.bare]
    obtain ⟨ending, after⟩ := shared.attempt.bare subject offset
    cases ending <;> rfl

/-- From a match that consumes something an iterator goes on to the one behind it. -/
theorem next_of_pos {offset : Nat} {span : Span} (consumes : span.length ≠ 0) :
    next ⟨some shared, offset, some span⟩ = start shared offset := by
  have onward : ¬ (some span).any Span.isEmpty = true := by
    rw [Option.any_some, Span.isEmpty, beq_iff_eq]
    exact consumes
  rw [next, if_neg onward]
  rfl

/-- A succession is what an iterator comes through that begins where it begins. -/
theorem traversal_of_succession {offset stop : Nat} {spans : List Span}
    (chain : Succession (shared.attempt.bare subject) subject.length offset spans stop) :
    ∃ first final, (start shared offset).outcome subject state = (.matched first, state) ∧
      Traversal subject state first (spans.map (standing shared)) final := by
  induction chain with
  | done =>
    rw [outcome_start, if_pos (Nat.le_refl _)]
    exact ⟨_, _, rfl, .done rfl⟩
  | refused inside ran =>
    rw [outcome_start, if_neg (Nat.not_le_of_lt inside), ran]
    exact ⟨_, _, rfl, .done rfl⟩
  | @empty offset inside ran =>
    rw [outcome_start, if_neg (Nat.not_le_of_lt inside), ran]
    exact ⟨standing shared ⟨offset, 0⟩, ⟨some shared, offset, none⟩, rfl,
      .step nofun rfl (.done rfl)⟩
  | @another offset next stop spans onward ran later ih =>
    obtain ⟨following, final, begins, rest⟩ := ih
    have inside := Nat.lt_of_lt_of_le onward later.le_limit
    have reached : standing shared (.between offset next) =
        ⟨some shared, next, some (.between offset next)⟩ := by
      show SpanIterator.mk _ (offset + (next - offset)) _ = _
      rw [Nat.add_sub_cancel' (Nat.le_of_lt onward)]
    rw [outcome_start, if_neg (Nat.not_le_of_lt inside), ran]
    refine ⟨⟨some shared, next, some (.between offset next)⟩, final, rfl, ?_⟩
    rw [List.map_cons, reached]
    refine .step nofun ?_ rest
    rw [next_of_pos (Nat.sub_ne_zero_of_lt onward)]
    exact begins

end SpanIterator

/-- The successive matches that an attempt lists are those of the succession. -/
theorem outcome_matchSpans {shared : SharedMatcher} {subject : Subject} {state : State}
    {spans : List Span} {stop : Nat}
    (chain : Succession (shared.attempt.bare subject) subject.length state.offset spans stop) :
    (matchSpans shared.attempt shared.identity).outcome subject state =
      (.matched (spans.map (SpanIterator.standing shared)), state) := by
  obtain ⟨first, final, begins, traversal⟩ := SpanIterator.traversal_of_succession chain
  have enough : (spans.map (SpanIterator.standing shared)).length ≤
      subject.length - state.offset := by
    rw [List.length_map]
    exact chain.length_le
  rw [matchSpans, Attempt.outcome_bind, Attempt.outcome_offset]
  dsimp only
  rw [Attempt.outcome_bind, Attempt.outcome_remaining]
  dsimp only
  rw [Attempt.outcome_bind, begins]
  exact traversal.outcome_walk enough

namespace Matcher

variable (matcher : Matcher) (definitions : Definitions) {subject : Subject} {offset : Nat}

/-- A matcher that comes to a result fails somewhere, or matches what it passes over. -/
theorem settled_of_returns (inside : offset ≤ subject.length)
    (returns : ∃ result,
      (matcher.matchCursor definitions ⟨subject, offset⟩).ending.settle = .matched result) :
    Settled ((matcher.attempt definitions).bare subject) subject.length offset := by
  let effect := (matcher.readingsUnder definitions subject).span subject none offset
  have ran : (matcher.attempt definitions).bare subject offset = effect.applyTo ⟨offset, none⟩ :=
    @outcome_attempt matcher definitions subject ⟨offset, none⟩ inside
  have sound := (matcher.readingsUnder_sound definitions subject).span
  have within : effect.Within offset subject.length none := sound.bounded subject none offset inside
  obtain ⟨result, ended⟩ := returns
  change ((matcher.attempt definitions).bare subject offset).1.settle = _ at ended
  rw [ran] at ended
  cases known : effect.ending with
  | matched span =>
    have covered := sound.covers subject none offset span inside known
    refine .matched within.forward within.inside ?_
    rw [ran, Effect.applyTo, known, covered]
    rfl
  | failed failure =>
    apply Settled.failed
    rw [ran, Effect.applyTo, known]
    rfl
  | raised misuse =>
    rw [Effect.applyTo, known] at ended
    cases ended
  | exhausted =>
    rw [Effect.applyTo, known] at ended
    cases ended

/-- Without a store, a repetition without bounds matches up to where the succession ends. -/
theorem bare_zeroOrMore {spans : List Span} {stop : Nat}
    (chain : Succession ((matcher.attempt definitions).bare subject) subject.length offset spans
      stop)
    (last : Settled ((matcher.attempt definitions).bare subject) subject.length subject.length) :
    ((zeroOrMore matcher).attempt definitions).bare subject offset =
      (.matched (.between offset stop), ⟨stop, none⟩) := by
  let step := (matcher.meaning (definitions.call (definitions.depthFor subject))).span
  have same : (matcher.attempt definitions).bare subject = step.bare subject :=
    funext fun offset => (outcome_meaning matcher definitions).1
  have covered : ((zeroOrMore matcher).attempt definitions).bare subject offset =
      (Combinator.covering (Combinator.repeated .any step)).outcome subject ⟨offset, none⟩ :=
    (outcome_meaning (zeroOrMore matcher) definitions).1
  have looped : (Combinator.repeated .any step).outcome subject ⟨offset, none⟩ = _ :=
    Attempt.outcome_repeated ⟨offset, none⟩
  rw [same] at chain last
  obtain ⟨values, ends⟩ := Attempt.repeatFrom_any_of_succession chain last
    (State.mk offset none).checkpoint (Nat.le_refl _)
  rw [State.extend_self, ends] at looped
  rw [covered, Attempt.outcome_covering, looped]
  rfl

/-- The spans that a traversal stands on tile what a repetition without bounds consumes. Where the
matcher comes to a result at every offset ahead, the traversal leaves the state of its caller as it
is and comes to an end after at most as many spans as there are octets ahead. The first of them
begins where the traversal begins and each other one where the one before it ends; the iterator that
stands on a span rests there too, and only the last span may be empty. The repetition ends where the
last one ends, and where there is none, where it begins. An iterator is the same as the first one
only while it stands on the first span, and the same as the finished one only behind the last. -/
theorem spans_tile_repetition (matcher : Matcher) (definitions : Definitions) (identity : Nat)
    {subject : Subject} {state : State} (inside : state.offset ≤ subject.length)
    (returns : ∀ offset, state.offset ≤ offset → offset ≤ subject.length → ∃ result,
      (matcher.matchCursor definitions ⟨subject, offset⟩).ending.settle = .matched result) :
    let attempt := matcher.attempt definitions
    let shared : SharedMatcher := ⟨identity, attempt⟩
    let repetition := (zeroOrMore matcher).matchCursor definitions ⟨subject, state.offset⟩
    ∃ spans stop first final,
      let iterators := spans.map (SpanIterator.standing shared)
      ((matchSpans attempt identity).outcome subject state = (.matched iterators, state) ∧
        (SpanIterator.start shared state.offset).outcome subject state = (.matched first, state) ∧
        SpanIterator.Traversal subject state first iterators final) ∧
      (spans.length ≤ subject.length - state.offset ∧ Tiling state.offset spans stop) ∧
      (repetition.ending = .matched (.between state.offset stop) ∧ state.offset ≤ stop ∧
        repetition.state.offset = stop) ∧
      (∀ place span, spans[place]? = some span →
        ((SpanIterator.standing shared span).same first = true ↔ place = 0) ∧
          (SpanIterator.standing shared span).same .finished = false) ∧
      (spans ≠ [] → final.same first = false) ∧ final.same .finished = true := by
  intro attempt shared repetition
  have settled (offset : Nat) (behind : state.offset ≤ offset) (before : offset ≤ subject.length) :
      Settled (attempt.bare subject) subject.length offset :=
    matcher.settled_of_returns definitions before (returns offset behind before)
  obtain ⟨spans, stop, chain⟩ := Succession.of_settled inside settled
  obtain ⟨first, final, begins, traversal⟩ :=
    @SpanIterator.traversal_of_succession shared subject state _ _ _ chain
  have ended := traversal.final_current
  have repeats : (repetition.ending, repetition.state) = _ :=
    matcher.bare_zeroOrMore definitions chain (settled subject.length inside (Nat.le_refl _))
  refine ⟨spans, stop, first, final,
    ⟨@outcome_matchSpans shared subject state _ _ chain, begins, traversal⟩,
    ⟨chain.length_le, chain.tiling⟩,
    ⟨congrArg Prod.fst repeats, chain.le_stop, congrArg (·.2.offset) repeats⟩, ?_, ?_, ?_⟩
  · intro place span found
    exact ⟨traversal.same_first_iff chain.tiling found, rfl⟩
  · intro some_span
    rw [SpanIterator.same, ended]
    cases spans with
    | nil => exact absurd rfl some_span
    | cons leading later =>
      rw [traversal.first_eq]
      rfl
  · rw [SpanIterator.same, ended]
    rfl

/-- Two matches and an empty one, after which something is left over. -/
theorem spans_tile_repetition_empty_last :
    let matcher := Matcher.choice (.captured 0 (.literal [97, 98])) .empty
    let shared : SharedMatcher := ⟨0, matcher.attempt []⟩
    let subject : Subject := ⟨.octet, [97, 98, 97, 98, 120]⟩
    let state : State := ⟨0, some (CaptureStore.ofCapacity 1)⟩
    let spans : List Span := [⟨0, 2⟩, ⟨2, 2⟩, ⟨4, 0⟩]
    (state.offset ≤ subject.length ∧ ∀ offset, state.offset ≤ offset → offset ≤ subject.length →
      ∃ result, (matcher.matchCursor [] ⟨subject, offset⟩).ending.settle = .matched result) ∧
      (matchSpans (matcher.attempt []) 0).outcome subject state =
        (.matched (spans.map (SpanIterator.standing shared)), state) ∧
      ∃ stop, Tiling 0 spans stop ∧
        ((zeroOrMore matcher).matchCursor [] ⟨subject, 0⟩).ending = .matched (.between 0 stop) := by
  intro matcher shared subject state spans
  have inside : state.offset ≤ subject.length := by decide
  have returns : ∀ offset, state.offset ≤ offset → offset ≤ subject.length →
      ∃ result, (matcher.matchCursor [] ⟨subject, offset⟩).ending.settle = .matched result := by
    intro offset _ before
    have within : offset ≤ 5 := before
    interval_cases offset <;> exact ⟨_, rfl⟩
  obtain ⟨found, stop, first, final, ⟨listed, _⟩, ⟨_, tiling⟩, ⟨repeats, _⟩, _⟩ :=
    spans_tile_repetition matcher [] 0 inside returns
  let once := (matcher.attempt []).bare subject
  have last : Succession once subject.length 4 [⟨4, 0⟩] 4 := .empty (by decide) rfl
  have later : Succession once subject.length 2 [⟨2, 2⟩, ⟨4, 0⟩] 4 := .another (by decide) rfl last
  have chain : Succession once subject.length 0 spans 4 := .another (by decide) rfl later
  have computed : (matchSpans (matcher.attempt []) 0).outcome subject state =
      (.matched (spans.map (SpanIterator.standing shared)), state) :=
    @outcome_matchSpans shared subject state _ _ chain
  have alike : found.map (SpanIterator.standing shared) =
      spans.map (SpanIterator.standing shared) := by
    have same := congrArg Prod.fst (listed.symm.trans computed)
    injection same
  have same : found = spans := by
    have recovered := congrArg (List.filterMap SpanIterator.current) alike
    simpa only [List.filterMap_map, SpanIterator.standing, Function.comp_def,
      List.filterMap_some] using recovered
  rw [same] at tiling
  exact ⟨⟨inside, returns⟩, computed, stop, tiling, repeats⟩

end Matcher

end TextPattern
