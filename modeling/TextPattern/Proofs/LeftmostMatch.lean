import Mathlib.Order.Bounds.Basic
import Mathlib.Tactic.IntervalCases
import TextPattern.Proofs.CompleteGrammars

/-!
# Leftmost matches

A search from an offset has the ends of the units from there on for candidates, the offset itself
first. It takes the match at the least candidate at which the matcher matches, in the very state in
which the matcher run there alone would end: what was captured before, where it failed, is dropped.
Where it matches nowhere, nothing has changed. `Matcher.find_takes_leftmost` is the main statement.
-/

namespace TextPattern

/-! ## Candidates -/

namespace Subject

/-- The offsets that are reached from an offset by passing over whole units. -/
inductive Candidate (subject : Subject) (start : Nat) : Nat → Prop where
  /-- The offset itself. -/
  | here : Candidate subject start start
  /-- The end of the unit at a candidate. -/
  | next {offset : Nat} {unit : InputUnit} (candidate : Candidate subject start offset)
    (present : subject.unitAt offset = some unit) : Candidate subject start unit.next

variable {subject : Subject} {start candidate : Nat}

/-- Candidates behind the first unit are candidates. -/
theorem Candidate.cons {unit : InputUnit} (present : subject.unitAt start = some unit)
    (later : subject.Candidate unit.next candidate) : subject.Candidate start candidate := by
  induction later with
  | here => exact .next .here present
  | next _ found ih => exact .next ih found

/-- A candidate is the offset itself, or one behind the first unit. -/
theorem Candidate.eq_or_cons (reached : subject.Candidate start candidate) :
    candidate = start ∨ ∃ unit, subject.unitAt start = some unit ∧
      subject.Candidate unit.next candidate := by
  induction reached with
  | here => exact .inl rfl
  | next _ found ih =>
    rcases ih with rfl | ⟨unit, present, later⟩
    · exact .inr ⟨_, found, .here⟩
    · exact .inr ⟨unit, present, .next later found⟩

/-- Candidates lie behind the offset that a search begins at. -/
theorem Candidate.start_le (reached : subject.Candidate start candidate) : start ≤ candidate := by
  induction reached with
  | here => exact Nat.le_refl _
  | next _ present ih => exact Nat.le_trans ih (Nat.le_of_lt (unitAt_bounds present).2.2)

/-- From inside the input candidates lie inside it. -/
theorem Candidate.le_length (reached : subject.Candidate start candidate)
    (inside : start ≤ subject.length) : candidate ≤ subject.length := by
  cases reached with
  | here => exact inside
  | next _ present => exact unitAt_next_le present

/-- Where there is no unit, only the offset itself is a candidate. -/
theorem candidate_iff_of_none (absent : subject.unitAt start = none) :
    subject.Candidate start candidate ↔ candidate = start := by
  constructor
  · intro reached
    rcases reached.eq_or_cons with same | ⟨unit, present, _⟩
    · exact same
    · rw [absent] at present
      cases present
  · rintro rfl
    exact .here

/-- Where there is a unit, the candidates are the offset itself and those behind the unit. -/
theorem candidate_iff_of_some {unit : InputUnit} (present : subject.unitAt start = some unit) :
    subject.Candidate start candidate ↔
      candidate = start ∨ subject.Candidate unit.next candidate := by
  constructor
  · intro reached
    rcases reached.eq_or_cons with same | ⟨other, found, later⟩
    · exact .inl same
    · rw [present] at found
      cases found
      exact .inr later
  · rintro (rfl | later)
    · exact .here
    · exact later.cons present

/-- The end of the input is a candidate. -/
theorem candidate_length (inside : start ≤ subject.length) :
    subject.Candidate start subject.length := by
  induction start using unitsFrom.induct subject with
  | case1 offset absent =>
    rw [Nat.le_antisymm inside (unitAt_eq_none_iff.mp absent)]
    exact .here
  | case2 offset unit present ih => exact (ih (unitAt_next_le present)).cons present

end Subject

/-! ## Searches -/

namespace Matcher

variable (matcher : Matcher) (definitions : Definitions) {subject : Subject}
  {captures : Option CaptureStore} {offset : Nat}

/-- To drop what was captured since a run began leaves only its move. -/
theorem outcome_rolled_back (inside : offset ≤ subject.length) :
    let after := ((matcher.attempt definitions).outcome subject ⟨offset, captures⟩).2
    after.rollback (State.mk offset captures).checkpoint.mark = ⟨after.offset, captures⟩ := by
  intro after
  have ran : after = _ := congrArg Prod.snd
    (@outcome_attempt matcher definitions subject ⟨offset, captures⟩ inside)
  rw [ran]
  dsimp only [Effect.applyTo]
  rw [State.rollback_extend, ← State.mk_extend ⟨offset, captures⟩ offset []]
  exact congrArg (State.mk _ ·.captures) (State.extend_self ⟨offset, captures⟩)

/-- With rounds enough, a search takes the match at the least candidate where there is one. If there
is none, only the position may be another one. -/
theorem outcome_searchFrom {start rounds : Nat} (inside : start ≤ subject.length)
    (enough : subject.length - start < rounds) :
    let run (candidate : Nat) := (matcher.attempt definitions).outcome subject ⟨candidate, captures⟩
    let found := (searchFrom (matcher.attempt definitions) rounds start).outcome subject
      ⟨offset, captures⟩
    let Matches (candidate : Nat) :=
      subject.Candidate start candidate ∧ ∃ span, (run candidate).1 = .matched span
    (∀ candidate, subject.Candidate start candidate →
        ∃ result, (run candidate).1.settle = .matched result) →
      (∃ first span after, IsLeast { candidate | Matches candidate } first ∧
        run first = (.matched span, after) ∧ found = (.matched (some span), after)) ∨
      (∀ candidate, ¬ Matches candidate) ∧ ∃ stop, found = (.matched none, ⟨stop, captures⟩) := by
  intro run found Matches returns
  -- Over the rounds: the candidates behind the first unit are left to the other ones.
  induction rounds generalizing start offset with
  | zero => exact absurd enough (Nat.not_lt_zero _)
  | succ rounds ih =>
    obtain ⟨result, ended⟩ := returns start .here
    have step : found = _ :=
      @Attempt.outcome_searchFrom subject _ start inside rounds ⟨offset, captures⟩
    have tried : (matcher.attempt definitions).outcome subject
        { State.mk offset captures with offset := start } =
      ((run start).1, (run start).2) := rfl
    rw [tried] at step
    cases known : (run start).1 with
    | matched span =>
      rw [known] at step
      exact .inl ⟨start, span, _, ⟨⟨.here, span, known⟩, fun other matched => matched.1.start_le⟩,
        Prod.ext known rfl, step⟩
    | failed failure =>
      have refused : ¬ ∃ span, (run start).1 = .matched span := by
        rintro ⟨span, matched⟩
        rw [known] at matched
        cases matched
      have undone : (run start).2.rollback (State.mk offset captures).checkpoint.mark =
        ⟨(run start).2.offset, captures⟩ := matcher.outcome_rolled_back definitions inside
      rw [known] at step
      dsimp only at step
      rw [undone] at step
      cases present : subject.unitAt start with
      | none =>
        rw [present] at step
        refine .inr ⟨fun candidate matched => refused ?_, _, step⟩
        rw [← (Subject.candidate_iff_of_none present).mp matched.1]
        exact matched.2
      | some unit =>
        rw [present] at step
        dsimp only at step
        obtain ⟨begins, ahead, further⟩ := Subject.unitAt_bounds present
        have others (candidate : Nat) :=
          @Subject.candidate_iff_of_some subject start candidate unit present
        have split (candidate : Nat) : Matches candidate ↔
            subject.Candidate unit.next candidate ∧ ∃ span, (run candidate).1 = .matched span := by
          constructor
          · rintro ⟨reached, matched⟩
            rcases (others candidate).mp reached with rfl | later
            · exact absurd matched refused
            · exact ⟨later, matched⟩
          · rintro ⟨later, matched⟩
            exact ⟨(others candidate).mpr (.inr later), matched⟩
        have fewer : subject.length - unit.next < rounds := by omega
        rw [step]
        simp only [split]
        exact ih (Subject.unitAt_next_le present) fewer fun candidate later =>
          returns candidate ((others candidate).mpr (.inr later))
    | raised misuse =>
      rw [known] at ended
      cases ended
    | exhausted =>
      rw [known] at ended
      cases ended

/-- A search takes the match at the least candidate where there is one, and else ends in the state
in which it began. -/
theorem outcome_find (inside : offset ≤ subject.length) :
    let state : State := ⟨offset, captures⟩
    let run (candidate : Nat) :=
      (matcher.attempt definitions).outcome subject { state with offset := candidate }
    let found := (find (matcher.attempt definitions)).outcome subject state
    let Matches (candidate : Nat) :=
      subject.Candidate offset candidate ∧ ∃ span, (run candidate).1 = .matched span
    (∀ candidate, subject.Candidate offset candidate →
        ∃ result, (run candidate).1.settle = .matched result) →
      (∃ first span after, IsLeast { candidate | Matches candidate } first ∧
        run first = (.matched span, after) ∧ found = (.matched (some span), after)) ∨
      (∀ candidate, ¬ Matches candidate) ∧ found = (.matched none, state) := by
  intro state run found Matches returns
  have settled : found = _ := Attempt.outcome_find state
  rcases @outcome_searchFrom matcher definitions subject captures offset offset _ inside
    (Nat.lt_succ_self _) returns with
    ⟨first, span, after, least, matched, taken⟩ | ⟨nowhere, stop, missed⟩
  · rw [taken] at settled
    exact .inl ⟨first, span, after, least, matched, settled⟩
  · rw [missed] at settled
    exact .inr ⟨nowhere, settled⟩

/-- A search takes the leftmost match and leaves nothing else behind. The candidates go on to the
end of the input, which is one of them. Where the matcher comes to a result at every candidate, the
search finds a span if and only if the matcher matches at some candidate; it ends exactly as the
matcher run alone, with the captures from before, at the least such candidate; and where there is
none, it ends in the state in which it began. -/
theorem find_takes_leftmost (matcher : Matcher) (definitions : Definitions) {subject : Subject}
    {state : State} (inside : state.offset ≤ subject.length)
    (returns : ∀ candidate, subject.Candidate state.offset candidate → ∃ result,
      ((matcher.attempt definitions).outcome subject { state with offset := candidate }).1.settle =
        .matched result) :
    let run (candidate : Nat) :=
      (matcher.attempt definitions).outcome subject { state with offset := candidate }
    let found := (find (matcher.attempt definitions)).outcome subject state
    let Matches (candidate : Nat) :=
      subject.Candidate state.offset candidate ∧ ∃ span, (run candidate).1 = .matched span
    subject.Candidate state.offset subject.length ∧
      ((∃ span, found.1 = .matched (some span)) ↔ ∃ candidate, Matches candidate) ∧
      (∀ span after, found = (.matched (some span), after) ↔
        ∃ first, IsLeast { candidate | Matches candidate } first ∧
          run first = (.matched span, after)) ∧
      (found = (.matched none, state) ↔ ∀ candidate, ¬ Matches candidate) := by
  intro run found Matches
  rcases matcher.outcome_find definitions inside returns with
    ⟨first, span, after, least, matched, taken⟩ | ⟨nowhere, missed⟩
  · change found = _ at taken
    change run first = _ at matched
    rw [taken]
    refine ⟨Subject.candidate_length inside, ⟨fun _ => ⟨first, least.1⟩, fun _ => ⟨span, rfl⟩⟩,
      fun other later => ⟨?_, ?_⟩, ⟨nofun, fun nowhere => absurd least.1 (nowhere first)⟩⟩
    · rintro ⟨⟩
      exact ⟨first, least, matched⟩
    · rintro ⟨also, leftmost, ran⟩
      rw [leftmost.unique least, matched] at ran
      cases ran
      rfl
  · change found = _ at missed
    rw [missed]
    refine ⟨Subject.candidate_length inside, ⟨?_, ?_⟩, fun span after => ⟨nofun, ?_⟩,
      ⟨fun _ => nowhere, fun _ => rfl⟩⟩
    · rintro ⟨span, ⟨⟩⟩
    · rintro ⟨candidate, matched⟩
      exact absurd matched (nowhere candidate)
    · rintro ⟨first, least, _⟩
      exact absurd least.1 (nowhere first)

/-- A text that begins with a broken off sequence of two octets and has one captured before: what is
captured there and at the next unit is dropped, and the match is found at the third one. -/
theorem find_takes_leftmost_broken_off :
    let matcher := Matcher.sequence (.captured 0 (.one .any)) (.literal [98])
    let subject : Subject := ⟨.utf8, [0xE2, 0x82, 97, 97, 98]⟩
    let before : CaptureStore := (CaptureStore.ofCapacity 1).replay [(0, ⟨0, 1⟩)]
    let state : State := ⟨0, some before⟩
    (state.offset ≤ subject.length ∧ ∀ candidate, subject.Candidate 0 candidate → ∃ result,
      ((matcher.attempt []).outcome subject { state with offset := candidate }).1.settle =
        .matched result) ∧
      (find (matcher.attempt [])).outcome subject state =
        (.matched (some ⟨3, 2⟩), ⟨5, some (before.replay [(0, ⟨3, 1⟩)])⟩) := by
  intro matcher subject before state
  have inside : state.offset ≤ subject.length := by decide
  have returns : ∀ candidate, subject.Candidate 0 candidate → ∃ result,
      ((matcher.attempt []).outcome subject { state with offset := candidate }).1.settle =
        .matched result := by
    intro candidate reached
    have within : candidate ≤ 5 := reached.le_length inside
    interval_cases candidate <;> exact ⟨_, rfl⟩
  obtain ⟨_, _, leftmost, _⟩ := find_takes_leftmost matcher [] inside returns
  have first : subject.unitAt 0 = some ⟨0xFFFD, 0, 2⟩ := rfl
  have second : subject.unitAt 2 = some ⟨97, 2, 1⟩ := rfl
  have reached : subject.Candidate 0 3 := Subject.Candidate.next (.next .here first) second
  refine ⟨⟨inside, returns⟩, (leftmost _ _).mpr ⟨3, ⟨⟨reached, _, rfl⟩, ?_⟩, rfl⟩⟩
  rintro candidate ⟨_, span, matched⟩
  by_contra before
  have early : candidate < 3 := Nat.lt_of_not_le before
  interval_cases candidate <;> exact nomatch matched

end Matcher

end TextPattern
