import TextPattern.Proofs.UnitTraversal
import TextPattern.Proofs.Utf8.Boundaries
import TextPattern.Proofs.Utf8.Concatenation

/-!
# Literals as runes

A literal compares octets and looks at one boundary; it never decodes. On well-formed text it
matches where its runes are ahead all the same, and so it matches the same as these runes one after
the other. A literal that is no text matches nowhere: where its octets are ahead, it ends inside a
rune.
`Matcher.literal_matches_runes` is the main statement.
-/

namespace TextPattern

open Utf8 (IsText Resumes)

variable {bytes text : Bytes} {offset : Nat}

/-! ## Runes of parts -/

namespace Utf8

/-- Decoding can resume at the boundaries. -/
theorem isBoundary_iff_resumes (inside : offset ≤ bytes.length) :
    isBoundary bytes offset = true ↔ Resumes (bytes.drop offset) := by
  rw [isBoundary, Resumes, List.head?_drop]
  rcases Nat.eq_or_lt_of_le inside with rfl | short
  · rw [beq_self_eq_true, List.getElem?_eq_none (Nat.le_refl _)]
    exact iff_of_true rfl fun octet absent => absurd absent (Option.not_mem_none octet)
  · rw [beq_false_of_ne (Nat.ne_of_lt short), List.getElem?_eq_getElem short]
    simp

/-- Decoding can resume at a text. -/
theorem IsText.resumes (valid : IsText text) : Resumes text :=
  (isBoundary_iff_resumes (Nat.zero_le _)).mp valid.isBoundary_zero

/-- Among texts the runes of a part in front tell its octets. -/
theorem IsText.prefix_of_runes (whole : IsText bytes) (part : IsText text)
    (ahead : runes text <+: runes bytes) :
    ∃ later, IsText later ∧ bytes = text ++ later := by
  obtain ⟨more, listed⟩ := ahead
  refine ⟨encodeAll more, isText_encodeAll more, ?_⟩
  calc
    bytes = encodeAll (runes bytes) := whole.encodeAll_runes.symm
    _ = encodeAll (runes text ++ more) := by rw [listed]
    _ = encodeAll (runes text) ++ encodeAll more := List.flatMap_append
    _ = text ++ encodeAll more := by rw [part.encodeAll_runes]

/-- In a text those octets are ahead, with decoding resuming behind them, that are a text themselves
and whose runes are ahead. -/
theorem IsText.ahead_iff (whole : IsText bytes) :
    text <+: bytes ∧ Resumes (bytes.drop text.length) ↔
      IsText text ∧ runes text <+: runes bytes := by
  constructor
  · rintro ⟨ahead, resumes⟩
    have boundary := (isBoundary_iff_resumes ahead.length_le).mpr resumes
    obtain ⟨later, rfl⟩ := ahead
    rw [List.drop_left] at resumes
    have front := (whole.split boundary).1
    rw [List.take_left] at front
    refine ⟨front, runes later, ?_⟩
    rw [runes, runes, runes, resumes.decodeAll_append, List.map_append]
  · rintro ⟨part, ahead⟩
    obtain ⟨later, valid, rfl⟩ := whole.prefix_of_runes part ahead
    rw [List.drop_left]
    exact ⟨List.prefix_append _ _, valid.resumes⟩

end Utf8

namespace Subject

/-- The octets of a part that decoding can resume behind are taken up by the units of its runes. -/
theorem unitsFrom_part {later : Bytes} (ahead : bytes.drop offset = text ++ later)
    (resumes : Resumes later) :
    ∃ units, (Subject.mk .utf8 bytes).unitsFrom offset =
        units ++ (Subject.mk .utf8 bytes).unitsFrom (offset + text.length) ∧
      units.map InputUnit.value = Utf8.runes text ∧
      lastStop InputUnit.next offset units = offset + text.length := by
  -- By the length of the part: the unit ahead is the first of the part, and the rest is shorter.
  induction left : text.length using Nat.strong_induction_on generalizing offset text with
  | _ _ ih =>
    subst left
    by_cases ended : text = []
    · subst ended
      refine ⟨[], rfl, ?_, rfl⟩
      rw [Utf8.runes, Utf8.decodeAll]
      rfl
    · have more : bytes.drop offset ≠ [] := by
        rw [ahead]
        exact List.append_ne_nil_of_left_ne_nil ended later
      obtain ⟨unit, present⟩ : ∃ unit, (Subject.mk .utf8 bytes).unitAt offset = some unit := by
        rw [← Option.ne_none_iff_exists', Ne, unitAt_eq_none_iff]
        exact mt List.drop_eq_nil_iff.mpr more
      have decoded := (unitAt_text present).2
      rw [ahead, resumes.decode_append ended] at decoded
      have next : unit.next = offset + (Utf8.decode text).2 := by
        rw [← decoded, InputUnit.next, (unitAt_bounds present).1]
      have wide := Utf8.decode_width_pos text
      have narrow : (Utf8.decode text).2 ≤ text.length := by
        obtain ⟨octet, rest, rfl⟩ := List.exists_cons_of_ne_nil ended
        exact Utf8.decode_width_le octet rest
      have onward : bytes.drop unit.next = text.drop (Utf8.decode text).2 ++ later := by
        rw [next, ← List.drop_drop, ahead, List.drop_append_of_le_length narrow]
      obtain ⟨units, listed, values, ends⟩ := ih (text.length - (Utf8.decode text).2) (by omega)
        onward List.length_drop
      rw [show unit.next + (text.length - (Utf8.decode text).2) = offset + text.length by omega]
        at listed ends
      refine ⟨unit :: units, ?_, ?_, ends⟩
      · rw [unitsFrom_cons present, listed]
        rfl
      · rw [List.map_cons, values, Utf8.runes, Utf8.runes, Utf8.decodeAll_eq ended, List.map_cons,
          ← decoded]

end Subject

/-! ## What a literal does -/

namespace Reading

/-- The four ways of a literal: it matches where it is ahead and decoding can resume behind it, it
ends inside a rune, the input ends inside it, or it differs. -/
theorem literal_cases (text : Bytes) (capacity : Option Nat) (inside : offset ≤ bytes.length) :
    let rest := bytes.drop offset
    let effect := literal text ⟨.utf8, bytes⟩ capacity offset
    (text <+: rest ∧ Resumes (rest.drop text.length) ∧
      effect = ⟨.matched ⟨offset, text.length⟩, offset + text.length, []⟩) ∨
    (text <+: rest ∧ ¬ Resumes (rest.drop text.length) ∧
      effect = .still (.failed (.mismatch (offset + text.length)
        (Bytes.ofString "code point boundary"))) offset) ∨
    (¬ text <+: rest ∧ rest <+: text ∧
      effect = .still (.failed (.outOfBounds bytes.length)) offset) ∨
    (¬ text <+: rest ∧ ¬ rest <+: text ∧
      effect = .still (.failed (.mismatch offset (Bytes.ofString "literal string"))) offset) := by
  intro rest effect
  have read : effect = literal text ⟨.utf8, bytes⟩ capacity offset := rfl
  by_cases ahead : text <+: rest
  · have room : text.length ≤ bytes.length - offset := by
      have shorter := ahead.length_le
      rwa [List.length_drop] at shorter
    have boundary : Utf8.isBoundary bytes (offset + text.length) = true ↔
        Resumes (rest.drop text.length) := by
      rw [Utf8.isBoundary_iff_resumes (by omega), ← List.drop_drop]
    have goes : (Subject.mk .utf8 bytes).advance offset text.length =
        if Utf8.isBoundary bytes (offset + text.length) then .ok (offset + text.length)
        else .error (.mismatch (offset + text.length) (Bytes.ofString "code point boundary")) :=
      if_neg (Nat.not_lt_of_le room)
    rw [literal, if_pos (List.isPrefixOf_iff_prefix.mpr ahead), goes] at read
    by_cases ends : Resumes (rest.drop text.length)
    · rw [if_pos (boundary.mpr ends)] at read
      exact .inl ⟨ahead, ends, read⟩
    · rw [if_neg (mt boundary.mp ends)] at read
      exact .inr (.inl ⟨ahead, ends, read⟩)
  · rw [literal, if_neg (mt List.isPrefixOf_iff_prefix.mp ahead)] at read
    by_cases short : rest <+: text
    · rw [if_pos (List.isPrefixOf_iff_prefix.mpr short)] at read
      exact .inr (.inr (.inl ⟨ahead, short, read⟩))
    · rw [if_neg (mt List.isPrefixOf_iff_prefix.mp short)] at read
      exact .inr (.inr (.inr ⟨ahead, short, read⟩))

/-- A unit of the value is matched up to where it ends. -/
theorem one_equal_of_unit {subject : Subject} {unit : InputUnit} (capacity : Option Nat)
    (present : subject.unitAt offset = some unit) :
    one (.equal unit.value) subject capacity offset =
      ⟨.matched (.between offset unit.next), unit.next, []⟩ := by
  have accepted : (Predicate.equal unit.value).accepts subject.encoding unit.value = true :=
    beq_self_eq_true _
  rw [one, present, ← Subject.span_of_unitAt present]
  exact if_pos accepted

/-- A value that is matched is that of the unit ahead. -/
theorem exists_unit_of_equal {subject : Subject} (capacity : Option Nat) {value : Nat} {span : Span}
    (matched : (one (.equal value) subject capacity offset).ending = .matched span) :
    ∃ unit, subject.unitAt offset = some unit ∧ unit.value = value ∧
      (one (.equal value) subject capacity offset).stop = unit.next := by
  unfold one at matched ⊢
  cases present : subject.unitAt offset with
  | none =>
    rw [present] at matched
    cases matched
  | some unit =>
    rw [present] at matched
    dsimp only at matched ⊢
    split at matched
    · rename_i accepted
      rw [if_pos accepted]
      exact ⟨unit, rfl, beq_iff_eq.mp accepted, rfl⟩
    · cases matched

end Reading

/-! ## Runes one after the other -/

namespace Matcher

/-- One unit of each value, one after the other. -/
def ofValues (first : Nat) : List Nat → Matcher
  | [] => ofValue first
  | second :: later => sequenceOf (ofValue first) (ofValue second) (later.map ofValue)

/-- The first value comes before the others. -/
theorem ofValues_cons (first second : Nat) (later : List Nat) :
    ofValues first (second :: later) = sequence (ofValue first) (ofValues second later) := by
  cases later <;> rfl

section
variable (definitions : Definitions) {subject : Subject} (capacity : Option Nat)

/-- What is read for values one after the other. -/
abbrev valuesRead (subject : Subject) (first : Nat) (later : List Nat) : Reading Span :=
  ((ofValues first later).readingsUnder definitions subject).span

/-- Units of the values are matched from the first to the last. -/
theorem valuesRead_of_units {first : Nat} {later : List Nat} {units rest : List InputUnit}
    (listed : units.map InputUnit.value = first :: later)
    (ahead : subject.unitsFrom offset = units ++ rest) :
    let stop := lastStop InputUnit.next offset units
    valuesRead definitions subject first later subject capacity offset =
      ⟨.matched (.between offset stop), stop, []⟩ := by
  induction later generalizing first units offset with
  | nil =>
    obtain ⟨unit, rfl, rfl⟩ := List.map_eq_singleton_iff.mp listed
    have present : subject.unitAt offset = some unit := by
      rw [← Subject.head?_unitsFrom, ahead]
      rfl
    exact Reading.one_equal_of_unit capacity present
  | cons second later ih =>
    obtain ⟨unit, others, rfl, rfl, values⟩ := List.map_eq_cons_iff.mp listed
    have present : subject.unitAt offset = some unit := by
      rw [← Subject.head?_unitsFrom, ahead]
      rfl
    rw [Subject.unitsFrom_cons present] at ahead
    have onward := ih values (List.cons.inj ahead).2
    rw [valuesRead, ofValues_cons]
    show Reading.sequence (.one (.equal unit.value)) (valuesRead definitions subject second later)
      subject capacity offset = _
    have first := Reading.one_equal_of_unit capacity present
    simp only [Reading.sequence, Reading.covering, bind, first, onward, Effect.andThen,
      Effect.after, Effect.map, Ending.map, List.append_nil]
    rfl

/-- Where values are matched one after the other, they are ahead. -/
theorem prefix_of_valuesRead {first : Nat} {later : List Nat} {span : Span}
    (matched : (valuesRead definitions subject first later subject capacity offset).ending =
      .matched span) : first :: later <+: subject.unitsAhead offset := by
  induction later generalizing first span offset with
  | nil =>
    obtain ⟨unit, present, rfl, _⟩ := Reading.exists_unit_of_equal capacity matched
    rw [Subject.unitsAhead_cons present]
    exact ⟨_, rfl⟩
  | cons second later ih =>
    rw [valuesRead, ofValues_cons] at matched
    obtain ⟨_, covered, _⟩ := Effect.map_matched_iff.mp matched
    obtain ⟨_, before, behind⟩ := Effect.andThen_matched_iff.mp covered
    obtain ⟨unit, present, rfl, stop⟩ := Reading.exists_unit_of_equal capacity before
    rw [Subject.unitsAhead_cons present, List.prefix_cons_inj]
    exact ih (stop ▸ behind)

end

/-- From a state on, values are matched up to where their units end. -/
theorem outcome_ofValues_ahead (definitions : Definitions) {subject : Subject} {state : State}
    (inside : state.offset ≤ subject.length) {first : Nat} {later : List Nat}
    {units rest : List InputUnit} (listed : units.map InputUnit.value = first :: later)
    (ahead : subject.unitsFrom state.offset = units ++ rest) :
    let stop := lastStop InputUnit.next state.offset units
    ((ofValues first later).attempt definitions).outcome subject state =
      (.matched (.between state.offset stop), { state with offset := stop }) := by
  intro stop
  have read := valuesRead_of_units definitions state.capacity listed ahead
  refine ((outcome_attempt _ definitions inside).trans
    (congrArg (Effect.applyTo · state) read)).trans ?_
  simp [Effect.applyTo, State.extend, stop]

/-- A literal can match here: its octets are ahead, and decoding can resume behind them. -/
def Fits (bytes : Bytes) (offset : Nat) (text : Bytes) : Prop :=
  text <+: bytes.drop offset ∧ Resumes ((bytes.drop offset).drop text.length)

/-- At a boundary of a text a literal can match that is a text itself and whose runes are ahead. -/
theorem fits_iff (valid : IsText bytes) (begins : Utf8.isBoundary bytes offset = true) :
    Fits bytes offset text ↔
      IsText text ∧ Utf8.runes text <+: (Subject.mk .utf8 bytes).unitsAhead offset := by
  rw [Subject.unitsAhead_text]
  exact (valid.split begins).2.ahead_iff

/-- Where a literal can match, its runes are those of the units up to where it ends. -/
theorem Fits.units (fits : Fits bytes offset text) :
    ∃ units, (Subject.mk .utf8 bytes).unitsFrom offset =
        units ++ (Subject.mk .utf8 bytes).unitsFrom (offset + text.length) ∧
      units.map InputUnit.value = Utf8.runes text ∧
      lastStop InputUnit.next offset units = offset + text.length :=
  Subject.unitsFrom_part (List.prefix_iff_eq_append.mp fits.1).symm fits.2

section
variable (definitions : Definitions) {state : State}
  (inside : state.offset ≤ (Subject.mk .utf8 bytes).length)
include inside

/-- A literal matches where it can. -/
theorem outcome_literal_fits (fits : Fits bytes state.offset text) :
    ((literal text).attempt definitions).outcome ⟨.utf8, bytes⟩ state =
      (.matched ⟨state.offset, text.length⟩,
        { state with offset := state.offset + text.length }) := by
  refine (outcome_attempt (literal text) definitions inside).trans ?_
  rcases Reading.literal_cases text state.capacity inside with
    ⟨_, _, same⟩ | ⟨_, torn, _⟩ | ⟨differs, _⟩ | ⟨differs, _⟩
  · refine (congrArg (Effect.applyTo · state) same).trans ?_
    simp [Effect.applyTo, State.extend]
  · exact absurd fits.2 torn
  · exact absurd fits.1 differs
  · exact absurd fits.1 differs

/-- A literal fails elsewhere and changes nothing; it is out of bounds where the input ends inside
it. -/
theorem outcome_literal_refused (refused : ¬ Fits bytes state.offset text) :
    ∃ failure, ((literal text).attempt definitions).outcome ⟨.utf8, bytes⟩ state =
        (.failed failure, state) ∧
      ∀ position, failure = .outOfBounds position ↔ position = bytes.length ∧
        bytes.drop state.offset <+: text ∧ bytes.drop state.offset ≠ text := by
  have ran := outcome_attempt (literal text) definitions inside
  have still {failure : Failure} (same : Reading.literal text ⟨.utf8, bytes⟩ state.capacity
      state.offset = .still (.failed failure) state.offset) :
      ((literal text).attempt definitions).outcome ⟨.utf8, bytes⟩ state =
        (.failed failure, state) :=
    ran.trans ((congrArg (Effect.applyTo · state) same).trans (Effect.applyTo_still _ state))
  rcases Reading.literal_cases text state.capacity inside with
    ⟨ahead, resumes, _⟩ | ⟨ahead, _, same⟩ | ⟨differs, short, same⟩ | ⟨_, longer, same⟩
  · exact absurd ⟨ahead, resumes⟩ refused
  · refine ⟨_, still same, fun position => iff_of_false nofun ?_⟩
    rintro ⟨_, short, shorter⟩
    exact shorter (short.eq_of_length_le ahead.length_le)
  · refine ⟨_, still same, fun position => ?_⟩
    rw [Failure.outOfBounds.injEq, eq_comm, and_iff_left]
    exact ⟨short, fun same => differs (same ▸ List.prefix_refl _)⟩
  · exact ⟨_, still same, fun position => iff_of_false nofun fun short => longer short.2.1⟩

variable {first : Nat} {later : List Nat} (spelled : Utf8.runes text = first :: later)
include spelled

/-- Where a literal can match, its runes one after the other do as it does. -/
theorem outcome_ofValues_fits (fits : Fits bytes state.offset text) :
    ((ofValues first later).attempt definitions).outcome ⟨.utf8, bytes⟩ state =
      ((literal text).attempt definitions).outcome ⟨.utf8, bytes⟩ state := by
  obtain ⟨units, listed, values, ends⟩ := fits.units
  refine (outcome_ofValues_ahead definitions inside (values.trans spelled) listed).trans ?_
  rw [outcome_literal_fits definitions inside fits, ends, Span.between, Nat.add_sub_cancel_left]

/-- The runes of a text that are matched one after the other are ahead. -/
theorem prefix_of_outcome_ofValues {span : Span} {after : State}
    (matched : ((ofValues first later).attempt definitions).outcome ⟨.utf8, bytes⟩ state =
      (.matched span, after)) :
    Utf8.runes text <+: (Subject.mk .utf8 bytes).unitsAhead state.offset := by
  have read := (outcome_attempt (ofValues first later) definitions inside).symm.trans matched
  rw [spelled]
  exact prefix_of_valuesRead definitions state.capacity (congrArg Prod.fst read)

end

/-- On well-formed text a literal matches where it is a text itself and its runes are ahead, up to
where their units end, and then it matches the same as these runes one after the other. Where it
fails nothing changes, and it is out of bounds exactly where the input ends inside it. -/
theorem literal_matches_runes (valid : IsText bytes) {state : State}
    (begins : Utf8.isBoundary bytes state.offset = true) (definitions : Definitions)
    (text : Bytes) :
    let subject : Subject := ⟨.utf8, bytes⟩
    let start := state.offset
    let stop := start + text.length
    let rest := bytes.drop start
    let run := fun matcher : Matcher => (matcher.attempt definitions).outcome subject state
    ((∃ span, (run (.literal text)).1 = .matched span) ↔
      IsText text ∧ Utf8.runes text <+: subject.unitsAhead start) ∧
    (∀ span, (run (.literal text)).1 = .matched span →
      span = ⟨start, text.length⟩ ∧ (run (.literal text)).2 = { state with offset := stop } ∧
      ∃ units, subject.unitsFrom start = units ++ subject.unitsFrom stop ∧
        units.map InputUnit.value = Utf8.runes text ∧
        lastStop InputUnit.next start units = stop) ∧
    (∀ first later, IsText text → Utf8.runes text = first :: later → ∀ span after,
      run (.literal text) = (.matched span, after) ↔
        run (ofValues first later) = (.matched span, after)) ∧
    ((∀ span, (run (.literal text)).1 ≠ .matched span) →
      ∃ failure, run (.literal text) = (.failed failure, state)) ∧
    ∀ position, (run (.literal text)).1 = .failed (.outOfBounds position) ↔
      position = bytes.length ∧ rest <+: text ∧ rest ≠ text := by
  intro subject start stop rest run
  have inside := @Subject.le_length_of_isBoundary ⟨.utf8, bytes⟩ state.offset begins
  by_cases fits : Fits bytes start text
  · have ran : run (.literal text) =
        (.matched ⟨start, text.length⟩, { state with offset := stop }) :=
      outcome_literal_fits definitions inside fits
    have ahead := (fits_iff valid begins).mp fits
    refine ⟨iff_of_true ⟨_, congrArg Prod.fst ran⟩ ahead, ?_, ?_, ?_, ?_⟩
    · intro span matched
      rw [ran] at matched ⊢
      cases matched
      exact ⟨rfl, rfl, fits.units⟩
    · intro first later _ spelled span after
      rw [show run (ofValues first later) = run (.literal text) from
        outcome_ofValues_fits definitions inside spelled fits]
    · intro unmatched
      exact absurd (congrArg Prod.fst ran) (unmatched _)
    · intro position
      rw [ran]
      constructor
      · rintro ⟨⟩
      · rintro ⟨_, short, shorter⟩
        exact absurd (short.eq_of_length_le fits.1.length_le) shorter
  · obtain ⟨failure, ran, bounds⟩ := outcome_literal_refused definitions inside fits
    change run (.literal text) = _ at ran
    have unmatched (span : Span) : (run (.literal text)).1 ≠ .matched span := by
      rw [ran]
      rintro ⟨⟩
    have absent : ¬ (IsText text ∧ Utf8.runes text <+: subject.unitsAhead start) :=
      mt (fits_iff valid begins).mpr fits
    refine ⟨iff_of_false (fun found => found.elim unmatched) absent,
      fun span matched => absurd matched (unmatched span), ?_, fun _ => ⟨failure, ran⟩, ?_⟩
    · intro first later part spelled span after
      constructor
      · intro matched
        exact absurd (congrArg Prod.fst matched) (unmatched span)
      · intro matched
        exact absurd ⟨part, prefix_of_outcome_ofValues definitions inside spelled matched⟩ absent
    · intro position
      rw [ran]
      exact ⟨fun same => (bounds position).mp (Ending.failed.inj same),
        fun short => congrArg Ending.failed ((bounds position).mpr short)⟩

/-- A letter and a sign of several octets each behind a letter of one. The first octet of the letter
alone does not match, and the input is too short for one more octet behind both. -/
theorem literal_matches_runes_signs :
    let bytes := Utf8.encodeAll [0x61, 0xE9, 0x20AC]
    let text := Utf8.encodeAll [0xE9, 0x20AC]
    let state : State := ⟨1, none⟩
    let run := fun matcher : Matcher => (matcher.attempt []).outcome ⟨.utf8, bytes⟩ state
    (IsText bytes ∧ Utf8.isBoundary bytes state.offset = true ∧ IsText text ∧
      Utf8.runes text = [0xE9, 0x20AC]) ∧
    run (.literal text) = (.matched ⟨1, 5⟩, ⟨6, none⟩) ∧
    run (ofValues 0xE9 [0x20AC]) = (.matched ⟨1, 5⟩, ⟨6, none⟩) ∧
    (∃ failure, run (.literal [0xC3]) = (.failed failure, state)) ∧
    (run (.literal (text ++ [0x21]))).1 = .failed (.outOfBounds 6) := by
  intro bytes text state run
  have valid : IsText bytes := Utf8.isText_encodeAll _
  have part : IsText text := Utf8.isText_encodeAll _
  have begins : Utf8.isBoundary bytes state.offset = true := by decide
  have spelled : Utf8.runes text = [0xE9, 0x20AC] := by decide +kernel
  have ran : run (.literal text) = (.matched ⟨1, 5⟩, ⟨6, none⟩) := rfl
  have alike := (literal_matches_runes valid begins [] text).2.2.1 0xE9 [0x20AC] part spelled
  have row := (alike _ _).mp ran
  have unmatched (span : Span) : (run (.literal [0xC3])).1 ≠ .matched span := by rintro ⟨⟩
  have torn := (literal_matches_runes valid begins [] [0xC3]).2.2.2.1 unmatched
  have short := ((literal_matches_runes valid begins [] (text ++ [0x21])).2.2.2.2 6).mpr (by decide)
  exact ⟨⟨valid, begins, part, spelled⟩, ran, row, torn, short⟩

end Matcher

end TextPattern
