import TextPattern.Proofs.RestingPlaces

/-!
# Runs of a cursor

What a cursor can reach when it is only ever reset, advanced and moved by matching. A text cursor
reaches exactly the offsets between decoded runes, and they are boundaries as long as no rune is
decoded from a stray continuation octet. Such an octet, at the start of the input or behind a
well-formed rune, begins a rune but is no boundary: malformed stretches swallow the stray octets
that follow them, well-formed runes do not. `Cursor.rests_on_boundary_iff` is the main statement;
`Cursor.rests_off_boundary` is a text of the other kind.
-/

namespace TextPattern

/-- What a caller does with a cursor who never seeks. -/
inductive CursorStep where
  /-- Go back to the start. -/
  | reset
  /-- Move ahead by a number of octets. -/
  | advance (count : Nat)
  /-- Match for the span, under definitions, with a store or without one. -/
  | attempt (matcher : Matcher) (definitions : Definitions) (captures : Option CaptureStore)
  /-- Match for the value, under definitions, with a store or without one. -/
  | attemptValue (matcher : Matcher) (definitions : Definitions) (captures : Option CaptureStore)

namespace Cursor

/-- The cursor after a step. A move that is refused leaves it alone; a match leaves it where the
match ended, whether it succeeded or not. -/
def step (cursor : Cursor) : CursorStep → Cursor
  | .reset => cursor.reset
  | .advance count =>
    match cursor.advance count with
    | .ok moved => moved
    | .error _ => cursor
  | .attempt matcher definitions captures =>
    cursor.seek
      (matcher.attempt definitions cursor.subject ⟨cursor.offset, captures⟩).state.offset
  | .attemptValue matcher definitions captures =>
    cursor.seek
      (matcher.attemptValue definitions cursor.subject ⟨cursor.offset, captures⟩).state.offset

/-- The cursor after several steps. -/
def after (cursor : Cursor) (steps : List CursorStep) : Cursor := steps.foldl step cursor

variable {cursor : Cursor}

/-- One more step comes after all others. -/
theorem after_concat (steps : List CursorStep) (last : CursorStep) :
    cursor.after (steps ++ [last]) = (cursor.after steps).step last := List.foldl_append

/-! ## What is reached -/

/-- A move is made where it is allowed, and left out elsewhere. -/
theorem step_advance (cursor : Cursor) (count : Nat) :
    (∃ stop, cursor.subject.advance cursor.offset count = .ok stop ∧
      cursor.step (.advance count) = cursor.seek stop) ∨
    cursor.step (.advance count) = cursor := by
  rw [step, advance]
  cases cursor.subject.advance cursor.offset count with
  | ok stop => exact .inl ⟨stop, rfl, rfl⟩
  | error failure => exact .inr rfl

/-- No step changes the input. -/
theorem subject_step (cursor : Cursor) (step : CursorStep) :
    (cursor.step step).subject = cursor.subject := by
  cases step with
  | advance count =>
    rcases cursor.step_advance count with ⟨stop, _, same⟩ | same <;> rw [same]
    rfl
  | _ => rfl

/-- No run changes the input. -/
theorem subject_after (cursor : Cursor) (steps : List CursorStep) :
    (cursor.after steps).subject = cursor.subject := by
  induction steps generalizing cursor with
  | nil => rfl
  | cons first later ih => exact (ih _).trans (cursor.subject_step first)

/-- A step from a seam leads to a seam. -/
theorem seam_step (seam : cursor.subject.Seam cursor.offset) (step : CursorStep) :
    cursor.subject.Seam (cursor.step step).offset := by
  have closed := cursor.subject.closed_seam
  cases step with
  | reset => exact .start
  | advance count =>
    rcases cursor.step_advance count with ⟨stop, moved, same⟩ | same <;> rw [same]
    · exact closed.move seam moved
    · exact seam
  | attempt matcher definitions captures =>
    exact (matcher.attempt_offset_mem closed definitions ⟨cursor.offset, captures⟩
      seam.le_length seam).1
  | attemptValue matcher definitions captures =>
    exact (matcher.attempt_offset_mem closed definitions ⟨cursor.offset, captures⟩
      seam.le_length seam).2

/-- A run from a seam leads to a seam. -/
theorem seam_after (seam : cursor.subject.Seam cursor.offset) (steps : List CursorStep) :
    cursor.subject.Seam (cursor.after steps).offset := by
  induction steps generalizing cursor with
  | nil => exact seam
  | cons first later ih =>
    have onward := seam_step seam first
    rw [← cursor.subject_step first] at onward ⊢
    exact ih onward

/-- Matching any one unit passes over the unit ahead. -/
theorem offset_step_any {unit : InputUnit} (captures : Option CaptureStore)
    (present : cursor.peek = some unit) :
    (cursor.step (.attempt (.one .any) [] captures)).offset = unit.next := by
  have inside : cursor.offset ≤ cursor.subject.length :=
    Nat.le_of_lt (Subject.unitAt_bounds present).2.1
  have read := congrArg (·.2.offset) (Attempt.Realizes.one .any cursor.subject
    ⟨cursor.offset, captures⟩ inside)
  refine Eq.trans read ?_
  show (Reading.one .any cursor.subject _ cursor.offset).stop = _
  have found : cursor.subject.unitAt cursor.offset = some unit := present
  rw [Reading.one, found]
  rfl

/-- Every seam can be reached from the start, one unit at a time. -/
theorem exists_steps {offset : Nat} (start : cursor.offset = 0)
    (seam : cursor.subject.Seam offset) : ∃ steps, (cursor.after steps).offset = offset := by
  induction seam with
  | start => exact ⟨[], start⟩
  | next _ present ih =>
    obtain ⟨steps, reached⟩ := ih
    refine ⟨steps ++ [.attempt (.one .any) [] none], ?_⟩
    rw [after_concat]
    apply offset_step_any
    rw [peek, peekAt, subject_after, reached]
    exact present

/-! ## Boundaries -/

/-- What a caller may expect of a cursor on a boundary. -/
structure OnBoundary (cursor : Cursor) : Prop where
  /-- A rune begins here, or the input ends. -/
  boundary : cursor.subject.isBoundary cursor.offset = true
  /-- A move by nothing is allowed. -/
  stays : cursor.advance 0 = .ok cursor
  /-- The empty text matches, with a store or without one, and nothing changes. -/
  holdsEmpty : ∀ definitions captures,
    ((Matcher.literal []).attempt definitions).outcome cursor.subject ⟨cursor.offset, captures⟩ =
      (.matched ⟨cursor.offset, 0⟩, ⟨cursor.offset, captures⟩)

/-- On a boundary all is as expected. -/
theorem onBoundary_iff :
    cursor.OnBoundary ↔ cursor.subject.isBoundary cursor.offset = true := by
  refine ⟨OnBoundary.boundary, fun boundary => ?_⟩
  have moved : cursor.subject.advance cursor.offset 0 = .ok cursor.offset := by
    rw [Subject.advance, if_neg (Nat.not_lt_zero _), Nat.add_zero, if_pos boundary]
  refine ⟨boundary, ?_, fun definitions captures => ?_⟩
  · rw [advance, moved]
    rfl
  · have inside := Subject.le_length_of_isBoundary boundary
    refine (Attempt.Realizes.literal [] cursor.subject ⟨cursor.offset, captures⟩ inside).trans ?_
    have read : Reading.literal [] cursor.subject (State.capacity ⟨cursor.offset, captures⟩)
        cursor.offset = .still (.matched ⟨cursor.offset, 0⟩) cursor.offset := by
      rw [Reading.literal, if_pos List.isPrefixOf_nil_left, List.length_nil, moved]
      rfl
    rw [read]
    exact Effect.applyTo_still _ _

/-- A text cursor reaches exactly the offsets where a rune is decoded, and the end. It always rests
on a boundary if and only if no rune is decoded from a stray continuation octet on. -/
theorem rests_on_boundary_iff (text : Bytes) :
    let cursor := Cursor.ofBytes .utf8 text
    (∀ offset, (∃ steps, (cursor.after steps).offset = offset) ↔
      offset = text.length ∨ ∃ unit ∈ cursor.units, unit.offset = offset) ∧
    ((∀ steps, (cursor.after steps).OnBoundary) ↔
      ∀ unit ∈ cursor.units, ∃ octet, text[unit.offset]? = some octet ∧
        Utf8.isLead octet = true) := by
  intro cursor
  have reached (offset : Nat) : (∃ steps, (cursor.after steps).offset = offset) ↔
      offset = text.length ∨ ∃ unit ∈ cursor.units, unit.offset = offset := by
    refine Iff.trans ⟨?_, exists_steps rfl⟩ Subject.seam_iff
    rintro ⟨steps, rfl⟩
    exact seam_after .start steps
  have leads (unit : InputUnit) (member : unit ∈ cursor.units) :
      cursor.subject.isBoundary unit.offset = true ↔
        ∃ octet, text[unit.offset]? = some octet ∧ Utf8.isLead octet = true :=
    have present := (Subject.Seam.start.of_mem_unitsFrom member).2
    Subject.isBoundary_iff_isLead rfl (Subject.unitAt_bounds present).2.1
  refine ⟨reached, fun rests unit member => ?_, fun each steps => ?_⟩
  · obtain ⟨steps, same⟩ := (reached unit.offset).mpr (.inr ⟨unit, member, rfl⟩)
    have boundary := (rests steps).boundary
    rw [subject_after, same] at boundary
    exact (leads unit member).mp boundary
  · rw [onBoundary_iff, subject_after]
    rcases (reached _).mp ⟨steps, rfl⟩ with ended | ⟨unit, member, same⟩
    · rw [ended]
      exact Bool.or_eq_true_iff.mpr (.inl (beq_self_eq_true _))
    · rw [← same]
      exact (leads unit member).mpr (each unit member)

/-- An octet that only continues a sequence, behind a rune. -/
theorem rests_off_boundary :
    let cursor := (Cursor.ofBytes .utf8 [0x61, 0x80]).after [.attempt (.one .any) [] none]
    let failure := Failure.mismatch 1 (Bytes.ofString "code point boundary")
    cursor.offset = 1 ∧ cursor.subject.isBoundary cursor.offset = false ∧
      cursor.advance 0 = .error failure ∧
      (Matcher.literal []).attempt [] cursor.subject ⟨cursor.offset, none⟩ =
        ⟨.failed failure, ⟨cursor.offset, none⟩, []⟩ :=
  ⟨rfl, rfl, rfl, rfl⟩

end Cursor

end TextPattern
