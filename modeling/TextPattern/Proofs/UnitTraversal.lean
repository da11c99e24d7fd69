import Mathlib.Data.Finset.Card
import TextPattern.Proofs.Predicates
import TextPattern.Proofs.Runes
import TextPattern.Proofs.SuccessiveMatches
import TextPattern.Proofs.Utf8.RoundTrip

/-!
# Traversals of units

An iterator over units goes from one unit to the one that begins where that ends, until there is
none. The units that it stands on tile the input from where it begins to the end, malformed octets
included. To count the runes of a text, or to collect them in a set, is to see the same units.
`Cursor.units_tile_input` is the main statement.
-/

namespace TextPattern

/-- The octets of a unit. -/
def InputUnit.span (unit : InputUnit) : Span := ⟨unit.offset, unit.width⟩

/-! ## The units of a subject -/

namespace Subject

variable {subject : Subject} {offset : Nat}

/-- The unit at an offset lies between it and the next one. -/
theorem span_of_unitAt {unit : InputUnit} (present : subject.unitAt offset = some unit) :
    unit.span = .between offset unit.next := by
  rw [← (unitAt_bounds present).1, InputUnit.next, Span.between, Nat.add_sub_cancel_left]
  rfl

/-- The units from an offset on tile the rest of the input. -/
theorem tiling_unitsFrom (inside : offset ≤ subject.length) :
    Tiling offset ((subject.unitsFrom offset).map InputUnit.span) subject.length := by
  induction offset using unitsFrom.induct subject with
  | case1 offset absent =>
    rw [unitsFrom_nil absent, Nat.le_antisymm inside (unitAt_eq_none_iff.mp absent)]
    exact .none _
  | case2 offset unit present ih =>
    rw [unitsFrom_cons present, List.map_cons, span_of_unitAt present]
    exact .cons (unitAt_bounds present).2.2 (ih (unitAt_next_le present))

/-- The first unit from an offset on is the one at the offset. -/
theorem head?_unitsFrom (offset : Nat) :
    (subject.unitsFrom offset).head? = subject.unitAt offset := by
  cases present : subject.unitAt offset with
  | none => rw [unitsFrom_nil present, List.head?_nil]
  | some unit => rw [unitsFrom_cons present, List.head?_cons]

/-- Behind a unit comes the one that begins where it ends. -/
theorem getElem?_unitsFrom_succ (offset place : Nat) :
    (subject.unitsFrom offset)[place + 1]? =
      (subject.unitsFrom offset)[place]?.bind fun unit => subject.unitAt unit.next := by
  induction offset using unitsFrom.induct subject generalizing place with
  | case1 offset absent =>
    rw [unitsFrom_nil absent]
    rfl
  | case2 offset unit present ih =>
    rw [unitsFrom_cons present, List.getElem?_cons_succ]
    cases place with
    | zero =>
      rw [← List.head?_eq_getElem?, head?_unitsFrom, List.getElem?_cons_zero, Option.bind_some]
    | succ place => rw [ih place, List.getElem?_cons_succ]

/-- A unit of a text is what is decoded at its offset. -/
theorem unitAt_text {bytes : Bytes} {unit : InputUnit}
    (present : (Subject.mk .utf8 bytes).unitAt offset = some unit) :
    bytes.drop offset ≠ [] ∧ (unit.value, unit.width) = Utf8.decode (bytes.drop offset) := by
  unfold unitAt at present
  dsimp only at present
  split at present
  · cases present
  · rename_i octet rest ahead
    cases present
    rw [ahead]
    exact ⟨List.cons_ne_nil _ _, rfl⟩

/-- The units of a text from an offset on are what is decoded from there on. -/
theorem decodeAll_drop (bytes : Bytes) (offset : Nat) :
    ((Subject.mk .utf8 bytes).unitsFrom offset).map (fun unit => (unit.value, unit.width)) =
      Utf8.decodeAll (bytes.drop offset) := by
  induction offset using unitsFrom.induct ⟨.utf8, bytes⟩ with
  | case1 offset absent =>
    have ended : bytes.drop offset = [] := List.drop_eq_nil_of_le (unitAt_eq_none_iff.mp absent)
    rw [unitsFrom_nil absent, ended, Utf8.decodeAll]
    rfl
  | case2 offset unit present ih =>
    obtain ⟨more, decoded⟩ := unitAt_text present
    have next : offset + (Utf8.decode (bytes.drop offset)).2 = unit.next := by
      rw [← decoded, InputUnit.next, (unitAt_bounds present).1]
    rw [unitsFrom_cons present, List.map_cons, ih, Utf8.decodeAll_eq more, List.drop_drop, next,
      decoded]

/-- The runes ahead in a text are those of the rest. -/
theorem unitsAhead_text (bytes : Bytes) (offset : Nat) :
    (Subject.mk .utf8 bytes).unitsAhead offset = Utf8.runes (bytes.drop offset) := by
  rw [unitsAhead, Utf8.runes, ← decodeAll_drop, List.map_map]
  rfl

end Subject

/-! ## The set of the runes of a text -/

/-- A set lists no value twice. -/
theorem ValueSet.nodup (set : ValueSet) : set.members.toList.Nodup :=
  set.ascending.imp Nat.ne_of_lt

/-- A set is as large as there are different values that it is made of. -/
theorem ValueSet.size_ofList (values : List Nat) :
    (ValueSet.ofList values).size = values.toFinset.card := by
  have same : values.toFinset = (ValueSet.ofList values).members.toList.toFinset := by
    ext value
    rw [List.mem_toFinset, List.mem_toFinset, ValueSet.mem_members_ofList]
  rw [same, List.toFinset_card_of_nodup (ValueSet.nodup _)]
  exact Array.length_toList.symm

/-- A set of the runes of a text is as large as there are different ones. -/
theorem Predicate.size_ofText (text : Bytes) :
    (Predicate.ofText text).size = (Utf8.runes text).toFinset.card := by
  rw [← ValueSet.size_ofList, ← ValueSet.ofText_eq]
  rfl

/-! ## Iterators -/

namespace Cursor

/-- What an iterator over the units of a cursor stands on once it was moved on so many times; there
is nothing where it is at the end. -/
def unitAfter (cursor : Cursor) : Nat → Option InputUnit
  | 0 => cursor.peek
  | moves + 1 => (cursor.unitAfter moves).bind fun unit => cursor.peekAt unit.next

/-- An iterator stands on the units one after the other. -/
theorem unitAfter_eq (cursor : Cursor) (moves : Nat) :
    cursor.unitAfter moves = cursor.units[moves]? := by
  induction moves with
  | zero => exact (Subject.head?_unitsFrom _).symm.trans List.head?_eq_getElem?
  | succ moves ih =>
    rw [unitAfter, ih]
    exact (Subject.getElem?_unitsFrom_succ _ _).symm

/-- An iterator stands on as many units as there are, and they tile the input from the cursor to the
end. From the start of a text there are as many as runes are counted; the set of its runes accepts
their values alone, and is as large as there are different ones. -/
theorem units_tile_input :
    (∀ cursor : Cursor, cursor.offset ≤ cursor.length →
      (∀ moves, cursor.unitAfter moves = cursor.units[moves]?) ∧
      Tiling cursor.offset (cursor.units.map InputUnit.span) cursor.length ∧
      (∀ unit ∈ cursor.units, 1 ≤ unit.width) ∧
      (cursor.units = [] ↔ cursor.offset = cursor.length)) ∧
    ∀ text : Bytes,
      let units := (Cursor.ofBytes .utf8 text).units
      units.length = Utf8.countRunes text ∧
      (∀ encoding value, (Predicate.ofText text).accepts encoding value = true ↔
        ∃ unit ∈ units, unit.value = value) ∧
      (Predicate.ofText text).size = (units.map InputUnit.value).toFinset.card := by
  constructor
  · intro cursor inside
    refine ⟨cursor.unitAfter_eq, Subject.tiling_unitsFrom inside, fun unit member => ?_, ?_⟩
    · have wide := (Subject.unitAt_bounds (Subject.unitAt_of_mem_unitsFrom member)).2.2
      exact Nat.pos_of_lt_add_right wide
    · rw [← List.map_eq_nil_iff (f := InputUnit.value)]
      exact Subject.unitsAhead_eq_nil_iff.trans ⟨Nat.le_antisymm inside, Nat.le_of_eq ∘ Eq.symm⟩
  · intro text units
    have decoded := Subject.decodeAll_drop text 0
    have ahead := Subject.unitsAhead_text text 0
    rw [List.drop_zero] at decoded ahead
    refine ⟨?_, fun encoding value => ?_, ?_⟩
    · rw [Utf8.countRunes_eq, ← decoded, List.length_map]
      rfl
    · rw [Predicate.accepts_ofText ahead.symm]
      exact List.mem_map
    · rw [Predicate.size_ofText, ← ahead]
      rfl

/-- A letter of two octets and one that the end of the input cuts off, behind a letter that the
cursor has passed. -/
theorem units_tile_input_cut_off :
    let cursor : Cursor := ⟨⟨.utf8, [0x61, 0xC3, 0xA9, 0xE4, 0xBD]⟩, 1⟩
    cursor.offset ≤ cursor.length ∧ cursor.units = [⟨0xE9, 1, 2⟩, ⟨0xFFFD, 3, 2⟩] ∧
      Tiling 1 [⟨1, 2⟩, ⟨3, 2⟩] 5 ∧ cursor.unitAfter 2 = none := by
  intro cursor
  have inside : cursor.offset ≤ cursor.length := by decide
  have listed : cursor.units = [⟨0xE9, 1, 2⟩, ⟨0xFFFD, 3, 2⟩] := by decide +kernel
  obtain ⟨stands, tiles, _⟩ := units_tile_input.1 cursor inside
  rw [listed] at tiles
  refine ⟨inside, listed, tiles, ?_⟩
  rw [stands, listed]
  rfl

end Cursor

end TextPattern
