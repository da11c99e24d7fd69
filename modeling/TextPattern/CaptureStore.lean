import TextPattern.Cursor

/-!
# Capture stores

A store has a fixed number of slots, each holding the spans captured for it. A journal remembers
the order of all captures across the slots, so that the captures of an abandoned attempt can be
dropped, or set aside and put back later. Slots and journal are kept newest first. The journal
names every slot exactly as often as the slot holds spans: dropping a capture never meets an empty
slot.
-/

namespace TextPattern

/-- A capture: the slot it went to and the span. -/
abbrev Capture := Nat × Span

/-- Captured spans by slot, and the order in which they came. -/
structure CaptureStore where
  /-- The spans of each slot, newest first. -/
  slots : List (List Span)
  /-- The slots that captures went to, newest first. -/
  journal : List Nat
  /-- Every slot holds as many spans as the journal has entries for it. -/
  consistent : ∀ slot, (slots.getD slot []).length = journal.count slot

namespace CaptureStore

/-- A store without captures. -/
def ofCapacity (capacity : Nat) : CaptureStore where
  slots := List.replicate capacity []
  journal := []
  consistent slot := by
    by_cases inside : slot < capacity <;>
      simp [List.getD, inside]

/-- How many slots there are. -/
def capacity (store : CaptureStore) : Nat := store.slots.length

/-- How many captures there are. -/
def size (store : CaptureStore) : Nat := store.journal.length

/-- A point to which captures can be dropped later: how many there are now. -/
def mark (store : CaptureStore) : Nat := store.size

/-- The spans of a slot in the order of capture; there are none where there is no slot. -/
def spansAt (store : CaptureStore) (slot : Nat) : List Span := (store.slots.getD slot []).reverse

/-- The spans of a slot in the order of capture. -/
def spans (store : CaptureStore) (slot : Nat) : Result (List Span) :=
  if slot < store.capacity then .ok (store.spansAt slot) else .error (.captureOutOfBounds slot)

/-- One span of a slot by its place in the order of capture. -/
def spanAt (store : CaptureStore) (slot index : Nat) : Result Span :=
  match (store.spansAt slot)[index]? with
  | some span => .ok span
  | none => .error (.captureOutOfBounds slot)

/-- Whether anything was captured for a slot. -/
def contains (store : CaptureStore) (slot : Nat) : Bool := !(store.spansAt slot).isEmpty

/-- The octets that the spans of a slot cover in the input of a cursor. -/
def slices (store : CaptureStore) (slot : Nat) (cursor : Cursor) : Result (List Bytes) :=
  match store.spans slot with
  | .ok spans => spans.mapM cursor.slice
  | .error failure => .error failure

/-- Adding a span to one slot and its number to the journal keeps them in step. -/
theorem consistent_record (store : CaptureStore) (slot : Nat) (span : Span)
    (inside : slot < store.capacity) (other : Nat) :
    ((store.slots.modify slot (span :: ·)).getD other []).length =
      (slot :: store.journal).count other := by
  have before := store.consistent other
  rw [List.getD_eq_getElem?_getD] at before ⊢
  rw [List.getElem?_modify, List.count_cons]
  by_cases same : slot = other
  · subst same
    have present : store.slots[slot]? = some store.slots[slot] := List.getElem?_eq_getElem inside
    simp only [present, Option.getD_some] at before
    simp [present, before]
  · simp [same, before]

/-- Record a span for a slot that exists. -/
def record (store : CaptureStore) (slot : Nat) (span : Span) (inside : slot < store.capacity) :
    CaptureStore where
  slots := store.slots.modify slot (span :: ·)
  journal := slot :: store.journal
  consistent := store.consistent_record slot span inside

/-- Record a span for a slot. -/
def push (store : CaptureStore) (slot : Nat) (span : Span) : Result CaptureStore :=
  if inside : slot < store.capacity then .ok (store.record slot span inside)
  else .error (.captureOutOfBounds slot)

/-- Dropping the newest span of the slot that the journal names first keeps them in step. -/
theorem consistent_undo (store : CaptureStore) (slot : Nat) (earlier : List Nat)
    (journal : store.journal = slot :: earlier) (other : Nat) :
    ((store.slots.modify slot List.tail).getD other []).length = earlier.count other := by
  have before := store.consistent other
  rw [journal, List.getD_eq_getElem?_getD, List.count_cons] at before
  rw [List.getD_eq_getElem?_getD, List.getElem?_modify]
  by_cases same : slot = other
  · subst same
    cases present : store.slots[slot]? with
    | none => simp [present] at before
    | some spans =>
      simp [present] at before
      simp [before]
  · simpa [same] using before

/-- Drop the newest capture, if there is one. -/
def undo (store : CaptureStore) : CaptureStore :=
  match journal : store.journal with
  | [] => store
  | slot :: earlier =>
    { slots := store.slots.modify slot List.tail
      journal := earlier
      consistent := store.consistent_undo slot earlier journal }

/-- The newest capture. -/
def newest? (store : CaptureStore) : Option Capture :=
  match store.journal with
  | [] => none
  | slot :: _ => (store.slots.getD slot []).head?.map fun span => (slot, span)

/-- Drop a number of captures, newest first. -/
def undoLast : Nat → CaptureStore → CaptureStore
  | 0, store => store
  | count + 1, store => undoLast count store.undo

/-- A number of captures, newest first. -/
def lastCaptures : Nat → CaptureStore → List Capture
  | 0, _ => []
  | count + 1, store => store.newest?.toList ++ lastCaptures count store.undo

/-- Drop the captures made since a mark. -/
def rollback (store : CaptureStore) (mark : Nat) : CaptureStore :=
  undoLast (store.size - mark) store

/-- Drop the captures made since a mark and hand them over in the order in which they came. -/
def take (store : CaptureStore) (mark : Nat) : List Capture × CaptureStore :=
  ((lastCaptures (store.size - mark) store).reverse, store.rollback mark)

/-- All captures in the order in which they came. -/
def captures (store : CaptureStore) : List Capture := (lastCaptures store.size store).reverse

/-- Record captures that were taken from a store of this capacity; any other slot is passed over. -/
def replay (store : CaptureStore) : List Capture → CaptureStore
  | [] => store
  | (slot, span) :: later =>
    if inside : slot < store.capacity then replay (store.record slot span inside) later
    else replay store later

/-- Drop all captures. -/
def reset (store : CaptureStore) : CaptureStore := ofCapacity store.capacity

end CaptureStore

end TextPattern
