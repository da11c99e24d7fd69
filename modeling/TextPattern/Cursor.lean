import TextPattern.Failure
import TextPattern.Span
import TextPattern.Utf8

/-!
# Subjects and cursors

A subject is the input of a match together with the way in which it is read: as UTF-8 text, one
rune at a time, or octet by octet. A cursor is a position in a subject. Offsets count octets under
both readings; a text cursor that is only ever moved by `advance` and by matching stays between the
runes of its input. These places are boundaries as long as no rune is decoded from a stray
continuation octet.
-/

namespace TextPattern

/-- How a subject is divided into units. -/
inductive Encoding where
  /-- The units are runes. -/
  | utf8
  /-- The units are octets. -/
  | octet
deriving DecidableEq, Repr

/-- One unit of input: a rune or an octet. -/
structure InputUnit where
  /-- The rune or the octet as a number. -/
  value : Nat
  /-- Where the unit begins. -/
  offset : Nat
  /-- How many octets it takes. -/
  width : Nat
deriving DecidableEq, Repr

/-- The offset just past a unit. -/
def InputUnit.next (unit : InputUnit) : Nat := unit.offset + unit.width

/-- What is matched against, and how it is read. -/
structure Subject where
  /-- How the octets are divided into units. -/
  encoding : Encoding
  /-- The input. -/
  bytes : Bytes
deriving DecidableEq, Repr

namespace Subject

/-- The number of octets. -/
def length (subject : Subject) : Nat := subject.bytes.length

/-- The unit that begins at an offset; there is none at the end or past it. -/
def unitAt (subject : Subject) (offset : Nat) : Option InputUnit :=
  match subject.bytes.drop offset with
  | [] => none
  | octet :: rest =>
    match subject.encoding with
    | .utf8 =>
      let decoded := Utf8.decode (octet :: rest)
      some ⟨decoded.1, offset, decoded.2⟩
    | .octet => some ⟨octet.toNat, offset, 1⟩

/-- Whether a cursor may rest at an offset. -/
def isBoundary (subject : Subject) (offset : Nat) : Bool :=
  match subject.encoding with
  | .utf8 => Utf8.isBoundary subject.bytes offset
  | .octet => offset ≤ subject.length

/-- The slice of a span that begins inside the input. A span that runs past the end is cut off
there; one that begins past the end has no slice. -/
def slice? (subject : Subject) (span : Span) : Option Bytes :=
  if span.start ≤ subject.length then some (span.slice subject.bytes) else none

/-- A unit begins where it was asked for, lies inside the input and is not empty. -/
theorem unitAt_bounds {subject : Subject} {offset : Nat} {unit : InputUnit}
    (found : subject.unitAt offset = some unit) :
    unit.offset = offset ∧ offset < subject.length ∧ offset < unit.next := by
  unfold unitAt at found
  split at found
  · cases found
  · rename_i octet rest remaining
    have inside : offset < subject.length := by
      apply Nat.lt_of_not_le
      intro past
      rw [List.drop_eq_nil_of_le past] at remaining
      cases remaining
    split at found <;> cases found
    · exact ⟨rfl, inside, Nat.lt_add_of_pos_right (Utf8.decode_width_pos _)⟩
    · exact ⟨rfl, inside, Nat.lt_succ_self _⟩

/-- The units from an offset on, each beginning where the one before it ends. -/
def unitsFrom (subject : Subject) (offset : Nat) : List InputUnit :=
  match _found : subject.unitAt offset with
  | none => []
  | some unit => unit :: unitsFrom subject unit.next
termination_by subject.length - offset
decreasing_by
  have bounds := unitAt_bounds _found
  omega

end Subject

/-- What a caller's condition may look at: the input, a position in it, and its units. How the
input is divided into units shows only in the units themselves. -/
structure View where
  /-- The input. -/
  bytes : Bytes
  /-- The position. -/
  offset : Nat
  /-- The unit that begins at an offset. -/
  unitAt : Nat → Option InputUnit

namespace View

/-- The input from an offset on; nothing past the end. -/
def restAt (view : View) (offset : Nat) : Bytes := view.bytes.drop offset

/-- How many octets lie ahead. -/
def remaining (view : View) : Nat := view.bytes.length - view.offset

/-- The unit at the position. -/
def peek (view : View) : Option InputUnit := view.unitAt view.offset

end View

/-- The view of a subject from an offset. -/
def Subject.viewFrom (subject : Subject) (offset : Nat) : View :=
  ⟨subject.bytes, offset, subject.unitAt⟩

/-- A position in a subject. -/
structure Cursor where
  /-- What the cursor moves over. -/
  subject : Subject
  /-- Where it is. -/
  offset : Nat
deriving DecidableEq, Repr

namespace Cursor

/-- A cursor at the start of its input. -/
def ofBytes (encoding : Encoding) (bytes : Bytes) : Cursor := ⟨⟨encoding, bytes⟩, 0⟩

/-- The number of octets of the input. -/
def length (cursor : Cursor) : Nat := cursor.subject.length

/-- How many octets lie ahead. -/
def remaining (cursor : Cursor) : Nat := cursor.length - cursor.offset

/-- Whether the cursor is at the first offset. -/
def atStart (cursor : Cursor) : Bool := cursor.offset == 0

/-- Whether nothing lies ahead. -/
def atEnd (cursor : Cursor) : Bool := cursor.length ≤ cursor.offset

/-- The input from an offset on; nothing past the end. -/
def restAt (cursor : Cursor) (offset : Nat) : Bytes := cursor.subject.bytes.drop offset

/-- The input that lies ahead. -/
def rest (cursor : Cursor) : Bytes := cursor.restAt cursor.offset

/-- The unit that begins at an offset, wherever the cursor is. -/
def peekAt (cursor : Cursor) (offset : Nat) : Option InputUnit := cursor.subject.unitAt offset

/-- The unit at the cursor. -/
def peek (cursor : Cursor) : Option InputUnit := cursor.peekAt cursor.offset

/-- The units from the cursor on. -/
def units (cursor : Cursor) : List InputUnit := cursor.subject.unitsFrom cursor.offset

/-- Move to an offset that was observed before; nothing is checked. -/
def seek (cursor : Cursor) (offset : Nat) : Cursor := { cursor with offset }

/-- Move back to the start. -/
def reset (cursor : Cursor) : Cursor := cursor.seek 0

/-- Start again on another input, read in the same way. -/
def rebind (cursor : Cursor) (bytes : Bytes) : Cursor := ofBytes cursor.subject.encoding bytes

end Cursor

/-- Where a move by `count` octets from `offset` leads: it stays inside the input and ends on a
boundary. -/
def Subject.advance (subject : Subject) (offset count : Nat) : Result Nat :=
  if subject.length - offset < count then .error (.outOfBounds subject.length)
  else if subject.isBoundary (offset + count) then .ok (offset + count)
  else .error (.mismatch (offset + count) (Bytes.ofString "code point boundary"))

/-- Move ahead by a number of octets. -/
def Cursor.advance (cursor : Cursor) (count : Nat) : Result Cursor :=
  (cursor.subject.advance cursor.offset count).map cursor.seek

/-- The octets of a span that lies inside the input. -/
def Cursor.slice (cursor : Cursor) (span : Span) : Result Bytes :=
  if span.start ≤ cursor.length && span.length ≤ cursor.length - span.start then
    .ok (span.slice cursor.subject.bytes)
  else .error (.outOfBounds cursor.length)

end TextPattern
