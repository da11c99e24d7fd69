import TextPattern.Proofs.Utf8.Decoder
import TextPattern.Span

/-!
# Boundaries of texts

A text falls apart at its boundaries and only there: what lies between two of them is a text again,
and decoding that begins on one ends on one.
-/

namespace TextPattern.Utf8

/-- The boundaries behind a part are those of the rest. -/
theorem isBoundary_append (first second : Bytes) (index : Nat) :
    isBoundary (first ++ second) (first.length + index) = isBoundary second index := by
  have octets : (first ++ second)[first.length + index]? = second[index]? := by
    rw [List.getElem?_append_right (Nat.le_add_right _ _), Nat.add_sub_cancel_left]
  have ends : (first.length + index == (first ++ second).length) = (index == second.length) := by
    rw [List.length_append, Bool.eq_iff_iff, beq_iff_eq, beq_iff_eq, Nat.add_left_cancel_iff]
  rw [isBoundary, isBoundary, octets, ends]

/-- There is no boundary inside an encoding. -/
theorem Encodes.le_of_isBoundary {sequence rest : Bytes} {rune index : Nat}
    (encodes : Encodes sequence rune) (boundary : isBoundary (sequence ++ rest) index = true)
    (behind : 0 < index) : sequence.length ≤ index := by
  by_contra within
  have width : (decode (sequence ++ rest)).2 = sequence.length := by
    rw [decode_of_encodes (List.prefix_append _ _) encodes]
  obtain ⟨octet, found, continues⟩ := decode_inner behind (width ▸ Nat.lt_of_not_le within)
  obtain ⟨short, _⟩ := List.getElem?_eq_some_iff.mp found
  rw [isBoundary, found, Bool.or_eq_true, beq_iff_eq, Option.any_some, isLead_eq,
    continues] at boundary
  exact boundary.elim (Nat.ne_of_lt short) (by decide)

namespace IsText

variable {bytes : Bytes} (text : IsText bytes)
include text

/-- A text begins on a boundary. -/
theorem isBoundary_zero : isBoundary bytes 0 = true := by
  cases text with
  | nil => rfl
  | @cons sequence rest _ encodes _ =>
    cases sequence with
    | nil => exact absurd encodes.spells id
    | cons octet later =>
      obtain ⟨bits, opens, _⟩ := encodes.spells
      rw [isBoundary, Bool.or_eq_true]
      exact .inr opens.isLead

/-- What lies in front of a boundary and what lies behind it are texts. -/
theorem split {index : Nat} (boundary : isBoundary bytes index = true) :
    IsText (bytes.take index) ∧ IsText (bytes.drop index) := by
  induction text generalizing index with
  | nil =>
    rw [List.take_nil, List.drop_nil]
    exact ⟨.nil, .nil⟩
  | @cons sequence rest rune encodes text ih =>
    rcases Nat.eq_zero_or_pos index with rfl | behind
    · rw [List.take_zero, List.drop_zero]
      exact ⟨.nil, .cons encodes text⟩
    · obtain ⟨further, rfl⟩ := Nat.exists_eq_add_of_le (encodes.le_of_isBoundary boundary behind)
      rw [isBoundary_append] at boundary
      obtain ⟨front, back⟩ := ih boundary
      rw [List.take_length_add_append, List.drop_length_add_append]
      exact ⟨.cons encodes front, back⟩

/-- What lies between two boundaries is a text. -/
theorem slice {start stop : Nat} (inside : start ≤ bytes.length)
    (begins : isBoundary bytes start = true) (ends : isBoundary bytes stop = true) :
    IsText (Span.slice bytes (.between start stop)) := by
  have behind := (text.split begins).2
  show IsText ((bytes.drop start).take (stop - start))
  rcases Nat.le_total stop start with before | further
  · rw [Nat.sub_eq_zero_of_le before, List.take_zero]
    exact .nil
  · obtain ⟨length, rfl⟩ := Nat.exists_eq_add_of_le further
    rw [Nat.add_sub_cancel_left]
    refine (behind.split ?_).1
    rwa [← isBoundary_append (bytes.take start), List.take_append_drop,
      List.length_take_of_le inside]

/-- A rune that begins on a boundary ends on one. -/
theorem isBoundary_next {start : Nat} (begins : isBoundary bytes start = true)
    (inside : start < bytes.length) :
    isBoundary bytes (start + (decode (bytes.drop start)).2) = true := by
  have behind := (text.split begins).2
  have front : (bytes.take start).length = start := List.length_take_of_le (Nat.le_of_lt inside)
  generalize ahead : bytes.drop start = rest at behind
  cases behind with
  | nil => exact absurd (List.drop_eq_nil_iff.mp ahead) (Nat.not_le_of_lt inside)
  | @cons sequence later _ encodes more =>
    have whole : bytes = (bytes.take start ++ sequence) ++ later := by
      rw [List.append_assoc, ← ahead, List.take_append_drop]
    have place : start + sequence.length = (bytes.take start ++ sequence).length + 0 := by
      rw [List.length_append, front, Nat.add_zero]
    rw [decode_of_encodes (List.prefix_append _ _) encodes, whole, place, isBoundary_append]
    exact more.isBoundary_zero

end IsText

end TextPattern.Utf8
