import TextPattern.Proofs.Seams
import TextPattern.Proofs.Utf8.RoundTrip

/-!
# Texts side by side

A text that begins with a lead octet is decoded alike whatever stands in front of it. A sequence
that the end of the text in front cuts off is then cut off by that lead octet, and stands for the
same malformed stretch. `decoding_resumes_at_leads` is the main statement.
-/

namespace TextPattern.Utf8

/-- A text that decoding can resume at: it begins with a lead octet, if it has any. -/
def Resumes (text : Bytes) : Prop := ∀ octet ∈ text.head?, isLead octet = true

variable {first second : Bytes}

/-- Continuations end where decoding can resume. -/
theorem Resumes.takeWhile_append (resumes : Resumes second) (front : Bytes) :
    (front ++ second).takeWhile isContinuation = front.takeWhile isContinuation := by
  have stops : second.takeWhile isContinuation = [] := by
    cases second with
    | nil => rfl
    | cons octet rest =>
      have leads := resumes octet rfl
      rw [isLead_eq, Bool.not_eq_true'] at leads
      rw [List.takeWhile_cons, leads]
      rfl
  rw [List.takeWhile_append, stops, List.append_nil]
  split
  · rename_i all
    exact ((List.takeWhile_prefix _).eq_of_length all).symm
  · rfl

/-- No encoding reaches from one text into another at which decoding can resume. -/
theorem Resumes.prefix_of_encodes (resumes : Resumes second) {sequence : Bytes} {rune : Nat}
    (some_left : first ≠ []) (ahead : sequence <+: first ++ second)
    (encodes : Encodes sequence rune) : sequence <+: first := by
  refine List.prefix_of_prefix_length_le ahead (List.prefix_append _ _) ?_
  -- Reaching further, it would take the first octet of the second text for a continuation.
  by_contra within
  have width : (decode (first ++ second)).2 = sequence.length := by
    rw [decode_of_encodes ahead encodes]
  have behind : 0 < first.length := List.length_pos_iff.mpr some_left
  obtain ⟨octet, found, continues⟩ := decode_inner behind (width.symm ▸ Nat.lt_of_not_le within)
  rw [List.getElem?_append_right (Nat.le_refl _), Nat.sub_self, ← List.head?_eq_getElem?] at found
  have leads := resumes octet found
  rw [isLead_eq, continues] at leads
  cases leads

/-- The first rune of a text does not depend on a second text behind it. -/
theorem Resumes.decode_append (resumes : Resumes second) (some_left : first ≠ []) :
    decode (first ++ second) = decode first := by
  by_cases found : ∃ sequence rune, sequence <+: first ∧ Encodes sequence rune
  · obtain ⟨sequence, rune, ahead, encodes⟩ := found
    rw [decode_of_encodes ahead encodes,
      decode_of_encodes (ahead.trans (List.prefix_append _ _)) encodes]
  · -- What is malformed goes on over continuations, and these end where the second text begins.
    have malformed : ¬ ∃ sequence rune, sequence <+: first ++ second ∧ Encodes sequence rune := by
      rintro ⟨sequence, rune, ahead, encodes⟩
      exact found ⟨sequence, rune, resumes.prefix_of_encodes some_left ahead encodes, encodes⟩
    rw [decode_of_not_encodes found, decode_of_not_encodes malformed,
      List.tail_append_of_ne_nil some_left, resumes.takeWhile_append]

/-- Two texts side by side are decoded one after the other. -/
theorem Resumes.decodeAll_append (resumes : Resumes second) (first : Bytes) :
    decodeAll (first ++ second) = decodeAll first ++ decodeAll second := by
  induction left : first.length using Nat.strong_induction_on generalizing first with
  | _ _ ih =>
    by_cases ended : first = []
    · rw [ended, decodeAll]
      rfl
    · obtain ⟨octet, rest, same⟩ := List.exists_cons_of_ne_nil ended
      have narrow : (decode first).2 ≤ first.length := same ▸ decode_width_le octet rest
      have wide := decode_width_pos first
      have more : first ++ second ≠ [] := List.append_ne_nil_of_left_ne_nil ended second
      have later := ih (first.length - (decode first).2) (by omega) (first.drop (decode first).2)
        List.length_drop
      rw [decodeAll_eq more, decodeAll_eq ended, resumes.decode_append ended,
        List.drop_append_of_le_length narrow, later]
      rfl

/-- What is malformed or cut off never swallows what follows. Decoding a text in front of one that
begins with a lead octet, or of none, decodes both one after the other, and runes are counted
accordingly; and wherever a lead octet stands, a unit begins. -/
theorem decoding_resumes_at_leads :
    (∀ first second : Bytes, (∀ octet ∈ second.head?, isLead octet = true) →
      decodeAll (first ++ second) = decodeAll first ++ decodeAll second ∧
      runes (first ++ second) = runes first ++ runes second ∧
      countRunes (first ++ second) = countRunes first + countRunes second) ∧
    ∀ (text : Bytes) (offset : Nat) (octet : UInt8), text[offset]? = some octet →
      isLead octet = true → ∃ unit ∈ (Cursor.ofBytes .utf8 text).units, unit.offset = offset := by
  constructor
  · intro first second resumes
    have decoded := Resumes.decodeAll_append resumes first
    refine ⟨decoded, ?_, ?_⟩
    · rw [runes, decoded, List.map_append]
      rfl
    · rw [countRunes_eq, countRunes_eq, countRunes_eq, decoded, List.length_append]
  · intro text offset octet found leads
    obtain ⟨short, _⟩ := List.getElem?_eq_some_iff.mp found
    have boundary : (Subject.mk .utf8 text).isBoundary offset = true :=
      (Subject.isBoundary_iff_isLead rfl short).mpr ⟨octet, found, leads⟩
    have seam := Subject.seam_iff.mp (Subject.seam_of_isBoundary boundary)
    exact seam.resolve_left (Nat.ne_of_lt short)

/-- A sequence that is cut off by a rune of two octets, which a stray octet follows. -/
theorem decoding_resumes_at_leads_cut_off :
    let first : Bytes := [0x61, 0xE4, 0xBD]
    let second : Bytes := [0xC3, 0xA9, 0x80]
    ((∀ octet ∈ second.head?, isLead octet = true) ∧
      decodeAll (first ++ second) = decodeAll first ++ decodeAll second ∧
      decodeAll (first ++ second) = [(0x61, 1), (0xFFFD, 2), (0xE9, 2), (0xFFFD, 1)] ∧
      countRunes (first ++ second) = countRunes first + countRunes second) ∧
    (first ++ second)[3]? = some 0xC3 ∧ isLead 0xC3 = true ∧
      ∃ unit ∈ (Cursor.ofBytes .utf8 (first ++ second)).units, unit.offset = 3 := by
  intro first second
  have resumes : ∀ octet ∈ second.head?, isLead octet = true := by
    rintro octet ⟨⟩
    rfl
  have found : (first ++ second)[3]? = some 0xC3 := rfl
  obtain ⟨decoded, _, counted⟩ := decoding_resumes_at_leads.1 first second resumes
  have listed : decodeAll (first ++ second) =
      [(0x61, 1), (0xFFFD, 2), (0xE9, 2), (0xFFFD, 1)] := by decide +kernel
  have begins := decoding_resumes_at_leads.2 (first ++ second) 3 0xC3 found (by decide)
  exact ⟨⟨resumes, decoded, listed, counted⟩, found, by decide, begins⟩

end TextPattern.Utf8
