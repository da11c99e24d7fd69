import TextPattern.Proofs.Utf8.Automaton
import Mathlib.Order.Bounds.Defs

/-!
# The decoder

The automaton looks at classes of octets and never computes the length that a rune needs. It
completes the shortest forms of scalar values all the same, and no others; where there is none,
decoding goes on at the next octet that can open a sequence. `decode_decodes` is the main statement.
-/

namespace TextPattern.Utf8

/-! ## Limits -/

section
variable {octet : UInt8}

/-- Limits that are narrower behind one opening octet each. -/
theorem limits_iff {first lowest highest low high : UInt8} (from_80 : 0x80 ≤ first)
    (to_BF : first ≤ 0xBF) :
    ((if octet = lowest then low else 0x80) ≤ first ∧
        first ≤ if octet = highest then high else 0xBF) ↔
      (octet.toNat = lowest.toNat → low.toNat ≤ first.toNat) ∧
        (octet.toNat = highest.toNat → first.toNat ≤ high.toNat) := by
  rw [UInt8.toNat_inj, UInt8.toNat_inj, ← UInt8.le_iff_toNat_le, ← UInt8.le_iff_toNat_le]
  split <;> split <;> simp_all

/-- The bits of the first octet behind the opening one nearly tell the number. -/
theorem Continues.first_bounds {bits rune : Nat} {first : UInt8} {later : Bytes}
    (continues : Continues bits (first :: later) rune) :
    ∃ more, Carries first more ∧ (bits * 0x40 + more) * 64 ^ later.length ≤ rune ∧
      rune < (bits * 0x40 + more + 1) * 64 ^ later.length := by
  cases continues with
  | next carries continues => exact ⟨_, carries, continues.bounds⟩

/-- The limits of the first owed octet hold in shortest forms of scalar values, and there only. -/
theorem encodes_iff_limits {opening : Opening} (opens : opening? octet = some opening)
    {first : UInt8} {later : Bytes} {rune : Nat} (counted : (first :: later).length = opening.owed)
    (continues : Continues opening.bits (first :: later) rune) :
    Encodes (octet :: first :: later) rune ↔ opening.least ≤ first ∧ first ≤ opening.greatest := by
  have spells : Spells (octet :: first :: later) rune :=
    ⟨opening.bits, counted ▸ (opens_of_opening? opens).1, continues⟩
  rw [encodes_iff, and_iff_right spells, List.length_cons]
  obtain ⟨more, carries, lower, upper⟩ := continues.first_bounds
  obtain ⟨from_80, to_BF⟩ := isContinuation_iff.mp carries.isContinuation
  obtain ⟨few, pattern⟩ := carries
  rcases opening?_ranges opens with ⟨least, greatest⟩ | ⟨least, greatest⟩ | ⟨least, greatest⟩
  · rw [opening?_two least greatest] at opens
    obtain rfl := Option.some.inj opens
    dsimp only at counted lower upper ⊢
    obtain none_left : later.length = 0 := Nat.succ.inj counted
    rw [none_left] at lower upper ⊢
    refine iff_of_true ?_ ⟨from_80, to_BF⟩
    simp only [leastRune]
    omega
  · rw [opening?_three least greatest] at opens
    obtain rfl := Option.some.inj opens
    dsimp only at counted lower upper ⊢
    obtain one_left : later.length = 1 := Nat.succ.inj counted
    rw [one_left] at lower upper ⊢
    rw [limits_iff from_80 to_BF]
    show _ ↔ (octet.toNat = 0xE0 → 0xA0 ≤ first.toNat) ∧ (octet.toNat = 0xED → first.toNat ≤ 0x9F)
    simp only [leastRune]
    omega
  · rw [opening?_four least greatest] at opens
    obtain rfl := Option.some.inj opens
    dsimp only at counted lower upper ⊢
    obtain two_left : later.length = 2 := Nat.succ.inj counted
    rw [two_left] at lower upper ⊢
    rw [limits_iff from_80 to_BF]
    show _ ↔ (octet.toNat = 0xF0 → 0x90 ≤ first.toNat) ∧ (octet.toNat = 0xF4 → first.toNat ≤ 0x8F)
    simp only [leastRune]
    omega

/-- What begins with such an octet and is the shortest form of a scalar value has an opening. -/
theorem Encodes.exists_opening {rest : Bytes} {rune : Nat} (encodes : Encodes (octet :: rest) rune)
    (wide : 0x80 ≤ octet.toNat) :
    ∃ opening, opening? octet = some opening ∧ rest.length = opening.owed ∧
      Continues opening.bits rest rune := by
  obtain ⟨⟨bits, opens, continues⟩, ⟨limit, _⟩, needed⟩ := encodes_iff.mp encodes
  obtain ⟨lower, upper⟩ := continues.bounds
  generalize counted : rest.length = count at opens needed lower upper ⊢
  cases opens with
  | one few pattern => omega
  | two few pattern =>
    simp only [leastRune] at needed
    refine ⟨_, opening?_two (by omega) (by omega), rfl, ?_⟩
    rwa [show octet.toNat - 0xC0 = bits by omega]
  | three few pattern =>
    refine ⟨_, opening?_three (by omega) (by omega), rfl, ?_⟩
    rwa [show octet.toNat - 0xE0 = bits by omega]
  | four few pattern =>
    refine ⟨_, opening?_four (by omega) (by omega), rfl, ?_⟩
    rwa [show octet.toNat - 0xF0 = bits by omega]

/-- Every octet below 128 encodes itself. -/
theorem encodes_ascii (ascii : octet.toNat < 0x80) : Encodes [octet] octet.toNat :=
  encodes_iff.mpr ⟨⟨_, .one ascii rfl, .done _⟩, by omega, Nat.zero_le _⟩

/-- No encoding that begins with such an octet is longer. -/
theorem Encodes.eq_of_ascii {rest : Bytes} {rune : Nat} (encodes : Encodes (octet :: rest) rune)
    (ascii : octet.toNat < 0x80) : rest = [] ∧ rune = octet.toNat := by
  obtain ⟨bits, opens, continues⟩ := encodes.spells
  generalize counted : rest.length = count at opens
  cases opens with
  | one few pattern =>
    obtain rfl := List.eq_nil_of_length_eq_zero counted
    cases continues
    exact ⟨rfl, pattern.symm⟩
  | two few pattern => omega
  | three few pattern => omega
  | four few pattern => omega

end

/-! ## The first rune -/

/-- What the automaton completes is the encoding of a scalar value. -/
theorem encodes_of_read {bytes : Bytes} {rune : UInt32} {width : Nat}
    (ended : read .start 0 bytes = .complete rune width) :
    ∃ sequence, sequence <+: bytes ∧ sequence.length = width ∧ Encodes sequence rune.toNat := by
  cases bytes with
  | nil => cases ended
  | cons octet rest =>
    rcases Nat.lt_or_ge octet.toNat 0x80 with ascii | wide
    · rw [read_start_of_ascii ascii] at ended
      cases ended
      rw [(Automaton.step_start_of_ascii ascii).2]
      exact ⟨[octet], ⟨rest, rfl⟩, rfl, encodes_ascii ascii⟩
    · cases opens : opening? octet with
      | none =>
        rw [read_start_of_no_opening wide opens] at ended
        cases ended
      | some opening =>
        obtain ⟨waits, bits⟩ := Automaton.step_start_of_opening? opens
        rw [read_start_of_opening? opens, read_eq_complete_iff waits (room_of_opening? opens),
          bits] at ended
        obtain ⟨rfl, owed, ahead, counted, continues, limits⟩ := ended
        refine ⟨octet :: owed, List.cons_prefix_cons.mpr ⟨rfl, ahead⟩, ?_, ?_⟩
        · rw [List.length_cons, counted, Nat.add_comm]
        · cases owed with
          | nil => exact absurd counted (Nat.ne_of_lt (opens_of_opening? opens).2)
          | cons first later =>
            exact (encodes_iff_limits opens counted continues).mpr (limits first rfl)

/-- The automaton completes every encoding of a scalar value. -/
theorem read_of_encodes {bytes sequence : Bytes} {rune : Nat} (ahead : sequence <+: bytes)
    (encodes : Encodes sequence rune) :
    ∃ complete : UInt32, complete.toNat = rune ∧
      read .start 0 bytes = .complete complete sequence.length := by
  obtain ⟨behind, rfl⟩ := ahead
  cases sequence with
  | nil => exact absurd encodes.spells id
  | cons octet rest =>
    rw [List.cons_append]
    rcases Nat.lt_or_ge octet.toNat 0x80 with ascii | wide
    · obtain ⟨rfl, rfl⟩ := encodes.eq_of_ascii ascii
      exact ⟨_, (Automaton.step_start_of_ascii ascii).2, read_start_of_ascii ascii _⟩
    · obtain ⟨opening, opens, counted, continues⟩ := encodes.exists_opening wide
      obtain ⟨waits, bits⟩ := Automaton.step_start_of_opening? opens
      have limits : ∀ first ∈ rest.head?, opening.least ≤ first ∧ first ≤ opening.greatest := by
        rintro first head
        cases rest with
        | nil => cases head
        | cons next later =>
          cases head
          exact (encodes_iff_limits opens counted continues).mp encodes
      obtain ⟨complete, rfl⟩ : ∃ complete : UInt32, complete.toNat = rune :=
        ⟨_, UInt32.toNat_ofNat_of_lt' (Nat.lt_of_le_of_lt encodes.scalar.1 (by decide))⟩
      refine ⟨complete, rfl, ?_⟩
      rw [read_start_of_opening? opens, read_eq_complete_iff waits (room_of_opening? opens), bits]
      refine ⟨?_, rest, List.prefix_append rest behind, counted, continues, limits⟩
      rw [List.length_cons, counted, Nat.add_comm]

/-- The decoder answers with the encoding that a text begins with. -/
theorem decode_of_encodes {bytes sequence : Bytes} {rune : Nat} (ahead : sequence <+: bytes)
    (encodes : Encodes sequence rune) : decode bytes = (rune, sequence.length) := by
  obtain ⟨complete, rfl, ended⟩ := read_of_encodes ahead encodes
  rw [decode, ended]

/-- Where a text begins with no encoding, it begins with a malformed stretch. -/
theorem decode_of_not_encodes {bytes : Bytes}
    (malformed : ¬ ∃ sequence rune, sequence <+: bytes ∧ Encodes sequence rune) :
    decode bytes = (replacement, 1 + (bytes.tail.takeWhile isContinuation).length) := by
  cases ended : read .start 0 bytes with
  | complete rune width =>
    obtain ⟨sequence, ahead, _, encodes⟩ := encodes_of_read ended
    exact absurd ⟨sequence, rune.toNat, ahead, encodes⟩ malformed
  | broken state stop => rw [decode, ended, ← resume_of_read_eq_broken ended]

/-- The first rune of a text is no wider than the text. -/
theorem decode_width_le (octet : UInt8) (rest : Bytes) :
    (decode (octet :: rest)).2 ≤ (octet :: rest).length := by
  by_cases found : ∃ sequence rune, sequence <+: octet :: rest ∧ Encodes sequence rune
  · obtain ⟨sequence, rune, ahead, encodes⟩ := found
    rw [decode_of_encodes ahead encodes]
    exact ahead.length_le
  · have stretch := (List.takeWhile_sublist (l := rest) isContinuation).length_le
    rw [decode_of_not_encodes found, List.length_cons, Nat.add_comm]
    exact Nat.succ_le_succ stretch

/-- Behind the first octet of a decoded rune there are continuations only. -/
theorem decode_inner {bytes : Bytes} {index : Nat} (behind : 0 < index)
    (within : index < (decode bytes).2) :
    ∃ octet, bytes[index]? = some octet ∧ isContinuation octet = true := by
  obtain ⟨before, rfl⟩ := Nat.exists_eq_succ_of_ne_zero (Nat.ne_of_gt behind)
  by_cases found : ∃ sequence rune, sequence <+: bytes ∧ Encodes sequence rune
  · obtain ⟨sequence, rune, ahead, encodes⟩ := found
    rw [decode_of_encodes ahead encodes] at within
    cases sequence with
    | nil => cases within
    | cons octet rest =>
      obtain ⟨_, _, continues⟩ := encodes.spells
      have short : before < rest.length := Nat.lt_of_succ_lt_succ within
      refine ⟨rest[before], ?_, continues.isContinuation _ (List.getElem_mem short)⟩
      obtain ⟨behind, rfl⟩ := ahead
      rw [List.cons_append, List.getElem?_cons_succ, List.getElem?_append_left short,
        List.getElem?_eq_getElem short]
  · rw [decode_of_not_encodes found] at within
    let stretch := bytes.tail.takeWhile isContinuation
    have short : before < stretch.length := by
      change before + 1 < 1 + stretch.length at within
      omega
    refine ⟨stretch[before], ?_, List.mem_takeWhile_imp (List.getElem_mem short)⟩
    rw [← List.getElem?_tail]
    exact List.prefix_iff_getElem?.mp (List.takeWhile_prefix _) before short

/-- A malformed stretch ends at a lead octet, if not with the text. -/
theorem isLead_of_not_encodes {bytes : Bytes} {octet : UInt8}
    (malformed : ¬ ∃ sequence rune, sequence <+: bytes ∧ Encodes sequence rune)
    (next : bytes[(decode bytes).2]? = some octet) : isLead octet = true := by
  rw [decode_of_not_encodes malformed] at next
  have stops := List.head?_dropWhile_not isContinuation bytes.tail
  have behind : bytes.tail.drop (bytes.tail.takeWhile isContinuation).length =
      bytes.tail.dropWhile isContinuation :=
    calc
      _ = (bytes.tail.takeWhile isContinuation ++ bytes.tail.dropWhile isContinuation).drop
          (bytes.tail.takeWhile isContinuation).length := by
        rw [List.takeWhile_append_dropWhile]
      _ = _ := List.drop_left
  have first : (bytes.tail.dropWhile isContinuation).head? = some octet := by
    rw [← next, Nat.add_comm, ← List.getElem?_tail, ← List.head?_drop, behind]
  rw [first] at stops
  rw [isLead_eq, stops]
  rfl

/-! ## Decoding anywhere -/

/-- What decoding at an offset has to answer: the scalar value whose encoding stands there, with
its length; elsewhere U+FFFD, with the distance to the next lead octet or to the end. -/
structure Decodes (text : Bytes) (offset : Nat) (decoded : Nat × Nat) : Prop where
  /-- An encoding is decoded. -/
  encoding : ∀ sequence rune, sequence <+: text.drop offset → Encodes sequence rune →
    decoded = (rune, sequence.length)
  /-- Anything else stands for U+FFFD. -/
  stretch : (¬ ∃ sequence rune, sequence <+: text.drop offset ∧ Encodes sequence rune) →
    decoded.1 = 0xFFFD ∧ IsLeast {next | offset < next ∧
      (next = text.length ∨ ∃ octet, text[next]? = some octet ∧ isLead octet = true)}
      (offset + decoded.2)
  /-- Decoding goes on. -/
  positive : 1 ≤ decoded.2
  /-- Decoding stays inside. -/
  inside : decoded.2 ≤ text.length - offset

/-- Decoding finds the encodings of scalar values and goes on at the next lead octet elsewhere. -/
theorem decode_decodes (text : Bytes) (offset : Nat) (inside : offset < text.length) :
    Decodes text offset (decode (text.drop offset)) := by
  obtain ⟨octet, rest, ahead⟩ : ∃ octet rest, text.drop offset = octet :: rest :=
    List.exists_cons_of_ne_nil (by rwa [Ne, List.drop_eq_nil_iff, Nat.not_le])
  have narrow : (decode (text.drop offset)).2 ≤ text.length - offset := by
    rw [← List.length_drop, ahead]
    exact decode_width_le octet rest
  refine ⟨fun sequence rune => decode_of_encodes, ?_, decode_width_pos _, narrow⟩
  intro malformed
  refine ⟨by rw [decode_of_not_encodes malformed]; rfl, ⟨?_, ?_⟩, ?_⟩
  · exact Nat.lt_add_of_pos_right (decode_width_pos _)
  · by_cases ended : offset + (decode (text.drop offset)).2 = text.length
    · exact .inl ended
    · have more : offset + (decode (text.drop offset)).2 < text.length := by omega
      have next := List.getElem?_eq_getElem more
      rw [← List.getElem?_drop] at next
      refine .inr ⟨_, ?_, isLead_of_not_encodes malformed next⟩
      rw [← List.getElem?_drop]
      exact next
  · rintro next ⟨behind, stops⟩
    by_contra before
    have within : next - offset < (decode (text.drop offset)).2 := by omega
    obtain ⟨inner, present, continues⟩ := decode_inner (Nat.sub_pos_of_lt behind) within
    rw [List.getElem?_drop, Nat.add_sub_cancel' (Nat.le_of_lt behind)] at present
    rcases stops with rfl | ⟨other, found, leads⟩
    · rw [List.getElem?_eq_none (Nat.le_refl _)] at present
      cases present
    · rw [present] at found
      cases found
      rw [isLead_eq, continues] at leads
      cases leads

/-- A sequence that is cut off by the next lead octet, and one that the text cuts off. -/
theorem decode_decodes_cut_off :
    (1 < [0x61, 0xE4, 0xBD, 0x62].length ∧
      Decodes [0x61, 0xE4, 0xBD, 0x62] 1 (decode ([0x61, 0xE4, 0xBD, 0x62].drop 1))) ∧
    decode ([0x61, 0xE4, 0xBD, 0x62].drop 1) = (0xFFFD, 2) :=
  ⟨⟨by decide, decode_decodes _ 1 (by decide)⟩, by decide +kernel⟩

end TextPattern.Utf8
