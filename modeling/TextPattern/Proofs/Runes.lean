import TextPattern.Proofs.Parsing
import TextPattern.Proofs.Utf8.Decoder

/-!
# Runes ahead

The runes of a text from an offset on, one after the other, and how they are related to its octets:
a rune below 128 is decoded from the octet of that number and from nothing else. A text of such
octets is therefore ahead exactly where its runes are, and ends on a boundary unless a malformed
octet follows it.
-/

namespace TextPattern

namespace Utf8

/-- An octet below 128 is a rune by itself. -/
theorem decode_ascii {octet : UInt8} (rest : Bytes) (ascii : octet < 0x80) :
    decode (octet :: rest) = (octet.toNat, 1) := by
  exact decode_of_encodes ⟨rest, rfl⟩ (encodes_ascii ascii)

/-- A rune below 128 comes from an octet below 128. -/
theorem ascii_of_decode {octet : UInt8} {rest : Bytes}
    (small : (decode (octet :: rest)).1 < 0x80) : octet < 0x80 := by
  by_cases found : ∃ sequence rune, sequence <+: octet :: rest ∧ Encodes sequence rune
  · obtain ⟨sequence, rune, ahead, encodes⟩ := found
    rw [decode_of_encodes ahead encodes] at small
    cases sequence with
    | nil => cases encodes.spells
    | cons first later =>
      obtain ⟨rfl, _⟩ := List.cons_prefix_cons.mp ahead
      by_contra wide
      obtain ⟨opening, opens, counted, _⟩ := encodes.exists_opening (Nat.le_of_not_lt wide)
      have owes : 1 ≤ later.length := counted ▸ (opens_of_opening? opens).2
      have needed : 0x80 ≤ rune :=
        Nat.le_trans (leastRune_mono owes) (encodes_iff.mp encodes).2.2
      exact absurd small (Nat.not_lt_of_le needed)
  · rw [decode_of_not_encodes found] at small
    exact absurd small (show ¬ replacement < 0x80 by decide)

end Utf8

namespace Subject

variable {subject : Subject} {offset : Nat}

/-- The runes, or the octets, of a subject from an offset on. -/
def unitsAhead (subject : Subject) (offset : Nat) : List Nat :=
  (subject.unitsFrom offset).map InputUnit.value

/-- There is a unit wherever the input has not ended. -/
theorem unitAt_eq_none_iff : subject.unitAt offset = none ↔ subject.length ≤ offset := by
  rw [length, ← List.drop_eq_nil_iff]
  unfold unitAt
  split
  · rename_i ended
    exact ⟨fun _ => ended, fun _ => rfl⟩
  · rename_i octet rest ahead
    rw [ahead]
    split <;> exact ⟨nofun, nofun⟩

/-- A unit is followed by those that begin where it ends. -/
theorem unitsFrom_cons {unit : InputUnit} (present : subject.unitAt offset = some unit) :
    subject.unitsFrom offset = unit :: subject.unitsFrom unit.next := by
  rw [unitsFrom]
  split
  · rename_i absent
    rw [present] at absent
    cases absent
  · rename_i other again
    rw [present] at again
    cases again
    rfl

/-- Where there is no unit, none follows. -/
theorem unitsFrom_nil (absent : subject.unitAt offset = none) : subject.unitsFrom offset = [] := by
  rw [unitsFrom]
  split
  · rfl
  · rename_i present
    rw [absent] at present
    cases present

/-- The units from an offset on are found where they begin. -/
theorem unitAt_of_mem_unitsFrom {unit : InputUnit} (member : unit ∈ subject.unitsFrom offset) :
    subject.unitAt unit.offset = some unit := by
  induction offset using unitsFrom.induct subject with
  | case1 offset absent =>
    rw [unitsFrom_nil absent] at member
    cases member
  | case2 offset first present ih =>
    rw [unitsFrom_cons present] at member
    rcases List.mem_cons.mp member with rfl | later
    · rwa [(unitAt_bounds present).1]
    · exact ih later

/-- The unit at an offset is the first one ahead. -/
theorem unitsAhead_cons {unit : InputUnit} (present : subject.unitAt offset = some unit) :
    subject.unitsAhead offset = unit.value :: subject.unitsAhead unit.next := by
  rw [unitsAhead, unitsFrom_cons present]
  rfl

/-- Nothing is ahead where there is no unit. -/
theorem unitsAhead_nil (absent : subject.unitAt offset = none) :
    subject.unitsAhead offset = [] := by
  rw [unitsAhead, unitsFrom_nil absent]
  rfl

/-- Nothing is ahead at the end. -/
theorem unitsAhead_eq_nil_iff : subject.unitsAhead offset = [] ↔ subject.length ≤ offset := by
  rw [← unitAt_eq_none_iff]
  constructor
  · intro ended
    cases present : subject.unitAt offset with
    | none => rfl
    | some unit =>
      rw [unitsAhead_cons present] at ended
      cases ended
  · exact unitsAhead_nil

/-- The first value ahead is that of the unit at the offset. -/
theorem exists_unitAt {value : Nat} {later : List Nat}
    (ahead : subject.unitsAhead offset = value :: later) :
    ∃ unit, subject.unitAt offset = some unit ∧ unit.value = value ∧
      subject.unitsAhead unit.next = later := by
  cases present : subject.unitAt offset with
  | none =>
    rw [unitsAhead_eq_nil_iff.mpr (unitAt_eq_none_iff.mp present)] at ahead
    cases ahead
  | some unit =>
    rw [unitsAhead_cons present] at ahead
    cases ahead
    exact ⟨unit, rfl, rfl, rfl⟩

/-- Inside a text the boundaries are the lead octets. -/
theorem isBoundary_iff_isLead (text : subject.encoding = .utf8) (short : offset < subject.length) :
    subject.isBoundary offset = true ↔
      ∃ octet, subject.bytes[offset]? = some octet ∧ Utf8.isLead octet = true := by
  have more : (offset == subject.bytes.length) = false := beq_false_of_ne (Nat.ne_of_lt short)
  rw [isBoundary, text]
  show (offset == subject.bytes.length || (subject.bytes[offset]?).any Utf8.isLead) = true ↔ _
  rw [more, Bool.false_or, Option.any_eq_true]

/-! ## Texts below 128 -/

section
variable {bytes text : Bytes} {offset : Nat}

/-- An octet below 128 is a unit. -/
theorem unitAt_ascii {octet : UInt8} {rest : Bytes} (ahead : bytes.drop offset = octet :: rest)
    (ascii : octet < 0x80) :
    (Subject.mk .utf8 bytes).unitAt offset = some ⟨octet.toNat, offset, 1⟩ := by
  rw [unitAt, ahead]
  dsimp only
  rw [Utf8.decode_ascii rest ascii]

/-- A unit below 128 is an octet. -/
theorem exists_octet {unit : InputUnit}
    (present : (Subject.mk .utf8 bytes).unitAt offset = some unit) (small : unit.value < 0x80) :
    ∃ octet rest, bytes.drop offset = octet :: rest ∧ octet < 0x80 ∧
      unit = ⟨octet.toNat, offset, 1⟩ := by
  cases ahead : bytes.drop offset with
  | nil =>
    rw [unitAt, ahead] at present
    cases present
  | cons octet rest =>
    have decoded : unit.value = (Utf8.decode (octet :: rest)).1 := by
      rw [unitAt, ahead] at present
      cases present
      rfl
    have ascii : octet < 0x80 := Utf8.ascii_of_decode (decoded ▸ small)
    have same := (unitAt_ascii ahead ascii).symm.trans present
    exact ⟨octet, rest, rfl, ascii, (Option.some.inj same).symm⟩

/-- A text of octets below 128 is a text of runes. -/
theorem unitsAhead_of_drop {rest : Bytes} (ascii : ∀ octet ∈ text, octet < 0x80)
    (ahead : bytes.drop offset = text ++ rest) :
    (Subject.mk .utf8 bytes).unitsAhead offset =
      text.map UInt8.toNat ++ (Subject.mk .utf8 bytes).unitsAhead (offset + text.length) := by
  induction text generalizing offset with
  | nil => rfl
  | cons octet later ih =>
    have present := unitAt_ascii ahead (ascii octet List.mem_cons_self)
    have onward : bytes.drop (offset + 1) = later ++ rest := by
      have shifted := congrArg (List.drop 1) ahead
      rwa [List.drop_drop] at shifted
    have smaller : ∀ other ∈ later, other < 0x80 :=
      fun other member => ascii other (List.mem_cons_of_mem octet member)
    have rest := ih smaller onward
    rw [unitsAhead_cons present, List.map_cons, List.cons_append, List.length_cons,
      Nat.add_comm later.length 1, ← Nat.add_assoc]
    exact congrArg _ rest

/-- A text of runes below 128 is a text of octets. -/
theorem exists_drop {later : List Nat} (ascii : ∀ octet ∈ text, octet < 0x80)
    (ahead : (Subject.mk .utf8 bytes).unitsAhead offset = text.map UInt8.toNat ++ later) :
    ∃ rest, bytes.drop offset = text ++ rest := by
  induction text generalizing offset with
  | nil => exact ⟨bytes.drop offset, rfl⟩
  | cons octet others ih =>
    obtain ⟨unit, present, value, onward⟩ := exists_unitAt ahead
    have least := ascii octet List.mem_cons_self
    have small : unit.value < 0x80 := by
      rw [value]
      exact UInt8.lt_iff_toNat_lt.mp least
    obtain ⟨found, rest, dropped, _, rfl⟩ := exists_octet present small
    have same : found = octet := UInt8.toNat_inj.mp value
    have smaller : ∀ other ∈ others, other < 0x80 :=
      fun other member => ascii other (List.mem_cons_of_mem octet member)
    obtain ⟨rest', further⟩ := ih smaller onward
    have shifted := congrArg (List.drop 1) dropped
    rw [List.drop_drop] at shifted
    refine ⟨rest', ?_⟩
    rw [dropped, same, List.cons_append, ← further]
    exact congrArg (octet :: ·) shifted.symm

/-- A cursor may rest where the input ends or goes on with a rune below 128. -/
theorem isBoundary_of_small (inside : offset ≤ (Subject.mk .utf8 bytes).length)
    (small : ∀ value ∈ ((Subject.mk .utf8 bytes).unitsAhead offset).head?, value < 0x80) :
    (Subject.mk .utf8 bytes).isBoundary offset = true := by
  cases ahead : (Subject.mk .utf8 bytes).unitsAhead offset with
  | nil =>
    have ended : offset = bytes.length := Nat.le_antisymm inside (unitsAhead_eq_nil_iff.mp ahead)
    have same : (offset == bytes.length) = true := beq_iff_eq.mpr ended
    show (offset == bytes.length || _) = true
    rw [same, Bool.true_or]
  | cons value later =>
    obtain ⟨unit, present, rfl, _⟩ := exists_unitAt ahead
    rw [ahead] at small
    obtain ⟨octet, rest, dropped, ascii, _⟩ := exists_octet present (small _ rfl)
    have here : bytes[offset]? = some octet := by
      rw [← List.head?_drop, dropped]
      rfl
    have leads : Utf8.isLead octet = true := by
      have below : ¬ 0x80 ≤ octet := UInt8.not_le.mpr ascii
      rw [Utf8.isLead_eq, Utf8.isContinuation, decide_eq_false below]
      rfl
    exact (isBoundary_iff_isLead rfl (unitAt_bounds present).2.1).mpr ⟨octet, here, leads⟩

/-- Where a text ends, its runes lie behind. -/
theorem unitsAhead_of_textEnd? {stop : Nat} (ascii : ∀ octet ∈ text, octet < 0x80)
    (found : (Subject.mk .utf8 bytes).textEnd? text offset = some stop) :
    (Subject.mk .utf8 bytes).unitsAhead offset =
      text.map UInt8.toNat ++ (Subject.mk .utf8 bytes).unitsAhead stop := by
  unfold textEnd? at found
  split at found
  · rename_i ahead
    cases found
    obtain ⟨rest, same⟩ := List.isPrefixOf_iff_prefix.mp (Bool.and_eq_true_iff.mp ahead).1
    exact unitsAhead_of_drop ascii same.symm
  · cases found

/-- A text ends where its runes do, if no malformed stretch or greater rune follows. -/
theorem textEnd?_of_unitsAhead {later : List Nat} (ascii : ∀ octet ∈ text, octet < 0x80)
    (inside : offset ≤ (Subject.mk .utf8 bytes).length)
    (ahead : (Subject.mk .utf8 bytes).unitsAhead offset = text.map UInt8.toNat ++ later)
    (small : ∀ value ∈ later.head?, value < 0x80) :
    ∃ stop, (Subject.mk .utf8 bytes).textEnd? text offset = some stop ∧
      (Subject.mk .utf8 bytes).unitsAhead stop = later := by
  obtain ⟨rest, dropped⟩ := exists_drop ascii ahead
  have onward := List.append_cancel_left ((unitsAhead_of_drop ascii dropped).symm.trans ahead)
  have room : offset + text.length ≤ (Subject.mk .utf8 bytes).length := by
    have shorter := congrArg List.length dropped
    rw [List.length_drop, List.length_append] at shorter
    change offset ≤ bytes.length at inside
    show offset + text.length ≤ bytes.length
    omega
  have boundary := isBoundary_of_small room (onward ▸ small)
  have begins : text.isPrefixOf (bytes.drop offset) = true :=
    List.isPrefixOf_iff_prefix.mpr ⟨rest, dropped.symm⟩
  refine ⟨offset + text.length, ?_, onward⟩
  rw [textEnd?, begins, boundary]
  rfl

end

end Subject

end TextPattern
