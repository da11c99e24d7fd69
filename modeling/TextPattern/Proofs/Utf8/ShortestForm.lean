import TextPattern.Utf8
import Mathlib.Order.Monotone.Basic
import Mathlib.Tactic.Ring

/-!
# Shortest forms

What UTF-8 is, without a decoder or an encoder: patterns of octets spell numbers bit by bit, and the
encoding of a scalar value is the shortest sequence that spells it. The bits leave no choice, so
there is one such sequence.
-/

namespace TextPattern.Utf8

/-! ## Patterns -/

/-- An octet `10xxxxxx` with its six bits. -/
structure Carries (octet : UInt8) (bits : Nat) : Prop where
  /-- There are six bits. -/
  few : bits < 0x40
  /-- They fill the pattern. -/
  pattern : octet.toNat = 0x80 + bits

/-- An octet that opens a sequence, with the number of octets that follow it and its own bits. -/
inductive Opens (octet : UInt8) : Nat → Nat → Prop where
  /-- The pattern `0xxxxxxx`. -/
  | one {bits : Nat} (few : bits < 0x80) (pattern : octet.toNat = bits) : Opens octet 0 bits
  /-- The pattern `110xxxxx`. -/
  | two {bits : Nat} (few : bits < 0x20) (pattern : octet.toNat = 0xC0 + bits) : Opens octet 1 bits
  /-- The pattern `1110xxxx`. -/
  | three {bits : Nat} (few : bits < 0x10) (pattern : octet.toNat = 0xE0 + bits) :
    Opens octet 2 bits
  /-- The pattern `11110xxx`. -/
  | four {bits : Nat} (few : bits < 0x08) (pattern : octet.toNat = 0xF0 + bits) :
    Opens octet 3 bits

/-- Octets that append their bits to those before them, up to a number. -/
inductive Continues : Nat → Bytes → Nat → Prop where
  /-- No octet is left. -/
  | done (rune : Nat) : Continues rune [] rune
  /-- One octet appends its six bits, and the others theirs. -/
  | next {bits more rune : Nat} {octet : UInt8} {rest : Bytes} (carries : Carries octet more)
    (continues : Continues (bits * 0x40 + more) rest rune) : Continues bits (octet :: rest) rune

/-- A sequence that spells a number, be it in more octets than needed. -/
def Spells : Bytes → Nat → Prop
  | [], _ => False
  | octet :: rest, rune => ∃ bits, Opens octet rest.length bits ∧ Continues bits rest rune

/-- The encoding of a Unicode scalar value: no shorter sequence spells it. -/
structure Encodes (sequence : Bytes) (rune : Nat) : Prop where
  /-- It spells the value. -/
  spells : Spells sequence rune
  /-- The value is at most 10FFFF and no surrogate. -/
  scalar : rune ≤ 0x10FFFF ∧ ¬ (0xD800 ≤ rune ∧ rune ≤ 0xDFFF)
  /-- It is the shortest form. -/
  shortest : ∀ other, Spells other rune → sequence.length ≤ other.length

/-- A text of encodings and nothing else. -/
inductive IsText : Bytes → Prop where
  /-- The empty text. -/
  | nil : IsText []
  /-- One encoding, and a text behind it. -/
  | cons {sequence rest : Bytes} {rune : Nat} (encodes : Encodes sequence rune)
    (text : IsText rest) : IsText (sequence ++ rest)

/-! ## Bits -/

/-- Octets that only ever continue a sequence. -/
def isContinuation (octet : UInt8) : Bool := 0x80 ≤ octet && octet ≤ 0xBF

/-- Continuations are the octets from 80 to BF. -/
theorem isContinuation_iff {octet : UInt8} :
    isContinuation octet = true ↔ 0x80 ≤ octet ∧ octet ≤ 0xBF := by
  rw [isContinuation, Bool.and_eq_true, decide_eq_true_eq, decide_eq_true_eq]

/-- An octet that carries bits is a continuation. -/
theorem Carries.isContinuation {octet : UInt8} {bits : Nat} (carries : Carries octet bits) :
    isContinuation octet = true := by
  obtain ⟨few, pattern⟩ := carries
  rw [isContinuation_iff, UInt8.le_iff_toNat_le, UInt8.le_iff_toNat_le]
  show 0x80 ≤ octet.toNat ∧ octet.toNat ≤ 0xBF
  omega

/-- A continuation carries what exceeds 128. -/
theorem carries_of_isContinuation {octet : UInt8} (continues : isContinuation octet = true) :
    Carries octet (octet.toNat - 0x80) := by
  rw [isContinuation_iff, UInt8.le_iff_toNat_le, UInt8.le_iff_toNat_le] at continues
  change 0x80 ≤ octet.toNat ∧ octet.toNat ≤ 0xBF at continues
  exact ⟨by omega, by omega⟩

/-- What holds of all octets can be seen one by one. -/
theorem forall_octet {holds : UInt8 → Prop} (table : ∀ octet : Fin 256, holds (.ofFin octet))
    (octet : UInt8) : holds octet := table octet.toFin

/-- The two highest bits tell continuations from lead octets. -/
theorem isLead_eq (octet : UInt8) : isLead octet = !isContinuation octet := by
  revert octet
  exact forall_octet (by decide +kernel)

/-- An opening octet is no continuation. -/
theorem Opens.isLead {octet : UInt8} {count bits : Nat} (opens : Opens octet count bits) :
    isLead octet = true := by
  rw [isLead_eq, Bool.not_eq_true', ← Bool.not_eq_true]
  intro continues
  obtain ⟨few, pattern⟩ := carries_of_isContinuation continues
  cases opens <;> omega

/-- The bits of an opening octet leave no choice either. -/
theorem Opens.unique {octet octet' : UInt8} {count bits : Nat} (left : Opens octet count bits)
    (right : Opens octet' count bits) : octet = octet' := by
  apply UInt8.toNat_inj.mp
  cases left <;> cases right <;> omega

/-- The octets behind the opening one are continuations. -/
theorem Continues.isContinuation {bits rune : Nat} {rest : Bytes}
    (continues : Continues bits rest rune) : ∀ octet ∈ rest, isContinuation octet = true := by
  induction continues with
  | done rune => exact fun _ member => absurd member List.not_mem_nil
  | next carries _ ih =>
    intro octet member
    rcases List.mem_cons.mp member with rfl | later
    · exact carries.isContinuation
    · exact ih octet later

/-- Without octets nothing is appended. -/
theorem Continues.eq_of_nil {bits rune : Nat} (continues : Continues bits [] rune) :
    bits = rune := by
  cases continues
  rfl

/-- Every octet shifts the bits before it by six. -/
theorem Continues.bounds {bits rune : Nat} {rest : Bytes} (continues : Continues bits rest rune) :
    bits * 64 ^ rest.length ≤ rune ∧ rune < (bits + 1) * 64 ^ rest.length := by
  induction continues with
  | done rune => simp
  | @next bits more rune octet rest carries _ ih =>
    have few := carries.few
    have shift : 64 ^ (octet :: rest).length = 64 * 64 ^ rest.length := by
      rw [List.length_cons, Nat.pow_succ, Nat.mul_comm]
    rw [shift]
    constructor
    · calc
        bits * (64 * 64 ^ rest.length) = bits * 64 * 64 ^ rest.length := by ring
        _ ≤ (bits * 0x40 + more) * 64 ^ rest.length :=
          Nat.mul_le_mul_right _ (Nat.le_add_right _ _)
        _ ≤ rune := ih.1
    · calc
        rune < (bits * 0x40 + more + 1) * 64 ^ rest.length := ih.2
        _ ≤ (bits + 1) * 64 * 64 ^ rest.length := Nat.mul_le_mul_right _ (by omega)
        _ = (bits + 1) * (64 * 64 ^ rest.length) := by ring

/-- The bits of a number leave no choice of octets. -/
theorem Continues.unique {bits bits' rune : Nat} {rest rest' : Bytes}
    (left : Continues bits rest rune) (right : Continues bits' rest' rune)
    (same : rest.length = rest'.length) : bits = bits' ∧ rest = rest' := by
  induction left generalizing bits' rest' with
  | done rune =>
    cases right with
    | done => exact ⟨rfl, rfl⟩
    | next => cases same
  | next carries _ ih =>
    cases right with
    | done => cases same
    | next carries' continues' =>
      obtain ⟨joined, rfl⟩ := ih continues' (Nat.succ.inj same)
      obtain ⟨few, pattern⟩ := carries
      obtain ⟨few', pattern'⟩ := carries'
      refine ⟨by omega, congrArg (· :: _) (UInt8.toNat_inj.mp ?_)⟩
      omega

/-- Any number of octets can carry the last bits of a number. -/
theorem exists_continues (rune count : Nat) :
    ∃ rest, rest.length = count ∧ Continues (rune / 64 ^ count) rest rune := by
  induction count with
  | zero => exact ⟨[], rfl, by rw [Nat.pow_zero, Nat.div_one]; exact .done rune⟩
  | succ count ih =>
    obtain ⟨rest, counted, continues⟩ := ih
    let more := rune / 64 ^ count % 64
    have few : more < 64 := Nat.mod_lt _ (by decide)
    have fits : 0x80 + more < 256 := by omega
    have joined : rune / 64 ^ (count + 1) * 0x40 + more = rune / 64 ^ count := by
      rw [Nat.pow_succ, ← Nat.div_div_eq_div_mul]
      exact Nat.div_add_mod' _ 64
    refine ⟨UInt8.ofNat (0x80 + more) :: rest, congrArg Nat.succ counted, ?_⟩
    exact .next ⟨few, UInt8.toNat_ofNat_of_lt fits⟩ (joined.symm ▸ continues)

/-! ## Lengths -/

/-- The least number that so many octets behind the opening one are needed for. -/
def leastRune : Nat → Nat
  | 0 => 0
  | 1 => 0x80
  | 2 => 0x800
  | 3 => 0x10000
  | _ => 0x200000

/-- A sequence has room for the numbers below those that need one octet more. -/
theorem Spells.lt {sequence : Bytes} {rune : Nat} (spells : Spells sequence rune) :
    rune < leastRune sequence.length := by
  cases sequence with
  | nil => cases spells
  | cons octet rest =>
    obtain ⟨bits, opens, continues⟩ := spells
    have bound := continues.bounds.2
    rw [List.length_cons]
    generalize rest.length = count at opens bound ⊢
    cases opens <;> simp only [leastRune] at bound ⊢ <;> omega

/-- A sequence has at most four octets. -/
theorem Spells.length_le {sequence : Bytes} {rune : Nat} (spells : Spells sequence rune) :
    sequence.length ≤ 4 := by
  cases sequence with
  | nil => exact Nat.zero_le _
  | cons octet rest =>
    obtain ⟨bits, opens, _⟩ := spells
    rw [List.length_cons]
    generalize rest.length = count at opens ⊢
    cases opens <;> decide

/-- Bits with room in an opening octet have one. -/
theorem exists_opens {bits count : Nat} (few : count ≤ 3)
    (room : bits * 64 ^ count < leastRune (count + 1)) : ∃ octet, Opens octet count bits := by
  obtain rfl | rfl | rfl | rfl : count = 0 ∨ count = 1 ∨ count = 2 ∨ count = 3 := by omega
  · have fits : bits < 0x80 := by simpa [leastRune] using room
    exact ⟨.ofNat bits, .one fits (UInt8.toNat_ofNat_of_lt (show _ < 0x100 by omega))⟩
  · have fits : bits < 0x20 := by simp only [leastRune] at room; omega
    exact ⟨.ofNat (0xC0 + bits), .two fits (UInt8.toNat_ofNat_of_lt (show _ < 0x100 by omega))⟩
  · have fits : bits < 0x10 := by simp only [leastRune] at room; omega
    exact ⟨.ofNat (0xE0 + bits), .three fits (UInt8.toNat_ofNat_of_lt (show _ < 0x100 by omega))⟩
  · have fits : bits < 0x08 := by simp only [leastRune] at room; omega
    exact ⟨.ofNat (0xF0 + bits), .four fits (UInt8.toNat_ofNat_of_lt (show _ < 0x100 by omega))⟩

/-- Every number with room in so many octets is spelled by as many. -/
theorem exists_spells {rune count : Nat} (few : count ≤ 3) (room : rune < leastRune (count + 1)) :
    ∃ sequence, sequence.length = count + 1 ∧ Spells sequence rune := by
  obtain ⟨rest, rfl, continues⟩ := exists_continues rune count
  have begins := Nat.lt_of_le_of_lt continues.bounds.1 room
  obtain ⟨octet, opens⟩ := exists_opens few begins
  exact ⟨octet :: rest, rfl, _, opens, continues⟩

/-- The more octets, the greater the numbers that need them. -/
theorem leastRune_mono : Monotone leastRune :=
  monotone_nat_of_le_succ fun
    | 0 => by decide
    | 1 => by decide
    | 2 => by decide
    | 3 => by decide
    | _ + 4 => Nat.le_refl _

/-- A sequence is the shortest where its number needs all of its octets. -/
theorem encodes_iff {octet : UInt8} {rest : Bytes} {rune : Nat} :
    Encodes (octet :: rest) rune ↔ Spells (octet :: rest) rune ∧
      (rune ≤ 0x10FFFF ∧ ¬ (0xD800 ≤ rune ∧ rune ≤ 0xDFFF)) ∧ leastRune rest.length ≤ rune := by
  constructor
  · rintro ⟨spells, scalar, shortest⟩
    refine ⟨spells, scalar, Nat.le_of_not_lt fun room => ?_⟩
    have limit := spells.length_le
    rw [List.length_cons] at limit
    cases counted : rest.length with
    | zero =>
      rw [counted] at room
      exact Nat.not_lt_zero _ room
    | succ count =>
      rw [counted] at room limit
      obtain ⟨other, length, spelled⟩ := exists_spells (by omega) room
      have longer := shortest other spelled
      rw [List.length_cons, counted, length] at longer
      omega
  · rintro ⟨spells, scalar, needed⟩
    refine ⟨spells, scalar, fun other spelled => Nat.le_of_not_lt fun shorter => ?_⟩
    rw [List.length_cons] at shorter
    have room := spelled.lt
    have least := leastRune_mono (Nat.le_of_lt_succ shorter)
    omega

/-- A scalar value has one encoding. -/
theorem Encodes.unique {left right : Bytes} {rune : Nat} (first : Encodes left rune)
    (second : Encodes right rune) : left = right := by
  have same : left.length = right.length :=
    Nat.le_antisymm (first.shortest _ second.spells) (second.shortest _ first.spells)
  cases left with
  | nil => cases first.spells
  | cons octet rest =>
    cases right with
    | nil => cases second.spells
    | cons octet' rest' =>
      obtain ⟨bits, opens, continues⟩ := first.spells
      obtain ⟨bits', opens', continues'⟩ := second.spells
      obtain ⟨rfl, rfl⟩ := continues.unique continues' (Nat.succ.inj same)
      rw [opens.unique opens']

end TextPattern.Utf8
