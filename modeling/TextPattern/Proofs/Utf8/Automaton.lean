import TextPattern.Proofs.Utf8.ShortestForm
import Mathlib.Data.List.TakeWhile

/-!
# The automaton

The tables of the automaton come to ranges of octets: an opening octet tells how many others are
owed, and between which limits the first of them lies. The automaton completes a sequence where the
owed octets keep to that, with the bits of all of them. Where they do not, or where the text ends
before, decoding goes on behind the continuations that follow the first octet, whichever octet was
refused: `read_eq_complete_iff` and `resume_of_read_eq_broken` are the main statements.
-/

namespace TextPattern.Utf8

/-! ## The classes -/

/-- The classes as ranges. -/
def classOf (octet : UInt8) : Nat :=
  if octet < 0x80 then 0 else if octet < 0x90 then 1 else if octet < 0xA0 then 9
  else if octet < 0xC0 then 7 else if octet < 0xC2 then 8 else if octet < 0xE0 then 2
  else if octet = 0xE0 then 10 else if octet = 0xED then 4 else if octet < 0xF0 then 3
  else if octet = 0xF0 then 11 else if octet < 0xF4 then 6 else if octet = 0xF4 then 5 else 8

/-- The table lists the classes. -/
theorem classTable_get (octet : UInt8) : (classTable.get octet.toFin : Nat) = classOf octet := by
  revert octet
  exact forall_octet (by decide +kernel)

/-- Where the automaton goes, by classes that are ranges. -/
theorem next_eq_classOf (state : State) (octet : UInt8) :
    next state octet = transitionTable.getD (state + classOf octet) reject := by
  have inside : state + (classTable.get octet.toFin : Nat) < 108 := by omega
  rw [← classTable_get]
  exact (dif_pos inside).symm

/-- Where the automaton goes by the octets of some classes, when these lie between two limits. -/
theorem next_eq_of_row {state target : State} {least greatest : UInt8} (classes : List Nat)
    (row : ∀ octetClass : Fin 12, transitionTable.get ⟨state + octetClass, by omega⟩ =
      if classes.contains (octetClass : Nat) then target else reject)
    (limits : ∀ octet : Fin 256, classes.contains (classOf (.ofFin octet)) = true ↔
      least ≤ UInt8.ofFin octet ∧ UInt8.ofFin octet ≤ greatest) (octet : UInt8) :
    next state octet = if least ≤ octet ∧ octet ≤ greatest then target else reject := by
  rw [next, row, classTable_get]
  exact if_congr (limits octet.toFin) rfl rfl

/-! ## Within a sequence -/

/-- What the automaton waits for within a sequence: how many octets have to follow, and between
which limits the next of them lies. -/
inductive Waits : State → Nat → UInt8 → UInt8 → Prop where
  /-- The last octet. -/
  | one : Waits 24 1 0x80 0xBF
  /-- Two octets. -/
  | two : Waits 36 2 0x80 0xBF
  /-- Two octets behind E0; a lesser one would make the sequence overlong. -/
  | twoFromA0 : Waits 48 2 0xA0 0xBF
  /-- Two octets behind ED; a greater one would spell a surrogate. -/
  | twoTo9F : Waits 60 2 0x80 0x9F
  /-- Three octets behind F0; a lesser one would make the sequence overlong. -/
  | threeFrom90 : Waits 72 3 0x90 0xBF
  /-- Three octets. -/
  | three : Waits 84 3 0x80 0xBF
  /-- Three octets behind F4; a greater one would leave the scalar values. -/
  | threeTo8F : Waits 96 3 0x80 0x8F

namespace Waits

variable {state : State} {count : Nat} {least greatest : UInt8}

/-- While the automaton waits, an octet between the limits leaves one octet less to wait for, and
any other is refused. -/
theorem next_eq (waits : Waits state (count + 1) least greatest) :
    ∃ target, (count = 0 ∧ target = accept ∨ Waits target count 0x80 0xBF) ∧
      ∀ octet, next state octet = if least ≤ octet ∧ octet ≤ greatest then target else reject := by
  cases waits with
  | one =>
    exact ⟨accept, .inl ⟨rfl, rfl⟩,
      next_eq_of_row [1, 7, 9] (by decide +kernel) (by decide +kernel)⟩
  | two => exact ⟨24, .inr .one, next_eq_of_row [1, 7, 9] (by decide +kernel) (by decide +kernel)⟩
  | twoFromA0 => exact ⟨24, .inr .one, next_eq_of_row [7] (by decide +kernel) (by decide +kernel)⟩
  | twoTo9F => exact ⟨24, .inr .one, next_eq_of_row [1, 9] (by decide +kernel) (by decide +kernel)⟩
  | threeFrom90 =>
    exact ⟨36, .inr .two, next_eq_of_row [7, 9] (by decide +kernel) (by decide +kernel)⟩
  | three => exact ⟨36, .inr .two, next_eq_of_row [1, 7, 9] (by decide +kernel) (by decide +kernel)⟩
  | threeTo8F => exact ⟨36, .inr .two, next_eq_of_row [1] (by decide +kernel) (by decide +kernel)⟩

/-- While the automaton waits, no sequence is complete. -/
theorem ne_accept (waits : Waits state count least greatest) : state ≠ accept := by
  cases waits <;> decide

/-- While the automaton waits, no octet has been refused. -/
theorem ne_reject (waits : Waits state count least greatest) : state ≠ reject := by
  cases waits <;> decide

/-- The automaton waits for one octet at least. -/
theorem exists_succ (waits : Waits state count least greatest) : ∃ left, count = left + 1 := by
  cases waits <;> exact ⟨_, rfl⟩

/-- The automaton waits for continuations. -/
theorem limits (waits : Waits state count least greatest) : 0x80 ≤ least ∧ greatest ≤ 0xBF := by
  cases waits <;> decide

end Waits

/-! ## Opening octets -/

/-- What the opening octet of a longer sequence says about the rest of it. -/
structure Opening where
  /-- The leading bits of the rune. -/
  bits : Nat
  /-- How many octets have to follow. -/
  owed : Nat
  /-- The least octet that may follow next: a lesser one would make the sequence overlong. -/
  least : UInt8
  /-- The greatest octet that may follow next: a greater one would leave the scalar values. -/
  greatest : UInt8

/-- What an octet from 128 on opens, if anything. -/
def opening? (octet : UInt8) : Option Opening :=
  if octet < 0xC2 then none
  else if octet < 0xE0 then some ⟨octet.toNat - 0xC0, 1, 0x80, 0xBF⟩
  else if octet < 0xF0 then
    some ⟨octet.toNat - 0xE0, 2, if octet = 0xE0 then 0xA0 else 0x80,
      if octet = 0xED then 0x9F else 0xBF⟩
  else if octet < 0xF5 then
    some ⟨octet.toNat - 0xF0, 3, if octet = 0xF0 then 0x90 else 0x80,
      if octet = 0xF4 then 0x8F else 0xBF⟩
  else none

section
variable {octet : UInt8}

/-- Octets below C2 open no longer sequence: they stand alone, continue one, or open overlong
forms only. -/
theorem opening?_low (low : octet.toNat < 0xC2) : opening? octet = none :=
  if_pos low

/-- The octets that open sequences of two. -/
theorem opening?_two (least : 0xC2 ≤ octet.toNat) (greatest : octet.toNat < 0xE0) :
    opening? octet = some ⟨octet.toNat - 0xC0, 1, 0x80, 0xBF⟩ := by
  have from_C2 : ¬ octet < 0xC2 := Nat.not_lt.mpr least
  have below_E0 : octet < 0xE0 := greatest
  rw [opening?, if_neg from_C2, if_pos below_E0]

/-- The octets that open sequences of three. -/
theorem opening?_three (least : 0xE0 ≤ octet.toNat) (greatest : octet.toNat < 0xF0) :
    opening? octet = some ⟨octet.toNat - 0xE0, 2, if octet = 0xE0 then 0xA0 else 0x80,
      if octet = 0xED then 0x9F else 0xBF⟩ := by
  have from_C2 : ¬ octet < 0xC2 := Nat.not_lt.mpr (Nat.le_trans (by decide) least)
  have from_E0 : ¬ octet < 0xE0 := Nat.not_lt.mpr least
  have below_F0 : octet < 0xF0 := greatest
  rw [opening?, if_neg from_C2, if_neg from_E0, if_pos below_F0]

/-- The octets that open sequences of four. -/
theorem opening?_four (least : 0xF0 ≤ octet.toNat) (greatest : octet.toNat < 0xF5) :
    opening? octet = some ⟨octet.toNat - 0xF0, 3, if octet = 0xF0 then 0x90 else 0x80,
      if octet = 0xF4 then 0x8F else 0xBF⟩ := by
  have from_C2 : ¬ octet < 0xC2 := Nat.not_lt.mpr (Nat.le_trans (by decide) least)
  have from_E0 : ¬ octet < 0xE0 := Nat.not_lt.mpr (Nat.le_trans (by decide) least)
  have from_F0 : ¬ octet < 0xF0 := Nat.not_lt.mpr least
  have below_F5 : octet < 0xF5 := greatest
  rw [opening?, if_neg from_C2, if_neg from_E0, if_neg from_F0, if_pos below_F5]

/-- Octets from F5 on open nothing: what they could open is past the scalar values. -/
theorem opening?_high (high : 0xF5 ≤ octet.toNat) : opening? octet = none := by
  have from_C2 : ¬ octet < 0xC2 := Nat.not_lt.mpr (Nat.le_trans (by decide) high)
  have from_E0 : ¬ octet < 0xE0 := Nat.not_lt.mpr (Nat.le_trans (by decide) high)
  have from_F0 : ¬ octet < 0xF0 := Nat.not_lt.mpr (Nat.le_trans (by decide) high)
  have from_F5 : ¬ octet < 0xF5 := Nat.not_lt.mpr high
  rw [opening?, if_neg from_C2, if_neg from_E0, if_neg from_F0, if_neg from_F5]

/-- The octets that open longer sequences, by the length of these. -/
theorem opening?_ranges {opening : Opening} (opens : opening? octet = some opening) :
    (0xC2 ≤ octet.toNat ∧ octet.toNat < 0xE0) ∨ (0xE0 ≤ octet.toNat ∧ octet.toNat < 0xF0) ∨
      (0xF0 ≤ octet.toNat ∧ octet.toNat < 0xF5) := by
  by_contra outside
  have absent : opening? octet = none := by
    by_cases low : octet.toNat < 0xC2
    · exact opening?_low low
    · exact opening?_high (by omega)
  rw [absent] at opens
  cases opens

/-- An octet opens what its pattern says, and asks for a continuation at least. -/
theorem opens_of_opening? {opening : Opening} (opens : opening? octet = some opening) :
    Opens octet opening.owed opening.bits ∧ 0 < opening.owed := by
  rcases opening?_ranges opens with ⟨least, greatest⟩ | ⟨least, greatest⟩ | ⟨least, greatest⟩
  · rw [opening?_two least greatest] at opens
    obtain rfl := Option.some.inj opens
    exact ⟨.two (by dsimp only; omega) (by dsimp only; omega), Nat.zero_lt_succ _⟩
  · rw [opening?_three least greatest] at opens
    obtain rfl := Option.some.inj opens
    exact ⟨.three (by dsimp only; omega) (by dsimp only; omega), Nat.zero_lt_succ _⟩
  · rw [opening?_four least greatest] at opens
    obtain rfl := Option.some.inj opens
    exact ⟨.four (by dsimp only; omega) (by dsimp only; omega), Nat.zero_lt_succ _⟩

end

/-- Where the automaton goes from its beginning. -/
theorem next_accept (octet : UInt8) :
    let state := next accept octet
    (octet.toNat < 0x80 → state = accept) ∧
      (0x80 ≤ octet.toNat → octet.toNat < 0xC2 → state = reject) ∧
      (0xC2 ≤ octet.toNat → octet.toNat < 0xE0 → state = 24) ∧
      (0xE0 ≤ octet.toNat → octet.toNat < 0xF0 →
        state = if octet = 0xE0 then 48 else if octet = 0xED then 60 else 36) ∧
      (0xF0 ≤ octet.toNat → octet.toNat < 0xF5 →
        state = if octet = 0xF0 then 72 else if octet = 0xF4 then 96 else 84) ∧
      (0xF5 ≤ octet.toNat → state = reject) := by
  rw [next_eq_classOf]
  revert octet
  exact forall_octet (by decide +kernel)

/-- The bits that the class of an opening octet leaves. -/
theorem toNat_mask (octet : UInt8) :
    let bits := (octet.toUInt32 &&& ((0xFF : UInt32) >>> UInt32.ofNat (classOf octet))).toNat
    (octet.toNat < 0x80 → bits = octet.toNat) ∧
      (0xC2 ≤ octet.toNat → octet.toNat < 0xE0 → bits = octet.toNat - 0xC0) ∧
      (0xE0 ≤ octet.toNat → octet.toNat < 0xF0 → bits = octet.toNat - 0xE0) ∧
      (0xF0 ≤ octet.toNat → octet.toNat < 0xF5 → bits = octet.toNat - 0xF0) := by
  revert octet
  exact forall_octet (by decide +kernel)

namespace Automaton

/-- The automaton behind the first octet. -/
theorem step_start (octet : UInt8) :
    start.step octet = ⟨octet.toUInt32 &&& ((0xFF : UInt32) >>> UInt32.ofNat (classOf octet)),
      next accept octet⟩ := by
  rw [← classTable_get]
  rfl

variable {octet : UInt8}

/-- An octet below 128 is a sequence of its own. -/
theorem step_start_of_ascii (ascii : octet.toNat < 0x80) :
    (start.step octet).state = accept ∧ (start.step octet).rune.toNat = octet.toNat := by
  rw [step_start]
  exact ⟨(next_accept octet).1 ascii, (toNat_mask octet).1 ascii⟩

/-- Behind an opening octet the automaton waits for what is owed. -/
theorem step_start_of_opening? {opening : Opening} (opens : opening? octet = some opening) :
    Waits (start.step octet).state opening.owed opening.least opening.greatest ∧
      (start.step octet).rune.toNat = opening.bits := by
  obtain ⟨_, _, two, three, four, _⟩ := next_accept octet
  obtain ⟨_, bits_two, bits_three, bits_four⟩ := toNat_mask octet
  rw [step_start]
  rcases opening?_ranges opens with ⟨least, greatest⟩ | ⟨least, greatest⟩ | ⟨least, greatest⟩
  · rw [opening?_two least greatest] at opens
    obtain rfl := Option.some.inj opens
    refine ⟨?_, bits_two least greatest⟩
    rw [two least greatest]
    exact .one
  · rw [opening?_three least greatest] at opens
    obtain rfl := Option.some.inj opens
    refine ⟨?_, bits_three least greatest⟩
    rw [three least greatest]
    by_cases overlong : octet = 0xE0
    · subst overlong
      exact .twoFromA0
    · by_cases surrogate : octet = 0xED
      · subst surrogate
        exact .twoTo9F
      · simp only [if_neg overlong, if_neg surrogate]
        exact .two
  · rw [opening?_four least greatest] at opens
    obtain rfl := Option.some.inj opens
    refine ⟨?_, bits_four least greatest⟩
    rw [four least greatest]
    by_cases overlong : octet = 0xF0
    · subst overlong
      exact .threeFrom90
    · by_cases beyond : octet = 0xF4
      · subst beyond
        exact .threeTo8F
      · simp only [if_neg overlong, if_neg beyond]
        exact .three

/-- An octet from 128 on that opens nothing is refused. -/
theorem step_start_of_no_opening (wide : 0x80 ≤ octet.toNat) (absent : opening? octet = none) :
    (start.step octet).state = reject := by
  obtain ⟨_, low, _, _, _, high⟩ := next_accept octet
  rw [step_start]
  by_cases few : octet.toNat < 0xC2
  · exact low wide few
  · refine high (Nat.le_of_not_lt fun below => ?_)
    rcases Nat.lt_or_ge octet.toNat 0xE0 with two | three
    · rw [opening?_two (Nat.le_of_not_lt few) two] at absent
      cases absent
    · rcases Nat.lt_or_ge octet.toNat 0xF0 with three' | four
      · rw [opening?_three three three'] at absent
        cases absent
      · rw [opening?_four four below] at absent
        cases absent

/-- Within a sequence the automaton appends the bits of a continuation. -/
theorem toNat_rune_step {automaton : Automaton} (within : automaton.state ≠ accept)
    (continues : isContinuation octet = true) (room : automaton.rune.toNat < 2 ^ 26) :
    (automaton.step octet).rune.toNat = automaton.rune.toNat * 0x40 + (octet.toNat - 0x80) := by
  have low : ∀ octet : UInt8, isContinuation octet = true →
      (octet.toUInt32 &&& (0x3F : UInt32)).toNat = octet.toNat - 0x80 :=
    forall_octet (by decide +kernel)
  have few := (carries_of_isContinuation continues).few
  have shifted : automaton.rune.toNat <<< 6 < 2 ^ 32 := by
    rw [Nat.shiftLeft_eq]
    omega
  have appended : (automaton.step octet).rune =
      (octet.toUInt32 &&& (0x3F : UInt32)) ||| (automaton.rune <<< (6 : UInt32)) := if_neg within
  calc
    (automaton.step octet).rune.toNat =
        (octet.toNat - 0x80) ||| (automaton.rune.toNat <<< 6 % 2 ^ 32) := by
      rw [appended, UInt32.toNat_or, low octet continues, UInt32.toNat_shiftLeft]
      rfl
    _ = automaton.rune.toNat <<< 6 + (octet.toNat - 0x80) := by
      rw [Nat.mod_eq_of_lt shifted, Nat.or_comm, Nat.shiftLeft_add_eq_or_of_lt few]
    _ = automaton.rune.toNat * 0x40 + (octet.toNat - 0x80) := by
      rw [Nat.shiftLeft_eq]

end Automaton

/-! ## Reading -/

section
variable {automaton : Automaton} {count owed width : Nat} {least greatest : UInt8} {bytes : Bytes}
  {rune : UInt32}

/-- A refused octet ends the reading. -/
theorem read_of_reject (refused : automaton.state = reject) (count : Nat) (bytes : Bytes) :
    read automaton count bytes = .broken reject count := by
  cases bytes with
  | nil => rw [read, refused]
  | cons octet rest => rw [read, if_pos refused]

/-- Elsewhere the next octet decides. -/
theorem read_cons (passes : automaton.state ≠ reject) (count : Nat) (octet : UInt8) (rest : Bytes) :
    read automaton count (octet :: rest) =
      if (automaton.step octet).state = accept then
        .complete (automaton.step octet).rune (count + 1)
      else read (automaton.step octet) (count + 1) rest := by
  rw [read, if_neg passes]

/-- What an octet does while the automaton waits. There is room for the bits of all owed octets, so
none of them is shifted out. -/
theorem step_of_waits (waits : Waits automaton.state (owed + 1) least greatest)
    (room : (automaton.rune.toNat + 1) * 64 ^ (owed + 1) ≤ 2 ^ 32) (octet : UInt8) :
    (¬ (least ≤ octet ∧ octet ≤ greatest) ∧ (automaton.step octet).state = reject) ∨
      (least ≤ octet ∧ octet ≤ greatest) ∧ Carries octet (octet.toNat - 0x80) ∧
        (automaton.step octet).rune.toNat =
          automaton.rune.toNat * 0x40 + (octet.toNat - 0x80) ∧
        ((automaton.step octet).rune.toNat + 1) * 64 ^ owed ≤ 2 ^ 32 ∧
        (owed = 0 ∧ (automaton.step octet).state = accept ∨
          Waits (automaton.step octet).state owed 0x80 0xBF) := by
  obtain ⟨target, behind, goes⟩ := waits.next_eq
  obtain ⟨from_80, to_BF⟩ := waits.limits
  replace goes : (automaton.step octet).state = _ := goes octet
  by_cases limited : least ≤ octet ∧ octet ≤ greatest
  · right
    rw [if_pos limited] at goes
    have continues : isContinuation octet = true := isContinuation_iff.mpr
      ⟨UInt8.le_trans from_80 limited.1, UInt8.le_trans limited.2 to_BF⟩
    have carries := carries_of_isContinuation continues
    have few := carries.few
    rw [Nat.pow_succ, Nat.mul_comm (64 ^ owed), ← Nat.mul_assoc] at room
    have fits : automaton.rune.toNat < 2 ^ 26 := by
      have least := Nat.le_mul_of_pos_right ((automaton.rune.toNat + 1) * 64)
        (Nat.pow_pos (n := owed) (show 0 < 64 by decide))
      omega
    have appended := Automaton.toNat_rune_step waits.ne_accept continues fits
    refine ⟨limited, carries, appended, ?_, goes ▸ behind⟩
    calc
      ((automaton.step octet).rune.toNat + 1) * 64 ^ owed ≤
          (automaton.rune.toNat + 1) * 64 * 64 ^ owed := Nat.mul_le_mul_right _ (by omega)
      _ ≤ 2 ^ 32 := room
  · rw [if_neg limited] at goes
    exact .inl ⟨limited, goes⟩

/-- Octets that are ahead, so many and the first of them between its limits, with what they append
to the bits before them. -/
structure Ahead (bits owed : Nat) (least greatest : UInt8) (bytes rest : Bytes) (rune : Nat) :
    Prop where
  /-- They are ahead. -/
  ahead : rest <+: bytes
  /-- There are so many. -/
  counted : rest.length = owed
  /-- They append their bits. -/
  continues : Continues bits rest rune
  /-- The first of them keeps its limits. -/
  limits : ∀ first ∈ rest.head?, least ≤ first ∧ first ≤ greatest

/-- One octet less is ahead behind the first one. -/
theorem ahead_cons_iff {bits more value : Nat} {octet : UInt8} {later : Bytes}
    (limited : least ≤ octet ∧ octet ≤ greatest) (carries : Carries octet more) :
    (∃ rest, Ahead bits (owed + 1) least greatest (octet :: later) rest value) ↔
      ∃ rest, Ahead (bits * 0x40 + more) owed 0x80 0xBF later rest value := by
  constructor
  · rintro ⟨rest, ahead, counted, continues, _⟩
    cases continues with
    | done => cases counted
    | @next _ more' _ other rest carries' continues =>
      obtain ⟨rfl, begins⟩ := List.cons_prefix_cons.mp ahead
      have brought : more' = more := by
        have pattern := carries.pattern
        have pattern' := carries'.pattern
        omega
      refine ⟨rest, begins, Nat.succ.inj counted, brought ▸ continues, fun first head => ?_⟩
      exact isContinuation_iff.mp (continues.isContinuation first (List.mem_of_mem_head? head))
  · rintro ⟨rest, ahead, counted, continues, _⟩
    refine ⟨octet :: rest, List.cons_prefix_cons.mpr ⟨rfl, ahead⟩, congrArg Nat.succ counted,
      .next carries continues, ?_⟩
    rintro first ⟨⟩
    exact limited

/-- While the automaton waits, it completes a sequence where the owed octets are ahead. -/
theorem read_eq_complete_iff (waits : Waits automaton.state owed least greatest)
    (room : (automaton.rune.toNat + 1) * 64 ^ owed ≤ 2 ^ 32) :
    read automaton count bytes = .complete rune width ↔ width = count + owed ∧
      ∃ rest, Ahead automaton.rune.toNat owed least greatest bytes rest rune.toNat := by
  induction bytes generalizing automaton count owed least greatest with
  | nil =>
    constructor
    · intro ended
      cases ended
    · rintro ⟨_, rest, ahead, counted, _⟩
      obtain ⟨left, rfl⟩ := waits.exists_succ
      rw [List.prefix_nil.mp ahead] at counted
      cases counted
  | cons octet later ih =>
    obtain ⟨left, rfl⟩ := waits.exists_succ
    rw [read_cons waits.ne_reject]
    rcases step_of_waits waits room octet with
      ⟨outside, refused⟩ | ⟨limited, carries, appended, room, behind⟩
    · rw [if_neg (by rw [refused]; decide), read_of_reject refused]
      constructor
      · intro ended
        cases ended
      · rintro ⟨_, rest, ahead, counted, _, limits⟩
        obtain ⟨first, rest, rfl⟩ := List.exists_cons_of_length_eq_add_one counted
        obtain ⟨rfl, _⟩ := List.cons_prefix_cons.mp ahead
        exact absurd (limits first rfl) outside
    · rw [ahead_cons_iff limited carries, ← appended, Nat.add_comm left 1, ← Nat.add_assoc]
      rcases behind with ⟨rfl, accepted⟩ | waits
      · rw [if_pos accepted]
        constructor
        · intro ended
          cases ended
          exact ⟨rfl, [], List.nil_prefix, rfl, .done _, nofun⟩
        · rintro ⟨rfl, rest, _, counted, continues, _⟩
          obtain rfl := List.eq_nil_of_length_eq_zero counted
          rw [UInt32.toNat_inj.mp continues.eq_of_nil]
      · rw [if_neg waits.ne_accept, ih waits room]

/-! ## Going on behind malformed octets -/

/-- The next lead octet is behind the continuations. -/
theorem nextLead_eq (position : Nat) (bytes : Bytes) :
    nextLead position bytes = position + (bytes.takeWhile isContinuation).length := by
  induction bytes generalizing position with
  | nil => rfl
  | cons octet rest ih =>
    rw [nextLead, isLead_eq]
    cases continues : isContinuation octet with
    | false => rw [List.takeWhile_cons_of_neg (by rw [continues]; decide)]; rfl
    | true =>
      rw [List.takeWhile_cons_of_pos continues, List.length_cons, ← Nat.add_assoc,
        Nat.add_right_comm]
      exact ih (position + 1)

/-- Where the automaton breaks off within a sequence, decoding goes on behind the continuations:
those that it has read, and those that follow. If it was a lead octet that it refused, this one is
given back. -/
theorem resume_of_waits {text : Bytes} {state : State} {stop : Nat}
    (waits : Waits automaton.state owed least greatest)
    (room : (automaton.rune.toNat + 1) * 64 ^ owed ≤ 2 ^ 32) (behind : 1 ≤ count)
    (rest : text.drop count = bytes) (ended : read automaton count bytes = .broken state stop) :
    resume text state stop = count + (bytes.takeWhile isContinuation).length := by
  induction bytes generalizing automaton count owed least greatest with
  | nil =>
    obtain ⟨rfl, rfl⟩ := Halt.broken.inj ended
    have position : resume text automaton.state count = nextLead count (text.drop count) := by
      rw [resume, if_neg fun both => waits.ne_reject both.1]
    rw [position, nextLead_eq, rest]
  | cons octet later ih =>
    obtain ⟨left, rfl⟩ := waits.exists_succ
    have here : text[count]? = some octet := by
      rw [← List.head?_drop, rest, List.head?_cons]
    have onward : text.drop (count + 1) = later := by
      rw [← List.tail_drop, rest, List.tail_cons]
    rw [read_cons waits.ne_reject] at ended
    rcases step_of_waits waits room octet with
      ⟨_, refused⟩ | ⟨_, carries, _, room, waits⟩
    · rw [if_neg (by rw [refused]; decide), read_of_reject refused] at ended
      obtain ⟨rfl, rfl⟩ := Halt.broken.inj ended
      have some_read : 1 < count + 1 := Nat.lt_succ_of_le behind
      cases leads : isLead octet with
      | true =>
        have given_back : resume text reject (count + 1) = nextLead count (text.drop count) := by
          rw [resume, if_pos ⟨rfl, some_read, by rw [Nat.add_sub_cancel, here]; exact leads⟩,
            Nat.add_sub_cancel]
        rw [given_back, nextLead_eq, rest]
      | false =>
        have kept : resume text reject (count + 1) =
            nextLead (count + 1) (text.drop (count + 1)) := by
          refine congrArg (fun position => nextLead position (text.drop position)) (if_neg ?_)
          rintro ⟨_, _, given_back⟩
          rw [Nat.add_sub_cancel, here] at given_back
          exact Bool.false_ne_true (leads.symm.trans given_back)
        have continues : isContinuation octet = true := by
          rw [isLead_eq, Bool.not_eq_false'] at leads
          exact leads
        rw [kept, nextLead_eq, onward, List.takeWhile_cons_of_pos continues, List.length_cons]
        omega
    · rw [List.takeWhile_cons_of_pos carries.isContinuation, List.length_cons]
      rcases waits with ⟨_, accepted⟩ | waits
      · rw [if_pos accepted] at ended
        cases ended
      · rw [if_neg waits.ne_accept] at ended
        rw [ih waits room (Nat.le_succ_of_le behind) onward ended]
        omega

end

/-! ## From the beginning -/

section
variable {octet : UInt8}

/-- From its beginning the automaton goes where the first octet leads. -/
theorem read_start_cons (octet : UInt8) (rest : Bytes) :
    read .start 0 (octet :: rest) =
      if (Automaton.start.step octet).state = accept then
        .complete (Automaton.start.step octet).rune 1
      else read (Automaton.start.step octet) 1 rest :=
  read_cons (by decide) 0 octet rest

/-- An octet below 128 is read by itself. -/
theorem read_start_of_ascii (ascii : octet.toNat < 0x80) (rest : Bytes) :
    read .start 0 (octet :: rest) = .complete (Automaton.start.step octet).rune 1 := by
  rw [read_start_cons, if_pos (Automaton.step_start_of_ascii ascii).1]

/-- Behind an opening octet the owed ones are read. -/
theorem read_start_of_opening? {opening : Opening} (opens : opening? octet = some opening)
    (rest : Bytes) :
    read .start 0 (octet :: rest) = read (Automaton.start.step octet) 1 rest := by
  rw [read_start_cons, if_neg (Automaton.step_start_of_opening? opens).1.ne_accept]

/-- An octet that opens nothing ends the reading at once. -/
theorem read_start_of_no_opening (wide : 0x80 ≤ octet.toNat) (absent : opening? octet = none)
    (rest : Bytes) : read .start 0 (octet :: rest) = .broken reject 1 := by
  have refused := Automaton.step_start_of_no_opening wide absent
  rw [read_start_cons, if_neg (by rw [refused]; decide), read_of_reject refused]

/-- Behind an opening octet there is room for the bits of the owed ones. -/
theorem room_of_opening? {opening : Opening} (opens : opening? octet = some opening) :
    ((Automaton.start.step octet).rune.toNat + 1) * 64 ^ opening.owed ≤ 2 ^ 32 := by
  rw [(Automaton.step_start_of_opening? opens).2]
  obtain ⟨pattern, -⟩ := opens_of_opening? opens
  generalize opening.owed = owed, opening.bits = bits at pattern
  cases pattern <;> omega

/-- Wherever the automaton breaks off, decoding goes on behind the continuations that follow the
first octet. -/
theorem resume_of_read_eq_broken {bytes : Bytes} {state : State} {stop : Nat}
    (ended : read .start 0 bytes = .broken state stop) :
    max (resume bytes state stop) 1 = 1 + (bytes.tail.takeWhile isContinuation).length := by
  cases bytes with
  | nil =>
    cases ended
    rfl
  | cons octet rest =>
    have later :
        resume (octet :: rest) state stop = 1 + (rest.takeWhile isContinuation).length := by
      rcases Nat.lt_or_ge octet.toNat 0x80 with ascii | wide
      · rw [read_start_of_ascii ascii] at ended
        cases ended
      · cases opens : opening? octet with
        | none =>
          rw [read_start_of_no_opening wide opens] at ended
          obtain ⟨rfl, rfl⟩ := Halt.broken.inj ended
          have kept : resume (octet :: rest) reject 1 = nextLead 1 rest := by
            rw [resume, if_neg fun both => Nat.lt_irrefl 1 both.2.1, List.drop_one, List.tail_cons]
          rw [kept, nextLead_eq]
        | some opening =>
          rw [read_start_of_opening? opens] at ended
          exact resume_of_waits (Automaton.step_start_of_opening? opens).1 (room_of_opening? opens)
            (Nat.le_refl 1) rfl ended
    rw [later, List.tail_cons]
    exact Nat.max_eq_left (Nat.le_add_right _ _)

end

end TextPattern.Utf8
