import TextPattern.Proofs.ReadingBounds
import TextPattern.Proofs.Runes

/-!
# Seams

The units of a subject lie side by side from the start of the input to its end. The seams are the
offsets between them. Every boundary is a seam, because a unit has no boundary inside; a seam is
no boundary where a unit begins with a stray continuation octet.
-/

namespace TextPattern.Subject

/-- The offsets that are reached from the start by passing over whole units. -/
inductive Seam (subject : Subject) : Nat → Prop where
  /-- The start of the input. -/
  | start : Seam subject 0
  /-- The end of a unit that begins at a seam. -/
  | next {offset : Nat} {unit : InputUnit} (seam : Seam subject offset)
    (present : subject.unitAt offset = some unit) : Seam subject unit.next

variable {subject : Subject} {offset : Nat}

/-- Seams lie inside the input. -/
theorem Seam.le_length (seam : subject.Seam offset) : offset ≤ subject.length := by
  cases seam with
  | start => exact Nat.zero_le _
  | next _ present => exact unitAt_next_le present

/-- An offset that is no seam lies inside a unit that begins at one. -/
theorem seam_or_inside (inside : offset ≤ subject.length) :
    subject.Seam offset ∨ ∃ start unit, subject.Seam start ∧
      subject.unitAt start = some unit ∧ start < offset ∧ offset < unit.next := by
  induction offset with
  | zero => exact .inl .start
  | succ offset ih =>
    -- The unit that begins at `offset` or goes on there reaches past the next offset or up to it.
    obtain ⟨start, unit, seam, present, before, behind⟩ : ∃ start unit, subject.Seam start ∧
        subject.unitAt start = some unit ∧ start ≤ offset ∧ offset < unit.next := by
      rcases ih (Nat.le_of_succ_le inside) with seam | ⟨start, unit, seam, present, within⟩
      · cases present : subject.unitAt offset with
        | none => exact absurd inside (Nat.not_le_of_lt
            (Nat.lt_succ_of_le (unitAt_eq_none_iff.mp present)))
        | some unit => exact ⟨offset, unit, seam, present, Nat.le_refl _,
            (unitAt_bounds present).2.2⟩
      · exact ⟨start, unit, seam, present, Nat.le_of_lt within.1, within.2⟩
    rcases Nat.eq_or_lt_of_le behind with reached | further
    · rw [show offset + 1 = unit.next from reached]
      exact .inl (.next seam present)
    · exact .inr ⟨start, unit, seam, present, Nat.lt_succ_of_le before, further⟩

/-- There is no boundary inside a unit. -/
theorem not_isBoundary_of_inside {start : Nat} {unit : InputUnit}
    (present : subject.unitAt start = some unit) (before : start < offset)
    (behind : offset < unit.next) : subject.isBoundary offset = false := by
  have short : offset < subject.length := Nat.lt_of_lt_of_le behind (unitAt_next_le present)
  unfold unitAt at present
  split at present
  · cases present
  · rename_i octet rest ahead
    split at present <;> cases present
    · rename_i encoding
      have within : offset - start < (Utf8.decode (subject.bytes.drop start)).2 := by
        rw [ahead]
        exact Nat.sub_lt_left_of_lt_add (Nat.le_of_lt before) behind
      obtain ⟨inner, found, continues⟩ := Utf8.decode_inner (Nat.sub_pos_of_lt before) within
      rw [List.getElem?_drop, Nat.add_sub_cancel' (Nat.le_of_lt before)] at found
      rw [← Bool.not_eq_true, isBoundary_iff_isLead encoding short, found]
      rintro ⟨_, ⟨⟩, leads⟩
      rw [Utf8.isLead_eq, continues] at leads
      cases leads
    · exact absurd before (Nat.not_lt_of_le (Nat.le_of_lt_succ behind))

/-- Boundaries lie inside the input. -/
theorem le_length_of_isBoundary (boundary : subject.isBoundary offset = true) :
    offset ≤ subject.length := by
  unfold isBoundary at boundary
  split at boundary
  · rcases Bool.or_eq_true_iff.mp boundary with ended | leads
    · exact Nat.le_of_eq (beq_iff_eq.mp ended)
    · by_contra past
      rw [List.getElem?_eq_none (Nat.le_of_not_le past)] at leads
      cases leads
  · exact of_decide_eq_true boundary

/-- Every boundary is a seam. -/
theorem seam_of_isBoundary (boundary : subject.isBoundary offset = true) :
    subject.Seam offset := by
  rcases seam_or_inside (le_length_of_isBoundary boundary) with
    seam | ⟨start, unit, _, present, before, behind⟩
  · exact seam
  · rw [not_isBoundary_of_inside present before behind] at boundary
    cases boundary

/-- The end of the input is a seam. -/
theorem seam_length : subject.Seam subject.length := by
  rcases seam_or_inside (Nat.le_refl subject.length) with
    seam | ⟨start, unit, _, present, _, behind⟩
  · exact seam
  · exact absurd behind (Nat.not_lt_of_le (unitAt_next_le present))

/-- The units from a seam on are the last of all units. -/
theorem Seam.unitsFrom_suffix (seam : subject.Seam offset) :
    subject.unitsFrom offset <:+ subject.unitsFrom 0 := by
  induction seam with
  | start => exact List.suffix_refl _
  | next _ present ih =>
    rw [unitsFrom_cons present] at ih
    exact (List.suffix_cons _ _).trans ih

/-- The units from a seam on begin at seams. -/
theorem Seam.of_mem_unitsFrom (seam : subject.Seam offset) {unit : InputUnit}
    (member : unit ∈ subject.unitsFrom offset) :
    subject.Seam unit.offset ∧ subject.unitAt unit.offset = some unit := by
  induction offset using unitsFrom.induct subject with
  | case1 offset absent =>
    rw [unitsFrom_nil absent] at member
    cases member
  | case2 offset first present ih =>
    rw [unitsFrom_cons present] at member
    rcases List.mem_cons.mp member with rfl | later
    · rw [(unitAt_bounds present).1]
      exact ⟨seam, present⟩
    · exact ih (.next seam present) later

/-- The seams are where units begin, and the end. -/
theorem seam_iff : subject.Seam offset ↔
    offset = subject.length ∨ ∃ unit ∈ subject.unitsFrom 0, unit.offset = offset := by
  constructor
  · intro seam
    cases present : subject.unitAt offset with
    | none => exact .inl (Nat.le_antisymm seam.le_length (unitAt_eq_none_iff.mp present))
    | some unit =>
      have first : unit ∈ subject.unitsFrom offset := by
        rw [unitsFrom_cons present]
        exact List.mem_cons_self
      exact .inr ⟨unit, seam.unitsFrom_suffix.subset first, (unitAt_bounds present).1⟩
  · rintro (rfl | ⟨unit, member, rfl⟩)
    · exact seam_length
    · exact (Seam.start.of_mem_unitsFrom member).1

end TextPattern.Subject
