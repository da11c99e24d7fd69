import TextPattern.Proofs.ReadingBounds
import TextPattern.Proofs.Runes

/-!
# Counted octets

A count of runes below 128 takes a stretch of octets: as many as are accepted, each by what is
behind it, up to the limit. `Reading.count_of_stretch` says so whatever the text is, malformed text
included, and `exists_stretch` that there always is such a stretch.
-/

namespace TextPattern

/-- Which octets are counted, by what is behind them. -/
abbrev OctetTest : Type := UInt8 → Bytes → Prop

/-- The octets that are counted from what is ahead, when some were counted before: each is accepted,
and behind them stands none that is, unless the limit is reached. -/
def Stretch (bounds : Bounds) (accepts : OctetTest) : Nat → Bytes → Bytes → Prop
  | count, [], later =>
    bounds.reached count = true ∨ ∀ octet rest, later = octet :: rest → ¬ accepts octet rest
  | count, octet :: text, later =>
    bounds.reached count = false ∧ accepts octet (text ++ later) ∧
      Stretch bounds accepts (count + 1) text later

/-- There is a stretch at the front of whatever is ahead. -/
theorem exists_stretch (bounds : Bounds) (accepts : OctetTest) (count : Nat) (ahead : Bytes) :
    ∃ text later, ahead = text ++ later ∧ Stretch bounds accepts count text later := by
  induction ahead generalizing count with
  | nil => exact ⟨[], [], rfl, .inr nofun⟩
  | cons octet rest ih =>
    cases full : bounds.reached count with
    | true => exact ⟨[], octet :: rest, rfl, .inl full⟩
    | false =>
      by_cases accepted : accepts octet rest
      · obtain ⟨text, later, rfl, stretch⟩ := ih (count + 1)
        exact ⟨octet :: text, later, rfl, full, accepted, stretch⟩
      · refine ⟨[], octet :: rest, rfl, .inr ?_⟩
        rintro _ _ same
        cases same
        exact accepted

namespace Stretch

variable {bounds : Bounds} {accepts : OctetTest} {count : Nat} {text later : Bytes}

/-- Every octet of a stretch is accepted. -/
theorem accepted (stretch : Stretch bounds accepts count text later) :
    ∀ octet ∈ text, ∃ behind, accepts octet behind := by
  induction text generalizing count with
  | nil => exact nofun
  | cons octet text ih =>
    obtain ⟨_, first, others⟩ := stretch
    exact List.forall_mem_cons.mpr ⟨⟨_, first⟩, ih others⟩

/-- A stretch keeps to the limit. -/
theorem limited (stretch : Stretch bounds accepts count text later) {limit : Nat}
    (greatest : bounds.greatest = some limit) (before : count ≤ limit) :
    count + text.length ≤ limit := by
  induction text generalizing count with
  | nil => exact before
  | cons octet text ih =>
    obtain ⟨unreached, _, others⟩ := stretch
    have room : ¬ limit ≤ count := by simpa [Bounds.reached, greatest] using unreached
    have rest := ih others (by omega)
    rw [List.length_cons]
    omega

/-- Without a limit, no accepted octet stands behind a stretch. -/
theorem refused (stretch : Stretch bounds accepts count text later)
    (unlimited : bounds.greatest = none) {octet : UInt8} {rest : Bytes}
    (next : later = octet :: rest) : ¬ accepts octet rest := by
  induction text generalizing count with
  | nil =>
    rcases stretch with full | ended
    · rw [Bounds.reached, unlimited] at full
      cases full
    · exact ended octet rest next
  | cons first text ih => exact ih stretch.2.2

/-- Accepted octets within the limit are a stretch where none is accepted behind them. -/
theorem of_accepted
    (all : ∀ before octet behind, text = before ++ octet :: behind →
      accepts octet (behind ++ later))
    (fits : ∀ limit, bounds.greatest = some limit → count + text.length ≤ limit)
    (ended : ∀ octet rest, later = octet :: rest → ¬ accepts octet rest) :
    Stretch bounds accepts count text later := by
  induction text generalizing count with
  | nil => exact .inr ended
  | cons first text ih =>
    refine ⟨?_, all [] first text rfl, ih ?_ ?_⟩
    · cases greatest : bounds.greatest with
      | none => simp [Bounds.reached, greatest]
      | some limit =>
        have room := fits limit greatest
        rw [List.length_cons] at room
        simp only [Bounds.reached, greatest, Option.any_some, decide_eq_false_iff_not]
        omega
    · rintro before octet behind rfl
      exact all (first :: before) octet behind rfl
    · intro limit greatest
      have room := fits limit greatest
      rw [List.length_cons] at room
      omega

end Stretch

namespace Reading

variable {bytes : Bytes} {predicate : Predicate} {bounds : Bounds} {condition : Condition}
  {accepts : OctetTest}

/-- A count takes an octet exactly if a test accepts it, and takes no greater rune. -/
structure CountsOctets (bytes : Bytes) (predicate : Predicate) (condition : Condition)
    (accepts : OctetTest) : Prop where
  /-- The predicate accepts no greater rune. -/
  small : ∀ rune, predicate.accepts .utf8 rune = true → rune < 0x80
  /-- The predicate and the condition together say what the test says. -/
  same : ∀ start offset octet later, bytes.drop offset = octet :: later →
    (accepts octet later ↔ predicate.accepts .utf8 octet.toNat = true ∧
      condition ((Subject.mk .utf8 bytes).viewFrom start) ⟨octet.toNat, offset, 1⟩ = true)

/-- A tally ends where no octet is accepted. -/
theorem tally_of_refused (counts : CountsOctets bytes predicate condition accepts)
    (start rounds count offset : Nat) (unreached : ¬ bounds.reached count = true)
    (refused : ∀ octet rest, bytes.drop offset = octet :: rest → ¬ accepts octet rest) :
    ∃ atEnd, tally ⟨.utf8, bytes⟩ predicate bounds
        (conditionTest condition ⟨.utf8, bytes⟩ start) (rounds + 1) count offset =
      .matched ⟨count, offset, atEnd⟩ := by
  unfold tally
  rw [if_neg unreached]
  dsimp only
  split
  · exact ⟨true, rfl⟩
  · rename_i unit present
    split
    · rename_i accepted
      obtain ⟨octet, rest, same, _, rfl⟩ := Subject.exists_octet present (counts.small _ accepted)
      have condition : condition _ _ = false := Bool.eq_false_iff.mpr fun met =>
        refused octet rest same ((counts.same start offset octet rest same).mpr ⟨accepted, met⟩)
      rw [conditionTest, condition]
      exact ⟨false, rfl⟩
    · exact ⟨false, rfl⟩

/-- A tally goes on behind an accepted octet. -/
theorem tally_of_accepted (counts : CountsOctets bytes predicate condition accepts)
    (start rounds : Nat) {count offset : Nat} {octet : UInt8} {later : Bytes}
    (unreached : ¬ bounds.reached count = true) (ahead : bytes.drop offset = octet :: later)
    (accepted : accepts octet later) :
    tally ⟨.utf8, bytes⟩ predicate bounds (conditionTest condition ⟨.utf8, bytes⟩ start)
        (rounds + 1) count offset =
      tally ⟨.utf8, bytes⟩ predicate bounds (conditionTest condition ⟨.utf8, bytes⟩ start) rounds
        (count + 1) (offset + 1) := by
  obtain ⟨known, met⟩ := (counts.same start offset octet later ahead).mp accepted
  have present := Subject.unitAt_ascii ahead (counts.small _ known)
  rw [tally, if_neg unreached]
  dsimp only
  rw [present]
  dsimp only
  rw [if_pos known, conditionTest, met]
  rfl

/-- The stretch that is ahead is tallied. -/
theorem tally_of_stretch (counts : CountsOctets bytes predicate condition accepts)
    (start : Nat) {rounds count offset : Nat} {text later : Bytes}
    (stretch : Stretch bounds accepts count text later)
    (ahead : bytes.drop offset = text ++ later) (enough : text.length < rounds) :
    ∃ atEnd, tally ⟨.utf8, bytes⟩ predicate bounds
        (conditionTest condition ⟨.utf8, bytes⟩ start) rounds count offset =
      .matched ⟨count + text.length, offset + text.length, atEnd⟩ := by
  obtain ⟨rounds, rfl⟩ := Nat.exists_eq_add_of_lt (Nat.zero_lt_of_lt enough)
  rw [Nat.zero_add] at enough ⊢
  induction text generalizing rounds count offset with
  | nil =>
    by_cases reached : bounds.reached count = true
    · refine ⟨false, ?_⟩
      rw [tally, if_pos reached]
      rfl
    · have ended := stretch.resolve_left reached
      exact tally_of_refused counts start rounds count offset reached fun octet rest same =>
        ended octet rest (ahead.symm.trans same)
  | cons octet text ih =>
    obtain ⟨unreached, accepted, others⟩ := stretch
    have beyond : bytes.drop (offset + 1) = text ++ later := by
      rw [← List.drop_drop, ahead]
      rfl
    rw [List.length_cons] at enough ⊢
    cases rounds with
    | zero => omega
    | succ rounds =>
      obtain ⟨atEnd, tallied⟩ := ih others beyond rounds (by omega)
      refine ⟨atEnd, ?_⟩
      rw [tally_of_accepted counts start _ (Bool.eq_false_iff.mp unreached) ahead accepted,
        Nat.add_comm text.length, ← Nat.add_assoc, ← Nat.add_assoc]
      exact tallied

/-- A count takes the stretch that is ahead, or fails if that is too short. -/
theorem count_of_stretch (counts : CountsOctets bytes predicate condition accepts)
    {offset : Nat} {text later : Bytes} (capacity : Option Nat)
    (stretch : Stretch bounds accepts 0 text later) (ahead : bytes.drop offset = text ++ later) :
    let effect := count predicate bounds (conditionTest condition) ⟨.utf8, bytes⟩ capacity offset
    if text.length < bounds.least then
      ∃ stop, effect = .still (.failed (.outOfBounds stop)) offset ∨
        effect = .still (.failed (.mismatch stop predicate.expected)) offset
    else effect = ⟨.matched ⟨offset, text.length⟩, offset + text.length, []⟩ := by
  have lengths := congrArg List.length ahead
  rw [List.length_drop, List.length_append] at lengths
  have enough : text.length < (Subject.mk .utf8 bytes).length - offset + 1 := by
    show text.length < bytes.length - offset + 1
    omega
  obtain ⟨atEnd, tallied⟩ := tally_of_stretch counts offset stretch ahead enough
  intro effect
  have read : effect =
      if text.length < bounds.least then
        if atEnd then .still (.failed (.outOfBounds (offset + text.length))) offset
        else .still (.failed (.mismatch (offset + text.length) predicate.expected)) offset
      else .still (.matched (.between offset (offset + text.length))) (offset + text.length) := by
    rw [Nat.zero_add] at tallied
    show count _ _ _ _ _ _ = _
    unfold count
    dsimp only
    rw [tallied]
    rfl
  rw [read]
  split
  · refine ⟨offset + text.length, ?_⟩
    cases atEnd
    · exact .inr rfl
    · exact .inl rfl
  · rw [Span.between, Nat.add_sub_cancel_left]
    rfl

end Reading

end TextPattern
