import Mathlib.Data.List.Basic
import TextPattern.Proofs.CaptureFrame
import TextPattern.Proofs.Email.Grammar
import TextPattern.Proofs.Predicates
import TextPattern.Proofs.Stretches

/-!
# The recogniser of addresses

The recogniser never goes back. It still finds the last dot: the domain takes a dot only while
another one is behind it, so no dot is left for the top-level domain.
-/

namespace TextPattern.Email

open Grammar

/-! ## What the parts count -/

/-- What the local part counts. -/
def localTest : OctetTest := fun octet _ => LocalOctet octet

/-- What the domain counts. -/
def domainTest : OctetTest := fun octet behind =>
  DomainOctet octet ∧ (octet = 0x2E → 0x2E ∈ behind)

/-- What the top-level domain counts. -/
def topLevelTest : OctetTest := fun octet _ => Letter octet ∨ octet = 0x2E

/-- An octet occurs in a text where it stands. -/
theorem occursIn_singleton (octet : UInt8) (text : Bytes) :
    Bytes.occursIn [octet] text = true ↔ octet ∈ text := by
  induction text with
  | nil => simp [Bytes.occursIn]
  | cons first rest ih =>
    rw [Bytes.occursIn, Bool.or_eq_true, ih, List.mem_cons]
    refine or_congr ?_ Iff.rfl
    show (octet == first && true) = true ↔ octet = first
    rw [Bool.and_true, beq_iff_eq]

section
variable (rune : Nat)

/-- The runes of a local part are small letters, digits and four signs. -/
theorem accepts_localPart :
    (Predicate.either (.either .asciiLowercase .asciiDigit)
        (.ofText (Bytes.ofString "_.+-"))).accepts .utf8 rune = true ↔
      (0x61 ≤ rune ∧ rune ≤ 0x7A) ∨ (0x30 ≤ rune ∧ rune ≤ 0x39) ∨
        rune ∈ [0x5F, 0x2E, 0x2B, 0x2D] := by
  have octets : Bytes.ofString "_.+-" = [0x5F, 0x2E, 0x2B, 0x2D] := by with_unfolding_all rfl
  have signs : _ ↔ rune ∈ [0x5F, 0x2E, 0x2B, 0x2D] :=
    Predicate.accepts_ofText_of_ascii octets (by simp) .utf8 rune
  show ((Predicate.accepts _ _ rune || Predicate.accepts _ _ rune) ||
    Predicate.accepts _ _ rune) = true ↔ _
  rw [Bool.or_eq_true, Bool.or_eq_true, Predicate.accepts_asciiLowercase,
    Predicate.accepts_asciiDigit, signs, or_assoc]

/-- The runes of a domain are small letters, digits, dots and hyphens. -/
theorem accepts_domain :
    (Predicate.either (.either .asciiDigit .asciiLowercase)
        (.ofText (Bytes.ofString ".-"))).accepts .utf8 rune = true ↔
      (0x61 ≤ rune ∧ rune ≤ 0x7A) ∨ (0x30 ≤ rune ∧ rune ≤ 0x39) ∨ rune ∈ [0x2E, 0x2D] := by
  have octets : Bytes.ofString ".-" = [0x2E, 0x2D] := by with_unfolding_all rfl
  have signs : _ ↔ rune ∈ [0x2E, 0x2D] :=
    Predicate.accepts_ofText_of_ascii octets (by simp) .utf8 rune
  show ((Predicate.accepts _ _ rune || Predicate.accepts _ _ rune) ||
    Predicate.accepts _ _ rune) = true ↔ _
  rw [Bool.or_eq_true, Bool.or_eq_true, Predicate.accepts_asciiLowercase,
    Predicate.accepts_asciiDigit, signs]
  tauto

/-- The runes of a top-level domain are small letters and dots. -/
theorem accepts_topLevel :
    (Predicate.either .asciiLowercase (.equal 0x2E)).accepts .utf8 rune = true ↔
      (0x61 ≤ rune ∧ rune ≤ 0x7A) ∨ rune = 0x2E := by
  show (Predicate.accepts _ _ rune || rune == 0x2E) = true ↔ _
  rw [Bool.or_eq_true, Predicate.accepts_asciiLowercase, beq_iff_eq]

end

/-! ## Octets and runes -/

/-- Octets are told apart by their numbers. -/
theorem mem_map_toNat (octet : UInt8) (octets : Bytes) :
    octet.toNat ∈ octets.map UInt8.toNat ↔ octet ∈ octets :=
  List.mem_map_of_injective fun _ _ => UInt8.toNat_inj.mp

/-- The local part counts its octets. -/
theorem counts_localPart (line : Bytes) :
    Reading.CountsOctets line
      (.either (.either .asciiLowercase .asciiDigit) (.ofText (Bytes.ofString "_.+-")))
      (fun _ _ => true) localTest where
  small rune accepted := by
    rw [accepts_localPart] at accepted
    simp only [List.mem_cons, List.not_mem_nil, or_false] at accepted
    omega
  same _ _ octet _ _ := by
    rw [accepts_localPart]
    have listed := mem_map_toNat octet [0x5F, 0x2E, 0x2B, 0x2D]
    exact (or_congr Iff.rfl (or_congr Iff.rfl listed.symm)).trans (and_iff_left rfl).symm

/-- The domain counts its octets, and a dot while another one is behind it. -/
theorem counts_domain (line : Bytes) :
    Reading.CountsOctets line
      (.either (.either .asciiDigit .asciiLowercase) (.ofText (Bytes.ofString ".-")))
      (Condition.whileMore 0x2E (Bytes.ofString ".")) domainTest where
  small rune accepted := by
    rw [accepts_domain] at accepted
    simp only [List.mem_cons, List.not_mem_nil, or_false] at accepted
    omega
  same start offset octet later ahead := by
    have behind : line.drop (offset + 1) = later := by
      rw [← List.drop_drop, ahead]
      rfl
    have dot : Bytes.ofString "." = [0x2E] := by with_unfolding_all rfl
    have listed := mem_map_toNat octet [0x2E, 0x2D]
    have isDot : octet.toNat = 0x2E ↔ octet = 0x2E := @UInt8.toNat_inj octet 0x2E
    rw [accepts_domain]
    refine and_congr (or_congr Iff.rfl (or_congr Iff.rfl listed.symm)) ?_
    show _ ↔ (octet.toNat != 0x2E || Bytes.occursIn _ (line.drop (offset + 1))) = true
    rw [dot, behind, Bool.or_eq_true, occursIn_singleton, bne_iff_ne, Ne, isDot]
    tauto

/-- The top-level domain counts letters and dots. -/
theorem counts_topLevel (line : Bytes) :
    Reading.CountsOctets line (.either .asciiLowercase (.equal 0x2E)) (fun _ _ => true)
      topLevelTest where
  small rune accepted := by
    rw [accepts_topLevel] at accepted
    omega
  same _ _ octet _ _ := by
    have isDot : octet.toNat = 0x2E ↔ octet = 0x2E := @UInt8.toNat_inj octet 0x2E
    rw [accepts_topLevel]
    exact (or_congr Iff.rfl isDot.symm).trans (and_iff_left rfl).symm

/-! ## Messages -/

/-- A number is printed on one line. -/
theorem lineFeed_notMem_decimal (number : Nat) : Lines.lineFeed ∉ Bytes.decimal number := by
  intro member
  obtain ⟨digit, among, same⟩ := List.mem_map.mp member
  have isDigit := Nat.isDigit_of_mem_toDigits (by decide) (by decide) among
  have range : 48 ≤ digit.val.toNat ∧ digit.val.toNat ≤ 57 := by
    simpa [Char.isDigit, UInt32.le_iff_toNat_le] using isDigit
  have value : digit.val.toNat % 256 = 10 := congrArg UInt8.toNat same
  omega

/-- The name of a kind of failure is part of a line. -/
theorem lineFeed_notMem_name (kind : Failure.Kind) : Lines.lineFeed ∉ kind.name := by
  cases kind <;> decide +kernel

/-- What is said of failures and of addresses is part of a line. -/
theorem lineFeed_notMem_wording : ∀ wording ∈ [" at offset ", ": expected ", "literal unit",
    "end of input", "unit matching any predicate", "invalid: ", "valid: local=", " domain=",
    " tld="], Lines.lineFeed ∉ Bytes.ofString wording := by decide +kernel

/-- The message of an input that ends too early is one line. -/
theorem lineFeed_notMem_outOfBounds (position : Nat) :
    Lines.lineFeed ∉ (Failure.outOfBounds position).message := by
  have name := lineFeed_notMem_name .outOfBounds
  have text := lineFeed_notMem_wording " at offset " (by simp)
  have number := lineFeed_notMem_decimal position
  show Lines.lineFeed ∉ Failure.Kind.outOfBounds.name ++ (_ ++ _)
  simp only [List.mem_append, not_or]
  exact ⟨name, text, number⟩

/-- The message of a mismatch is one line, if what was expected is. -/
theorem lineFeed_notMem_mismatch {expected : Bytes} (line : Lines.lineFeed ∉ expected)
    (position : Nat) : Lines.lineFeed ∉ (Failure.mismatch position expected).message := by
  have name := lineFeed_notMem_name .mismatch
  have text := lineFeed_notMem_wording " at offset " (by simp)
  have colon := lineFeed_notMem_wording ": expected " (by simp)
  have number := lineFeed_notMem_decimal position
  show Lines.lineFeed ∉ Failure.Kind.mismatch.name ++ (_ ++ _ ++ _ ++ _)
  simp only [List.mem_append, not_or]
  exact ⟨name, ⟨⟨text, number⟩, colon⟩, line⟩

/-! ## Taking and refusing -/

/-- From an offset of a line, a reading takes a text and makes captures. -/
def Takes (line : Bytes) (reading : Reading Span) (offset : Nat) (text : Bytes)
    (captures : List Capture) : Prop :=
  reading ⟨.utf8, line⟩ (some 3) offset =
    ⟨.matched ⟨offset, text.length⟩, offset + text.length, captures⟩

/-- From an offset of a line, a reading fails, with a message of one line. -/
def Refuses (line : Bytes) (reading : Reading Span) (offset : Nat) : Prop :=
  ∃ failure, (reading ⟨.utf8, line⟩ (some 3) offset).ending = .failed failure ∧
    Lines.lineFeed ∉ failure.message

section
variable {line : Bytes} {first second inner : Reading Span} {offset : Nat}
  {text more : Bytes} {captures others : List Capture}

/-- Texts are taken one after the other. -/
theorem Takes.sequence (one : Takes line first offset text captures)
    (other : Takes line second (offset + text.length) more others) :
    Takes line (.sequence first second) offset (text ++ more) (captures ++ others) := by
  unfold Takes at *
  show (Effect.andThen (first _ _ offset) fun _ stop => second _ _ stop).map
    (fun _ => Span.between offset (Effect.andThen (first _ _ offset) _).stop) = _
  rw [one]
  simp only [Effect.andThen, other, Effect.after, Effect.map, Ending.map, Span.between,
    List.length_append, Nat.add_assoc, Nat.add_sub_cancel_left]

/-- A sequence refuses where its first part does. -/
theorem Refuses.sequence (refuses : Refuses line first offset) :
    Refuses line (.sequence first second) offset := by
  obtain ⟨failure, ended, clean⟩ := refuses
  refine ⟨failure, ?_, clean⟩
  show (Effect.map _ (Effect.andThen (first _ _ offset) fun _ stop => second _ _ stop)).ending = _
  simp only [Effect.andThen, ended, Effect.map, Ending.map]

/-- A sequence refuses where its second part does. -/
theorem Takes.sequence_refuses (one : Takes line first offset text captures)
    (refuses : Refuses line second (offset + text.length)) :
    Refuses line (.sequence first second) offset := by
  obtain ⟨failure, ended, clean⟩ := refuses
  unfold Takes at one
  refine ⟨failure, ?_, clean⟩
  show (Effect.map _ (Effect.andThen (first _ _ offset) fun _ stop => second _ _ stop)).ending = _
  simp only [one, Effect.andThen, ended, Effect.map, Ending.map, Effect.after]

/-- What is taken is captured. -/
theorem Takes.captured {slot : Nat} (present : slot < 3)
    (takes : Takes line inner offset text captures) :
    Takes line (.captured slot inner) offset text
      (captures ++ [(slot, ⟨offset, text.length⟩)]) := by
  unfold Takes at *
  have among : Reading.hasSlot (some 3) slot = true := decide_eq_true present
  unfold Reading.captured
  rw [if_pos among, takes]
  rfl

/-- A capture refuses where its matcher does, if it has a slot. -/
theorem Refuses.captured {slot : Nat} (present : slot < 3) (refuses : Refuses line inner offset) :
    Refuses line (.captured slot inner) offset := by
  obtain ⟨failure, ended, clean⟩ := refuses
  have among : Reading.hasSlot (some 3) slot = true := decide_eq_true present
  refine ⟨failure, ?_, clean⟩
  unfold Reading.captured
  rw [if_pos among, Effect.andThen, ended]

/-- A count takes the stretch that is ahead if it is long enough. -/
theorem takes_count {predicate : Predicate} {bounds : Bounds} {condition : Condition}
    {accepts : OctetTest} (counts : Reading.CountsOctets line predicate condition accepts)
    {later : Bytes} (ahead : line.drop offset = text ++ later)
    (stretch : Stretch bounds accepts 0 text later) (enough : bounds.least ≤ text.length) :
    Takes line (.count predicate bounds (Reading.conditionTest condition)) offset text [] := by
  have read := Reading.count_of_stretch counts (some 3) stretch ahead
  dsimp only at read
  rw [if_neg (Nat.not_lt_of_le enough)] at read
  exact read

/-- A count refuses a stretch that is too short. -/
theorem refuses_count {predicate : Predicate} {bounds : Bounds} {condition : Condition}
    {accepts : OctetTest} (counts : Reading.CountsOctets line predicate condition accepts)
    (clean : Lines.lineFeed ∉ predicate.expected) {later : Bytes}
    (ahead : line.drop offset = text ++ later) (stretch : Stretch bounds accepts 0 text later)
    (short : text.length < bounds.least) :
    Refuses line (.count predicate bounds (Reading.conditionTest condition)) offset := by
  have read := Reading.count_of_stretch counts (some 3) stretch ahead
  dsimp only at read
  rw [if_pos short] at read
  obtain ⟨stop, same | same⟩ := read
  · exact ⟨_, congrArg Effect.ending same, lineFeed_notMem_outOfBounds stop⟩
  · exact ⟨_, congrArg Effect.ending same, lineFeed_notMem_mismatch clean stop⟩

/-- A given octet below 128 is taken. -/
theorem takes_octet {octet : UInt8} (ascii : octet < 0x80) {later : Bytes}
    (ahead : line.drop offset = octet :: later) :
    Takes line (.one (.equal octet.toNat)) offset [octet] [] := by
  unfold Takes Reading.one
  rw [Subject.unitAt_ascii ahead ascii]
  exact if_pos (beq_self_eq_true octet.toNat)

/-- Anything else is refused. -/
theorem refuses_octet {octet : UInt8} (ascii : octet < 0x80)
    (absent : ∀ later, line.drop offset ≠ octet :: later) :
    Refuses line (.one (.equal octet.toNat)) offset := by
  unfold Refuses Reading.one
  cases present : (Subject.mk .utf8 line).unitAt offset with
  | none => exact ⟨_, rfl, lineFeed_notMem_outOfBounds offset⟩
  | some unit =>
    have clean : Lines.lineFeed ∉ (Predicate.equal octet.toNat).expected :=
      lineFeed_notMem_wording "literal unit" (by simp)
    have other : ¬ (Predicate.equal octet.toNat).accepts .utf8 unit.value = true := by
      intro accepted
      have same : unit.value = octet.toNat := beq_iff_eq.mp accepted
      obtain ⟨found, later, ahead, _, rfl⟩ := Subject.exists_octet present (same ▸ ascii)
      exact absent later (UInt8.toNat_inj.mp same ▸ ahead)
    dsimp only
    rw [if_neg other]
    exact ⟨_, rfl, lineFeed_notMem_mismatch clean _⟩

/-- Nothing is taken at the end, where nothing is ahead. -/
theorem takes_atEnd (ended : line.drop offset = []) : Takes line .atEnd offset [] [] :=
  if_pos (List.drop_eq_nil_iff.mp ended)

/-- The end is refused where more is ahead, in one line. -/
theorem refuses_atEnd (more : line.drop offset ≠ []) : Refuses line .atEnd offset := by
  have clean := lineFeed_notMem_wording "end of input" (by simp)
  have inside : ¬ line.length ≤ offset := fun past => more (List.drop_eq_nil_iff.mpr past)
  exact ⟨_, congrArg Effect.ending (if_neg inside), lineFeed_notMem_mismatch clean offset⟩

/-- An octet below 128 is taken or refused. -/
theorem octet_taken_or_refused {octet : UInt8} (ascii : octet < 0x80) :
    Refuses line (.one (.equal octet.toNat)) offset ∨
      ∃ later, line.drop offset = octet :: later ∧
        Takes line (.one (.equal octet.toNat)) offset [octet] [] := by
  by_cases present : ∃ later, line.drop offset = octet :: later
  · obtain ⟨later, ahead⟩ := present
    exact .inr ⟨later, ahead, takes_octet ascii ahead⟩
  · exact .inl (refuses_octet ascii fun later ahead => present ⟨later, ahead⟩)

end

/-! ## The parts -/

section
variable {line : Bytes} {offset : Nat} {text later : Bytes} (call : Nat → Reading Span)

/-- The local part is taken up to the at sign. -/
theorem takes_localPart (filled : text ≠ []) (octets : ∀ octet ∈ text, LocalOctet octet)
    (ahead : line.drop offset = text ++ 0x40 :: later) :
    Takes line (localPart.readings call).span offset text [] := by
  have atSign : ¬ LocalOctet 0x40 := by decide
  refine takes_count (counts_localPart line) ahead (.of_accepted ?_ nofun ?_)
    (List.length_pos_iff.mpr filled)
  · rintro before octet behind rfl
    exact octets octet (by simp)
  · intro octet rest next
    cases next
    exact atSign

/-- The local part takes octets of its kind, or refuses. -/
theorem localPart_taken_or_refused :
    Refuses line (localPart.readings call).span offset ∨
      ∃ text later, line.drop offset = text ++ later ∧ text ≠ [] ∧
        (∀ octet ∈ text, LocalOctet octet) ∧
        Takes line (localPart.readings call).span offset text [] := by
  have clean := lineFeed_notMem_wording "unit matching any predicate" (by simp)
  obtain ⟨text, later, ahead, stretch⟩ :=
    exists_stretch (.atLeast 1) localTest 0 (line.drop offset)
  by_cases short : text.length < 1
  · exact .inl (refuses_count (counts_localPart line) clean ahead stretch short)
  · have filled : text ≠ [] := List.length_pos_iff.mp (Nat.le_of_not_lt short)
    refine .inr ⟨text, later, ahead, filled, fun octet member => ?_,
      takes_count (counts_localPart line) ahead stretch (Nat.le_of_not_lt short)⟩
    obtain ⟨_, known⟩ := stretch.accepted octet member
    exact known

/-- The domain is taken up to the last dot. -/
theorem takes_domain (filled : text ≠ []) (octets : ∀ octet ∈ text, DomainOctet octet)
    (ahead : line.drop offset = text ++ 0x2E :: later) (last : 0x2E ∉ later) :
    Takes line (domain.readings call).span offset text [] := by
  refine takes_count (counts_domain line) ahead (.of_accepted ?_ nofun ?_)
    (List.length_pos_iff.mpr filled)
  · rintro before octet behind rfl
    exact ⟨octets octet (by simp), fun _ => by simp⟩
  · rintro octet rest next ⟨_, dotted⟩
    cases next
    exact last (dotted rfl)

/-- The domain takes octets of its kind, or refuses. If a dot is next, that is the last one. -/
theorem domain_taken_or_refused :
    Refuses line (domain.readings call).span offset ∨
      ∃ text later, line.drop offset = text ++ later ∧ text ≠ [] ∧
        (∀ octet ∈ text, DomainOctet octet) ∧ (∀ rest, later = 0x2E :: rest → 0x2E ∉ rest) ∧
        Takes line (domain.readings call).span offset text [] := by
  have clean := lineFeed_notMem_wording "unit matching any predicate" (by simp)
  have dot : DomainOctet 0x2E := by decide
  obtain ⟨text, later, ahead, stretch⟩ :=
    exists_stretch (.atLeast 1) domainTest 0 (line.drop offset)
  by_cases short : text.length < 1
  · exact .inl (refuses_count (counts_domain line) clean ahead stretch short)
  · have filled : text ≠ [] := List.length_pos_iff.mp (Nat.le_of_not_lt short)
    refine .inr ⟨text, later, ahead, filled, fun octet member => ?_, fun rest next among => ?_,
      takes_count (counts_domain line) ahead stretch (Nat.le_of_not_lt short)⟩
    · obtain ⟨_, known, _⟩ := stretch.accepted octet member
      exact known
    · exact stretch.refused rfl next ⟨dot, fun _ => among⟩

/-- The top-level domain is taken up to the end. -/
theorem takes_topLevel (atLeastTwo : 2 ≤ text.length) (atMostSix : text.length ≤ 6)
    (letters : ∀ octet ∈ text, Letter octet) (ahead : line.drop offset = text) :
    Takes line (topLevel.readings call).span offset text [] := by
  refine takes_count (counts_topLevel line) (ahead.trans (List.append_nil text).symm)
    (.of_accepted ?_ ?_ nofun) atLeastTwo
  · rintro before octet behind rfl
    exact .inl (letters octet (by simp))
  · intro limit greatest
    cases greatest
    omega

/-- Where no dot is ahead, the top-level domain takes two to six letters, or refuses. -/
theorem topLevel_taken_or_refused (undotted : 0x2E ∉ line.drop offset) :
    Refuses line (topLevel.readings call).span offset ∨
      ∃ text later, line.drop offset = text ++ later ∧ 2 ≤ text.length ∧ text.length ≤ 6 ∧
        (∀ octet ∈ text, Letter octet) ∧
        Takes line (topLevel.readings call).span offset text [] := by
  have clean := lineFeed_notMem_wording "unit matching any predicate" (by simp)
  obtain ⟨text, later, ahead, stretch⟩ :=
    exists_stretch ⟨2, some 6, rfl⟩ topLevelTest 0 (line.drop offset)
  by_cases short : text.length < 2
  · exact .inl (refuses_count (counts_topLevel line) clean ahead stretch short)
  · have limited := stretch.limited rfl (Nat.zero_le 6)
    rw [Nat.zero_add] at limited
    refine .inr ⟨text, later, ahead, Nat.le_of_not_lt short, limited, fun octet member => ?_,
      takes_count (counts_topLevel line) ahead stretch (Nat.le_of_not_lt short)⟩
    obtain ⟨_, letter | dot⟩ := stretch.accepted octet member
    · exact letter
    · refine absurd ?_ undotted
      rw [ahead, ← dot]
      exact List.mem_append_left later member

/-- The parts of an address one after the other. -/
theorem reading_address :
    (address.readings call).span =
      .sequence .atStart (.sequence (.captured 0 (localPart.readings call).span)
        (.sequence (.one (.equal 0x40)) (.sequence (.captured 1 (domain.readings call).span)
          (.sequence (.one (.equal 0x2E))
            (.sequence (.captured 2 (topLevel.readings call).span) .atEnd))))) := by
  simp only [address, Matcher.sequenceOf, Matcher.ofValue, Matcher.readings, Readings.ofSpan]

end

/-! ## The whole -/

/-- The spans of the parts of an address, each captured for its slot. -/
def capturesOf (parts : Parts) : List Capture :=
  [(0, ⟨0, parts.localPart.length⟩), (1, ⟨parts.localPart.length + 1, parts.domain.length⟩),
    (2, ⟨parts.localPart.length + parts.domain.length + 2, parts.topLevel.length⟩)]

section
variable {line : Bytes} (call : Nat → Reading Span)

/-- What is behind a text that is ahead. -/
theorem drop_behind {offset : Nat} (text : Bytes) {later : Bytes}
    (ahead : line.drop offset = text ++ later) : line.drop (offset + text.length) = later := by
  rw [← List.drop_drop, ahead, List.drop_left]

/-- A line that is an address is taken whole, and its parts are captured. -/
theorem takes_address {parts : Parts} (spells : Spells parts line) :
    Takes line (address.readings call).span 0 line (capturesOf parts) := by
  obtain ⟨formed, same⟩ := spells
  obtain ⟨first, second, third⟩ := parts
  have undotted : 0x2E ∉ third := by
    intro member
    exact absurd (formed.letters _ member) (by decide)
  have ahead : line.drop 0 = first ++ 0x40 :: (second ++ 0x2E :: third) := same
  have start : Takes line .atStart 0 [] [] := rfl
  have one := takes_localPart call formed.localPart formed.localOctets ahead
  have atSign := drop_behind first ahead
  have other := drop_behind [0x40] atSign
  have two := takes_domain call formed.domain formed.domainOctets other undotted
  have dot := drop_behind second other
  have final := drop_behind [0x2E] dot
  have three := takes_topLevel call formed.atLeastTwo formed.atMostSix formed.letters final
  have ended := drop_behind third (final.trans (List.append_nil third).symm)
  have whole := start.sequence <| (one.captured (by decide : 0 < 3)).sequence <|
    (takes_octet (by decide) atSign).sequence <| (two.captured (by decide : 1 < 3)).sequence <|
    (takes_octet (by decide) dot).sequence <| (three.captured (by decide : 2 < 3)).sequence <|
    takes_atEnd ended
  simp only [List.nil_append, List.append_nil, List.length_cons, List.length_nil] at whole
  have all : first ++ ([0x40] ++ (second ++ ([0x2E] ++ third))) = line := same.symm
  have last : 0 + first.length + (0 + 1) + second.length + (0 + 1) =
      first.length + second.length + 2 := by omega
  have middle : 0 + first.length + (0 + 1) = first.length + 1 := by omega
  rw [all, last, middle] at whole
  rw [reading_address]
  exact whole

/-- A line that is no address is refused. -/
theorem refuses_address (other : ¬ IsAddress line) :
    Refuses line (address.readings call).span 0 := by
  have start : Takes line .atStart 0 [] [] := rfl
  rw [reading_address]
  refine start.sequence_refuses ?_
  obtain refused | ⟨first, _, ahead, filled, octets, one⟩ :=
    @localPart_taken_or_refused line 0 call
  · exact (refused.captured (by decide)).sequence
  refine (one.captured (by decide)).sequence_refuses ?_
  obtain refused | ⟨opened, atSign, two⟩ :=
    @octet_taken_or_refused line (0 + first.length) 0x40 (by decide)
  · exact refused.sequence
  refine two.sequence_refuses ?_
  have behindSign : line.drop (0 + first.length + 1) = opened := drop_behind [0x40] atSign
  obtain refused | ⟨second, _, beyond, filledToo, octetsToo, last, three⟩ :=
    @domain_taken_or_refused line (0 + first.length + 1) call
  · exact (refused.captured (by decide)).sequence
  refine (three.captured (by decide)).sequence_refuses ?_
  obtain refused | ⟨final, dot, four⟩ :=
    @octet_taken_or_refused line (0 + first.length + 1 + second.length) 0x2E (by decide)
  · exact refused.sequence
  refine four.sequence_refuses ?_
  have behindDot : line.drop (0 + first.length + 1 + second.length + 1) = final :=
    drop_behind [0x2E] dot
  have afterDomain := (drop_behind second beyond).symm.trans dot
  have undotted := last final afterDomain
  obtain refused | ⟨third, rest, further, atLeastTwo, atMostSix, letters, five⟩ :=
    @topLevel_taken_or_refused line (0 + first.length + 1 + second.length + 1) call
      (behindDot ▸ undotted)
  · exact (refused.captured (by decide)).sequence
  refine (five.captured (by decide)).sequence_refuses (refuses_atEnd fun ended => other ?_)
  -- Nothing refused, so the parts that were taken are those of an address.
  have none : rest = [] := (drop_behind third further).symm.trans ended
  have opening : line = first ++ _ := ahead
  have whole : line = first ++ 0x40 :: (second ++ 0x2E :: third) := by
    rw [(drop_behind first ahead).symm.trans atSign, ← behindSign, beyond, afterDomain,
      ← behindDot, further, none, List.append_nil] at opening
    exact opening
  exact ⟨⟨first, second, third⟩,
    ⟨filled, octets, filledToo, octetsToo, atLeastTwo, atMostSix, letters⟩, whole⟩

end

end TextPattern.Email
