import TextPattern.Grammar.Email

/-!
# The grammar of addresses

An address is a local part, an at sign, a domain, a dot and a top-level domain. Only the part behind
the last dot has no dot in it, so there is one way at most to read a line as an address.
-/

namespace TextPattern.Email

namespace Grammar

/-- A small letter. -/
def Letter (octet : UInt8) : Prop := 0x61 ≤ octet ∧ octet ≤ 0x7A

/-- A digit. -/
def Digit (octet : UInt8) : Prop := 0x30 ≤ octet ∧ octet ≤ 0x39

/-- A small letter, a digit, an underscore, a dot, a plus or a minus. -/
def LocalOctet (octet : UInt8) : Prop :=
  Letter octet ∨ Digit octet ∨ octet ∈ [0x5F, 0x2E, 0x2B, 0x2D]

/-- A small letter, a digit, a dot or a minus. -/
def DomainOctet (octet : UInt8) : Prop := Letter octet ∨ Digit octet ∨ octet ∈ [0x2E, 0x2D]

instance : DecidablePred Letter := fun _ => inferInstanceAs (Decidable (_ ∧ _))
instance : DecidablePred Digit := fun _ => inferInstanceAs (Decidable (_ ∧ _))
instance : DecidablePred LocalOctet := fun _ => inferInstanceAs (Decidable (_ ∨ _ ∨ _))
instance : DecidablePred DomainOctet := fun _ => inferInstanceAs (Decidable (_ ∨ _ ∨ _))

/-- Parts of a kind that makes an address. -/
structure WellFormed (parts : Parts) : Prop where
  /-- The local part is not empty. -/
  localPart : parts.localPart ≠ []
  /-- It has octets of its own kind. -/
  localOctets : ∀ octet ∈ parts.localPart, LocalOctet octet
  /-- The domain is not empty. -/
  domain : parts.domain ≠ []
  /-- It has octets of its own kind. -/
  domainOctets : ∀ octet ∈ parts.domain, DomainOctet octet
  /-- The top-level domain has two octets or more. -/
  atLeastTwo : 2 ≤ parts.topLevel.length
  /-- It has six or fewer. -/
  atMostSix : parts.topLevel.length ≤ 6
  /-- They are small letters. -/
  letters : ∀ octet ∈ parts.topLevel, Letter octet

/-- The line that parts make, with an at sign and a dot between them. -/
def written (parts : Parts) : Bytes :=
  parts.localPart ++ 0x40 :: (parts.domain ++ 0x2E :: parts.topLevel)

/-- A line with the parts of the address that it is. -/
def Spells (parts : Parts) (line : Bytes) : Prop := WellFormed parts ∧ line = written parts

/-- A line that is an address. -/
def IsAddress (line : Bytes) : Prop := ∃ parts, Spells parts line

/-- Octets are of one kind if each of them is seen to be. -/
theorem all_of_kind_iff {kind : UInt8 → Prop} [DecidablePred kind] {octets : Bytes} :
    octets.all (kind ·) = true ↔ ∀ octet ∈ octets, kind octet := by
  simp only [List.all_eq_true, decide_eq_true_eq]

instance (parts : Parts) : Decidable (WellFormed parts) :=
  decidable_of_iff
    ((parts.localPart ≠ [] ∧ parts.localPart.all (LocalOctet ·) = true) ∧
      (parts.domain ≠ [] ∧ parts.domain.all (DomainOctet ·) = true) ∧
      2 ≤ parts.topLevel.length ∧ parts.topLevel.length ≤ 6 ∧
        parts.topLevel.all (Letter ·) = true)
    ⟨fun ⟨⟨one, two⟩, ⟨three, four⟩, five, six, seven⟩ =>
        ⟨one, all_of_kind_iff.mp two, three, all_of_kind_iff.mp four, five, six,
          all_of_kind_iff.mp seven⟩,
      fun all =>
        ⟨⟨all.localPart, all_of_kind_iff.mpr all.localOctets⟩,
          ⟨all.domain, all_of_kind_iff.mpr all.domainOctets⟩, all.atLeastTwo, all.atMostSix,
          all_of_kind_iff.mpr all.letters⟩⟩

/-- The parts of a line by the lengths of the first two. -/
def cut (line : Bytes) (first second : Nat) : Parts :=
  ⟨line.take first, (line.drop (first + 1)).take second, line.drop (first + second + 2)⟩

section
variable (parts : Parts)

/-- The domain is behind the local part and the at sign. -/
theorem drop_domain : (written parts).drop (parts.localPart.length + 1) =
    parts.domain ++ 0x2E :: parts.topLevel := by
  unfold written
  rw [← List.drop_drop, List.drop_left]
  rfl

/-- The top-level domain is behind the domain and the dot. -/
theorem drop_topLevel : (written parts).drop (parts.localPart.length + parts.domain.length + 2) =
    parts.topLevel := by
  have place : parts.localPart.length + parts.domain.length + 2 =
      parts.localPart.length + 1 + (parts.domain.length + 1) := by omega
  rw [place, ← List.drop_drop, drop_domain, ← List.drop_drop, List.drop_left]
  rfl

/-- What parts make is cut into them again. -/
theorem cut_written :
    cut (written parts) parts.localPart.length parts.domain.length = parts := by
  unfold cut
  rw [drop_domain, drop_topLevel, List.take_left]
  unfold written
  rw [List.take_left]

end

instance (parts : Parts) (line : Bytes) : Decidable (Spells parts line) :=
  inferInstanceAs (Decidable (_ ∧ _))

/-- The lengths of the first two parts are shorter than the line, which is thus soon searched. -/
theorem isAddress_iff_cut (line : Bytes) :
    (∃ first ∈ List.range line.length, ∃ second ∈ List.range line.length,
      Spells (cut line first second) line) ↔ IsAddress line := by
  constructor
  · rintro ⟨_, _, _, _, spells⟩
    exact ⟨_, spells⟩
  · rintro ⟨parts, formed, rfl⟩
    have length : (written parts).length =
        parts.localPart.length + parts.domain.length + parts.topLevel.length + 2 := by
      simp only [written, List.length_append, List.length_cons]
      omega
    refine ⟨parts.localPart.length, List.mem_range.mpr (by omega), parts.domain.length,
      List.mem_range.mpr (by omega), ?_⟩
    rw [cut_written]
    exact ⟨formed, rfl⟩

instance : DecidablePred IsAddress := fun line => decidable_of_iff _ (isAddress_iff_cut line)

example : IsAddress (Bytes.ofString "a.b@c..de") ∧ ¬ IsAddress (Bytes.ofString "a@b.cd.e") := by
  decide +kernel

end Grammar

end TextPattern.Email
