import Mathlib.Data.Finset.Card
import Mathlib.Data.Set.Basic
import TextPattern.Registry

/-!
# What a release leaves

Releasing lets the slots expire that have no owner, round by round until nothing changes. What is
left are the slots that belong to a group whose members each have an owner: a name, a stored
matcher, or the definition of a member of the group. A group may be held together by nothing but
itself. `Registry.isLive_sweep_iff` is the main statement.
-/

namespace TextPattern

/-! ## Live slots -/

/-- Whether a slot is there and has not expired. -/
def Registry.isLive (registry : Registry) (slot : Nat) : Bool :=
  (registry.slots[slot]?).any fun found => !found.isExpired

/-- A strong owner of a slot: a name, a copy of its handle in a stored matcher, or one in the
definition of a slot that belongs to a group. -/
inductive Registry.Owned (registry : Registry) (defined : Nat → Option Matcher) (group : Set Nat)
    (slot : Nat) : Prop where
  /-- A name. -/
  | named {name : String} (entry : (name, slot) ∈ registry.names)
  /-- A stored matcher. -/
  | stored {name : String} {matcher : Matcher} (entry : (name, matcher) ∈ registry.stored)
    (holds : slot ∈ matcher.handles)
  /-- A definition. -/
  | definition {owner : Nat} {matcher : Matcher} (among : owner ∈ group)
    (given : defined owner = some matcher) (holds : slot ∈ matcher.handles)

namespace Registry

variable {registry : Registry} {slot : Nat} {group : Set Nat}

/-- A live slot has a definition or room for one. -/
theorem isLive_iff :
    registry.isLive slot = true ↔
      ∃ definition, registry.slots[slot]? = some (.live definition) := by
  unfold isLive
  cases registry.slots[slot]? with
  | none => simp
  | some found => cases found <;> simp [Slot.isExpired]

/-- A live slot is one of those that were made. -/
theorem lt_length_of_isLive (live : registry.isLive slot = true) :
    slot < registry.slots.length := by
  obtain ⟨definition, found⟩ := isLive_iff.mp live
  exact (List.getElem?_eq_some_iff.mp found).1

/-- The definition that is found is that of a live slot. -/
theorem find?_eq_some_iff {matcher : Matcher} :
    registry.definitions.find? slot = some matcher ↔
      registry.slots[slot]? = some (.live (some matcher)) := by
  unfold definitions Definitions.find?
  rw [List.getElem?_map]
  cases registry.slots[slot]? with
  | none => simp
  | some found => cases found <;> simp [Slot.definition?]

/-- A slot whose definition is found is live. -/
theorem isLive_of_find? {matcher : Matcher}
    (found : registry.definitions.find? slot = some matcher) : registry.isLive slot = true :=
  isLive_iff.mpr ⟨_, find?_eq_some_iff.mp found⟩

/-- A slot is owned by the definition that is found under some number, or not by any. -/
theorem any_handles_iff :
    (registry.slots.any fun owner => owner.handles.contains slot) = true ↔
      ∃ owner matcher, registry.definitions.find? owner = some matcher ∧
        slot ∈ matcher.handles := by
  rw [List.any_eq_true]
  constructor
  · rintro ⟨found, among, holds⟩
    obtain ⟨owner, present⟩ := List.mem_iff_getElem?.mp among
    cases found with
    | live definition =>
      cases definition with
      | some matcher =>
        refine ⟨owner, matcher, find?_eq_some_iff.mpr present, ?_⟩
        simpa [Slot.handles, Slot.definition?] using holds
      | none => cases holds
    | expired => cases holds
  · rintro ⟨owner, matcher, given, holds⟩
    refine ⟨_, List.mem_of_getElem? (find?_eq_some_iff.mp given), ?_⟩
    simpa [Slot.handles, Slot.definition?] using holds

/-- The test for owners asks for strong owners among all slots. -/
theorem isOwned_iff :
    registry.isOwned slot = true ↔
      registry.Owned registry.definitions.find? Set.univ slot := by
  have named : (registry.names.any fun entry => entry.2 == slot) = true ↔
      ∃ name, (name, slot) ∈ registry.names := by
    simp
  have stored : (registry.stored.any fun entry => entry.2.handles.contains slot) = true ↔
      ∃ name matcher, (name, matcher) ∈ registry.stored ∧ slot ∈ matcher.handles := by
    simp
  rw [isOwned, Bool.or_eq_true, Bool.or_eq_true, named, stored, any_handles_iff]
  constructor
  · rintro ((⟨name, entry⟩ | ⟨name, matcher, entry, holds⟩) | ⟨owner, matcher, given, holds⟩)
    · exact .named entry
    · exact .stored entry holds
    · exact .definition trivial given holds
  · rintro (⟨entry⟩ | ⟨entry, holds⟩ | ⟨_, given, holds⟩)
    · exact .inl (.inl ⟨_, entry⟩)
    · exact .inl (.inr ⟨_, _, entry, holds⟩)
    · exact .inr ⟨_, _, given, holds⟩

/-- An owner stays one where the same names and stored matchers are, and where the definitions of
the group are found in another one. -/
theorem Owned.imp {other : Registry} {defined found : Nat → Option Matcher} {larger : Set Nat}
    (owned : registry.Owned defined group slot) (names : registry.names = other.names)
    (stored : registry.stored = other.stored)
    (definitions : ∀ owner ∈ group, ∀ matcher, defined owner = some matcher →
      owner ∈ larger ∧ found owner = some matcher) : other.Owned found larger slot := by
  cases owned with
  | named entry => exact .named (names ▸ entry)
  | stored entry holds => exact .stored (stored ▸ entry) holds
  | definition among given holds =>
    obtain ⟨inside, present⟩ := definitions _ among _ given
    exact .definition inside present holds

/-! ## One round -/

/-- A round keeps what is owned and lets the other slots expire. -/
theorem getElem?_release :
    registry.release.slots[slot]? =
      if registry.isOwned slot then registry.slots[slot]?
      else (registry.slots[slot]?).map fun _ => .expired := by
  unfold release
  rw [List.getElem?_mapIdx]
  by_cases owned : registry.isOwned slot = true
  · simp [owned]
  · simp [owned]

/-- The live slots that are owned stay live. -/
theorem isLive_release :
    registry.release.isLive slot = (registry.isLive slot && registry.isOwned slot) := by
  unfold isLive
  rw [getElem?_release]
  by_cases owned : registry.isOwned slot = true
  · simp [owned]
  · cases registry.slots[slot]? <;> simp [owned, Slot.isExpired]

/-- What stays live keeps its definition. -/
theorem getElem?_release_of_isLive (live : registry.release.isLive slot = true) :
    registry.release.slots[slot]? = registry.slots[slot]? := by
  rw [isLive_release, Bool.and_eq_true] at live
  rw [getElem?_release, if_pos live.2]

/-- The numbers of the live slots. -/
def liveSlots (registry : Registry) : Finset Nat :=
  (Finset.range registry.slots.length).filter fun slot => registry.isLive slot = true

/-- The live slots are those with a definition that is live. -/
theorem mem_liveSlots : slot ∈ registry.liveSlots ↔ registry.isLive slot = true := by
  rw [liveSlots, Finset.mem_filter, Finset.mem_range]
  exact ⟨And.right, fun live => ⟨lt_length_of_isLive live, live⟩⟩

/-- A round that changes something leaves fewer live slots. -/
theorem release_eq_or_card_lt (registry : Registry) :
    registry.release = registry ∨
      registry.release.liveSlots.card < registry.liveSlots.card := by
  have subset : registry.release.liveSlots ⊆ registry.liveSlots := by
    intro slot live
    rw [mem_liveSlots, isLive_release, Bool.and_eq_true] at live
    exact mem_liveSlots.mpr live.1
  by_cases all : registry.liveSlots ⊆ registry.release.liveSlots
  · left
    have same : registry.release.slots = registry.slots := by
      apply List.ext_getElem?
      intro slot
      by_cases live : registry.isLive slot = true
      · exact getElem?_release_of_isLive (mem_liveSlots.mp (all (mem_liveSlots.mpr live)))
      · unfold isLive at live
        rw [getElem?_release]
        cases found : registry.slots[slot]? with
        | none => simp
        | some content =>
          cases content with
          | live definition => simp [found, Slot.isExpired] at live
          | expired => simp
    exact congrArg (fun slots => { registry with slots }) same
  · right
    exact Finset.card_lt_card (subset.ssubset_of_not_subset all)

/-! ## Rounds until nothing changes -/

/-- Where a round changes nothing, no further round does. -/
theorem releaseTimes_of_stable (stable : registry.release = registry) (rounds : Nat) :
    releaseTimes rounds registry = registry := by
  induction rounds with
  | zero => rfl
  | succ rounds ih => rw [releaseTimes, stable, ih]

/-- As many rounds as there are live slots are enough for nothing to change any more. -/
theorem release_releaseTimes (rounds : Nat) (registry : Registry)
    (enough : registry.liveSlots.card ≤ rounds) :
    (releaseTimes rounds registry).release = releaseTimes rounds registry := by
  induction rounds generalizing registry with
  | zero =>
    rcases release_eq_or_card_lt registry with same | fewer
    · exact same
    · exact absurd (Nat.lt_of_lt_of_le fewer enough) (Nat.not_lt_zero _)
  | succ rounds ih =>
    rcases release_eq_or_card_lt registry with same | fewer
    · rw [releaseTimes_of_stable same]
      exact same
    · exact ih registry.release (Nat.le_of_lt_succ (Nat.lt_of_lt_of_le fewer enough))

/-- A release is complete: a further round changes nothing. -/
theorem release_sweep (registry : Registry) : registry.sweep.release = registry.sweep := by
  apply release_releaseTimes
  have few := Finset.card_filter_le (Finset.range registry.slots.length)
    fun slot => registry.isLive slot = true
  rwa [Finset.card_range] at few

/-- Where every live slot is owned, there is nothing to release. -/
theorem sweep_of_owned
    (owned : ∀ slot, registry.isLive slot = true → registry.isOwned slot = true) :
    registry.sweep = registry := by
  apply releaseTimes_of_stable
  rcases release_eq_or_card_lt registry with same | fewer
  · exact same
  · have kept : registry.liveSlots ⊆ registry.release.liveSlots := by
      intro slot member
      have live := mem_liveSlots.mp member
      rw [mem_liveSlots, isLive_release, live, owned slot live, Bool.and_self]
    exact absurd (Finset.card_le_card kept) (Nat.not_le_of_lt fewer)

section
variable (rounds : Nat) (registry : Registry)

/-- What refers to slots from outside, and how many there are, is left alone. -/
theorem releaseTimes_keeps :
    (releaseTimes rounds registry).names = registry.names ∧
      (releaseTimes rounds registry).stored = registry.stored ∧
      (releaseTimes rounds registry).held = registry.held ∧
      (releaseTimes rounds registry).slots.length = registry.slots.length := by
  induction rounds generalizing registry with
  | zero => exact ⟨rfl, rfl, rfl, rfl⟩
  | succ rounds ih =>
    obtain ⟨names, stored, held, length⟩ := ih registry.release
    exact ⟨names, stored, held, length.trans List.length_mapIdx⟩

/-- A sweep leaves the names as they are. -/
@[simp] theorem names_sweep : registry.sweep.names = registry.names :=
  (releaseTimes_keeps _ registry).1

/-- A sweep leaves the stored matchers as they are. -/
@[simp] theorem stored_sweep : registry.sweep.stored = registry.stored :=
  (releaseTimes_keeps _ registry).2.1

/-- A sweep leaves the handles as they are. -/
@[simp] theorem held_sweep : registry.sweep.held = registry.held :=
  (releaseTimes_keeps _ registry).2.2.1

/-- A sweep empties slots, and removes none. -/
@[simp] theorem length_slots_sweep : registry.sweep.slots.length = registry.slots.length :=
  (releaseTimes_keeps _ registry).2.2.2

end

/-- What is live after a number of rounds was live before, with the same definition. -/
theorem getElem?_releaseTimes_of_isLive (rounds : Nat) (registry : Registry)
    (live : (releaseTimes rounds registry).isLive slot = true) :
    registry.isLive slot = true ∧
      (releaseTimes rounds registry).slots[slot]? = registry.slots[slot]? := by
  induction rounds generalizing registry with
  | zero => exact ⟨live, rfl⟩
  | succ rounds ih =>
    obtain ⟨before, same⟩ := ih registry.release live
    have kept := getElem?_release_of_isLive before
    rw [isLive_release, Bool.and_eq_true] at before
    exact ⟨before.1, same.trans kept⟩

/-- What is live after a release was live before, with the same definition. -/
theorem getElem?_sweep_of_isLive (live : registry.sweep.isLive slot = true) :
    registry.isLive slot = true ∧ registry.sweep.slots[slot]? = registry.slots[slot]? :=
  getElem?_releaseTimes_of_isLive _ registry live

/-- The definitions that are found after a release were found before. -/
theorem find?_sweep {matcher : Matcher}
    (found : registry.sweep.definitions.find? slot = some matcher) :
    registry.definitions.find? slot = some matcher := by
  obtain ⟨_, same⟩ := getElem?_sweep_of_isLive (isLive_of_find? found)
  exact find?_eq_some_iff.mpr (same ▸ find?_eq_some_iff.mp found)

/-! ## Groups that keep themselves alive -/

/-- Live slots that each have a strong owner, be it the definition of another one of them. -/
def Sustains (registry : Registry) (group : Set Nat) : Prop :=
  ∀ slot ∈ group, registry.isLive slot = true ∧
    registry.Owned registry.definitions.find? group slot

/-- A group that keeps itself alive survives a round, and keeps itself alive after it. -/
theorem Sustains.release (sustains : registry.Sustains group) :
    registry.release.Sustains group := by
  have live (slot : Nat) (member : slot ∈ group) : registry.release.isLive slot = true := by
    obtain ⟨live, owned⟩ := sustains slot member
    have found := owned.imp rfl rfl fun _ _ _ given => ⟨Set.mem_univ _, given⟩
    rw [isLive_release, live, isOwned_iff.mpr found, Bool.and_self]
  intro slot member
  refine ⟨live slot member, (sustains slot member).2.imp rfl rfl ?_⟩
  intro owner among matcher given
  have present := find?_eq_some_iff.mp given
  rw [← getElem?_release_of_isLive (live owner among)] at present
  exact ⟨among, find?_eq_some_iff.mpr present⟩

/-- It survives any number of rounds. -/
theorem Sustains.releaseTimes (rounds : Nat) (sustains : registry.Sustains group) :
    (Registry.releaseTimes rounds registry).Sustains group := by
  induction rounds generalizing registry with
  | zero => exact sustains
  | succ rounds ih => exact ih sustains.release

/-- After a release every live slot has an owner that is left. -/
theorem owned_of_isLive_sweep (live : registry.sweep.isLive slot = true) :
    registry.sweep.Owned registry.sweep.definitions.find?
      {owner | registry.sweep.isLive owner = true} slot := by
  have stays : registry.sweep.release.isLive slot = true := by
    rw [release_sweep]
    exact live
  rw [isLive_release, Bool.and_eq_true] at stays
  exact (isOwned_iff.mp stays.2).imp rfl rfl fun _ _ _ given => ⟨isLive_of_find? given, given⟩

/-- A release leaves exactly the slots that belong to a group that keeps itself alive. -/
theorem isLive_sweep_iff :
    registry.sweep.isLive slot = true ↔ ∃ group, registry.Sustains group ∧ slot ∈ group := by
  constructor
  · intro live
    refine ⟨{slot | registry.sweep.isLive slot = true}, fun member survives => ?_, live⟩
    refine ⟨(getElem?_sweep_of_isLive survives).1, ?_⟩
    exact (owned_of_isLive_sweep survives).imp registry.names_sweep registry.stored_sweep
      fun _ among _ given => ⟨among, find?_sweep given⟩
  · rintro ⟨group, sustains, member⟩
    exact (sustains.releaseTimes _ slot member).1

end Registry

end TextPattern
