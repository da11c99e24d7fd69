import TextPattern.Proofs.Ledger
import TextPattern.Proofs.Release
import TextPattern.Proofs.Unfolding

/-!
# Shared definitions

Handles are made, copied, defined and dropped in any order, and so are the matchers that hold
copies of them. A registry does what the ledger of these calls says: each name has the handle that
was given to it, a slot is live if and only if it has a strong owner, what runs it runs the
definition that was given to it last, and what has expired stays so. `Registry.run_shares` is the
main statement.
-/

namespace TextPattern

namespace Registry

/-! ## Runs of calls -/

/-- Whether the handles in a matcher can be copies of handles that are there. -/
def canBuild (registry : Registry) (matcher : Matcher) : Bool := matcher.handles.all registry.isLive

/-- What follows a call, unless there is no such name or matcher. -/
def call? (registry : Registry) : RegistryCall → Option Registry
  | .create name => some (registry.create name)
  | .copy name other => registry.alias? name other
  | .define name matcher =>
    if registry.canBuild matcher then registry.define? name matcher else none
  | .drop name => some (registry.drop name)
  | .store name matcher =>
    if registry.canBuild matcher then some (registry.store name matcher) else none
  | .discard name => some (registry.discard name)
  | .hold name other => registry.hold? name other

/-- What follows several calls. -/
def run? (registry : Registry) : List RegistryCall → Option Registry
  | [] => some registry
  | first :: later => (registry.call? first).bind fun next => next.run? later

variable {registry next : Registry} {ledger : Ledger} {slot : Nat}

/-- Entries that have under each name what a table has. -/
def Lists {α : Type} (entries : List (String × α)) (table : String → Option α) : Prop :=
  ∀ name value, (name, value) ∈ entries ↔ table name = some value

namespace Lists

variable {α : Type} {entries : List (String × α)} {table : String → Option α}

/-- What is looked up is what the table has. -/
theorem lookup_eq (lists : Lists entries table) (name : String) :
    entries.lookup name = table name := by
  cases found : entries.lookup name with
  | some value =>
    obtain ⟨before, after, rfl, _⟩ := List.lookup_eq_some_iff.mp found
    exact ((lists name value).mp (List.mem_append_right before List.mem_cons_self)).symm
  | none =>
    symm
    rw [Option.eq_none_iff_forall_ne_some]
    intro value entered
    have absent := List.lookup_eq_none_iff.mp found _ ((lists name value).mpr entered)
    exact bne_iff_ne.mp absent rfl

/-- To forget a name is to leave it without a value. -/
theorem forget (lists : Lists entries table) (name : String) :
    Lists (entries.filter fun entry => entry.1 != name) (Function.update table name none) := by
  intro other value
  rw [List.mem_filter, lists other value, Function.update_apply, bne_iff_ne]
  by_cases same : other = name
  · simp [same]
  · simp [same]

/-- To enter a value is to give it to the name. -/
theorem enter (lists : Lists entries table) (name : String) (value : α) :
    Lists (Registry.enter name value entries) (Function.update table name (some value)) := by
  intro other found
  have rest := lists.forget name other found
  rw [Function.update_apply] at rest ⊢
  rw [Registry.enter, List.mem_cons, rest, Prod.mk.injEq]
  by_cases same : other = name
  · simp [same, eq_comm]
  · simp [same]

end Lists

/-! ## What a registry tells -/

/-- A registry that has what a ledger says. -/
structure Tells (registry : Registry) (ledger : Ledger) : Prop where
  /-- As many slots. -/
  made : registry.slots.length = ledger.made
  /-- The same handles under names. -/
  named : Lists registry.names ledger.named
  /-- The same stored matchers. -/
  stored : Lists registry.stored ledger.stored
  /-- The same references. -/
  held : Lists registry.held ledger.held
  /-- The same live slots. -/
  live : ∀ slot, registry.isLive slot = true ↔ slot ∈ ledger.live
  /-- In live slots, the definitions that were given last. -/
  latest : ∀ slot ∈ ledger.live, registry.definitions.find? slot = ledger.latest slot

namespace Tells

/-- A definition is found in live slots only, and is the one that was given last. -/
theorem find?_eq_some_iff (tells : registry.Tells ledger) {matcher : Matcher} :
    registry.definitions.find? slot = some matcher ↔
      slot ∈ ledger.live ∧ ledger.latest slot = some matcher := by
  constructor
  · intro found
    have live := (tells.live slot).mp (isLive_of_find? found)
    exact ⟨live, tells.latest slot live ▸ found⟩
  · rintro ⟨live, given⟩
    rw [tells.latest slot live, given]

/-- A group of live slots has the owners that the ledger gives it. -/
theorem owned_iff (tells : registry.Tells ledger) {group : Set Nat}
    (within : group ⊆ ledger.live) :
    registry.Owned registry.definitions.find? group slot ↔ ledger.Owns group slot := by
  constructor
  · rintro (entry | ⟨entry, holds⟩ | ⟨among, found, holds⟩)
    · exact .named ((tells.named _ slot).mp entry)
    · exact .stored ((tells.stored _ _).mp entry) holds
    · exact .definition among (tells.find?_eq_some_iff.mp found).2 holds
  · rintro (entry | ⟨entry, holds⟩ | ⟨among, given, holds⟩)
    · exact .named ((tells.named _ slot).mpr entry)
    · exact .stored ((tells.stored _ _).mpr entry) holds
    · exact .definition among (tells.find?_eq_some_iff.mpr ⟨within among, given⟩) holds

/-- The rounds of a release leave the slots that the ledger leaves at once. -/
theorem isLive_sweep_iff (tells : registry.Tells ledger) :
    registry.sweep.isLive slot = true ↔ slot ∈ ledger.release.live := by
  rw [Registry.isLive_sweep_iff]
  constructor
  · rintro ⟨group, sustains, among⟩
    have within : group ⊆ ledger.live := fun member inside =>
      (tells.live member).mp (sustains member inside).1
    exact ⟨group, within, among, fun member inside =>
      (tells.owned_iff within).mp (sustains member inside).2⟩
  · rintro ⟨group, within, among, owned⟩
    exact ⟨group, fun member inside => ⟨(tells.live member).mpr (within inside),
      (tells.owned_iff within).mpr (owned member inside)⟩, among⟩

/-- After a release a registry tells what the ledger says then. -/
theorem sweep (tells : registry.Tells ledger) : registry.sweep.Tells ledger.release where
  made := (length_slots_sweep registry).trans tells.made
  named := by
    rw [names_sweep]
    exact tells.named
  stored := by
    rw [stored_sweep]
    exact tells.stored
  held := by
    rw [held_sweep]
    exact tells.held
  live _ := tells.isLive_sweep_iff
  latest slot left := by
    have same := (getElem?_sweep_of_isLive (tells.isLive_sweep_iff.mpr left)).2
    refine Eq.trans ?_ (tells.latest slot (Ledger.live_release_subset left))
    unfold definitions Definitions.find?
    rw [List.getElem?_map, List.getElem?_map, same]

/-- The handles of a matcher can be copied if and only if the ledger has them. -/
theorem canBuild_iff (tells : registry.Tells ledger) (matcher : Matcher) :
    registry.canBuild matcher = true ↔ ledger.Has matcher := by
  unfold canBuild Ledger.Has
  rw [List.all_eq_true]
  exact forall₂_congr fun slot _ => tells.live slot

end Tells

/-! ## Calls -/

section
variable (registry)

/-- A registry with one more slot, under a name. -/
def created (name : String) : Registry :=
  { registry with
    slots := registry.slots ++ [.live none]
    names := enter name registry.slots.length registry.names }

/-- A registry with another definition in a slot. -/
def defined (slot : Nat) (matcher : Matcher) : Registry :=
  { registry with slots := registry.slots.set slot (.live (some matcher)) }

variable (name : String)

/-- The new slot is live and without a definition, and the other ones are as before. -/
theorem getElem?_created (slot : Nat) :
    (registry.created name).slots[slot]? =
      if slot = registry.slots.length then some (.live none) else registry.slots[slot]? := by
  unfold created
  by_cases new : slot = registry.slots.length
  · rw [if_pos new, new]
    exact List.getElem?_concat_length
  · rw [if_neg new]
    rcases Nat.lt_or_gt_of_ne new with before | behind
    · exact List.getElem?_append_left before
    · rw [List.getElem?_eq_none (Nat.le_of_lt behind), List.getElem?_eq_none]
      rw [List.length_append]
      exact behind

/-- The live slots are the new one and those that were live. -/
theorem isLive_created (slot : Nat) :
    (registry.created name).isLive slot = true ↔
      slot = registry.slots.length ∨ registry.isLive slot = true := by
  rw [isLive_iff, getElem?_created, isLive_iff]
  by_cases new : slot = registry.slots.length
  · simp [new]
  · simp [new]

/-- No definition is found behind the slots that were made. -/
theorem find?_length : registry.definitions.find? registry.slots.length = none := by
  unfold definitions Definitions.find?
  simp

/-- What is found under a number is as before. -/
theorem find?_created (slot : Nat) :
    (registry.created name).definitions.find? slot = registry.definitions.find? slot := by
  have behind := registry.find?_length
  unfold definitions Definitions.find? at *
  rw [List.getElem?_map, getElem?_created]
  by_cases new : slot = registry.slots.length
  · rw [if_pos new, new, behind]
    rfl
  · rw [if_neg new, List.getElem?_map]

variable {registry}

/-- To define a live slot makes no other slot live. -/
theorem isLive_defined {slot : Nat} (live : registry.isLive slot = true) (matcher : Matcher)
    (other : Nat) : (registry.defined slot matcher).isLive other = registry.isLive other := by
  have made := lt_length_of_isLive live
  unfold isLive defined at *
  rw [List.getElem?_set]
  by_cases same : slot = other
  · subst same
    rw [if_pos rfl, if_pos made, live]
    rfl
  · rw [if_neg same]

/-- It gives the slot its definition. -/
theorem find?_defined {slot : Nat} (live : registry.isLive slot = true) (matcher : Matcher)
    (other : Nat) :
    (registry.defined slot matcher).definitions.find? other =
      if other = slot then some matcher else registry.definitions.find? other := by
  have made := lt_length_of_isLive live
  unfold definitions Definitions.find? defined
  rw [List.getElem?_map, List.getElem?_set, List.getElem?_map]
  by_cases same : slot = other
  · subst same
    rw [if_pos rfl, if_pos made, if_pos rfl]
    rfl
  · rw [if_neg same, if_neg fun back => same back.symm]

end

namespace Tells

/-- A new slot is the next one, and has no definition. -/
theorem created (tells : registry.Tells ledger) (sound : ledger.Sound) (name : String) :
    (registry.created name).Tells (ledger.enter (.create name)) where
  made := List.length_append.trans (congrArg (· + 1) tells.made)
  named := by
    have entered := tells.named.enter name registry.slots.length
    rw [tells.made] at entered
    unfold Registry.created
    rw [tells.made]
    exact entered
  stored := tells.stored
  held := tells.held
  live slot := by
    rw [isLive_created, tells.made, tells.live slot]
    rfl
  latest slot among := by
    rw [find?_created]
    rcases among with rfl | before
    · have ungiven : ledger.latest ledger.made = none := by
        rw [Option.eq_none_iff_forall_ne_some]
        intro matcher given
        exact Nat.lt_irrefl _ (sound.given _ matcher given)
      have unmade := registry.find?_length
      rw [tells.made] at unmade
      exact unmade.trans ungiven.symm
    · exact tells.latest slot before

/-- The slot of a name has the definition that it is given. -/
theorem defined (tells : registry.Tells ledger) {name : String} (matcher : Matcher)
    (entry : ledger.named name = some slot) (live : registry.isLive slot = true) :
    (registry.defined slot matcher).Tells (ledger.enter (.define name matcher)) where
  made := List.length_set.trans tells.made
  named := tells.named
  stored := tells.stored
  held := tells.held
  live other := by
    rw [isLive_defined live]
    exact tells.live other
  latest other among := by
    rw [find?_defined live]
    show _ = if ledger.named name = some other then some matcher else ledger.latest other
    by_cases same : other = slot
    · rw [if_pos same, same, if_pos entry]
    · rw [if_neg same, if_neg fun also => same (Option.some.inj (also.symm.trans entry))]
      exact tells.latest other among

/-- A call that the ledger permits does what the ledger says. -/
theorem call? (tells : registry.Tells ledger) (sound : ledger.Sound) {call : RegistryCall}
    (permitted : ledger.Permits call) :
    ∃ next, registry.call? call = some next ∧ next.Tells (ledger.after call) := by
  cases call with
  | create name => exact ⟨_, rfl, (tells.created sound name).sweep⟩
  | copy name other =>
    obtain ⟨slot, entry⟩ := Option.isSome_iff_exists.mp permitted
    have direct : Tells { registry with names := Registry.enter name slot registry.names }
        (ledger.enter (.copy name other)) :=
      { tells with
        named := by
          have entered := tells.named.enter name slot
          rw [← entry] at entered
          exact entered }
    refine ⟨_, ?_, direct.sweep⟩
    show (registry.names.lookup other).map _ = _
    rw [tells.named.lookup_eq, entry]
    rfl
  | define name matcher =>
    obtain ⟨slot, entry⟩ := Option.isSome_iff_exists.mp permitted.1
    have live := (tells.live slot).mpr (sound.named name slot entry)
    refine ⟨_, ?_, (tells.defined matcher entry live).sweep⟩
    unfold Registry.call? define?
    dsimp only
    rw [if_pos ((tells.canBuild_iff matcher).mpr permitted.2), tells.named.lookup_eq, entry]
    rfl
  | drop name =>
    have direct : Tells
        { registry with names := registry.names.filter fun entry => entry.1 != name }
        (ledger.enter (.drop name)) :=
      { tells with named := tells.named.forget name }
    exact ⟨_, rfl, direct.sweep⟩
  | store name matcher =>
    have direct : Tells { registry with stored := Registry.enter name matcher registry.stored }
        (ledger.enter (.store name matcher)) :=
      { tells with stored := tells.stored.enter name matcher }
    exact ⟨_, if_pos ((tells.canBuild_iff matcher).mpr permitted), direct.sweep⟩
  | discard name =>
    have direct : Tells
        { registry with stored := registry.stored.filter fun entry => entry.1 != name }
        (ledger.enter (.discard name)) :=
      { tells with stored := tells.stored.forget name }
    exact ⟨_, rfl, direct.sweep⟩
  | hold name other =>
    obtain ⟨slot, entry⟩ := Option.isSome_iff_exists.mp permitted
    have direct : Tells { registry with held := Registry.enter name slot registry.held }
        (ledger.enter (.hold name other)) :=
      { tells with
        held := by
          have entered := tells.held.enter name slot
          rw [← entry] at entered
          exact entered }
    refine ⟨_, ?_, direct.sweep⟩
    -- A reference owns nothing, so there is nothing to release.
    rw [sweep_of_owned]
    · show (registry.names.lookup other).map _ = _
      rw [tells.named.lookup_eq, entry]
      rfl
    · intro member live
      have kept := sound.kept member ((tells.live member).mp live)
      have owned := (tells.owned_iff subset_rfl).mpr kept
      exact isOwned_iff.mpr (owned.imp rfl rfl fun _ _ _ found => ⟨Set.mem_univ _, found⟩)

/-- A call that the ledger does not permit cannot be made. -/
theorem permits_of_call? (tells : registry.Tells ledger) {call : RegistryCall}
    (called : registry.call? call = some next) : ledger.Permits call := by
  have entry {name : String} {α : Type} {made : Nat → α} {found : α}
      (present : (registry.names.lookup name).map made = some found) :
      (ledger.named name).isSome := by
    obtain ⟨slot, looked, _⟩ := Option.map_eq_some_iff.mp present
    rw [← tells.named.lookup_eq, looked]
    rfl
  cases call with
  | create | drop | discard => trivial
  | copy name other => exact entry called
  | define name matcher =>
    obtain ⟨built, defined⟩ := Option.ite_none_right_eq_some.mp called
    exact ⟨entry defined, (tells.canBuild_iff matcher).mp built⟩
  | store name matcher =>
    exact (tells.canBuild_iff matcher).mp (Option.ite_none_right_eq_some.mp called).1
  | hold name other => exact entry called

/-- What several calls leave tells what the ledger of all of them says. -/
theorem run? (tells : registry.Tells ledger) (sound : ledger.Sound) {calls : List RegistryCall}
    (ran : registry.run? calls = some next) :
    next.Tells (ledger.afterAll calls) ∧ (ledger.afterAll calls).Sound := by
  induction calls generalizing registry ledger with
  | nil =>
    cases ran
    exact ⟨tells, sound⟩
  | cons first later ih =>
    obtain ⟨between, called, rest⟩ := Option.bind_eq_some_iff.mp ran
    have permitted := tells.permits_of_call? called
    obtain ⟨reached, same, told⟩ := tells.call? sound permitted
    cases called.symm.trans same
    exact ih told (sound.after permitted) rest

end Tells

end Registry

end TextPattern
