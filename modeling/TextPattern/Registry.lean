import TextPattern.Matcher

/-!
# Registries of definitions

A definition lives in a numbered slot. It is reached through names, through the handles and
references in matchers, and through references that are held on their own. Names and handles own
the slot, references do not: a slot whose last owner goes expires for good, together with the
handles in its definition. Handles in definitions that own each other keep each other alive.
-/

namespace TextPattern

/-- What a slot holds. -/
inductive Slot where
  /-- A definition, or room for one that is still to come. -/
  | live (definition : Option Matcher)
  /-- Nothing any more. -/
  | expired

namespace Slot

/-- The matcher of a slot. -/
def definition? : Slot → Option Matcher
  | .live definition => definition
  | .expired => none

/-- Whether the slot has expired. -/
def isExpired : Slot → Bool
  | .live _ => false
  | .expired => true

/-- The slots that the definition of a slot owns. -/
def handles (slot : Slot) : List Nat := (slot.definition?.map Matcher.handles).getD []

end Slot

/-- Slots by number, and what refers to them from outside. -/
structure Registry where
  /-- The slots in the order in which they were made. -/
  slots : List Slot
  /-- The named handles. -/
  names : List (String × Nat)
  /-- The matchers that are stored under a name. -/
  stored : List (String × Matcher)
  /-- The references that are held under a name. -/
  held : List (String × Nat)

namespace Registry

/-- A registry without slots. -/
def empty : Registry := ⟨[], [], [], []⟩

/-- Enter something under a name, in place of what was there. -/
def enter {α : Type} (name : String) (value : α) (entries : List (String × α)) :
    List (String × α) :=
  (name, value) :: entries.filter fun entry => entry.1 != name

/-- The definitions by number; an expired slot has none. -/
def definitions (registry : Registry) : Definitions := registry.slots.map Slot.definition?

/-- Whether a name, a stored matcher or the definition of a live slot owns a slot. -/
def isOwned (registry : Registry) (slot : Nat) : Bool :=
  registry.names.any (fun entry => entry.2 == slot) ||
    registry.stored.any (fun entry => entry.2.handles.contains slot) ||
    registry.slots.any (fun owner => owner.handles.contains slot)

/-- Let the slots expire that have no owner now. -/
def release (registry : Registry) : Registry :=
  { registry with
    slots := registry.slots.mapIdx fun number slot =>
      if registry.isOwned number then slot else .expired }

/-- Release a number of times. -/
def releaseTimes : Nat → Registry → Registry
  | 0, registry => registry
  | rounds + 1, registry => releaseTimes rounds registry.release

/-- Release until nothing changes. A round that changes something lets a slot expire, so there are
no more such rounds than slots. -/
def sweep (registry : Registry) : Registry := releaseTimes registry.slots.length registry

/-- Make a new slot under a name. -/
def create (registry : Registry) (name : String) : Registry :=
  sweep { registry with
    slots := registry.slots ++ [.live none]
    names := enter name registry.slots.length registry.names }

/-- Define the slot of a name, in place of any earlier definition. -/
def define? (registry : Registry) (name : String) (matcher : Matcher) : Option Registry :=
  (registry.names.lookup name).map fun slot =>
    sweep { registry with slots := registry.slots.set slot (.live (some matcher)) }

/-- Let a name stand for the slot of another one. -/
def alias? (registry : Registry) (name other : String) : Option Registry :=
  (registry.names.lookup other).map fun slot =>
    sweep { registry with names := enter name slot registry.names }

/-- Forget a name. -/
def drop (registry : Registry) (name : String) : Registry :=
  sweep { registry with names := registry.names.filter fun entry => entry.1 != name }

/-- Store a matcher under a name. -/
def store (registry : Registry) (name : String) (matcher : Matcher) : Registry :=
  sweep { registry with stored := enter name matcher registry.stored }

/-- Forget a stored matcher. -/
def discard (registry : Registry) (name : String) : Registry :=
  sweep { registry with stored := registry.stored.filter fun entry => entry.1 != name }

/-- Hold a reference to the slot of a name. -/
def hold? (registry : Registry) (name other : String) : Option Registry :=
  (registry.names.lookup other).map fun slot =>
    { registry with held := enter name slot registry.held }

/-- Whether the slot of a name has a definition. -/
def isDefined? (registry : Registry) (name : String) : Option Bool :=
  (registry.names.lookup name).map fun slot => (registry.definitions.find? slot).isSome

/-- Whether the slot of a held reference has expired. -/
def isExpired? (registry : Registry) (name : String) : Option Bool :=
  (registry.held.lookup name).map fun slot => (registry.slots[slot]?).all Slot.isExpired

/-- A matcher that shares the definition of a name and keeps it alive. -/
def handle? (registry : Registry) (name : String) : Option Matcher :=
  (registry.names.lookup name).map .handle

/-- A matcher that refers to the definition of a name. -/
def reference? (registry : Registry) (name : String) : Option Matcher :=
  (registry.names.lookup name).map .reference

/-- A matcher that refers to what a held reference refers to. -/
def heldReference? (registry : Registry) (name : String) : Option Matcher :=
  (registry.held.lookup name).map .reference

/-- The matcher stored under a name. -/
def stored? (registry : Registry) (name : String) : Option Matcher := registry.stored.lookup name

end Registry

end TextPattern
