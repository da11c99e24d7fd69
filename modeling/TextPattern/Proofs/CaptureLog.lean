import TextPattern.CaptureStore

/-!
# Capture stores as logs

Replaying captures onto a store appends them to its log, and going back to the mark that the store
had before leaves that very store. Whatever an attempt records after a mark can therefore be
dropped, or taken out and put back, without a trace in the earlier captures.
-/

namespace TextPattern.CaptureStore

/-- A store is given by its slots and its journal. -/
theorem eq_of_slots_of_journal {left right : CaptureStore} (slots : left.slots = right.slots)
    (journal : left.journal = right.journal) : left = right := by
  cases left
  cases right
  cases slots
  cases journal
  rfl

/-! ## One capture -/

section
variable (store : CaptureStore) (slot : Nat) (span : Span) (inside : slot < store.capacity)

/-- Recording keeps the number of slots. -/
@[simp] theorem capacity_record : (store.record slot span inside).capacity = store.capacity := by
  simp [record, capacity]

/-- Recording adds one capture. -/
@[simp] theorem size_record : (store.record slot span inside).size = store.size + 1 := by
  simp [record, size]

/-- The capture that was recorded last is the newest. -/
@[simp] theorem newest?_record :
    (store.record slot span inside).newest? = some (slot, span) := by
  have present : store.slots[slot]? = some store.slots[slot] := List.getElem?_eq_getElem inside
  simp [newest?, record, List.getD_eq_getElem?_getD, present]

/-- The capture that was recorded last is the last one of its slot. -/
theorem spansAt_record (other : Nat) : (store.record slot span inside).spansAt other =
    store.spansAt other ++ if slot = other then [span] else [] := by
  unfold spansAt record
  dsimp only
  rw [List.getD_eq_getElem?_getD, List.getD_eq_getElem?_getD, List.getElem?_modify]
  by_cases same : slot = other
  · subst same
    have present : store.slots[slot]? = some store.slots[slot] := List.getElem?_eq_getElem inside
    simp [present]
  · simp [same]

/-- Dropping the capture that was recorded last leaves the store as it was before. -/
@[simp] theorem undo_record : (store.record slot span inside).undo = store := by
  apply eq_of_slots_of_journal
  · show (store.slots.modify slot (span :: ·)).modify slot List.tail = store.slots
    rw [List.modify_modify_eq]
    exact List.modify_id slot store.slots
  · rfl

end

/-! ## Several captures -/

/-- Dropping captures in two goes drops their sum. -/
theorem undoLast_add (first second : Nat) (store : CaptureStore) :
    undoLast (first + second) store = undoLast second (undoLast first store) := by
  induction first generalizing store with
  | zero => rw [Nat.zero_add]; rfl
  | succ first ih => rw [Nat.succ_add]; exact ih store.undo

/-- The newest captures in two goes. -/
theorem lastCaptures_add (first second : Nat) (store : CaptureStore) :
    lastCaptures (first + second) store =
      lastCaptures first store ++ lastCaptures second (undoLast first store) := by
  induction first generalizing store with
  | zero => rw [Nat.zero_add]; rfl
  | succ first ih =>
    rw [Nat.succ_add]
    show store.newest?.toList ++ lastCaptures (first + second) store.undo = _
    rw [ih, ← List.append_assoc]
    rfl

/-- Replaying nothing changes nothing. -/
@[simp] theorem replay_nil (store : CaptureStore) : store.replay [] = store := rfl

/-- Replaying begins with the oldest capture. -/
theorem replay_cons {store : CaptureStore} {slot : Nat} (span : Span) (later : List Capture)
    (inside : slot < store.capacity) :
    store.replay ((slot, span) :: later) = (store.record slot span inside).replay later :=
  dif_pos inside

/-- A capture for a slot that is missing is passed over. -/
theorem replay_cons_outside {store : CaptureStore} {slot : Nat} (span : Span)
    (later : List Capture) (outside : ¬ slot < store.capacity) :
    store.replay ((slot, span) :: later) = store.replay later :=
  dif_neg outside

/-- Pushing a capture is replaying it alone. -/
theorem push_eq_replay {store : CaptureStore} {slot : Nat} (span : Span)
    (inside : slot < store.capacity) :
    store.push slot span = .ok (store.replay [(slot, span)]) := by
  rw [replay_cons span [] inside, replay_nil]
  exact dif_pos inside

/-- Replaying keeps the number of slots. -/
@[simp] theorem capacity_replay (store : CaptureStore) (captures : List Capture) :
    (store.replay captures).capacity = store.capacity := by
  induction captures generalizing store with
  | nil => rfl
  | cons first later ih =>
    obtain ⟨slot, span⟩ := first
    by_cases inside : slot < store.capacity
    · rw [replay_cons span later inside, ih, capacity_record]
    · rw [replay_cons_outside span later inside, ih]

/-- Replaying two lists one after the other replays both as one list. -/
theorem replay_append (store : CaptureStore) (first second : List Capture) :
    store.replay (first ++ second) = (store.replay first).replay second := by
  induction first generalizing store with
  | nil => rfl
  | cons capture later ih =>
    obtain ⟨slot, span⟩ := capture
    rw [List.cons_append]
    by_cases inside : slot < store.capacity
    · rw [replay_cons span _ inside, replay_cons span _ inside, ih]
    · rw [replay_cons_outside span _ inside, replay_cons_outside span _ inside, ih]

/-- Replaying drops no capture. -/
theorem size_le_size_replay (store : CaptureStore) (captures : List Capture) :
    store.size ≤ (store.replay captures).size := by
  induction captures generalizing store with
  | nil => exact Nat.le_refl _
  | cons first later ih =>
    obtain ⟨slot, span⟩ := first
    by_cases inside : slot < store.capacity
    · rw [replay_cons span later inside]
      have grown := ih (store.record slot span inside)
      rw [size_record] at grown
      exact Nat.le_of_succ_le grown
    · rw [replay_cons_outside span later inside]
      exact ih store

/-- Going back to the mark that a store had before captures were replayed leaves that store. -/
@[simp] theorem rollback_replay (store : CaptureStore) (captures : List Capture) :
    (store.replay captures).rollback store.mark = store := by
  show undoLast ((store.replay captures).size - store.size) (store.replay captures) = store
  induction captures generalizing store with
  | nil => rw [replay_nil, Nat.sub_self]; rfl
  | cons first later ih =>
    obtain ⟨slot, span⟩ := first
    by_cases inside : slot < store.capacity
    · rw [replay_cons span later inside]
      let recorded := store.record slot span inside
      have grown : recorded.size = store.size + 1 := size_record store slot span inside
      have later_grown := size_le_size_replay recorded later
      have rounds : (recorded.replay later).size - store.size =
          (recorded.replay later).size - recorded.size + 1 := by omega
      show undoLast ((recorded.replay later).size - store.size) (recorded.replay later) = store
      rw [rounds, undoLast_add, ih recorded]
      exact undo_record store slot span inside
    · rw [replay_cons_outside span later inside]
      exact ih store

section
variable {store : CaptureStore} {captures : List Capture}
  (inside : ∀ capture ∈ captures, capture.1 < store.capacity)
include inside

/-- Every capture for an existing slot counts. -/
theorem size_replay : (store.replay captures).size = store.size + captures.length := by
  induction captures generalizing store with
  | nil => rfl
  | cons first later ih =>
    obtain ⟨slot, span⟩ := first
    have here : slot < store.capacity := inside (slot, span) List.mem_cons_self
    rw [replay_cons span later here, ih, size_record, List.length_cons]
    · omega
    · intro capture member
      rw [capacity_record]
      exact inside capture (List.mem_cons_of_mem _ member)

/-- The newest captures after a replay are those replayed, newest first. -/
theorem lastCaptures_replay :
    lastCaptures captures.length (store.replay captures) = captures.reverse := by
  induction captures generalizing store with
  | nil => rfl
  | cons first later ih =>
    obtain ⟨slot, span⟩ := first
    have here : slot < store.capacity := inside (slot, span) List.mem_cons_self
    let recorded := store.record slot span here
    have later_inside : ∀ capture ∈ later, capture.1 < recorded.capacity := by
      intro capture member
      rw [capacity_record]
      exact inside capture (List.mem_cons_of_mem _ member)
    have counted := size_replay later_inside
    have back : undoLast later.length (recorded.replay later) = recorded := by
      have gone := rollback_replay recorded later
      rw [rollback, counted, mark, Nat.add_sub_cancel_left] at gone
      exact gone
    rw [replay_cons span later here, List.length_cons, lastCaptures_add, ih later_inside, back,
      List.reverse_cons]
    show _ ++ (recorded.newest?.toList ++ []) = _
    rw [newest?_record]
    rfl

/-- Taking what was replayed hands it over in order and leaves the store from before. -/
theorem take_replay : (store.replay captures).take store.mark = (captures, store) := by
  rw [take, rollback_replay, size_replay inside, mark, Nat.add_sub_cancel_left,
    lastCaptures_replay inside, List.reverse_reverse]

/-- Replaying appends to the log of captures. -/
theorem captures_replay : (store.replay captures).captures = store.captures ++ captures := by
  have gone := rollback_replay store captures
  rw [rollback, size_replay inside, mark, Nat.add_sub_cancel_left] at gone
  rw [CaptureStore.captures, CaptureStore.captures, size_replay inside, Nat.add_comm,
    lastCaptures_add, lastCaptures_replay inside, gone, List.reverse_append,
    List.reverse_reverse]

/-- Replaying appends to each slot the spans that were captured for it. -/
theorem spansAt_replay (slot : Nat) : (store.replay captures).spansAt slot =
    store.spansAt slot ++ (captures.filter fun capture => capture.1 = slot).map Prod.snd := by
  induction captures generalizing store with
  | nil => rw [replay_nil, List.filter_nil, List.map_nil, List.append_nil]
  | cons first later ih =>
    obtain ⟨other, span⟩ := first
    have here : other < store.capacity := inside (other, span) List.mem_cons_self
    have later_inside : ∀ capture ∈ later,
        capture.1 < (store.record other span here).capacity := by
      intro capture member
      rw [capacity_record]
      exact inside capture (List.mem_cons_of_mem _ member)
    rw [replay_cons span later here, ih later_inside, spansAt_record, List.append_assoc]
    by_cases same : other = slot <;> simp [same]

end

end TextPattern.CaptureStore
