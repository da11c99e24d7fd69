import TextPattern.Proofs.CaptureLog

/-!
# Runs of a capture store

A store keeps its captures apart by slot and undoes them by a journal of slot numbers; nowhere does
it hold the captures in the order in which they came. To those who use it, it is such a list all the
same: a log, which pushing extends and going back to a mark cuts off. `CaptureStore.run_refines_log`
says so for every sequence of calls, answer by answer.
-/

namespace TextPattern

/-! ## Logs -/

/-- Captures in the order in which they came, for a number of slots. -/
structure CaptureLog where
  /-- How many slots there are. -/
  capacity : Nat
  /-- The captures, oldest first. -/
  entries : List Capture

namespace CaptureLog

/-- Append a capture for a slot that exists. -/
def push (log : CaptureLog) (slot : Nat) (span : Span) : Result CaptureLog :=
  if slot < log.capacity then .ok { log with entries := log.entries ++ [(slot, span)] }
  else .error (.captureOutOfBounds slot)

/-- Keep as many captures as the mark says, or all if there are fewer. -/
def rollback (log : CaptureLog) (mark : Nat) : CaptureLog :=
  { log with entries := log.entries.take mark }

/-- Cut off the captures behind the mark and hand them over. -/
def take (log : CaptureLog) (mark : Nat) : List Capture × CaptureLog :=
  (log.entries.drop mark, log.rollback mark)

/-- Append captures. -/
def replay (log : CaptureLog) (captures : List Capture) : CaptureLog :=
  { log with entries := log.entries ++ captures }

/-- Drop all captures. -/
def reset (log : CaptureLog) : CaptureLog := { log with entries := [] }

/-- The spans that were captured for a slot, oldest first. -/
def spansAt (log : CaptureLog) (slot : Nat) : List Span :=
  (log.entries.filter fun capture => capture.1 = slot).map Prod.snd

end CaptureLog

/-! ## Runs of calls -/

/-- The operations of something that keeps captures. -/
structure CaptureKeeper (σ : Type) where
  /-- Add a capture, or refuse it. -/
  push : σ → Nat → Span → Result σ
  /-- Drop the captures made since a mark. -/
  rollback : σ → Nat → σ
  /-- Drop them and hand them over. -/
  take : σ → Nat → List Capture × σ
  /-- Put captures back. -/
  replay : σ → List Capture → σ
  /-- Drop all captures. -/
  reset : σ → σ

/-- The operations of a store. -/
def CaptureStore.keeper : CaptureKeeper CaptureStore := ⟨push, rollback, take, replay, reset⟩

/-- The operations of a log. -/
def CaptureLog.keeper : CaptureKeeper CaptureLog := ⟨push, rollback, take, replay, reset⟩

/-- One call of a user. Only captures that takes handed over can be put back, in any order and as
often as the user likes. -/
inductive CaptureCall where
  /-- Add a capture. -/
  | push (slot : Nat) (span : Span)
  /-- Drop the captures made since a mark. -/
  | rollback (mark : Nat)
  /-- Drop them and have them handed over. -/
  | take (mark : Nat)
  /-- Put back captures, each by its number among all that were handed over so far. -/
  | replay (numbers : List Nat)
  /-- Drop all captures. -/
  | reset
deriving DecidableEq, Repr

/-- What a user learns from a call. -/
inductive CaptureAnswer where
  /-- It was done. -/
  | done
  /-- It was refused. -/
  | refused (failure : Failure)
  /-- These captures were dropped. -/
  | taken (captures : List Capture)
deriving DecidableEq, Repr

/-- Something that keeps captures, and what the takes so far have handed over. -/
structure CaptureSession (σ : Type) where
  /-- What keeps the captures. -/
  kept : σ
  /-- What was taken, the first take first. -/
  taken : List Capture

namespace CaptureKeeper

variable {σ : Type} (keeper : CaptureKeeper σ)

/-- One call: its answer, and what follows. A refused capture changes nothing. -/
def call (session : CaptureSession σ) : CaptureCall → CaptureAnswer × CaptureSession σ
  | .push slot span =>
    match keeper.push session.kept slot span with
    | .ok kept => (.done, { session with kept })
    | .error failure => (.refused failure, session)
  | .rollback mark => (.done, { session with kept := keeper.rollback session.kept mark })
  | .take mark =>
    let cut := keeper.take session.kept mark
    (.taken cut.1, ⟨cut.2, session.taken ++ cut.1⟩)
  | .replay numbers =>
    let captures := numbers.filterMap fun number => session.taken[number]?
    (.done, { session with kept := keeper.replay session.kept captures })
  | .reset => (.done, { session with kept := keeper.reset session.kept })

/-- Several calls one after the other, with all answers. -/
def run (session : CaptureSession σ) :
    List CaptureCall → List CaptureAnswer × CaptureSession σ
  | [] => ([], session)
  | first :: later =>
    let answered := keeper.call session first
    let rest := run answered.2 later
    (answered.1 :: rest.1, rest.2)

end CaptureKeeper

/-! ## The log of a store -/

namespace CaptureStore

/-- A store that holds the captures of a log, each in a slot that exists. -/
structure Represents (store : CaptureStore) (log : CaptureLog) : Prop where
  /-- The store is what an empty one becomes by those captures. -/
  built : store = (ofCapacity log.capacity).replay log.entries
  /-- Every capture has a slot. -/
  inside : ∀ capture ∈ log.entries, capture.1 < log.capacity

/-- A new store has the slots it is made with. -/
@[simp] theorem capacity_ofCapacity (capacity : Nat) : (ofCapacity capacity).capacity = capacity :=
  List.length_replicate

/-- A new store has no entries. -/
@[simp] theorem size_ofCapacity (capacity : Nat) : (ofCapacity capacity).size = 0 := rfl

/-- A new store has no captures. -/
@[simp] theorem captures_ofCapacity (capacity : Nat) : (ofCapacity capacity).captures = [] := rfl

/-- A new store has no spans in any slot. -/
@[simp] theorem spansAt_ofCapacity (capacity slot : Nat) :
    (ofCapacity capacity).spansAt slot = [] := by
  by_cases inside : slot < capacity <;> simp [spansAt, ofCapacity, inside]

/-- A mark that no capture was made after leaves the store as it is. -/
theorem rollback_of_size_le {store : CaptureStore} {mark : Nat} (late : store.size ≤ mark) :
    store.rollback mark = store := by
  rw [rollback, Nat.sub_eq_zero_of_le late, undoLast]

/-- Nothing was captured after such a mark. -/
theorem take_of_size_le {store : CaptureStore} {mark : Nat} (late : store.size ≤ mark) :
    store.take mark = ([], store) := by
  rw [take, rollback_of_size_le late, Nat.sub_eq_zero_of_le late]
  rfl

namespace Represents

variable {store : CaptureStore} {log : CaptureLog}

/-- The empty store is the empty log. -/
theorem empty (capacity : Nat) : (ofCapacity capacity).Represents ⟨capacity, []⟩ :=
  ⟨rfl, fun _ member => absurd member List.not_mem_nil⟩

/-- A store has as many slots as its log. -/
theorem capacity_eq (represents : store.Represents log) : store.capacity = log.capacity := by
  rw [represents.built, capacity_replay, capacity_ofCapacity]

/-- The captures of a log that have slots of an empty store. -/
theorem inside_empty (represents : store.Represents log) :
    ∀ capture ∈ log.entries, capture.1 < (ofCapacity log.capacity).capacity := by
  intro capture member
  rw [capacity_ofCapacity]
  exact represents.inside capture member

/-- A store counts the entries of its log. -/
theorem size_eq (represents : store.Represents log) : store.size = log.entries.length := by
  rw [represents.built, size_replay represents.inside_empty, size_ofCapacity, Nat.zero_add]

/-- The captures of a store are the entries of its log, in order. -/
theorem captures_eq (represents : store.Represents log) : store.captures = log.entries := by
  rw [represents.built, captures_replay represents.inside_empty, captures_ofCapacity,
    List.nil_append]

/-- A slot has the spans that the log lists for it. -/
theorem spansAt_eq (represents : store.Represents log) (slot : Nat) :
    store.spansAt slot = log.spansAt slot := by
  rw [represents.built, spansAt_replay represents.inside_empty, spansAt_ofCapacity,
    List.nil_append]
  rfl

/-! ### One operation -/

/-- Replaying captures that have slots appends them. -/
theorem replay {captures : List Capture} (represents : store.Represents log)
    (inside : ∀ capture ∈ captures, capture.1 < log.capacity) :
    (store.replay captures).Represents (log.replay captures) where
  built := by rw [represents.built, ← replay_append]; rfl
  inside capture member := by
    rcases List.mem_append.mp member with early | late
    · exact represents.inside capture early
    · exact inside capture late

/-- The captures before a mark form a log of their own. -/
theorem before (represents : store.Represents log) (mark : Nat) :
    ((ofCapacity log.capacity).replay (log.entries.take mark)).Represents (log.rollback mark) :=
  ⟨rfl, fun capture member => represents.inside capture (List.mem_of_mem_take member)⟩

/-- Taking from a mark hands over what the log holds behind it. -/
theorem take_eq (represents : store.Represents log) (mark : Nat) :
    store.take mark =
      (log.entries.drop mark, (ofCapacity log.capacity).replay (log.entries.take mark)) := by
  by_cases late : log.entries.length ≤ mark
  · rw [take_of_size_le (represents.size_eq ▸ late), List.drop_of_length_le late,
      List.take_of_length_le late, ← represents.built]
  · let earlier := (ofCapacity log.capacity).replay (log.entries.take mark)
    have marked : earlier.mark = mark := by
      have counted := (represents.before mark).size_eq
      change earlier.size = (log.entries.take mark).length at counted
      rw [CaptureStore.mark, counted, List.length_take]
      omega
    have again : store = earlier.replay (log.entries.drop mark) := by
      rw [← replay_append, List.take_append_drop]
      exact represents.built
    have inside : ∀ capture ∈ log.entries.drop mark, capture.1 < earlier.capacity := by
      intro capture member
      rw [(represents.before mark).capacity_eq]
      exact represents.inside capture (List.mem_of_mem_drop member)
    have taken := take_replay inside
    rwa [marked, ← again] at taken

/-- Taking from a mark leaves what the log holds in front of it. -/
theorem take (represents : store.Represents log) (mark : Nat) :
    (store.take mark).1 = (log.take mark).1 ∧
      (store.take mark).2.Represents (log.take mark).2 := by
  rw [represents.take_eq mark]
  exact ⟨rfl, represents.before mark⟩

/-- Going back to a mark leaves the same. -/
theorem rollback (represents : store.Represents log) (mark : Nat) :
    (store.rollback mark).Represents (log.rollback mark) :=
  (represents.take mark).2

/-- Dropping all captures leaves none. -/
theorem reset (represents : store.Represents log) : store.reset.Represents log.reset := by
  rw [CaptureStore.reset, represents.capacity_eq]
  exact empty log.capacity

/-- A capture is refused by both or added to both. -/
theorem push (represents : store.Represents log) (slot : Nat) (span : Span) :
    (∃ stored logged, store.push slot span = .ok stored ∧ log.push slot span = .ok logged ∧
      stored.Represents logged ∧ logged.capacity = log.capacity) ∨
    ∃ failure, store.push slot span = .error failure ∧ log.push slot span = .error failure := by
  have same := represents.capacity_eq
  by_cases inside : slot < log.capacity
  · refine .inl ⟨_, _, push_eq_replay span (same.symm ▸ inside), if_pos inside, ?_, rfl⟩
    apply represents.replay
    intro capture member
    rw [List.mem_singleton.mp member]
    exact inside
  · exact .inr ⟨_, dif_neg (same.symm ▸ inside), if_neg inside⟩

/-- Dropping the newest captures one by one cuts the log from behind. -/
theorem undoLast (represents : store.Represents log) {count : Nat}
    (some_left : count ≤ log.entries.length) :
    (CaptureStore.undoLast count store).Represents
      (log.rollback (log.entries.length - count)) := by
  have cut := represents.rollback (log.entries.length - count)
  rwa [CaptureStore.rollback, represents.size_eq, Nat.sub_sub_self some_left] at cut

end Represents

/-! ## What a store shows -/

/-- The capture to be dropped next: the journal names its slot, and its span is the newest one
there. -/
def Tops (store : CaptureStore) (capture : Capture) : Prop :=
  ∃ earlier others, store.journal = capture.1 :: earlier ∧
    store.slots.getD capture.1 [] = capture.2 :: others

/-- A store answers every question as a log does. -/
structure Shows (store : CaptureStore) (log : CaptureLog) : Prop where
  /-- The number of slots. -/
  capacity : store.capacity = log.capacity
  /-- All captures. -/
  captures : store.captures = log.entries
  /-- The number of captures. -/
  size : store.size = log.entries.length
  /-- The mark to which captures made from now on can be dropped. -/
  mark : store.mark = log.entries.length
  /-- The spans of a slot. -/
  spans : ∀ slot, store.spans slot =
    if slot < log.capacity then .ok (log.spansAt slot) else .error (.captureOutOfBounds slot)
  /-- One span of a slot. -/
  spanAt : ∀ slot index, store.spanAt slot index =
    match (log.spansAt slot)[index]? with
    | some span => .ok span
    | none => .error (.captureOutOfBounds slot)
  /-- Whether a slot has spans. -/
  contains : ∀ slot, store.contains slot = true ↔ log.spansAt slot ≠ []
  /-- The capture to be dropped next, however many were dropped before. -/
  tops : ∀ count capture, log.entries.reverse[count]? = some capture →
    (undoLast count store).Tops capture

/-- A capture that was just recorded is to be dropped next. -/
theorem tops_record (store : CaptureStore) (slot : Nat) (span : Span)
    (inside : slot < store.capacity) : (store.record slot span inside).Tops (slot, span) := by
  have present : store.slots[slot]? = some store.slots[slot] := List.getElem?_eq_getElem inside
  refine ⟨store.journal, store.slots[slot], rfl, ?_⟩
  simp [record, List.getD_eq_getElem?_getD, present]

namespace Represents

variable {store : CaptureStore} {log : CaptureLog}

/-- The last capture of a log is to be dropped first. -/
theorem tops (represents : store.Represents log) (earlier : List Capture) (capture : Capture)
    (last : log.entries = earlier ++ [capture]) : store.Tops capture := by
  have inside : capture.1 < ((ofCapacity log.capacity).replay earlier).capacity := by
    rw [capacity_replay, capacity_ofCapacity]
    exact represents.inside capture (last ▸ List.mem_append_right _ List.mem_cons_self)
  rw [represents.built, last, replay_append, replay_cons capture.2 [] inside, replay_nil]
  exact tops_record _ capture.1 capture.2 inside

/-- Every capture of a log is to be dropped once all later ones are gone. -/
theorem tops_undoLast {count : Nat} {capture : Capture} (represents : store.Represents log)
    (found : log.entries.reverse[count]? = some capture) :
    (CaptureStore.undoLast count store).Tops capture := by
  have before : count < log.entries.length := by
    have bound := (List.getElem?_eq_some_iff.mp found).1
    rwa [List.length_reverse] at bound
  rw [List.getElem?_reverse before] at found
  have left : log.entries.length - count = log.entries.length - 1 - count + 1 := by omega
  apply (represents.undoLast (Nat.le_of_lt before)).tops
    (log.entries.take (log.entries.length - 1 - count))
  show log.entries.take (log.entries.length - count) = _
  rw [left, List.take_add_one, found, Option.toList_some]

/-- A store shows the log that it represents. -/
theorem shows (represents : store.Represents log) : store.Shows log where
  capacity := represents.capacity_eq
  captures := represents.captures_eq
  size := represents.size_eq
  mark := represents.size_eq
  spans slot := by rw [spans, represents.capacity_eq, represents.spansAt_eq]
  spanAt slot index := by
    unfold spanAt
    exact represents.spansAt_eq slot ▸ rfl
  contains slot := by
    rw [contains, represents.spansAt_eq, Bool.not_eq_true', List.isEmpty_eq_false_iff]
  tops _ _ found := represents.tops_undoLast found

end Represents

/-! ## Runs -/

/-- Two sessions that have gone alike so far. -/
structure Tracks (stored : CaptureSession CaptureStore) (logged : CaptureSession CaptureLog) :
    Prop where
  /-- The store holds the log. -/
  kept : stored.kept.Represents logged.kept
  /-- The same was taken from both. -/
  taken : stored.taken = logged.taken
  /-- What was taken has slots to go back to. -/
  inside : ∀ capture ∈ logged.taken, capture.1 < logged.kept.capacity

namespace Tracks

variable {stored : CaptureSession CaptureStore} {logged : CaptureSession CaptureLog}

/-- A call is answered alike and leaves both alike. -/
theorem call (tracks : Tracks stored logged) (call : CaptureCall) :
    (keeper.call stored call).1 = (CaptureLog.keeper.call logged call).1 ∧
      Tracks (keeper.call stored call).2 (CaptureLog.keeper.call logged call).2 := by
  obtain ⟨kept, taken, inside⟩ := tracks
  cases call with
  | push slot span =>
    unfold CaptureKeeper.call keeper CaptureLog.keeper
    dsimp only
    rcases kept.push slot span with
      ⟨store, log, added, appended, represents, same⟩ | ⟨failure, refused, rejected⟩
    · rw [added, appended]
      exact ⟨rfl, represents, taken, fun capture member => by
        rw [same]; exact inside capture member⟩
    · rw [refused, rejected]
      exact ⟨rfl, kept, taken, inside⟩
  | rollback mark => exact ⟨rfl, kept.rollback mark, taken, inside⟩
  | take mark =>
    obtain ⟨cut, left⟩ := kept.take mark
    refine ⟨congrArg CaptureAnswer.taken cut, left, ?_, ?_⟩
    · show stored.taken ++ (stored.kept.take mark).1 = logged.taken ++ (logged.kept.take mark).1
      rw [taken, cut]
    · intro capture member
      rcases List.mem_append.mp member with early | late
      · exact inside capture early
      · exact kept.inside capture (List.mem_of_mem_drop late)
  | replay numbers =>
    refine ⟨rfl, ?_, taken, inside⟩
    show (stored.kept.replay (numbers.filterMap fun number => stored.taken[number]?)).Represents _
    rw [taken]
    apply kept.replay
    intro capture member
    obtain ⟨number, _, found⟩ := List.mem_filterMap.mp member
    exact inside capture (List.mem_of_getElem? found)
  | reset => exact ⟨rfl, kept.reset, taken, inside⟩

/-- Several calls are answered alike and leave both alike. -/
theorem run (tracks : Tracks stored logged) (calls : List CaptureCall) :
    (keeper.run stored calls).1 = (CaptureLog.keeper.run logged calls).1 ∧
      Tracks (keeper.run stored calls).2 (CaptureLog.keeper.run logged calls).2 := by
  induction calls generalizing stored logged with
  | nil => exact ⟨rfl, tracks⟩
  | cons first later ih =>
    obtain ⟨answered, next⟩ := tracks.call first
    obtain ⟨answers, last⟩ := ih next
    refine ⟨?_, last⟩
    show (keeper.call stored first).1 :: (keeper.run (keeper.call stored first).2 later).1 = _
    rw [answered, answers]
    rfl

end Tracks

/-- A store answers every sequence of calls as a log does, and shows that log afterwards. -/
theorem run_refines_log (capacity : Nat) (calls : List CaptureCall) :
    let stored := keeper.run ⟨ofCapacity capacity, []⟩ calls
    let logged := CaptureLog.keeper.run ⟨⟨capacity, []⟩, []⟩ calls
    stored.1 = logged.1 ∧ stored.2.taken = logged.2.taken ∧
      stored.2.kept.Shows logged.2.kept := by
  have start : Tracks ⟨ofCapacity capacity, []⟩ ⟨⟨capacity, []⟩, []⟩ :=
    ⟨.empty capacity, rfl, fun _ member => absurd member List.not_mem_nil⟩
  obtain ⟨answers, tracks⟩ := start.run calls
  exact ⟨answers, tracks.taken, tracks.kept.shows⟩

example :
    (keeper.run ⟨ofCapacity 1, []⟩ [.push 0 ⟨4, 2⟩, .push 1 ⟨6, 1⟩, .take 0, .replay [0]]).1 =
      [.done, .refused (.captureOutOfBounds 1), .taken [(0, ⟨4, 2⟩)], .done] := by
  decide

end CaptureStore

end TextPattern
