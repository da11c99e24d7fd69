import TextPattern.Proofs.ReadingBounds

/-!
# Laws of effects

Going on from a match is associative, and so is putting another effect in the place of a failure.
A fork goes on from a match or puts another effect in the place of a failure; a round of a
repetition is one. The longer of two effects is one of them, or the failure of both, and it does not
matter which two of three are compared first.
-/

namespace TextPattern

variable {α β γ : Type}

namespace Effect

/-! ## One after another -/

/-- Captures that come first are those of the outer effect. -/
theorem after_after (earlier later : List Capture) (effect : Effect α) :
    (effect.after later).after earlier = effect.after (earlier ++ later) := by
  simp only [after, List.append_assoc]

/-- What goes on from a match goes on behind the captures that were made before. -/
theorem after_andThen (captures : List Capture) (effect : Effect α) (next : α → Nat → Effect β) :
    (effect.after captures).andThen next = (effect.andThen next).after captures := by
  cases effect with
  | mk ending stop own =>
  cases ending with
  | matched value =>
    show (next value stop).after (captures ++ own) = ((next value stop).after own).after captures
    rw [after_after]
  | _ => rfl

/-- Of three effects either two may be taken together. -/
theorem andThen_assoc (effect : Effect α) (next : α → Nat → Effect β)
    (last : β → Nat → Effect γ) :
    (effect.andThen next).andThen last =
      effect.andThen fun value stop => (next value stop).andThen last := by
  cases effect with
  | mk ending stop captures =>
  cases ending with
  | matched value => exact after_andThen captures (next value stop) last
  | _ => rfl

/-- What goes on from a match begins with it. -/
theorem andThen_matched {effect : Effect α} {next : α → Nat → Effect β} {value : α}
    (matched : effect.ending = .matched value) :
    effect.andThen next = (next value effect.stop).after effect.captures := by
  rw [andThen, matched]

/-- What goes on from a value that was passed through a function goes on from what it became. -/
theorem map_andThen (f : α → β) (effect : Effect α) (next : β → Nat → Effect γ) :
    (effect.map f).andThen next = effect.andThen fun value stop => next (f value) stop := by
  cases effect with
  | mk ending stop captures => cases ending <;> rfl

/-- Only the last value passes through a function. -/
theorem andThen_map (f : β → γ) (effect : Effect α) (next : α → Nat → Effect β) :
    (effect.andThen next).map f = effect.andThen fun value stop => (next value stop).map f := by
  cases effect with
  | mk ending stop captures => cases ending <;> rfl

/-- What passes through a function is a failure where it was one before. -/
theorem map_failed_iff {f : α → β} {effect : Effect α} {failure : Failure} :
    (effect.map f).ending = .failed failure ↔ effect.ending = .failed failure := by
  unfold map Ending.map
  cases effect.ending <;> simp

/-- An effect with the span from an offset to where it stops. -/
def cover (offset : Nat) (effect : Effect α) : Effect Span :=
  effect.map fun _ => .between offset effect.stop

/-- The span that was covered is not passed on. -/
theorem cover_andThen (offset : Nat) (effect : Effect α) (next : Nat → Effect β) :
    ((effect.cover offset).andThen fun _ stop => next stop) =
      effect.andThen fun _ stop => next stop := by
  cases effect with
  | mk ending stop captures => cases ending <;> rfl

/-- A later part is covered once all of it is. -/
theorem cover_andThen_cover (offset : Nat) (effect : Effect α) (next : Nat → Effect β) :
    (effect.andThen fun _ stop => (next stop).cover stop).cover offset =
      (effect.andThen fun _ stop => next stop).cover offset := by
  cases effect with
  | mk ending stop captures =>
  cases ending with
  | matched value =>
    dsimp only [andThen]
    cases next stop with
    | mk later last more => cases later <;> rfl
  | _ => rfl

/-! ## One instead of another -/

/-- What takes the place of a failure may fail in its turn. -/
theorem orElse_assoc (effect : Effect α) (second third : Failure → Effect α) :
    (effect.orElse second).orElse third =
      effect.orElse fun failure => (second failure).orElse third := by
  cases effect with
  | mk ending stop captures =>
  cases ending with
  | failed failure => rfl
  | _ => rfl

/-- Go on from a match, or with another effect in the place of a failure. -/
def fork (effect : Effect α) (other : Failure → Effect β) (next : α → Nat → Effect β) :
    Effect β :=
  match effect.ending with
  | .failed failure => other failure
  | _ => effect.andThen next

/-- A fork goes on from a match. -/
theorem fork_matched {effect : Effect α} {other : Failure → Effect β}
    {next : α → Nat → Effect β} {value : α} (matched : effect.ending = .matched value) :
    effect.fork other next = (next value effect.stop).after effect.captures := by
  rw [fork, matched]
  exact andThen_matched matched

/-- A fork ends as either way does, or without going on. -/
theorem fork_ending {motive : Ending β → Prop} {effect : Effect α} {other : Failure → Effect β}
    {next : α → Nat → Effect β} (back : ∀ failure, motive (other failure).ending)
    (onward : ∀ value, effect.ending = .matched value → motive (next value effect.stop).ending)
    (raised : ∀ misuse, motive (.raised misuse)) (exhausted : motive .exhausted) :
    motive (effect.fork other next).ending := by
  unfold fork andThen
  cases ended : effect.ending with
  | matched value => exact onward value ended
  | failed failure => exact back failure
  | raised misuse => exact raised misuse
  | exhausted => exact exhausted

/-- What comes behind a fork comes behind either way. -/
theorem fork_andThen (effect : Effect α) (other : Failure → Effect β)
    (next : α → Nat → Effect β) (last : β → Nat → Effect γ) :
    (effect.fork other next).andThen last =
      effect.fork (fun failure => (other failure).andThen last) fun value stop =>
        (next value stop).andThen last := by
  cases effect with
  | mk ending stop captures =>
  cases ending with
  | matched value => exact andThen_assoc ⟨.matched value, stop, captures⟩ next last
  | _ => rfl

/-- The longer of two effects from the same offset, the first where they stop at the same one. Two
failures are the first of them, and nothing else. -/
def longer (offset : Nat) (left right : Effect α) : Effect α :=
  match left.ending, right.ending with
  | .matched _, .matched _ => if right.stop ≤ left.stop then left else right
  | .matched _, .failed _ => left
  | .failed failure, .failed _ => .still (.failed failure) offset
  | .matched _, _ | .failed _, _ => right
  | _, _ => left

/-- The longest of three effects is the same, whichever two are compared first. -/
theorem longer_assoc (offset : Nat) (first second third : Effect α) :
    longer offset (longer offset first second) third =
      longer offset first (longer offset second third) := by
  obtain ⟨one, oneStop, oneCaptures⟩ := first
  obtain ⟨two, twoStop, twoCaptures⟩ := second
  obtain ⟨three, threeStop, threeCaptures⟩ := third
  cases one with
  | matched =>
    cases two with
    | matched =>
      by_cases shorter : twoStop ≤ oneStop
      · cases three with
        | matched =>
          by_cases shortest : threeStop ≤ twoStop
          · have short : threeStop ≤ oneStop := by omega
            simp [longer, shorter, shortest, short]
          · simp [longer, shorter, shortest]
        | _ => simp [longer, shorter]
      · cases three with
        | matched =>
          by_cases short : threeStop ≤ twoStop
          · simp [longer, shorter, short]
          · have longest : ¬ threeStop ≤ oneStop := by omega
            simp [longer, shorter, short, longest]
        | _ => simp [longer, shorter]
    | failed => cases three <;> rfl
    | _ => rfl
  | failed =>
    cases two with
    | matched =>
      cases three with
      | matched => by_cases shorter : threeStop ≤ twoStop <;> simp [longer, shorter]
      | _ => rfl
    | failed => cases three <;> rfl
    | _ => rfl
  | _ => rfl

instance (offset : Nat) : Std.Associative (longer (α := α) offset) := ⟨longer_assoc offset⟩

end Effect

namespace Reading

/-- Of three readings either two may be taken together. -/
theorem bind_assoc (reading : Reading α) (next : α → Reading β) (last : β → Reading γ) :
    (reading >>= next) >>= last = reading >>= fun value => next value >>= last := by
  funext subject capacity offset
  exact Effect.andThen_assoc _ _ _

/-- What comes after a reading does not ask what it covers. -/
theorem covering_bind (reading : Reading α) (next : Reading β) :
    (reading.covering >>= fun _ => next) = reading >>= fun _ => next := by
  funext subject capacity offset
  exact Effect.cover_andThen offset _ fun stop => next subject capacity stop

/-- What all of it covers does not depend on what its last part covers. -/
theorem covering_bind_covering (reading : Reading α) (next : Reading β) :
    (reading >>= fun _ => next.covering).covering = (reading >>= fun _ => next).covering := by
  funext subject capacity offset
  exact Effect.cover_andThen_cover offset _ fun stop => next subject capacity stop

/-- There is nothing to be undone where a failure was undone before. -/
theorem restoring_restoring (reading : Reading α) :
    reading.restoring.restoring = reading.restoring := by
  funext subject capacity offset
  exact Effect.orElse_assoc _ _ _

/-- One round of a repetition that has room for it. -/
theorem repeatFrom_succ (step : Reading α) (bounds : Bounds) (rounds : Nat) {count : Nat}
    (unreached : bounds.reached count = false) (subject : Subject) (capacity : Option Nat)
    (offset : Nat) :
    repeatFrom bounds step (rounds + 1) count subject capacity offset =
      (step subject capacity offset).fork
        (fun failure =>
          if count < bounds.least then .still (.failed failure) offset
          else .still (.matched []) offset)
        fun value stop =>
          if stop = offset then .still (.matched [value]) stop
          else
            (repeatFrom bounds step rounds (count + 1) subject capacity stop).map (value :: ·) := by
  rw [repeatFrom]
  dsimp only
  rw [if_neg (Bool.eq_false_iff.mp unreached)]
  rfl

/-- There is no further round at the limit. -/
theorem repeatFrom_of_reached (step : Reading α) (bounds : Bounds) (rounds : Nat) {count : Nat}
    (reached : bounds.reached count = true) (subject : Subject) (capacity : Option Nat)
    (offset : Nat) :
    repeatFrom bounds step rounds count subject capacity offset =
      .still (.matched []) offset := by
  cases rounds <;> (rw [repeatFrom]; exact if_pos reached)

namespace Sound

variable {subject : Subject} {capacity : Option Nat} {offset : Nat}

/-- A sound span is what it covers. -/
theorem covering_eq {reading : Reading Span} (sound : reading.Sound)
    (inside : offset ≤ subject.length) :
    reading.covering subject capacity offset = reading subject capacity offset := by
  have covers := sound.covers subject capacity offset
  show (reading subject capacity offset).map
    (fun _ => Span.between offset (reading subject capacity offset).stop) = _
  generalize reading subject capacity offset = effect at covers ⊢
  obtain ⟨ending, stop, captures⟩ := effect
  cases ending with
  | matched span =>
    rw [covers span inside rfl]
    rfl
  | _ => rfl

section
variable {first second : Reading Span} (left : first.Sound) (right : second.Sound)
  (inside : offset ≤ subject.length)
include left right inside

/-- Of two sound spans from one offset the one that stops first is the shorter one. -/
theorem length_le_iff {span other : Span}
    (matched : (first subject capacity offset).ending = .matched span)
    (matchedOther : (second subject capacity offset).ending = .matched other) :
    other.length ≤ span.length ↔
      (second subject capacity offset).stop ≤ (first subject capacity offset).stop := by
  have forward := (left.bounded subject capacity offset inside).forward
  have otherForward := (right.bounded subject capacity offset inside).forward
  rw [left.covers subject capacity offset span inside matched,
    right.covers subject capacity offset other inside matchedOther, Span.between, Span.between]
  dsimp only
  omega

/-- The longer of two sound readings is the longer of their effects. -/
theorem longest_apply :
    longest first second subject capacity offset =
      .longer offset (first subject capacity offset) (second subject capacity offset) := by
  have kept : (first subject capacity offset).map (fun _ =>
      Span.between offset (first subject capacity offset).stop) = first subject capacity offset :=
    left.covering_eq inside
  unfold longest Effect.longer
  dsimp only
  rw [kept]
  cases ended : (first subject capacity offset).ending with
  | matched span =>
    cases endedOther : (second subject capacity offset).ending with
    | matched other =>
      have covered : span.length = (first subject capacity offset).stop - offset := by
        rw [left.covers subject capacity offset span inside ended, Span.between]
      have shorter := length_le_iff left right inside ended endedOther
      simp only [← covered, shorter]
    | _ => rfl
  | failed failure =>
    unfold Effect.orElse
    cases endedOther : (second subject capacity offset).ending <;> rfl
  | _ => rfl

end

end Sound

end Reading

end TextPattern
