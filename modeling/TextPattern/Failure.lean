import TextPattern.Bytes

/-!
# Failures and results

A failure says why a match attempt did not succeed and where. Its four causes carry exactly the
data they need; `Failure.message` gives the wording. A misuse is a breach of the library's rules of
use instead. It is no answer about the input: building a matcher from impossible parts, running one
that has no definition, or asking a failed result for its value ends the whole attempt.
-/

namespace TextPattern

/-! ## Misuse -/

/-- The rules of use that can be broken. -/
inductive Misuse where
  /-- A range of units whose first member lies above its last. -/
  | reversedRange
  /-- Repetition bounds whose minimum lies above their maximum. -/
  | reversedBounds
  /-- A radix for which there are not enough digits, or only one. -/
  | radixOutOfRange
  /-- A matcher that was never defined, or whose definition is gone. -/
  | undefinedMatcher
  /-- The value of a result that holds a failure. -/
  | valueOfFailure
  /-- A slice of the input that begins past its end. -/
  | sliceOutOfRange
deriving DecidableEq, Repr

/-- The wording of a misuse. -/
def Misuse.message : Misuse → Bytes
  | .reversedRange => Bytes.ofString "character range is reversed"
  | .reversedBounds => Bytes.ofString "minimum repetition count exceeds maximum"
  | .radixOutOfRange => Bytes.ofString "radix must be between 2 and 36"
  | .undefinedMatcher =>
    Bytes.ofString "dynamic matcher is undefined or its definition has expired"
  | .valueOfFailure => Bytes.ofString "attempted to access the value of a failed result"
  | .sliceOutOfRange => Bytes.ofString "slice begins past the end of the input"

/-! ## Failures -/

/-- Why a match attempt did not succeed. -/
inductive Failure where
  /-- The input at `position` is not what was expected there. -/
  | mismatch (position : Nat) (expected : Bytes)
  /-- The input ends at `position`, where more was needed. -/
  | outOfBounds (position : Nat)
  /-- The capture store has no slot of this number. -/
  | captureOutOfBounds (slot : Nat)
  /-- The input matched at `position`, but `slice` could not be converted. -/
  | conversionFailed (position : Nat) (slice cause : Bytes)
deriving DecidableEq, Repr

namespace Failure

/-- The four kinds of failure, in the order in which they are numbered. -/
inductive Kind where
  | mismatch
  | outOfBounds
  | captureOutOfBounds
  | conversionFailed
deriving DecidableEq, Repr

/-- The name of a kind, as messages begin with it. -/
def Kind.name : Kind → Bytes
  | .mismatch => Bytes.ofString "mismatch"
  | .outOfBounds => Bytes.ofString "out of bounds"
  | .captureOutOfBounds => Bytes.ofString "capture out of bounds"
  | .conversionFailed => Bytes.ofString "conversion failed"

/-- The kinds by number. -/
def Kind.ofNumber? : Nat → Option Kind
  | 0 => some .mismatch
  | 1 => some .outOfBounds
  | 2 => some .captureOutOfBounds
  | 3 => some .conversionFailed
  | _ => none

/-- The name of the kind with this number, `unknown` when there is none. -/
def Kind.nameOfNumber (number : Nat) : Bytes :=
  match Kind.ofNumber? number with
  | some kind => kind.name
  | none => Bytes.ofString "unknown"

/-- The kind of a failure. -/
def kind : Failure → Kind
  | .mismatch .. => .mismatch
  | .outOfBounds .. => .outOfBounds
  | .captureOutOfBounds .. => .captureOutOfBounds
  | .conversionFailed .. => .conversionFailed

/-- The offset a failure points at; zero for a missing capture slot, which has none. -/
def position : Failure → Nat
  | .mismatch position _ => position
  | .outOfBounds position => position
  | .captureOutOfBounds _ => 0
  | .conversionFailed position _ _ => position

/-- The slot that was missing; zero for other failures. -/
def slot : Failure → Nat
  | .captureOutOfBounds slot => slot
  | _ => 0

/-- What a mismatch expected; empty for other failures. -/
def expected : Failure → Bytes
  | .mismatch _ expected => expected
  | _ => []

/-- The slice that a conversion refused; empty for other failures. -/
def slice : Failure → Bytes
  | .conversionFailed _ slice _ => slice
  | _ => []

/-- Why a conversion refused its slice; empty for other failures. -/
def cause : Failure → Bytes
  | .conversionFailed _ _ cause => cause
  | _ => []

/-- The wording of a failure: its kind, where it happened, and what was wrong there. -/
def message (failure : Failure) : Bytes :=
  failure.kind.name ++
    match failure with
    | .mismatch position expected =>
      Bytes.ofString " at offset " ++ Bytes.decimal position ++
        Bytes.ofString ": expected " ++ expected
    | .outOfBounds position => Bytes.ofString " at offset " ++ Bytes.decimal position
    | .captureOutOfBounds slot => Bytes.ofString ": slot " ++ Bytes.decimal slot
    | .conversionFailed position slice cause =>
      Bytes.ofString " at offset " ++ Bytes.decimal position ++ Bytes.ofString " for \"" ++
        slice ++ Bytes.ofString "\": " ++ cause

end Failure

/-! ## Results -/

/-- A value, or the failure that took its place. -/
abbrev Result (α : Type) := Except Failure α

namespace Result

variable {α : Type}

/-- Whether a result holds a value. -/
def succeeded : Result α → Bool
  | .ok _ => true
  | .error _ => false

/-- The value, or the alternative where there is none. -/
def valueOr (alternative : α) : Result α → α
  | .ok value => value
  | .error _ => alternative

/-- The value; asking a failure for it is a misuse. -/
def value : Result α → Except Misuse α
  | .ok value => .ok value
  | .error _ => .error .valueOfFailure

/-- A result that only says whether there was a value. -/
def discard : Result α → Result Unit
  | .ok _ => .ok ()
  | .error failure => .error failure

end Result

end TextPattern
