import TextPattern.Failure

/-!
# Values and conversions

What a match yields besides its span: a slice of the input, or what converters and the combinators
that gather values make of slices. A converter may produce a value, nothing, a failure, or break
off with a message; `Conversion.settle` turns the last three into one kind of failure.
-/

namespace TextPattern

/-- The value of a match. -/
inductive Value where
  /-- A slice of the input. -/
  | slice (bytes : Bytes)
  /-- A text of its own. -/
  | text (bytes : Bytes)
  /-- A whole number. -/
  | integer (number : Int)
  /-- The values of repetitions, in order. -/
  | list (values : List Value)
  /-- Two values. -/
  | pair (first second : Value)
deriving Repr

/-- The octets of a slice or of a text. -/
def Value.bytes? : Value → Option Bytes
  | .slice bytes => some bytes
  | .text bytes => some bytes
  | _ => none

/-- The number of an integer value. -/
def Value.integer? : Value → Option Int
  | .integer number => some number
  | _ => none

/-- What a converter made of a value. -/
inductive Conversion where
  /-- A value. -/
  | produced (value : Value)
  /-- No value, and no reason why. -/
  | absent
  /-- A failure of its own. -/
  | failed (failure : Failure)
  /-- It broke off with a message, which a zero octet ends early. -/
  | brokeOff (message : Bytes)
deriving Repr

/-- A conversion of values. -/
abbrev Converter := Value → Conversion

namespace Conversion

/-- Why a conversion did not produce a value. A failed conversion inside another one hands on its
cause whole, any other failure its message. The message of a conversion that broke off counts up
to its first zero octet. -/
def cause : Conversion → Bytes
  | .produced _ => []
  | .absent => Bytes.ofString "conversion produced no value"
  | .failed (.conversionFailed _ _ cause) => cause
  | .failed failure => failure.message
  | .brokeOff message => message.beforeZero

/-- The value of a conversion, or the failure to convert the slice at a position. -/
def settle (conversion : Conversion) (position : Nat) (slice : Bytes) : Result Value :=
  match conversion with
  | .produced value => .ok value
  | refused => .error (.conversionFailed position slice refused.cause)

end Conversion

end TextPattern
