import TextPattern.Numeral
import TextPattern.Value

/-!
# Converters

Converters for the values that matchers yield. One that is handed a value of the wrong form
produces nothing.
-/

namespace TextPattern.Converter

/-- A converter of slices and texts. -/
def ofBytes (convert : Bytes → Conversion) : Converter := fun value =>
  match value.bytes? with
  | some bytes => convert bytes
  | none => .absent

/-- Read a text as an integer of a type in a radix. -/
def integerOf (type : IntegerType) (radix : Nat) (text : Bytes) : Result Int :=
  match Numeral.read type radix text with
  | .ok number => .ok number
  | .error refusal => .error (.conversionFailed 0 text refusal.message)

/-- Read integers of a type, in a radix between 2 and 36. -/
def toInteger? (type : IntegerType) (radix : Int) : Except Misuse Converter :=
  if radix < 2 || 36 < radix then .error .radixOutOfRange
  else .ok <| ofBytes fun text =>
    match integerOf type radix.toNat text with
    | .ok number => .produced (.integer number)
    | .error failure => .failed failure

/-- Copy a slice into a text of its own. -/
def toText : Converter := ofBytes fun bytes => .produced (.text bytes)

/-- How many octets a text has. -/
def length : Converter := ofBytes fun bytes => .produced (.integer bytes.length)

/-- Twice an integer. -/
def double : Converter := fun value =>
  match value.integer? with
  | some number => .produced (.integer (number * 2))
  | none => .absent

/-- How many values a list has. -/
def size : Converter
  | .list values => .produced (.integer values.length)
  | _ => .absent

/-- The sum of a list of integers. -/
def sum : Converter
  | .list values =>
    match values.mapM Value.integer? with
    | some numbers => .produced (.integer (numbers.foldl (· + ·) 0))
    | none => .absent
  | _ => .absent

/-- The first of a pair. -/
def first : Converter
  | .pair value _ => .produced value
  | _ => .absent

/-- The second of a pair. -/
def second : Converter
  | .pair _ value => .produced value
  | _ => .absent

/-- The number that a table lists for a text; a text that is not listed yields nothing. -/
def lookup (table : List (Bytes × Int)) : Converter := ofBytes fun bytes =>
  match table.lookup bytes with
  | some number => .produced (.integer number)
  | none => .absent

/-- How many octets a text has, breaking off with a message when there are too few. -/
def minimumLength (least : Nat) (message : Bytes) : Converter := ofBytes fun bytes =>
  if bytes.length < least then .brokeOff message else .produced (.integer bytes.length)

/-- How many octets a text has, which must be an even number. -/
def evenLength : Converter := ofBytes fun bytes =>
  if bytes.length % 2 = 1 then
    .failed (.mismatch bytes.length (Bytes.ofString "even length"))
  else .produced (.integer bytes.length)

/-- Fail in one and the same way, whatever the value. -/
def failing (failure : Failure) : Converter := fun _ => .failed failure

/-- Break off over a misuse, whatever the value. -/
def breaking (misuse : Misuse) : Converter := fun _ => .brokeOff misuse.message

end TextPattern.Converter
