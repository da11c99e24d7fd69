import TextPattern.Bytes

/-!
# Numerals

Reading a whole number of a machine type from text: an optional minus sign where the type has
one, then digits of a radix and nothing else. `Numeral.parse` reads the numeral that a text begins
with, as far as there is one; `Numeral.read` asks for no more than a numeral. A number outside the
type's range is told apart from text that is no numeral, even when other text follows the digits.
-/

namespace TextPattern

/-- A machine type of whole numbers. -/
structure IntegerType where
  /-- Whether negative numbers belong to it. -/
  signed : Bool
  /-- How many bits it has. -/
  bits : Nat
deriving DecidableEq, Repr

namespace IntegerType

/-- How many numbers of the type are not negative: a sign takes one of the bits. -/
def magnitudes (type : IntegerType) : Nat :=
  Nat.pow 2 (if type.signed then type.bits - 1 else type.bits)

/-- The least number of the type. -/
def least (type : IntegerType) : Int := if type.signed then -(type.magnitudes : Int) else 0

/-- The greatest number of the type. -/
def greatest (type : IntegerType) : Int := type.magnitudes - 1

/-- Whether a number belongs to the type. -/
def holds (type : IntegerType) (number : Int) : Bool :=
  type.least ≤ number && number ≤ type.greatest

end IntegerType

namespace Numeral

/-! ## The numeral that a text begins with -/

/-- The value of an octet as a digit: figures stand for less than ten, and letters of either case
for what follows. -/
def digitValue? (octet : UInt8) : Option Nat :=
  if 0x30 ≤ octet && octet ≤ 0x39 then some (octet - 0x30).toNat
  else if 0x61 ≤ octet && octet ≤ 0x7A then some (10 + (octet - 0x61).toNat)
  else if 0x41 ≤ octet && octet ≤ 0x5A then some (10 + (octet - 0x41).toNat)
  else none

/-- The value of an octet as a digit of a radix. -/
def digit? (radix : Nat) (octet : UInt8) : Option Nat :=
  (digitValue? octet).filter fun digit => digit < radix

/-- The digits that a text begins with, and the text after them. -/
def splitDigits (radix : Nat) : Bytes → List Nat × Bytes
  | [] => ([], [])
  | octet :: rest =>
    match digit? radix octet with
    | none => ([], octet :: rest)
    | some digit =>
      let split := splitDigits radix rest
      (digit :: split.1, split.2)

/-- The number that digits denote, the most significant first. -/
def ofDigits (radix : Nat) (digits : List Nat) : Nat :=
  digits.foldl (fun number digit => number * radix + digit) 0

/-- Take the minus sign off a text where the type allows one: whether there was one, and the
rest. -/
def splitSign (type : IntegerType) : Bytes → Bool × Bytes
  | [] => (false, [])
  | octet :: rest =>
    if type.signed && octet == 0x2D then (true, rest) else (false, octet :: rest)

/-- Why no number was stored. -/
inductive ParseError where
  /-- The text does not begin with a numeral. -/
  | invalidArgument
  /-- It begins with a numeral for a number that the type does not hold. -/
  | resultOutOfRange
deriving DecidableEq, Repr

/-- What parsing a numeral leaves. -/
structure Parsed where
  /-- What the variable for the number holds. -/
  number : Int
  /-- The text behind the numeral, or the whole text if there is none. -/
  rest : Bytes
  /-- Why the variable was not written. -/
  error : Option ParseError

/-- Parse the numeral that a text begins with: a minus sign where the type has one, and as many
digits as follow, of which there must be one. The number is stored unless the type does not hold it;
whatever is not stored leaves what the variable held before. -/
def parse (type : IntegerType) (radix : Nat) (before : Int) (text : Bytes) : Parsed :=
  let unsigned := splitSign type text
  let split := splitDigits radix unsigned.2
  let magnitude : Int := ofDigits radix split.1
  let number := if unsigned.1 then -magnitude else magnitude
  if split.1.isEmpty then ⟨before, text, some .invalidArgument⟩
  else if type.holds number then ⟨number, split.2, none⟩
  else ⟨before, split.2, some .resultOutOfRange⟩

/-! ## Texts that are numerals -/

/-- Why a text could not be read. -/
inductive Refusal where
  /-- The digits denote a number that the type does not hold. -/
  | outOfRange
  /-- There are no digits, or something follows them. -/
  | notNumeral
deriving DecidableEq, Repr

/-- The wording of a refusal. -/
def Refusal.message : Refusal → Bytes
  | .outOfRange => Bytes.ofString "integer out of range"
  | .notNumeral => Bytes.ofString "invalid integer"

/-- Read a whole text as a number of a type. -/
def read (type : IntegerType) (radix : Nat) (text : Bytes) : Except Refusal Int :=
  let parsed := parse type radix 0 text
  if parsed.error = some .resultOutOfRange then .error .outOfRange
  else if parsed.error.isSome || !parsed.rest.isEmpty then .error .notNumeral
  else .ok parsed.number

end Numeral

end TextPattern
