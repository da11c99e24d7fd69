import TextPattern.Cursor
import TextPattern.Unicode.RuneClass
import TextPattern.ValueSet

/-!
# Unit predicates

A predicate accepts or refuses a unit by its value. The same predicate serves runes and octets;
rune classes accept octets only below 128, where octets and runes mean the same.
-/

namespace TextPattern

/-- What a single unit may be. -/
inductive Predicate where
  /-- Any unit. -/
  | any
  /-- Any unit but the line feed. -/
  | wild
  /-- One value. -/
  | equal (value : Nat)
  /-- The values from one to another, both included. -/
  | range (first last : Nat)
  /-- The values of a set. -/
  | set (members : ValueSet)
  /-- The runes of some classes, under the name that failures give them. -/
  | classes (mask : ClassMask) (name : String)
  /-- The digits of a radix, letters of either case standing for ten and up. -/
  | digit (radix : Nat)
  /-- A caller's own test. -/
  | satisfies (test : Nat → Bool)
  /-- What both predicates accept. -/
  | both (left right : Predicate)
  /-- What at least one of the predicates accepts. -/
  | either (left right : Predicate)
  /-- What the predicate refuses. -/
  | not (inner : Predicate)

namespace Predicate

/-- The values from `first` to `last`. -/
def range? (first last : Nat) : Except Misuse Predicate :=
  if last < first then .error .reversedRange else .ok (.range first last)

/-- The digits of a radix, which lies between 2 and 36. -/
def digit? (radix : Nat) : Except Misuse Predicate :=
  if radix < 2 || 36 < radix then .error .radixOutOfRange else .ok (.digit radix)

/-- One of the listed values. -/
def ofValues (values : List Nat) : Predicate := .set (.ofList values)

/-- One of the runes of a text. -/
def ofText (text : Bytes) : Predicate := .set (.ofText text)

/-- The units of at least one of the classes that a mask names. -/
def ofMask (mask : ClassMask) : Predicate := .classes mask "unit in character classes"

/-- How many values a set has; other predicates have none. -/
def size : Predicate → Nat
  | .set members => members.size
  | _ => 0

/-- The value of a rune as a digit: 0 to 9, then the letters of either case from ten on. -/
def digitValue? (rune : Nat) : Option Nat :=
  if Rune.isAsciiDigit rune then some (rune - 0x30)
  else if Rune.isAsciiLowercase rune then some (rune - 0x61 + 10)
  else if Rune.isAsciiUppercase rune then some (rune - 0x41 + 10)
  else none

/-- Whether a unit of this value is accepted, under the way the input is read. -/
def accepts (encoding : Encoding) : Predicate → Nat → Bool
  | .any, _ => true
  | .wild, value => value != 0x0A
  | .equal wanted, value => value == wanted
  | .range first last, value => first ≤ value && value ≤ last
  | .set members, value => members.contains value
  | .classes mask _, value =>
    match encoding with
    | .utf8 => mask.holds value
    | .octet => Rune.isAscii value && mask.holds value
  | .digit radix, value => (digitValue? value).any fun digit => digit < radix
  | .satisfies test, value => test value
  | .both left right, value => accepts encoding left value && accepts encoding right value
  | .either left right, value => accepts encoding left value || accepts encoding right value
  | .not inner, value => !accepts encoding inner value

/-- What a failure says was expected. -/
def expected : Predicate → Bytes
  | .any => Bytes.ofString "any unit"
  | .wild => Bytes.ofString "any unit except newline"
  | .equal _ => Bytes.ofString "literal unit"
  | .range .. => Bytes.ofString "unit in range"
  | .set _ => Bytes.ofString "unit in set"
  | .classes _ name => Bytes.ofString name
  | .digit _ => Bytes.ofString "digit"
  | .satisfies _ => Bytes.ofString "unit satisfying predicate"
  | .both .. => Bytes.ofString "unit matching all predicates"
  | .either .. => Bytes.ofString "unit matching any predicate"
  | .not _ => Bytes.ofString "unit not matching predicate"

/-- A letter of any script. -/
def alphabetic : Predicate := .classes (.of .alphabetic) "alphabetic"
/-- A number of any script. -/
def numeric : Predicate := .classes (.of .numeric) "numeric"
/-- A letter or a number of any script. -/
def alphanumeric : Predicate :=
  .classes ((ClassMask.of .alphabetic).union (.of .numeric)) "alphanumeric"
/-- White space of any script. -/
def whitespace : Predicate := .classes (.of .whitespace) "whitespace"
/-- A control rune of either block. -/
def control : Predicate := .classes (.of .control) "control"
/-- A unit below 128. -/
def ascii : Predicate := .classes (.of .ascii) "ascii"
/-- A letter of either case. -/
def asciiAlphabetic : Predicate := .classes (.of .asciiAlphabetic) "ascii alphabetic"
/-- A letter or a digit. -/
def asciiAlphanumeric : Predicate :=
  .classes ((ClassMask.of .asciiAlphabetic).union (.of .asciiDigit)) "ascii alphanumeric"
/-- A digit from 0 to 9. -/
def asciiDigit : Predicate := .classes (.of .asciiDigit) "ascii digit"
/-- A digit of radix 16. -/
def asciiHexdigit : Predicate := .classes (.of .asciiHexdigit) "ascii hexdigit"
/-- A letter from a to z. -/
def asciiLowercase : Predicate := .classes (.of .asciiLowercase) "ascii lowercase"
/-- A letter from A to Z. -/
def asciiUppercase : Predicate := .classes (.of .asciiUppercase) "ascii uppercase"
/-- A graphic rune that is neither letter nor digit. -/
def asciiPunctuation : Predicate := .classes (.of .asciiPunctuation) "ascii punctuation"
/-- A rune that leaves ink. -/
def asciiGraphic : Predicate := .classes (.of .asciiGraphic) "ascii graphic"
/-- Space, tab, line feed, form feed or carriage return. -/
def asciiWhitespace : Predicate := .classes (.of .asciiWhitespace) "ascii whitespace"
/-- A rune below the space, or delete. -/
def asciiControl : Predicate := .classes (.of .asciiControl) "ascii control"
/-- A letter, a digit or the underscore. -/
def word : Predicate := .classes (.of .word) "word"

end Predicate

end TextPattern
