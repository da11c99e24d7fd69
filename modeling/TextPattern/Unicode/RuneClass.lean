import TextPattern.Unicode.Tables

/-!
# Rune classes

Fifteen classes of runes, each with a bit of its own, and masks that name several classes at once.
Letters and numbers below 128 are decided by comparison; the tables serve the other runes.
-/

namespace TextPattern

namespace Rune

/-- A rune below 128. -/
def isAscii (rune : Nat) : Bool := rune < 0x80

/-- A letter from A to Z. -/
def isAsciiUppercase (rune : Nat) : Bool := 0x41 ≤ rune && rune ≤ 0x5A

/-- A letter from a to z. -/
def isAsciiLowercase (rune : Nat) : Bool := 0x61 ≤ rune && rune ≤ 0x7A

/-- A letter of either case. -/
def isAsciiAlphabetic (rune : Nat) : Bool := isAsciiUppercase rune || isAsciiLowercase rune

/-- A digit from 0 to 9. -/
def isAsciiDigit (rune : Nat) : Bool := 0x30 ≤ rune && rune ≤ 0x39

/-- A letter or a digit. -/
def isAsciiAlphanumeric (rune : Nat) : Bool := isAsciiAlphabetic rune || isAsciiDigit rune

/-- A digit, or a letter from a to f of either case. -/
def isAsciiHexdigit (rune : Nat) : Bool :=
  isAsciiDigit rune || (0x61 ≤ rune && rune ≤ 0x66) || (0x41 ≤ rune && rune ≤ 0x46)

/-- A rune that leaves ink: anything from the exclamation mark to the tilde. -/
def isAsciiGraphic (rune : Nat) : Bool := 0x21 ≤ rune && rune ≤ 0x7E

/-- A graphic rune that is neither letter nor digit. -/
def isAsciiPunctuation (rune : Nat) : Bool := isAsciiGraphic rune && !isAsciiAlphanumeric rune

/-- Space, tab, line feed, form feed or carriage return. -/
def isAsciiWhitespace (rune : Nat) : Bool :=
  rune == 0x20 || rune == 0x09 || rune == 0x0A || rune == 0x0C || rune == 0x0D

/-- A rune below the space, or delete. -/
def isAsciiControl (rune : Nat) : Bool := rune < 0x20 || rune == 0x7F

/-- A letter, a digit or the underscore. -/
def isWord (rune : Nat) : Bool := isAsciiAlphanumeric rune || rune == 0x5F

/-- A letter of any script. -/
def isAlphabetic (rune : Nat) : Bool :=
  if isAscii rune then isAsciiAlphabetic rune else Unicode.alphabeticTable.search rune

/-- A number of any script. -/
def isNumeric (rune : Nat) : Bool :=
  if isAscii rune then isAsciiDigit rune else Unicode.numericTable.search rune

/-- A letter or a number of any script. -/
def isAlphanumeric (rune : Nat) : Bool := isAlphabetic rune || isNumeric rune

/-- White space of any script. -/
def isWhitespace (rune : Nat) : Bool := Unicode.whitespaceTable.search rune

/-- A control rune of either block. -/
def isControl (rune : Nat) : Bool := rune < 0x20 || (0x7F ≤ rune && rune ≤ 0x9F)

end Rune

/-- The classes that a mask can name. -/
inductive RuneClass where
  | alphabetic
  | numeric
  | whitespace
  | control
  | ascii
  | asciiAlphabetic
  | asciiDigit
  | asciiHexdigit
  | asciiLowercase
  | asciiUppercase
  | asciiPunctuation
  | asciiGraphic
  | asciiWhitespace
  | asciiControl
  | word
deriving DecidableEq, Repr

namespace RuneClass

/-- All classes, by ascending bit. -/
def all : List RuneClass :=
  [.alphabetic, .numeric, .whitespace, .control, .ascii, .asciiAlphabetic, .asciiDigit,
    .asciiHexdigit, .asciiLowercase, .asciiUppercase, .asciiPunctuation, .asciiGraphic,
    .asciiWhitespace, .asciiControl, .word]

/-- Whether a rune belongs to the class. -/
def holds : RuneClass → Nat → Bool
  | .alphabetic => Rune.isAlphabetic
  | .numeric => Rune.isNumeric
  | .whitespace => Rune.isWhitespace
  | .control => Rune.isControl
  | .ascii => Rune.isAscii
  | .asciiAlphabetic => Rune.isAsciiAlphabetic
  | .asciiDigit => Rune.isAsciiDigit
  | .asciiHexdigit => Rune.isAsciiHexdigit
  | .asciiLowercase => Rune.isAsciiLowercase
  | .asciiUppercase => Rune.isAsciiUppercase
  | .asciiPunctuation => Rune.isAsciiPunctuation
  | .asciiGraphic => Rune.isAsciiGraphic
  | .asciiWhitespace => Rune.isAsciiWhitespace
  | .asciiControl => Rune.isAsciiControl
  | .word => Rune.isWord

end RuneClass

/-- A set of rune classes, one bit for each; the highest of the sixteen bits names none. -/
structure ClassMask where
  /-- The bits, the first class in the lowest. -/
  bits : UInt16
deriving DecidableEq, Repr

namespace ClassMask

/-- The mask that names one class. -/
def of : RuneClass → ClassMask
  | .alphabetic => ⟨0x0001⟩
  | .numeric => ⟨0x0002⟩
  | .whitespace => ⟨0x0004⟩
  | .control => ⟨0x0008⟩
  | .ascii => ⟨0x0010⟩
  | .asciiAlphabetic => ⟨0x0020⟩
  | .asciiDigit => ⟨0x0040⟩
  | .asciiHexdigit => ⟨0x0080⟩
  | .asciiLowercase => ⟨0x0100⟩
  | .asciiUppercase => ⟨0x0200⟩
  | .asciiPunctuation => ⟨0x0400⟩
  | .asciiGraphic => ⟨0x0800⟩
  | .asciiWhitespace => ⟨0x1000⟩
  | .asciiControl => ⟨0x2000⟩
  | .word => ⟨0x4000⟩

/-- The classes that either mask names. -/
def union (left right : ClassMask) : ClassMask := ⟨left.bits ||| right.bits⟩

/-- The classes that both masks name. -/
def intersection (left right : ClassMask) : ClassMask := ⟨left.bits &&& right.bits⟩

/-- The classes that a mask leaves out. -/
def complement (mask : ClassMask) : ClassMask := ⟨~~~mask.bits⟩

/-- Whether a mask names a class. -/
def names (mask : ClassMask) (runeClass : RuneClass) : Bool :=
  mask.intersection (of runeClass) != ⟨0⟩

/-- Whether a rune belongs to at least one of the classes that the mask names. -/
def holds (mask : ClassMask) (rune : Nat) : Bool :=
  RuneClass.all.any fun runeClass => mask.names runeClass && runeClass.holds rune

end ClassMask

end TextPattern
