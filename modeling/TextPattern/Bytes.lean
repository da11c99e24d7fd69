/-!
# Octet strings

Input, captured slices and the wording of messages are all lists of octets: input need not be
well-formed text, and a message quotes input.
-/

namespace TextPattern

/-- A string of octets. -/
abbrev Bytes := List UInt8

namespace Bytes

/-- The UTF-8 octets of a text. -/
def ofString (text : String) : Bytes := text.toUTF8.toList

/-- A number in decimal digits, without sign or padding. -/
def decimal (number : Nat) : Bytes := (Nat.toDigits 10 number).map fun digit => digit.toUInt8

/-- Whether `part` occurs somewhere in `whole`. -/
def occursIn (part : Bytes) : Bytes → Bool
  | [] => part.isEmpty
  | octet :: rest => part.isPrefixOf (octet :: rest) || occursIn part rest

/-- What a text holds before its first zero octet; all of it where there is none. -/
def beforeZero (bytes : Bytes) : Bytes := bytes.takeWhile fun octet => octet != 0

end Bytes

end TextPattern
