import TextPattern.Attempt

/-!
# Lines and reports

What programs read, line by line, and what they leave behind. The lines of a text are its pieces
between line feeds. A piece that ends the text is a line only if it is not empty, and one carriage
return at the end of a line does not belong to it.
-/

namespace TextPattern

/-! ## Lines -/

namespace Lines

/-- The octet that ends a line. -/
def lineFeed : UInt8 := 0x0A

/-- The octet that may come before a line feed. -/
def carriageReturn : UInt8 := 0x0D

/-- The pieces of a text between line feeds, without an empty last one. -/
def pieces : Bytes → List Bytes
  | [] => []
  | octet :: rest =>
    if octet = lineFeed then [] :: pieces rest
    else
      match pieces rest with
      | [] => [[octet]]
      | piece :: later => (octet :: piece) :: later

/-- A piece without the carriage return that may end it. -/
def trimReturn (piece : Bytes) : Bytes :=
  if piece.getLast? = some carriageReturn then piece.dropLast else piece

/-- The lines of a text. -/
def ofText (text : Bytes) : List Bytes := (pieces text).map trimReturn

end Lines

/-! ## Reports -/

/-- What a program leaves behind. -/
structure Report where
  /-- What it printed. -/
  output : Bytes
  /-- What it printed about errors of its own. -/
  errors : Bytes
  /-- How it ended; zero means that all went well. -/
  exitCode : Int
  /-- What its matching traced. -/
  trace : List TraceLine

end TextPattern
