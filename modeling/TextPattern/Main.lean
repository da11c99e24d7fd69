import TextPattern.Grammar.Email
import TextPattern.Grammar.Json

/-!
# Command line

`email` reports on the addresses in standard input, `json` says whether standard input is a JSON
text.
-/

namespace TextPattern.Main

/-- The programs by name. -/
def program? : String → Option (Bytes → Report)
  | "email" => some Email.report
  | "json" => some Json.report
  | _ => none

/-- Read a stream to its end. -/
partial def readAll (stream : IO.FS.Stream) (sofar : ByteArray) : IO ByteArray := do
  let piece ← stream.read 65536
  if piece.isEmpty then pure sofar else readAll stream (sofar ++ piece)

/-- Run a report on standard input and print it. -/
def run (report : Bytes → Report) : IO UInt32 := do
  let input ← readAll (← IO.getStdin) .empty
  let report := report input.toList
  (← IO.getStdout).write (ByteArray.mk report.output.toArray)
  (← IO.getStderr).write (ByteArray.mk report.errors.toArray)
  pure (UInt32.ofInt (report.exitCode % 256))

end TextPattern.Main

/-- Run the program that the arguments name. -/
def main (arguments : List String) : IO UInt32 := do
  match arguments with
  | [name] =>
    match TextPattern.Main.program? name with
    | some report => TextPattern.Main.run report
    | none =>
      IO.eprintln "usage: email | json"
      pure 2
  | _ =>
    IO.eprintln "usage: email | json"
    pure 2
