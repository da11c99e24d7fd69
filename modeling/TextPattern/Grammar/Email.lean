import TextPattern.Condition
import TextPattern.Lines
import TextPattern.Matching

/-!
# Email addresses

Addresses of the form `local@domain.tld`, one on each line. The domain may hold dots: it reaches
as far as the last dot of the line, which stands before the top-level domain.
-/

namespace TextPattern.Email

/-- The part before the at sign: small letters, digits, underscore, dot, plus and minus. -/
def localPart : Matcher :=
  .countAll
    (.either (.either .asciiLowercase .asciiDigit) (.ofText (Bytes.ofString "_.+-")))
    (.atLeast 1)

/-- The domain: digits, small letters, and dots that are followed by another dot somewhere. -/
def domain : Matcher :=
  .count
    (.either (.either .asciiDigit .asciiLowercase) (.ofText (Bytes.ofString ".-")))
    (.atLeast 1)
    (Condition.whileMore 0x2E (Bytes.ofString "."))

/-- The top-level domain: two to six small letters. A dot counts as well, though none is left. -/
def topLevel : Matcher :=
  .countAll (.either .asciiLowercase (.equal 0x2E)) ⟨2, some 6, rfl⟩

/-- A whole address, its three parts captured in the first three slots. -/
def address : Matcher :=
  .sequenceOf .atStart (.captured 0 localPart)
    [.ofValue 0x40, .captured 1 domain, .ofValue 0x2E, .captured 2 topLevel, .atEnd]

/-- The parts of an address. -/
structure Parts where
  /-- The part before the at sign. -/
  localPart : Bytes
  /-- The domain. -/
  domain : Bytes
  /-- The top-level domain. -/
  topLevel : Bytes
deriving DecidableEq, Repr

/-- The first slice captured for a slot. -/
def firstSlice (store : CaptureStore) (slot : Nat) (cursor : Cursor) : Except Misuse Bytes := do
  let slices ← (store.slices slot cursor).value
  pure (slices.headD [])

/-- The parts that a match captured. -/
def partsOf (store : CaptureStore) (cursor : Cursor) : Except Misuse Parts := do
  pure ⟨← firstSlice store 0 cursor, ← firstSlice store 1 cursor, ← firstSlice store 2 cursor⟩

/-- What was found out about a line. -/
inductive Verdict where
  /-- It is an address. -/
  | valid (parts : Parts)
  /-- It is none. -/
  | invalid (failure : Failure)
  /-- A rule of use was broken. -/
  | broken (misuse : Misuse)
  /-- The allotted steps ran out. -/
  | exhausted
deriving DecidableEq, Repr

/-- Judge a line with a store that may still hold the captures of another one. -/
def judge (store : CaptureStore) (line : Bytes) : Verdict × State × List TraceLine :=
  let cursor := Cursor.ofBytes .utf8 line
  let run := address.attempt [] cursor.subject ⟨cursor.offset, some store.reset⟩
  let verdict :=
    match run.ending, run.state.captures with
    | .matched _, some captures =>
      match partsOf captures cursor with
      | .ok parts => .valid parts
      | .error misuse => .broken misuse
    | .matched _, none => .broken .valueOfFailure
    | .failed failure, _ => .invalid failure
    | .raised misuse, _ => .broken misuse
    | .exhausted, _ => .exhausted
  (verdict, run.state, run.trace)

/-- What is printed about a valid line. -/
def validLine (parts : Parts) : Bytes :=
  Bytes.ofString "valid: local=" ++ parts.localPart ++ Bytes.ofString " domain=" ++
    parts.domain ++ Bytes.ofString " tld=" ++ parts.topLevel ++ Bytes.ofString "\n"

/-- What is printed about an invalid line. -/
def invalidLine (failure : Failure) : Bytes :=
  Bytes.ofString "invalid: " ++ failure.message ++ Bytes.ofString "\n"

/-- What is printed at the end. -/
def totalLine (valid lines : Nat) : Bytes :=
  Bytes.decimal valid ++ Bytes.ofString " of " ++ Bytes.decimal lines ++
    Bytes.ofString " addresses are valid\n"

/-- Report on lines, given how many were valid before and how many there were. -/
def reportFrom (store : CaptureStore) (valid lines : Nat) : List Bytes → Report
  | [] => ⟨totalLine valid lines, [], 0, []⟩
  | line :: later =>
    let judged := judge store line
    let store := judged.2.1.captures.getD store
    match judged.1 with
    | .valid parts =>
      let rest := reportFrom store (valid + 1) (lines + 1) later
      { rest with output := validLine parts ++ rest.output, trace := judged.2.2 ++ rest.trace }
    | .invalid failure =>
      let rest := reportFrom store valid (lines + 1) later
      { rest with output := invalidLine failure ++ rest.output, trace := judged.2.2 ++ rest.trace }
    | .broken misuse =>
      ⟨[], Bytes.ofString "ERROR: " ++ misuse.message ++ Bytes.ofString "\n", 1, judged.2.2⟩
    | .exhausted => ⟨[], Bytes.ofString "UNKNOWN ERROR\n", 1, judged.2.2⟩

/-- Report on every line of a text, and how many are valid. -/
def report (text : Bytes) : Report := reportFrom (.ofCapacity 3) 0 0 (Lines.ofText text)

end TextPattern.Email
