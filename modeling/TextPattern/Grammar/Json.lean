import TextPattern.Lines
import TextPattern.Matching

/-!
# JSON texts

A recogniser for JSON as RFC 7159 defines it. Values nest, so their grammar refers back to itself
through definition 0.
-/

namespace TextPattern.Json

/-- White space between tokens. -/
def space : Matcher := .one (.ofText (Bytes.ofString " \t\x0d\n"))

/-- Digits, one or more. -/
def digits : Matcher := .countAll .asciiDigit (.atLeast 1)

/-- An exponent. -/
def exponentPart : Matcher :=
  .sequenceOf (.one (.ofText (Bytes.ofString "Ee")))
    (.optional (.one (.ofText (Bytes.ofString "+-")))) [digits]

/-- The digits behind the point. -/
def fractionalPart : Matcher := .sequence (.ofValue 0x2E) digits

/-- The digits before the point: a zero, or digits that begin with another one. -/
def integralPart : Matcher :=
  .choice (.ofValue 0x30)
    (.sequence (.one (.range 0x31 0x39)) (.countAll .asciiDigit .any))

/-- A number. -/
def number : Matcher :=
  .sequenceOf (.optional (.ofValue 0x2D)) integralPart
    [.optional fractionalPart, .optional exponentPart]

/-- True or false. -/
def boolean : Matcher :=
  .choice (.literal (Bytes.ofString "true")) (.literal (Bytes.ofString "false"))

/-- Null. -/
def null : Matcher := .literal (Bytes.ofString "null")

/-- A rune by its four hexadecimal digits. -/
def unicodeEscape : Matcher :=
  .sequence (.ofValue 0x75) (.countAll .asciiHexdigit (.exactly 4))

/-- A rune behind a backslash. -/
def escape : Matcher :=
  .sequence (.ofValue 0x5C)
    (.choice (.one (.ofText (Bytes.ofString "/\\\"bfnrt"))) unicodeEscape)

/-- A rune that stands for itself in a string. -/
def plainRune : Predicate :=
  .not (.either (.ofText (Bytes.ofString "\"\\")) (.range 0 0x1F))

/-- A string. -/
def string : Matcher :=
  .quoted (.zeroOrMore (.choice (.one plainRune) escape)) (.ofValue 0x22) (.ofValue 0x22)

/-- A comma after any space. -/
def comma : Matcher := .skipThen space (.ofValue 0x2C)

/-- A value, by reference to its definition. -/
def valueReference : Matcher := .reference 0

/-- Values between commas. -/
def elements : Matcher :=
  .sequence valueReference (.zeroOrMore (.sequence comma valueReference))

/-- An array. -/
def array : Matcher :=
  .quoted (.optional elements) (.ofValue 0x5B) (.skipThen space (.ofValue 0x5D))

/-- A member of an object. -/
def member : Matcher :=
  .sequenceOf (.skipThen space string) (.skipThen space (.ofValue 0x3A)) [valueReference]

/-- Members between commas. -/
def members : Matcher := .sequence member (.zeroOrMore (.sequence comma member))

/-- An object. -/
def object : Matcher :=
  .quoted (.optional members) (.ofValue 0x7B) (.skipThen space (.ofValue 0x7D))

/-- A value after any space. -/
def value : Matcher :=
  .skipThen space (.choiceOf object array [string, number, boolean, null])

/-- The definitions: a value is definition 0. -/
def definitions : Definitions := [some value]

/-- A whole text: a value with space around it. -/
def text : Matcher := .boxed (.sequenceOf (.handle 0) (.zeroOrMore space) [.atEnd])

/-- Match a whole input. -/
def recognise (input : Bytes) : Run Span :=
  text.matchCursor definitions (.ofBytes .utf8 input)

/-- Say what is wrong with an input that is no JSON text, and nothing about one that is. -/
def report (input : Bytes) : Report :=
  let run := recognise input
  match run.ending with
  | .matched _ => ⟨[], [], 0, run.trace⟩
  | .failed failure =>
    ⟨Bytes.ofString "Invalid JSON! " ++ failure.message ++ Bytes.ofString "\n", [], -1, run.trace⟩
  | .raised misuse =>
    ⟨[], Bytes.ofString "ERROR: " ++ misuse.message ++ Bytes.ofString "\n", -1, run.trace⟩
  | .exhausted => ⟨[], Bytes.ofString "UNKNOWN ERROR\n", -1, run.trace⟩

end TextPattern.Json
