import TextPattern.Bytes

/-!
# Spans

A span is a stretch of input given by its first offset and its length. Offsets and lengths are
64-bit words where they are added up: the end of a span that a caller made up may wrap.
-/

namespace TextPattern

/-- The number of 64-bit words: sums of offsets and lengths are reduced modulo this. -/
def wordModulus : Nat := 0x10000000000000000

/-- A stretch of input. -/
structure Span where
  /-- Offset of the first octet. -/
  start : Nat
  /-- Number of octets. -/
  length : Nat
deriving DecidableEq, Repr

namespace Span

/-- The span between two offsets. -/
def between (start stop : Nat) : Span := ⟨start, stop - start⟩

/-- Offset just past the last octet, as a word. -/
def stop (span : Span) : Nat := (span.start + span.length) % wordModulus

/-- Whether the span holds no octet. -/
def isEmpty (span : Span) : Bool := span.length == 0

/-- The span from the start of one to the stop of another, its length taken as a word. -/
def merge (first last : Span) : Span :=
  ⟨first.start, (last.stop + wordModulus - first.start % wordModulus) % wordModulus⟩

/-- Spans are ordered by where they start, then by length. -/
def precedes (left right : Span) : Bool :=
  left.start < right.start || (left.start == right.start && left.length < right.length)

/-- The octets a span covers. -/
def slice (bytes : Bytes) (span : Span) : Bytes := (bytes.drop span.start).take span.length

/-- The end of a span inside an input of word size does not wrap. -/
theorem stop_eq (span : Span) (fits : span.start + span.length < wordModulus) :
    span.stop = span.start + span.length := Nat.mod_eq_of_lt fits

end Span

end TextPattern
