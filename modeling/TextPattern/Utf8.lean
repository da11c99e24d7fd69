import TextPattern.Bytes

/-!
# UTF-8

Decoding runs an automaton over the octets of a text. Every octet has a class, and from where it
stands the automaton goes on by the class alone; it is back at its beginning where a shortest-form
sequence is complete. An octet that no such sequence goes on with is refused. There, and where the
text breaks off within a sequence, a malformed stretch ends at the next octet that can open a
sequence: it stands for the replacement rune, and decoding always goes on at such an octet. Encoding
writes the replacement rune for numbers that are no Unicode scalar value.
-/

namespace TextPattern.Utf8

/-- The rune that stands for malformed input and for numbers that cannot be encoded. -/
def replacement : Nat := 0xFFFD

/-- Octets at which decoding may begin: those that do not only continue a sequence. -/
def isLead (octet : UInt8) : Bool := octet &&& 0xC0 != 0x80

/-! ## The automaton -/

set_option maxRecDepth 2000 in
/-- The class of every octet. Within a class octets differ in the bits that they bring only. -/
def classTable : Vector (Fin 12) 256 := #v[
  0, 0, 0, 0, 0, 0, 0, 0, 0, 0, 0, 0, 0, 0, 0, 0, 0, 0, 0, 0, 0, 0, 0, 0, 0, 0, 0, 0, 0, 0, 0, 0,
  0, 0, 0, 0, 0, 0, 0, 0, 0, 0, 0, 0, 0, 0, 0, 0, 0, 0, 0, 0, 0, 0, 0, 0, 0, 0, 0, 0, 0, 0, 0, 0,
  0, 0, 0, 0, 0, 0, 0, 0, 0, 0, 0, 0, 0, 0, 0, 0, 0, 0, 0, 0, 0, 0, 0, 0, 0, 0, 0, 0, 0, 0, 0, 0,
  0, 0, 0, 0, 0, 0, 0, 0, 0, 0, 0, 0, 0, 0, 0, 0, 0, 0, 0, 0, 0, 0, 0, 0, 0, 0, 0, 0, 0, 0, 0, 0,
  1, 1, 1, 1, 1, 1, 1, 1, 1, 1, 1, 1, 1, 1, 1, 1, 9, 9, 9, 9, 9, 9, 9, 9, 9, 9, 9, 9, 9, 9, 9, 9,
  7, 7, 7, 7, 7, 7, 7, 7, 7, 7, 7, 7, 7, 7, 7, 7, 7, 7, 7, 7, 7, 7, 7, 7, 7, 7, 7, 7, 7, 7, 7, 7,
  8, 8, 2, 2, 2, 2, 2, 2, 2, 2, 2, 2, 2, 2, 2, 2, 2, 2, 2, 2, 2, 2, 2, 2, 2, 2, 2, 2, 2, 2, 2, 2,
  10, 3, 3, 3, 3, 3, 3, 3, 3, 3, 3, 3, 3, 4, 3, 3, 11, 6, 6, 6, 5, 8, 8, 8, 8, 8, 8, 8, 8, 8, 8, 8]

/-- Where the automaton stands: at the beginning of a row of its transitions. -/
abbrev State := Fin 97

/-- The automaton begins here, and is here again behind a complete sequence. -/
def accept : State := 0

/-- The automaton stays here behind an octet that no sequence goes on with. -/
def reject : State := 12

/-- Where the automaton goes: a row for each state, and in it a place for each class. -/
def transitionTable : Vector State 108 := #v[
  0, 12, 24, 36, 60, 96, 84, 12, 12, 12, 48, 72,
  12, 12, 12, 12, 12, 12, 12, 12, 12, 12, 12, 12,
  12, 0, 12, 12, 12, 12, 12, 0, 12, 0, 12, 12,
  12, 24, 12, 12, 12, 12, 12, 24, 12, 24, 12, 12,
  12, 12, 12, 12, 12, 12, 12, 24, 12, 12, 12, 12,
  12, 24, 12, 12, 12, 12, 12, 12, 12, 24, 12, 12,
  12, 12, 12, 12, 12, 12, 12, 36, 12, 36, 12, 12,
  12, 36, 12, 12, 12, 12, 12, 36, 12, 36, 12, 12,
  12, 36, 12, 12, 12, 12, 12, 12, 12, 12, 12, 12]

/-- Where the automaton goes from a state by an octet. -/
def next (state : State) (octet : UInt8) : State :=
  transitionTable.get ⟨state + classTable.get octet.toFin, by omega⟩

/-- The automaton between two octets. -/
structure Automaton where
  /-- The bits of the rune so far. -/
  rune : UInt32
  /-- Where the automaton stands. -/
  state : State
deriving DecidableEq, Repr

namespace Automaton

/-- The automaton in front of a sequence. -/
def start : Automaton := ⟨0, accept⟩

/-- The automaton behind one more octet. An opening octet brings the bits that its class leaves, the
others bring six. -/
def step (automaton : Automaton) (octet : UInt8) : Automaton :=
  let symbol := octet.toUInt32
  let octetClass := classTable.get octet.toFin
  { rune :=
      if automaton.state = accept then symbol &&& ((0xFF : UInt32) >>> UInt32.ofNat octetClass)
      else (symbol &&& (0x3F : UInt32)) ||| (automaton.rune <<< (6 : UInt32))
    state := next automaton.state octet }

end Automaton

/-! ## Decoding -/

/-- How the automaton comes to an end on a text. -/
inductive Halt where
  /-- A sequence is complete. -/
  | complete (rune : UInt32) (width : Nat)
  /-- The last of so many octets is refused, or the text ends behind them. -/
  | broken (state : State) (count : Nat)

/-- Read a text behind so many octets, up to the end of a sequence if there is one. -/
def read (automaton : Automaton) (count : Nat) : Bytes → Halt
  | [] => .broken automaton.state count
  | octet :: rest =>
    if automaton.state = reject then .broken reject count
    else
      let next := automaton.step octet
      if next.state = accept then .complete next.rune (count + 1)
      else read next (count + 1) rest

/-- The position of the first lead octet of a text that begins at a position, or of its end. -/
def nextLead (position : Nat) : Bytes → Nat
  | [] => position
  | octet :: rest => if isLead octet then position else nextLead (position + 1) rest

/-- Where decoding goes on behind so many octets without a rune. A lead octet that was refused as
the continuation of others opens the next sequence. -/
def resume (bytes : Bytes) (state : State) (count : Nat) : Nat :=
  let position :=
    if state = reject ∧ 1 < count ∧ (bytes[count - 1]?).any isLead then count - 1 else count
  nextLead position (bytes.drop position)

/-- The first rune of a text and its width. A malformed stretch has at least one octet, and an
empty text decodes like one. -/
def decode (bytes : Bytes) : Nat × Nat :=
  match read .start 0 bytes with
  | .complete rune width => (rune.toNat, width)
  | .broken state count => (replacement, max (resume bytes state count) 1)

/-- A complete sequence has octets behind those read before. -/
theorem lt_of_read_eq_complete {automaton : Automaton} {count width : Nat} {bytes : Bytes}
    {rune : UInt32} (ended : read automaton count bytes = .complete rune width) :
    count < width := by
  induction bytes generalizing automaton count with
  | nil => cases ended
  | cons octet rest ih =>
    unfold read at ended
    split at ended
    · cases ended
    · dsimp only at ended
      split at ended
      · cases ended
        exact Nat.lt_succ_self _
      · exact Nat.lt_of_succ_lt (ih ended)

/-- Every decoded rune is at least one octet wide. -/
theorem decode_width_pos (bytes : Bytes) : 0 < (decode bytes).2 := by
  unfold decode
  split
  · rename_i ended
    exact lt_of_read_eq_complete ended
  · exact Nat.le_max_right _ _

/-- The runes of a text in order, each with its width. -/
def decodeAll : Bytes → List (Nat × Nat)
  | [] => []
  | octet :: rest =>
    let first := decode (octet :: rest)
    first :: decodeAll (rest.drop (first.2 - 1))
termination_by bytes => bytes.length
decreasing_by
  rw [List.length_drop, List.length_cons]
  exact Nat.lt_succ_of_le (Nat.sub_le _ _)

/-- The runes of a text in order. -/
def runes (bytes : Bytes) : List Nat := (decodeAll bytes).map Prod.fst

/-- Count the runes of a text from a position on. -/
def countFrom (bytes : Bytes) (position count : Nat) : Nat :=
  if position < bytes.length then
    countFrom bytes (position + (decode (bytes.drop position)).2) (count + 1)
  else count
termination_by bytes.length - position
decreasing_by
  have wide := decode_width_pos (bytes.drop position)
  omega

/-- How many runes a text holds. -/
def countRunes (bytes : Bytes) : Nat := countFrom bytes 0 0

/-- Offsets at which a rune may begin or the text ends. -/
def isBoundary (bytes : Bytes) (offset : Nat) : Bool :=
  offset == bytes.length || (bytes[offset]?).any isLead

/-! ## Encoding -/

/-- How many octets a number from 128 on takes. -/
def longerLength (rune : Nat) : Nat :=
  if rune < 0x800 then 2 else if rune < 0x10000 then 3 else 4

/-- The octets for so many times six bits of a number, with a mark on the first of them. Those
behind it are continuations. -/
def encodeBits (rune : Nat) : Nat → Nat → Bytes
  | 0, _ => []
  | left + 1, mark =>
    UInt8.ofNat (((rune >>> (6 * left)) &&& 0x3F) ||| mark) :: encodeBits rune left 0x80

/-- The octets of a number from 128 on. The first tells by its mark how many there are. -/
def encodeLonger (rune : Nat) : Bytes :=
  encodeBits rune (longerLength rune) ((0xF0 <<< (4 - longerLength rune)) &&& 0xF0)

/-- The octets of a rune, and whether it was a scalar value; where it was none, they are those of
the replacement rune. -/
def encode (rune : Nat) : Bytes × Bool :=
  if rune < 0x80 then ([UInt8.ofNat rune], true)
  else if 0x110000 ≤ rune ∨ rune &&& 0xFFFFF800 = 0xD800 then (encodeLonger replacement, false)
  else (encodeLonger rune, true)

end TextPattern.Utf8
