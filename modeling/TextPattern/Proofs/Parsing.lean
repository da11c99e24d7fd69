import TextPattern.Matching

/-!
# What a matcher means

The meaning of a matcher as a relation, without a position that moves and without a store. At an
offset a matcher fails, or it makes a parse: where it ends, which spans it captures for which
slots, and its value. What neither fails nor makes a parse breaks a rule or does not come to an
end. All that stores have to do with it is how many slots there are.
-/

namespace TextPattern

variable {α β : Type}

/-! ## Chains -/

/-- The members of a chain with where they begin: the first at an offset, every other one where
the one before it stops. -/
def stations (stop : α → Nat) (offset : Nat) : List α → List (Nat × α)
  | [] => []
  | first :: later => (offset, first) :: stations stop (stop first) later

/-- Where a chain stops that begins at an offset. -/
def lastStop (stop : α → Nat) (offset : Nat) : List α → Nat
  | [] => offset
  | first :: later => lastStop stop (stop first) later

/-! ## Parses -/

/-- What a matcher makes of the input from an offset on. -/
structure Parse (α : Type) where
  /-- Where it stops. -/
  stop : Nat
  /-- What it captures, oldest first. -/
  captures : List Capture
  /-- Its value. -/
  value : α

namespace Parse

/-- A parse between two offsets whose value is the slice between them. -/
def sliced (subject : Subject) (offset stop : Nat) (captures : List Capture) : Parse Value :=
  ⟨stop, captures, .slice (Span.slice subject.bytes (.between offset stop))⟩

/-- A parse with its slice in the place of its value. -/
def hidden (subject : Subject) (offset : Nat) (parse : Parse α) : Parse Value :=
  .sliced subject offset parse.stop parse.captures

/-- A parse that comes after captures. -/
def after (captures : List Capture) (parse : Parse α) : Parse α :=
  { parse with captures := captures ++ parse.captures }

/-- Pass the value of a parse through a function. -/
def map (f : α → β) (parse : Parse α) : Parse β := ⟨parse.stop, parse.captures, f parse.value⟩

/-- A chain of parses as one, with the list of their values. -/
def listed (offset : Nat) (rounds : List (Parse α)) : Parse (List α) :=
  ⟨lastStop Parse.stop offset rounds, rounds.flatMap Parse.captures, rounds.map Parse.value⟩

/-- An item up to the end of its separator. -/
def closed (pair : Parse α × Parse β) : Parse α :=
  ⟨pair.2.stop, pair.1.captures ++ pair.2.captures, pair.1.value⟩

/-- The longer of two parses, the first if they are equally long. -/
def longer : Option (Parse α) → Option (Parse α) → Option (Parse α)
  | some left, some right => some (if right.stop ≤ left.stop then left else right)
  | some left, none => some left
  | none, right => right

/-- A parse with its value converted, if the converter produces one. -/
def converted (converter : Converter) (parse : Parse Value) : Option (Parse Value) :=
  match converter parse.value with
  | .produced value => some { parse with value }
  | _ => none

/-- A parse of a list, if it has enough members. -/
def ofLeast (least : Nat) (parse : Parse (List Value)) : Option (Parse Value) :=
  if parse.value.length < least then none else some (parse.map .list)

end Parse

/-- Where a text ends that lies ahead and ends on a boundary. -/
def Subject.textEnd? (subject : Subject) (text : Bytes) (offset : Nat) : Option Nat :=
  if text.isPrefixOf (subject.bytes.drop offset) && subject.isBoundary (offset + text.length) then
    some (offset + text.length)
  else none

/-- The unit at an offset, if a predicate accepts it. -/
def Subject.accepted? (subject : Subject) (predicate : Predicate) (offset : Nat) :
    Option InputUnit :=
  (subject.unitAt offset).filter fun unit => predicate.accepts subject.encoding unit.value

/-! ## The relation -/

/-- What a matcher makes of a subject from an offset, for the capacity of a store if there is one:
a parse, or nothing where it fails. -/
inductive Parses (definitions : Definitions) (subject : Subject) :
    Option Nat → Matcher → Nat → Option (Parse Value) → Prop where
  /-- A text is ahead and ends on a boundary, or it fails. -/
  | literal (capacity : Option Nat) (text : Bytes) (offset : Nat) :
    Parses definitions subject capacity (.literal text) offset
      ((subject.textEnd? text offset).map fun stop => .sliced subject offset stop [])
  /-- A unit is ahead that the predicate accepts, or it fails. -/
  | one (capacity : Option Nat) (predicate : Predicate) (offset : Nat) :
    Parses definitions subject capacity (.one predicate) offset
      ((subject.accepted? predicate offset).map fun unit =>
        .sliced subject offset unit.next [])
  /-- Nothing is always there. -/
  | empty (capacity : Option Nat) (offset : Nat) :
    Parses definitions subject capacity .empty offset (some (.sliced subject offset offset []))
  /-- The start is at the first offset only. -/
  | atStart (capacity : Option Nat) (offset : Nat) :
    Parses definitions subject capacity .atStart offset
      (if offset = 0 then some (.sliced subject offset offset []) else none)
  /-- The end is where nothing is ahead. -/
  | atEnd (capacity : Option Nat) (offset : Nat) :
    Parses definitions subject capacity .atEnd offset
      (if subject.length ≤ offset then some (.sliced subject offset offset []) else none)
  /-- Units that follow each other, each accepted, up to the limit or to one that is not. -/
  | count (capacity : Option Nat) {predicate : Predicate} {bounds : Bounds}
    {condition : Condition} {offset : Nat} {units : List InputUnit}
    (each : ∀ start unit, (start, unit) ∈ stations InputUnit.next offset units →
      subject.accepted? predicate start = some unit)
    (met : ∀ start unit, (start, unit) ∈ stations InputUnit.next offset units →
      condition (subject.viewFrom offset) unit = true)
    (limited : ∀ limit, bounds.greatest = some limit → units.length ≤ limit)
    (maximal : bounds.greatest = some units.length ∨
      ∀ unit, subject.accepted? predicate (lastStop InputUnit.next offset units) = some unit →
        condition (subject.viewFrom offset) unit = false) :
    Parses definitions subject capacity (.count predicate bounds condition) offset
      (if units.length < bounds.least then none
      else some (.sliced subject offset (lastStop InputUnit.next offset units) []))
  /-- Accepted units at each of which the lookahead succeeds, up to the limit or to a unit that is
  not accepted. -/
  | countAhead (capacity : Option Nat) {predicate : Predicate} {bounds : Bounds} {ahead : Matcher}
    {offset : Nat} {units : List InputUnit} {found : Nat → Parse Value}
    (each : ∀ start unit, (start, unit) ∈ stations InputUnit.next offset units →
      subject.accepted? predicate start = some unit)
    (met : ∀ start unit, (start, unit) ∈ stations InputUnit.next offset units →
      Parses definitions subject none ahead start (some (found start)))
    (limited : ∀ limit, bounds.greatest = some limit → units.length ≤ limit)
    (maximal : bounds.greatest = some units.length ∨
      subject.accepted? predicate (lastStop InputUnit.next offset units) = none) :
    Parses definitions subject capacity (.countAhead predicate bounds ahead) offset
      (if units.length < bounds.least then none
      else some (.sliced subject offset (lastStop InputUnit.next offset units) []))
  /-- The same up to a unit at which the lookahead fails. -/
  | countAhead_refused (capacity : Option Nat) {predicate : Predicate} {bounds : Bounds}
    {ahead : Matcher} {offset : Nat} {units : List InputUnit} {found : Nat → Parse Value}
    (each : ∀ start unit, (start, unit) ∈ stations InputUnit.next offset units →
      subject.accepted? predicate start = some unit)
    (met : ∀ start unit, (start, unit) ∈ stations InputUnit.next offset units →
      Parses definitions subject none ahead start (some (found start)))
    (unlimited : ∀ limit, bounds.greatest = some limit → units.length < limit)
    {unit : InputUnit}
    (present : subject.accepted? predicate (lastStop InputUnit.next offset units) = some unit)
    (refused : Parses definitions subject none ahead (lastStop InputUnit.next offset units) none) :
    Parses definitions subject capacity (.countAhead predicate bounds ahead) offset
      (if units.length < bounds.least then none
      else some (.sliced subject offset (lastStop InputUnit.next offset units) []))
  /-- Rounds that follow each other and make progress, up to the limit. -/
  | collected_full {capacity : Option Nat} {inner : Matcher} {bounds : Bounds} {offset : Nat}
    {rounds : List (Parse Value)}
    (each : ∀ start round, (start, round) ∈ stations Parse.stop offset rounds →
      Parses definitions subject capacity inner start (some round))
    (onward : ∀ start round, (start, round) ∈ stations Parse.stop offset rounds →
      round.stop ≠ start)
    (full : bounds.greatest = some rounds.length) :
    Parses definitions subject capacity (.collected inner bounds) offset
      (some ((Parse.listed offset rounds).map .list))
  /-- The same up to a round that fails, which must not come too early. -/
  | collected_ended {capacity : Option Nat} {inner : Matcher} {bounds : Bounds} {offset : Nat}
    {rounds : List (Parse Value)}
    (each : ∀ start round, (start, round) ∈ stations Parse.stop offset rounds →
      Parses definitions subject capacity inner start (some round))
    (onward : ∀ start round, (start, round) ∈ stations Parse.stop offset rounds →
      round.stop ≠ start)
    (unlimited : ∀ limit, bounds.greatest = some limit → rounds.length < limit)
    (ended : Parses definitions subject capacity inner (lastStop Parse.stop offset rounds) none) :
    Parses definitions subject capacity (.collected inner bounds) offset
      (Parse.ofLeast bounds.least (.listed offset rounds))
  /-- The same up to a round that consumes nothing, which is kept and is the last. -/
  | collected_still {capacity : Option Nat} {inner : Matcher} {bounds : Bounds} {offset : Nat}
    {rounds : List (Parse Value)} {last : Parse Value}
    (each : ∀ start round, (start, round) ∈ stations Parse.stop offset rounds →
      Parses definitions subject capacity inner start (some round))
    (onward : ∀ start round, (start, round) ∈ stations Parse.stop offset rounds →
      round.stop ≠ start)
    (unlimited : ∀ limit, bounds.greatest = some limit → rounds.length < limit)
    (final : Parses definitions subject capacity inner (lastStop Parse.stop offset rounds)
      (some last))
    (still : last.stop = lastStop Parse.stop offset rounds) :
    Parses definitions subject capacity (.collected inner bounds) offset
      (some ((Parse.listed offset (rounds ++ [last])).map .list))
  /-- A repetition is a collection whose values do not matter. -/
  | repeated {capacity : Option Nat} {inner : Matcher} {bounds : Bounds} {offset : Nat}
    {outcome : Option (Parse Value)}
    (all : Parses definitions subject capacity (.collected inner bounds) offset outcome) :
    Parses definitions subject capacity (.repeated inner bounds) offset
      (outcome.map (.hidden subject offset))
  /-- A sequence fails with its first part. -/
  | sequence_first {capacity : Option Nat} {first : Matcher} (second : Matcher) {offset : Nat}
    (failed : Parses definitions subject capacity first offset none) :
    Parses definitions subject capacity (.sequence first second) offset none
  /-- The second part of a sequence goes on where the first one stops. -/
  | sequence {capacity : Option Nat} {first second : Matcher} {offset : Nat}
    {left : Parse Value} {outcome : Option (Parse Value)}
    (leads : Parses definitions subject capacity first offset (some left))
    (follows : Parses definitions subject capacity second left.stop outcome) :
    Parses definitions subject capacity (.sequence first second) offset
      (outcome.map fun right => .hidden subject offset (right.after left.captures))
  /-- The first alternative that succeeds counts. -/
  | choice_first {capacity : Option Nat} {first : Matcher} (second : Matcher) {offset : Nat}
    {parse : Parse Value}
    (matched : Parses definitions subject capacity first offset (some parse)) :
    Parses definitions subject capacity (.choice first second) offset
      (some (parse.hidden subject offset))
  /-- The second alternative stands in for a first one that fails, at the same offset. -/
  | choice_second {capacity : Option Nat} {first second : Matcher} {offset : Nat}
    {outcome : Option (Parse Value)}
    (failed : Parses definitions subject capacity first offset none)
    (other : Parses definitions subject capacity second offset outcome) :
    Parses definitions subject capacity (.choice first second) offset
      (outcome.map (.hidden subject offset))
  /-- Of two matchers at the same offset the longer parse counts. -/
  | longest {capacity : Option Nat} {first second : Matcher} {offset : Nat}
    {left right : Option (Parse Value)}
    (one : Parses definitions subject capacity first offset left)
    (other : Parses definitions subject capacity second offset right) :
    Parses definitions subject capacity (.longest first second) offset
      ((Parse.longer left right).map (.hidden subject offset))
  /-- A separated pair fails with its left part. -/
  | sepOnce_left {capacity : Option Nat} {left : Matcher} (separator right : Matcher)
    {offset : Nat} (failed : Parses definitions subject capacity left offset none) :
    Parses definitions subject capacity (.sepOnce left separator right) offset none
  /-- A separated pair fails with its separator. -/
  | sepOnce_separator {capacity : Option Nat} {left separator : Matcher} (right : Matcher)
    {offset : Nat} {first : Parse Value}
    (leads : Parses definitions subject capacity left offset (some first))
    (failed : Parses definitions subject capacity separator first.stop none) :
    Parses definitions subject capacity (.sepOnce left separator right) offset none
  /-- The right part of a separated pair goes on where the separator stops. -/
  | sepOnce {capacity : Option Nat} {left separator right : Matcher} {offset : Nat}
    {first middle : Parse Value} {outcome : Option (Parse Value)}
    (leads : Parses definitions subject capacity left offset (some first))
    (between : Parses definitions subject capacity separator first.stop (some middle))
    (follows : Parses definitions subject capacity right middle.stop outcome) :
    Parses definitions subject capacity (.sepOnce left separator right) offset
      (outcome.map fun last => (last.after (first.captures ++ middle.captures)).map
        (.pair first.value))
  /-- Items that each have a separator after them and make progress with it, up to an item that
  fails. There must be enough of them. -/
  | separated_ended {capacity : Option Nat} {item separator : Matcher} {least : Nat}
    (terminated : Bool) {offset : Nat} {pairs : List (Parse Value × Parse Value)}
    (items : ∀ start pair, (start, pair) ∈ stations (·.2.stop) offset pairs →
      Parses definitions subject capacity item start (some pair.1))
    (separators : ∀ start pair, (start, pair) ∈ stations (·.2.stop) offset pairs →
      Parses definitions subject capacity separator pair.1.stop (some pair.2))
    (onward : ∀ start pair, (start, pair) ∈ stations (·.2.stop) offset pairs → pair.2.stop ≠ start)
    (ended : Parses definitions subject capacity item (lastStop (·.2.stop) offset pairs) none) :
    Parses definitions subject capacity (.separated item separator least terminated) offset
      (Parse.ofLeast least (.listed offset (pairs.map .closed)))
  /-- The same up to an item without a separator, which counts unless items are terminated. -/
  | separated_last {capacity : Option Nat} {item separator : Matcher} {least : Nat}
    (terminated : Bool) {offset : Nat} {pairs : List (Parse Value × Parse Value)}
    {last : Parse Value}
    (items : ∀ start pair, (start, pair) ∈ stations (·.2.stop) offset pairs →
      Parses definitions subject capacity item start (some pair.1))
    (separators : ∀ start pair, (start, pair) ∈ stations (·.2.stop) offset pairs →
      Parses definitions subject capacity separator pair.1.stop (some pair.2))
    (onward : ∀ start pair, (start, pair) ∈ stations (·.2.stop) offset pairs → pair.2.stop ≠ start)
    (final : Parses definitions subject capacity item (lastStop (·.2.stop) offset pairs)
      (some last))
    (unclosed : Parses definitions subject capacity separator last.stop none) :
    Parses definitions subject capacity (.separated item separator least terminated) offset
      (Parse.ofLeast least (.listed offset
        (pairs.map .closed ++ if terminated then [] else [last])))
  /-- The same up to an item that consumes nothing with its separator, which is kept. -/
  | separated_still {capacity : Option Nat} {item separator : Matcher} {least : Nat}
    (terminated : Bool) {offset : Nat} {pairs : List (Parse Value × Parse Value)}
    {last : Parse Value × Parse Value}
    (items : ∀ start pair, (start, pair) ∈ stations (·.2.stop) offset pairs →
      Parses definitions subject capacity item start (some pair.1))
    (separators : ∀ start pair, (start, pair) ∈ stations (·.2.stop) offset pairs →
      Parses definitions subject capacity separator pair.1.stop (some pair.2))
    (onward : ∀ start pair, (start, pair) ∈ stations (·.2.stop) offset pairs → pair.2.stop ≠ start)
    (final : Parses definitions subject capacity item (lastStop (·.2.stop) offset pairs)
      (some last.1))
    (close : Parses definitions subject capacity separator last.1.stop (some last.2))
    (still : last.2.stop = lastStop (·.2.stop) offset pairs) :
    Parses definitions subject capacity (.separated item separator least terminated) offset
      (Parse.ofLeast least (.listed offset (pairs.map .closed ++ [.closed last])))
  /-- An enclosed matcher fails with its head. -/
  | enclosed_head {capacity : Option Nat} {head : Matcher} (inner tail : Matcher) {offset : Nat}
    (failed : Parses definitions subject capacity head offset none) :
    Parses definitions subject capacity (.enclosed head inner tail) offset none
  /-- An enclosed matcher fails with its inner part. -/
  | enclosed_inner {capacity : Option Nat} {head inner : Matcher} (tail : Matcher) {offset : Nat}
    {before : Parse Value}
    (leads : Parses definitions subject capacity head offset (some before))
    (failed : Parses definitions subject capacity inner before.stop none) :
    Parses definitions subject capacity (.enclosed head inner tail) offset none
  /-- The tail goes on where the inner part stops, whose value is that of all. -/
  | enclosed {capacity : Option Nat} {head inner tail : Matcher} {offset : Nat}
    {before middle : Parse Value} {outcome : Option (Parse Value)}
    (leads : Parses definitions subject capacity head offset (some before))
    (between : Parses definitions subject capacity inner before.stop (some middle))
    (follows : Parses definitions subject capacity tail middle.stop outcome) :
    Parses definitions subject capacity (.enclosed head inner tail) offset
      (outcome.map fun last => (last.after (before.captures ++ middle.captures)).map
        fun _ => middle.value)
  /-- A mapped matcher succeeds where its converter does. -/
  | mapped {capacity : Option Nat} {inner : Matcher} (converter : Converter) {offset : Nat}
    {outcome : Option (Parse Value)}
    (matched : Parses definitions subject capacity inner offset outcome) :
    Parses definitions subject capacity (.mapped inner converter) offset
      (outcome.bind (Parse.converted converter))
  /-- A capture fails for a slot that is missing. -/
  | captured_missing {limit slot : Nat} (inner : Matcher) (offset : Nat)
    (missing : limit ≤ slot) :
    Parses definitions subject (some limit) (.captured slot inner) offset none
  /-- A capture adds the span of its matcher behind the captures of that matcher. -/
  | captured {capacity : Option Nat} {slot : Nat} {inner : Matcher} {offset : Nat}
    {outcome : Option (Parse Value)}
    (present : ∀ limit, capacity = some limit → slot < limit)
    (matched : Parses definitions subject capacity inner offset outcome) :
    Parses definitions subject capacity (.captured slot inner) offset
      (outcome.map fun parse => .sliced subject offset parse.stop
        (parse.captures ++ [(slot, .between offset parse.stop)]))
  /-- A branch follows the verdict of its probe, from the original offset. -/
  | branch {capacity : Option Nat} {probe accepted otherwise : Matcher} {offset : Nat}
    {verdict outcome : Option (Parse Value)}
    (asked : Parses definitions subject capacity probe offset verdict)
    (taken : Parses definitions subject capacity (if verdict.isSome then accepted else otherwise)
      offset outcome) :
    Parses definitions subject capacity (.branch probe accepted otherwise) offset
      (outcome.map (.hidden subject offset))
  /-- A branch follows its test of what lies ahead. -/
  | branchIf {capacity : Option Nat} {test : View → Bool} {accepted otherwise : Matcher}
    {offset : Nat} {outcome : Option (Parse Value)}
    (taken : Parses definitions subject capacity
      (if test (subject.viewFrom offset) then accepted else otherwise) offset outcome) :
    Parses definitions subject capacity (.branchIf test accepted otherwise) offset
      (outcome.map (.hidden subject offset))
  /-- A box hides the value inside. -/
  | boxed {capacity : Option Nat} {inner : Matcher} {offset : Nat}
    {outcome : Option (Parse Value)}
    (matched : Parses definitions subject capacity inner offset outcome) :
    Parses definitions subject capacity (.boxed inner) offset
      (outcome.map (.hidden subject offset))
  /-- A handle does what its definition does. -/
  | handle {capacity : Option Nat} {slot : Nat} {matcher : Matcher} {offset : Nat}
    {outcome : Option (Parse Value)} (defined : definitions.find? slot = some matcher)
    (matched : Parses definitions subject capacity matcher offset outcome) :
    Parses definitions subject capacity (.handle slot) offset
      (outcome.map (.hidden subject offset))
  /-- A reference does what its definition does. -/
  | reference {capacity : Option Nat} {slot : Nat} {matcher : Matcher} {offset : Nat}
    {outcome : Option (Parse Value)} (defined : definitions.find? slot = some matcher)
    (matched : Parses definitions subject capacity matcher offset outcome) :
    Parses definitions subject capacity (.reference slot) offset
      (outcome.map (.hidden subject offset))

end TextPattern
