import TextPattern.Proofs.Runes

/-!
# Input below 128

An input whose octets all lie below 128 is divided into the same units whether it is read as text or
octet by octet. Whatever an attempt asks of its subject then has the same answer under both
readings, and so every matcher does the same. `Matcher.ascii_runs_agree` is the main statement.
-/

namespace TextPattern

open Attempt (traced tracedFailure observe orRestore probe aside)

variable {α β : Type}

/-! ## Twins -/

/-- Two subjects that answer alike to all that an attempt can ask. -/
structure Subject.Twins (left right : Subject) : Prop where
  /-- They have the same octets. -/
  bytes : left.bytes = right.bytes
  /-- They have the same units. -/
  unitAt : left.unitAt = right.unitAt
  /-- They have the same boundaries. -/
  isBoundary : left.isBoundary = right.isBoundary
  /-- Predicates accept the same of their units. -/
  accepts : ∀ {offset unit}, left.unitAt offset = some unit → ∀ predicate : Predicate,
    predicate.accepts left.encoding unit.value = predicate.accepts right.encoding unit.value

/-- Predicates accept the same octets below 128 as text and octet by octet. -/
theorem Predicate.accepts_of_small {value : Nat} (small : value < 0x80) (predicate : Predicate) :
    predicate.accepts .utf8 value = predicate.accepts .octet value := by
  induction predicate with
  | any | wild | equal | range | set | digit | satisfies => rfl
  | classes mask name =>
    have ascii : Rune.isAscii value = true := decide_eq_true small
    simp only [accepts, ascii, Bool.true_and]
  | both left right one other => simp only [accepts, one, other]
  | either left right one other => simp only [accepts, one, other]
  | not inner ih => simp only [accepts, ih]

section
variable {bytes : Bytes} (ascii : ∀ octet ∈ bytes, octet < 0x80)
include ascii

/-- What is ahead begins with an octet below 128. -/
theorem lt_of_drop {offset : Nat} {octet : UInt8} {rest : Bytes}
    (ahead : bytes.drop offset = octet :: rest) : octet < 0x80 := by
  apply ascii
  apply List.mem_of_mem_drop
  rw [ahead]
  exact List.mem_cons_self

/-- Octets below 128 are units under both readings. -/
theorem unitAt_of_ascii :
    (Subject.mk .utf8 bytes).unitAt = (Subject.mk .octet bytes).unitAt := by
  funext offset
  cases ahead : bytes.drop offset with
  | nil => simp only [Subject.unitAt, ahead]
  | cons octet rest =>
    rw [Subject.unitAt_ascii ahead (lt_of_drop ascii ahead)]
    simp only [Subject.unitAt, ahead]

/-- A text of octets below 128 has a boundary everywhere. -/
theorem isBoundary_of_ascii :
    (Subject.mk .utf8 bytes).isBoundary = (Subject.mk .octet bytes).isBoundary := by
  funext offset
  rw [Bool.eq_iff_iff]
  show _ ↔ decide (offset ≤ bytes.length) = true
  rw [decide_eq_true_iff]
  by_cases inside : offset < bytes.length
  · refine ⟨fun _ => Nat.le_of_lt inside, fun _ => ?_⟩
    rw [Subject.isBoundary_iff_isLead rfl inside]
    refine ⟨bytes[offset], List.getElem?_eq_getElem inside, ?_⟩
    have below : ¬ 0x80 ≤ bytes[offset] := UInt8.not_le.mpr (ascii _ (List.getElem_mem inside))
    rw [Utf8.isLead_eq, Utf8.isContinuation, decide_eq_false below]
    rfl
  · have past : bytes[offset]? = none := List.getElem?_eq_none (Nat.le_of_not_lt inside)
    show (offset == bytes.length || (bytes[offset]?).any Utf8.isLead) = true ↔ _
    rw [past, Option.any_none, Bool.or_false, beq_iff_eq]
    omega

/-- An input below 128 as text and octet by octet. -/
theorem Subject.twins_of_ascii : Twins ⟨.utf8, bytes⟩ ⟨.octet, bytes⟩ where
  bytes := rfl
  unitAt := unitAt_of_ascii ascii
  isBoundary := isBoundary_of_ascii ascii
  accepts {offset unit} present predicate := by
    refine predicate.accepts_of_small ?_
    cases ahead : bytes.drop offset with
    | nil =>
      rw [unitAt, ahead] at present
      cases present
    | cons octet rest =>
      have below := lt_of_drop ascii ahead
      rw [unitAt_ascii ahead below] at present
      cases present
      exact UInt8.lt_iff_toNat_lt.mp below

end

namespace Subject.Twins

variable {left right : Subject} (twins : left.Twins right)
include twins

/-- Twins are equally long. -/
theorem length : left.length = right.length := congrArg List.length twins.bytes

/-- Moves lead to the same places. -/
theorem advance (offset count : Nat) : left.advance offset count = right.advance offset count := by
  unfold Subject.advance
  rw [twins.length, twins.isBoundary]

/-- Spans have the same slices. -/
theorem slice? (span : Span) : left.slice? span = right.slice? span := by
  unfold Subject.slice?
  rw [twins.length, twins.bytes]

/-- There is the same to look at. -/
theorem viewFrom (offset : Nat) : left.viewFrom offset = right.viewFrom offset := by
  unfold Subject.viewFrom
  rw [twins.bytes, twins.unitAt]

end Subject.Twins

/-! ## Attempts on twins -/

/-- An attempt does the same on two subjects, from every state. -/
def Attempt.SameOn (left right : Subject) (attempt : Attempt α) : Prop :=
  attempt left = attempt right

namespace Attempt.SameOn

variable {left right : Subject} {attempt : Attempt α}

/-! ### Building blocks -/

/-- One attempt after another, where the first yields the subject or whatever else differs. -/
theorem bind_eq {first second : Attempt α} {next later : α → Attempt β}
    (same : first left = second right) (rest : ∀ value, next value left = later value right) :
    (first >>= next) left = (second >>= later) right := by
  funext state
  show (first left state).andThen (fun value => next value left) =
    (second right state).andThen (fun value => later value right)
  rw [same, funext rest]

/-- One attempt after another. -/
theorem bind {next : α → Attempt β} (first : attempt.SameOn left right)
    (later : ∀ value, (next value).SameOn left right) : (attempt >>= next).SameOn left right :=
  bind_eq first later

/-- An attempt that asks for its subject. -/
theorem withSubject {next : Subject → Attempt α} (same : next left left = next right right) :
    (Attempt.subject >>= next).SameOn left right := by
  funext state
  show Run.andThen ⟨.matched left, state, []⟩ (fun value => next value left) =
    Run.andThen ⟨.matched right, state, []⟩ (fun value => next value right)
  unfold Run.andThen
  dsimp only
  rw [same]

/-- A function on values. -/
theorem map (f : α → β) (same : attempt.SameOn left right) : (f <$> attempt).SameOn left right :=
  same.bind fun _ => rfl

/-- An attempt whose failure is looked at. -/
theorem observe (same : attempt.SameOn left right) : (observe attempt).SameOn left right := by
  funext state
  unfold Attempt.observe
  rw [same]

/-- An attempt that is only asked whether it matches. -/
theorem probe (same : attempt.SameOn left right) : (probe attempt).SameOn left right := by
  funext state
  unfold Attempt.probe
  rw [same]

/-- An attempt elsewhere, without the store. -/
theorem aside (offset : Nat) (same : attempt.SameOn left right) :
    (aside offset attempt).SameOn left right := by
  funext state
  unfold Attempt.aside
  rw [same]

/-- An attempt that is traced. -/
theorem traced {attempt : Attempt Span} (name : String) (same : attempt.SameOn left right) :
    (traced name attempt).SameOn left right := by
  funext state
  unfold Attempt.traced
  rw [same]

/-- An attempt whose failure is traced. -/
theorem tracedFailure {attempt : Attempt Span} (name : String)
    (same : attempt.SameOn left right) : (tracedFailure name attempt).SameOn left right := by
  funext state
  unfold Attempt.tracedFailure
  rw [same]

/-- An attempt that goes back when it fails. -/
theorem orRestore (same : attempt.SameOn left right) : (orRestore attempt).SameOn left right :=
  bind rfl fun _ => same.observe.bind fun
    | .ok _ => rfl
    | .error _ => rfl

/-- The span that an attempt covers. -/
theorem covering (same : attempt.SameOn left right) :
    (Combinator.covering attempt).SameOn left right :=
  bind rfl fun _ => same.bind fun _ => rfl

/-! ### Combinators that do not look at the subject -/

/-- The start of the input has one offset in both. -/
theorem atStart : Combinator.atStart.SameOn left right :=
  bind rfl fun start => by split <;> rfl

/-- The rounds of a repetition, by induction on those allotted. -/
theorem repeatFrom (start : Checkpoint) (bounds : Bounds) (step : attempt.SameOn left right)
    (rounds count : Nat) :
    (Combinator.repeatFrom start bounds attempt rounds count).SameOn left right := by
  induction rounds generalizing count with
  | zero =>
    unfold Combinator.repeatFrom
    split <;> rfl
  | succ rounds ih =>
    unfold Combinator.repeatFrom
    split
    · rfl
    · refine bind rfl fun here => step.observe.bind fun
        | .error failure => ?_
        | .ok value => bind rfl fun stop => ?_
      · refine bind rfl fun _ => ?_
        split <;> rfl
      · split
        · rfl
        · exact (ih (count + 1)).bind fun _ => rfl

/-- The items of a list, by induction on the rounds allotted. -/
theorem itemsFrom {separator : Attempt Span} (terminated : Bool)
    (item : attempt.SameOn left right) (between : separator.SameOn left right) (rounds : Nat) :
    (Combinator.itemsFrom attempt separator terminated rounds).SameOn left right := by
  induction rounds with
  | zero => rfl
  | succ rounds ih =>
    refine bind rfl fun here => item.observe.bind fun
      | .error failure => rfl
      | .ok value => bind rfl fun itemEnd => between.observe.bind fun
        | .error failure => bind rfl fun _ => ?_
        | .ok _ => bind rfl fun stop => ?_
    · split <;> rfl
    · split
      · rfl
      · exact ih.bind fun _ => rfl

section
variable {first second : Attempt Span}

/-- A sequence, part by part. -/
theorem sequence (one : first.SameOn left right) (other : second.SameOn left right) :
    (Combinator.sequence first second).SameOn left right :=
  (one.bind fun _ => other).covering.tracedFailure _

/-- A choice, part by part. -/
theorem choice (one : first.SameOn left right) (other : second.SameOn left right) :
    (Combinator.choice first second).SameOn left right :=
  bind rfl fun _ => one.observe.bind fun
    | .ok _ => rfl
    | .error _ => bind rfl fun _ => other.orRestore.traced _

/-- The longest of two, with the same ends to compare. -/
theorem longest (one : first.SameOn left right) (other : second.SameOn left right) :
    (Combinator.longest first second).SameOn left right := by
  refine traced _ (bind rfl fun start => one.observe.bind fun
    | .ok found => bind rfl fun leftStop => bind rfl fun held => bind rfl fun _ =>
      other.observe.bind fun
        | .ok span => ?_
        | .error _ => rfl
    | .error failure => bind rfl fun leftStop => bind rfl fun _ => bind rfl fun held =>
      bind rfl fun _ => other.observe.bind fun
        | .ok span => rfl
        | .error _ => rfl)
  dsimp only
  split <;> rfl

/-- A capture of the same span. -/
theorem captured (slot : Nat) (same : first.SameOn left right) :
    (Combinator.captured slot first).SameOn left right :=
  bind rfl fun _ => same.bind fun _ => rfl

/-- A branch, with the same answer to its question. -/
theorem branch {test : Attempt Bool} (asked : test.SameOn left right)
    (one : first.SameOn left right) (other : second.SameOn left right) :
    (Combinator.branch test first second).SameOn left right :=
  asked.bind fun
    | true => one
    | false => other

end

/-- A pair, part by part. -/
theorem sepOnce {last : Attempt α} {separator : Attempt Span} (one : attempt.SameOn left right)
    (between : separator.SameOn left right) (other : last.SameOn left right) :
    (Combinator.sepOnce attempt separator last).SameOn left right :=
  orRestore (one.bind fun _ => between.bind fun _ => other.bind fun _ => rfl)

/-- An enclosed attempt, part by part. -/
theorem enclosed {head tail : Attempt Span} (before : head.SameOn left right)
    (same : attempt.SameOn left right) (after : tail.SameOn left right) :
    (Combinator.enclosed head attempt tail).SameOn left right :=
  before.bind fun _ => same.bind fun _ => after.bind fun _ => rfl

/-! ### Combinators that do -/

section
variable (twins : left.Twins right)
include twins

/-- The remaining octets are as many in both. -/
theorem remaining : Attempt.remaining.SameOn left right := by
  funext state
  unfold Attempt.remaining
  rw [twins.length]

/-- The surroundings are the same. -/
theorem view : Attempt.view.SameOn left right := by
  funext state
  unfold Attempt.view
  rw [twins.viewFrom]

/-- A span cuts the same octets out of both. -/
theorem slice (span : Span) : (Attempt.slice span).SameOn left right := by
  funext state
  unfold Attempt.slice
  rw [twins.slice?]

/-- The slice of the same span. -/
theorem sliced {attempt : Attempt Span} (same : attempt.SameOn left right) :
    (Combinator.sliced attempt).SameOn left right :=
  same.bind fun span => (slice twins span).bind fun _ => rfl

/-- A text is compared with the same octets. -/
theorem literal (text : Bytes) : (Combinator.literal text).SameOn left right := by
  refine withSubject (bind_eq rfl fun start => ?_)
  rw [twins.bytes, twins.advance, twins.length]
  split
  · exact bind (by cases right.advance start text.length <;> rfl) fun _ => rfl
  · split <;> rfl

/-- One unit, which is the same in both. -/
theorem one (predicate : Predicate) : (Combinator.one predicate).SameOn left right := by
  refine withSubject (bind_eq rfl fun start => ?_)
  cases present : left.unitAt start with
  | none =>
    rw [← twins.unitAt, present]
    rfl
  | some unit =>
    rw [← twins.unitAt, present]
    dsimp only
    rw [twins.accepts present]
    split <;> rfl

/-- The end of the input has one offset in both. -/
theorem atEnd : Combinator.atEnd.SameOn left right := by
  refine withSubject (bind_eq rfl fun start => ?_)
  rw [twins.length]
  split <;> rfl

/-- Units are counted alike where they go on alike. -/
theorem tally (predicate : Predicate) (bounds : Bounds) {continues : InputUnit → Attempt Bool}
    (asks : ∀ unit, (continues unit).SameOn left right) (rounds count stop : Nat) :
    (Combinator.tally predicate bounds continues rounds count stop).SameOn left right := by
  induction rounds generalizing count stop with
  | zero =>
    unfold Combinator.tally
    split <;> rfl
  | succ rounds ih =>
    unfold Combinator.tally
    split
    · rfl
    · refine withSubject ?_
      cases present : left.unitAt stop with
      | none =>
        rw [← twins.unitAt, present]
        rfl
      | some unit =>
        rw [← twins.unitAt, present]
        dsimp only
        rw [twins.accepts present]
        split
        · refine bind (asks unit) fun goesOn => ?_
          cases goesOn
          · rfl
          · exact ih (count + 1) unit.next
        · rfl

/-- Units one by one: both offer as many, and a test says the same of each. -/
theorem count (predicate : Predicate) (bounds : Bounds) {continues : InputUnit → Attempt Bool}
    (asks : ∀ unit, (continues unit).SameOn left right) :
    (Combinator.count predicate bounds continues).SameOn left right := by
  refine traced _ (bind rfl fun start => (remaining twins).bind fun ahead =>
    (tally twins predicate bounds asks (ahead + 1) 0 start).bind fun found => ?_)
  split
  · split <;> rfl
  · rfl

/-- A repetition is allotted as many rounds in both. -/
theorem repeated (bounds : Bounds) (step : attempt.SameOn left right) :
    (Combinator.repeated bounds attempt).SameOn left right :=
  bind rfl fun start => (remaining twins).bind fun _ => step.repeatFrom start bounds _ 0

/-- A list is allotted as many rounds in both. -/
theorem separated {separator : Attempt Span} (least : Nat) (terminated : Bool)
    (item : attempt.SameOn left right) (between : separator.SameOn left right) :
    (Combinator.separated attempt separator least terminated).SameOn left right := by
  refine bind rfl fun start => (remaining twins).bind fun ahead =>
    (item.itemsFrom terminated between (ahead + 1)).bind fun items => ?_
  split <;> rfl

/-- A conversion of the same value. -/
theorem converted {inner : Attempt Value} (convert : Value → Conversion)
    (same : inner.SameOn left right) : (Combinator.converted inner convert).SameOn left right :=
  bind rfl fun start => same.bind fun value => bind rfl fun stop =>
    (slice twins (.between start stop)).bind fun bytes => by
      cases (convert value).settle start bytes <;> rfl

end

end Attempt.SameOn

/-! ## Matchers on twins -/

/-- A meaning does the same on two subjects. -/
structure Meaning.SameOn (left right : Subject) (meaning : Meaning) : Prop where
  /-- For the span. -/
  span : meaning.span.SameOn left right
  /-- For the value. -/
  value : meaning.value.SameOn left right

section
variable {left right : Subject} (twins : left.Twins right)
include twins

/-- A span and the slice that is its value. -/
theorem Meaning.SameOn.ofSpan {span : Attempt Span} (same : span.SameOn left right) :
    (Meaning.ofSpan span).SameOn left right := ⟨same, same.sliced twins⟩

/-- Every matcher does the same on twins where the calls do. -/
theorem Matcher.meaning_sameOn {call : Nat → Attempt Span}
    (calls : ∀ slot, (call slot).SameOn left right) (matcher : Matcher) :
    (matcher.meaning call).SameOn left right := by
  induction matcher with
  | literal text => exact .ofSpan twins (.literal twins text)
  | one predicate => exact .ofSpan twins (.one twins predicate)
  | atEnd => exact .ofSpan twins (.atEnd twins)
  | atStart => exact .ofSpan twins .atStart
  | empty | undefined => exact .ofSpan twins rfl
  | count predicate bounds condition =>
    refine .ofSpan twins (.count twins predicate bounds fun unit => ?_)
    exact (Attempt.SameOn.view twins).bind fun _ => rfl
  | countAhead predicate bounds ahead ih =>
    refine .ofSpan twins (.count twins predicate bounds fun unit => ?_)
    exact (ih.span.aside unit.offset).bind fun _ => rfl
  | repeated inner bounds ih =>
    exact .ofSpan twins ((ih.span.repeated twins bounds).covering.traced _)
  | collected inner bounds ih =>
    have values := (ih.value.repeated twins bounds).map Value.list
    exact ⟨values.covering, values⟩
  | sequence first second one other => exact .ofSpan twins (one.span.sequence other.span)
  | choice first second one other => exact .ofSpan twins (one.span.choice other.span)
  | longest first second one other => exact .ofSpan twins (one.span.longest other.span)
  | sepOnce first separator last one between other =>
    exact ⟨(one.span.sepOnce between.span other.span).covering.traced _,
      (one.value.sepOnce between.span other.value).map _⟩
  | separated item separator least terminated items between =>
    exact ⟨(items.span.separated twins least terminated between.span).covering.traced _,
      (items.value.separated twins least terminated between.span).map _⟩
  | enclosed head inner tail before ih after =>
    exact ⟨(before.span.enclosed ih.span after.span).covering.tracedFailure _,
      before.span.enclosed ih.value after.span⟩
  | mapped inner converter ih =>
    have values := ih.value.converted twins converter
    exact ⟨values.covering.tracedFailure _, values⟩
  | captured slot inner ih => exact .ofSpan twins (ih.span.captured slot)
  | branch test accepted otherwise asked one other =>
    exact .ofSpan twins (asked.span.probe.branch one.span other.span)
  | branchIf test accepted otherwise one other =>
    exact .ofSpan twins (((Attempt.SameOn.view twins).map test).branch one.span other.span)
  | boxed inner ih => exact .ofSpan twins ih.span
  | handle slot => exact .ofSpan twins (calls slot)
  | reference slot => exact .ofSpan twins (calls slot)

/-- A call of a definition does the same on twins, however deeply calls may be nested. -/
theorem Definitions.call_sameOn (definitions : Definitions) (depth slot : Nat) :
    (definitions.call depth slot).SameOn left right := by
  induction depth generalizing slot with
  | zero => rfl
  | succ depth ih =>
    unfold call
    cases definitions.find? slot with
    | none => rfl
    | some target => exact (target.meaning_sameOn twins ih).span

/-- Matching does the same on twins. -/
theorem Matcher.attempt_sameOn (matcher : Matcher) (definitions : Definitions) :
    (matcher.attempt definitions).SameOn left right ∧
      (matcher.attemptValue definitions).SameOn left right := by
  have depth : definitions.depthFor left = definitions.depthFor right := by
    unfold Definitions.depthFor
    rw [twins.length]
  have same := matcher.meaning_sameOn twins (definitions.call_sameOn twins
    (definitions.depthFor right))
  constructor
  · show (matcher.meaning (definitions.call (definitions.depthFor left))).span left = _
    rw [depth]
    exact same.span
  · show (matcher.meaning (definitions.call (definitions.depthFor left))).value left = _
    rw [depth]
    exact same.value

end

namespace Matcher

/-- On an input below 128, reading text and reading octet by octet make no difference: from every
state a run ends alike, with the same span or value, failure or misuse, in the same state, and with
the same trace. -/
theorem ascii_runs_agree (matcher : Matcher) (definitions : Definitions) {bytes : Bytes}
    (ascii : ∀ octet ∈ bytes, octet < 0x80) (state : State) :
    matcher.attempt definitions ⟨.utf8, bytes⟩ state =
        matcher.attempt definitions ⟨.octet, bytes⟩ state ∧
      matcher.attemptValue definitions ⟨.utf8, bytes⟩ state =
        matcher.attemptValue definitions ⟨.octet, bytes⟩ state := by
  obtain ⟨spans, values⟩ := matcher.attempt_sameOn (Subject.twins_of_ascii ascii) definitions
  exact ⟨congrFun spans state, congrFun values state⟩

/-- Letters are counted while a lookahead finds neither a literal beyond 128 nor a number, and what
refuses the letters of every script is captured. -/
theorem ascii_runs_agree_lookahead :
    let matcher := Matcher.sequence
      (.countAhead .alphabetic .any (.choice (.literal [0x62, 0xC3]) (.one (.not .numeric))))
      (.captured 0 (.oneOrMore (.one (.not .alphabetic))))
    let bytes : Bytes := [0x61, 0x62, 0x31, 0x32]
    let state : State := ⟨0, some (.ofCapacity 1)⟩
    let run := matcher.attempt [] ⟨.utf8, bytes⟩ state
    (∀ octet ∈ bytes, octet < 0x80) ∧ run.ending = .matched ⟨0, 4⟩ ∧
      run.state.captures.map CaptureStore.captures = some [(0, ⟨2, 2⟩)] ∧
      run = matcher.attempt [] ⟨.octet, bytes⟩ state ∧
      matcher.attemptValue [] ⟨.utf8, bytes⟩ state =
        matcher.attemptValue [] ⟨.octet, bytes⟩ state := by
  intro matcher bytes state run
  have ascii : ∀ octet ∈ bytes, octet < 0x80 := by simp [bytes]
  exact ⟨ascii, by decide +kernel, by decide +kernel, matcher.ascii_runs_agree [] ascii state⟩

end Matcher

end TextPattern
