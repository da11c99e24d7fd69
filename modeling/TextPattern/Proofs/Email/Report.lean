import Mathlib.Data.List.Forall2
import TextPattern.Proofs.Email.Recognition

/-!
# The report on addresses

The lines of a text are its pieces between line feeds, but for a last one that is empty, each
without the one carriage return that may end it. The recogniser is run on one after the other with
the same store. A line is valid if it is an address, and each part is the only capture of its slot,
whatever the store held before. `report_classifies_lines` is the main statement.
-/

/-! ## The lines of a text -/

namespace TextPattern.Lines

/-- The pieces between line feeds, an empty last one left out. -/
theorem splitOn_lineFeed (text : Bytes) :
    text.splitOn lineFeed = pieces text ++ [[]] ∨
      text.splitOn lineFeed = pieces text ∧ (pieces text).getLast? ≠ some [] := by
  induction text with
  | nil => exact .inl rfl
  | cons octet rest ih =>
    rw [List.splitOn_cons_eq_if_modifyHead, pieces]
    by_cases ends : octet = lineFeed
    · rw [if_pos (beq_iff_eq.mpr ends), if_pos ends]
      rcases ih with more | ⟨whole, filled⟩
      · exact .inl (congrArg ([] :: ·) more)
      · have some : pieces rest ≠ [] := whole ▸ List.splitOn_ne_nil lineFeed rest
        refine .inr ⟨congrArg ([] :: ·) whole, ?_⟩
        rw [List.getLast?_cons_of_ne_nil some]
        exact filled
    · rw [if_neg (by simpa using ends), if_neg ends]
      cases found : pieces rest with
      | nil =>
        rw [found] at ih
        rcases ih with more | ⟨whole, _⟩
        · rw [more]
          exact .inr ⟨rfl, nofun⟩
        · exact absurd whole (List.splitOn_ne_nil lineFeed rest)
      | cons piece later =>
        rw [found] at ih
        rcases ih with more | ⟨whole, filled⟩
        · rw [more]
          exact .inl rfl
        · rw [whole]
          refine .inr ⟨rfl, ?_⟩
          cases later with
          | nil => exact nofun
          | cons next others => exact filled

/-- A piece with the line that it makes: the same octets, but for a carriage return at the end. -/
def Trims (piece line : Bytes) : Prop :=
  piece = line ++ [carriageReturn] ∨ piece = line ∧ piece.getLast? ≠ some carriageReturn

/-- One carriage return is trimmed, and nothing else. -/
theorem trims_trimReturn (piece : Bytes) : Trims piece (trimReturn piece) := by
  unfold trimReturn
  split
  · rename_i ends
    obtain ⟨line, rfl⟩ := List.getLast?_eq_some_iff.mp ends
    rw [List.dropLast_concat]
    exact .inl rfl
  · rename_i ends
    exact .inr ⟨rfl, ends⟩

/-- The lines of a text are what its pieces make, in order. -/
theorem trims_ofText (text : Bytes) : List.Forall₂ Trims (pieces text) (ofText text) := by
  unfold ofText
  induction pieces text with
  | nil => exact .nil
  | cons piece later ih => exact .cons (trims_trimReturn piece) ih

example : ofText [0x61, 0x0D, 0x0D, 0x0A, 0x0A, 0x62] = [[0x61, 0x0D], [], [0x62]] := by decide

end TextPattern.Lines

namespace TextPattern.Email

open Grammar

/-! ## Printed texts -/

/-- The octets of an array, one after the other. -/
theorem toList_eq_data_toList (octets : ByteArray) : octets.toList = octets.data.toList := by
  have loop (place : Nat) (before : List UInt8) : ByteArray.toList.loop octets place before =
      before.reverse ++ octets.data.toList.drop place := by
    induction place, before using ByteArray.toList.loop.induct octets with
    | case1 place before more ih =>
      have here : place < octets.data.size := more
      have next : octets.get! place = octets.data[place] := getElem!_pos octets.data place here
      rw [ByteArray.toList.loop, if_pos more, ih, next, List.reverse_cons, List.append_assoc,
        List.drop_eq_getElem_cons (i := place) (Array.length_toList ▸ here)]
      rfl
    | case2 place before ended =>
      have behind : octets.data.toList.length ≤ place := Nat.le_of_not_lt ended
      rw [ByteArray.toList.loop, if_neg ended, List.drop_eq_nil_of_le behind, List.append_nil]
  rw [ByteArray.toList, loop]
  rfl

/-- Texts that are joined are printed one after the other. -/
theorem ofString_append (first second : String) :
    Bytes.ofString (first ++ second) = Bytes.ofString first ++ Bytes.ofString second := by
  simp only [Bytes.ofString, toList_eq_data_toList, String.toUTF8_eq_toByteArray,
    String.toByteArray_append, ByteArray.data_append, Array.toList_append]

/-- A digit is one octet. -/
theorem utf8EncodeChar_of_isDigit {digit : Char} (isDigit : digit.isDigit = true) :
    String.utf8EncodeChar digit = [digit.toUInt8] := by
  have range : 48 ≤ digit.val.toNat ∧ digit.val.toNat ≤ 57 := by
    simpa [Char.isDigit, UInt32.le_iff_toNat_le] using isDigit
  refine String.utf8EncodeChar_eq_singleton (if_pos ?_)
  rw [UInt32.le_iff_toNat_le]
  exact Nat.le_trans range.2 (by decide)

/-- A number is printed as its decimal digits. -/
theorem decimal_eq (number : Nat) : Bytes.decimal number = Bytes.ofString (toString number) := by
  have octets : (Nat.toDigits 10 number).flatMap String.utf8EncodeChar = Bytes.decimal number := by
    rw [Bytes.decimal, List.map_eq_flatMap]
    exact List.flatMap_congr fun digit among =>
      utf8EncodeChar_of_isDigit (Nat.isDigit_of_mem_toDigits (by decide) (by decide) among)
  calc
    Bytes.decimal number
      = ((Nat.toDigits 10 number).flatMap String.utf8EncodeChar).toByteArray.data.toList := by
        rw [List.toList_data_toByteArray, octets]
    _ = Bytes.ofString (toString number) := (toList_eq_data_toList _).symm

/-! ## One line -/

section
variable {store : CaptureStore} {line : Bytes}

/-- What was captured before a line makes no difference to it. -/
theorem judge_fresh (three : store.capacity = 3) (line : Bytes) :
    judge store line = judge (.ofCapacity 3) line := by
  unfold judge CaptureStore.reset
  rw [three]
  rfl

/-- What a run on a line leaves behind, as the reading says it. -/
theorem run_extends (three : store.capacity = 3) (line : Bytes) :
    let run := address.attempt [] ⟨.utf8, line⟩ ⟨0, some store.reset⟩
    let effect := (address.readingsUnder [] ⟨.utf8, line⟩).span ⟨.utf8, line⟩ (some 3) 0
    run.ending = effect.ending ∧ ∃ after, run.state.captures = some after ∧
      store.reset.Extends after effect.captures := by
  have capacity : store.reset.capacity = 3 := by
    rw [← three]
    exact List.length_replicate
  obtain ⟨ending, _, extended⟩ :=
    @Matcher.attempt_extends address [] ⟨.utf8, line⟩ 0 (Nat.zero_le _) store.reset
  rw [capacity] at ending extended
  exact ⟨ending, extended⟩

/-- A part that is the only capture of its slot is what is read back. -/
theorem firstSlice_eq {slot start : Nat} {part later : Bytes} (present : slot < store.capacity)
    (only : store.spansAt slot = [⟨start, part.length⟩]) (filled : part ≠ [])
    (ahead : line.drop start = part ++ later) :
    firstSlice store slot (.ofBytes .utf8 line) = .ok part := by
  have lengths := congrArg List.length ahead
  have positive := List.length_pos_iff.mpr filled
  rw [List.length_drop, List.length_append] at lengths
  have inside : (decide (start ≤ line.length) && decide (part.length ≤ line.length - start)) =
      true := by
    rw [Bool.and_eq_true, decide_eq_true_eq, decide_eq_true_eq]
    omega
  have slice : (Cursor.ofBytes .utf8 line).slice ⟨start, part.length⟩ = .ok part := by
    unfold Cursor.slice
    refine (if_pos inside).trans (congrArg Except.ok ?_)
    show (line.drop start).take part.length = part
    rw [ahead, List.take_left]
  unfold firstSlice CaptureStore.slices CaptureStore.spans
  rw [if_pos present, only]
  simp only [List.mapM_cons, List.mapM_nil, slice]
  rfl

/-- A store that holds one capture for each part of an address, and nothing else. -/
structure HoldsOnly (store : CaptureStore) (parts : Parts) : Prop where
  /-- It has three slots. -/
  capacity : store.capacity = 3
  /-- The first one holds the local part. -/
  localPart : store.spansAt 0 = [⟨0, parts.localPart.length⟩]
  /-- The second one holds the domain. -/
  domain : store.spansAt 1 = [⟨parts.localPart.length + 1, parts.domain.length⟩]
  /-- The third one holds the top-level domain. -/
  topLevel : store.spansAt 2 =
    [⟨parts.localPart.length + parts.domain.length + 2, parts.topLevel.length⟩]

/-- A reset store that is extended by the parts of an address holds nothing else. -/
theorem holdsOnly_of_extends (three : store.capacity = 3) {after : CaptureStore} {parts : Parts}
    (extended : store.reset.Extends after (capturesOf parts)) : HoldsOnly after parts := by
  have empty (slot : Nat) (present : slot < 3) : store.reset.spansAt slot = [] := by
    unfold CaptureStore.reset CaptureStore.spansAt
    rw [three]
    match slot, present with
    | 0, _ => rfl
    | 1, _ => rfl
    | 2, _ => rfl
  refine ⟨?_, ?_, ?_, ?_⟩
  · rw [extended.capacity, ← three]
    exact List.length_replicate
  · rw [extended.spansAt, empty 0 (by decide)]
    rfl
  · rw [extended.spansAt, empty 1 (by decide)]
    rfl
  · rw [extended.spansAt, empty 2 (by decide)]
    rfl

/-- The parts of an address are read back from such a store. -/
theorem partsOf_eq {parts : Parts} (holds : HoldsOnly store parts) (spells : Spells parts line) :
    partsOf store (.ofBytes .utf8 line) = .ok parts := by
  obtain ⟨formed, rfl⟩ := spells
  have filled : parts.topLevel ≠ [] := by
    intro empty
    have least := formed.atLeastTwo
    rw [empty] at least
    cases least
  have ahead : (written parts).drop 0 =
      parts.localPart ++ 0x40 :: (parts.domain ++ 0x2E :: parts.topLevel) := rfl
  have last := (drop_topLevel parts).trans (List.append_nil _).symm
  have capacity := holds.capacity
  unfold partsOf
  rw [firstSlice_eq (by omega) holds.localPart formed.localPart ahead,
    firstSlice_eq (by omega) holds.domain formed.domain (drop_domain parts),
    firstSlice_eq (by omega) holds.topLevel filled last]
  rfl

/-- An address is judged valid, and its parts are all that is left in the store. -/
theorem judge_address (three : store.capacity = 3) {parts : Parts} (spells : Spells parts line) :
    (judge store line).1 = .valid parts ∧
      ∃ after, (judge store line).2.1.captures = some after ∧ HoldsOnly after parts := by
  obtain ⟨ending, after, captures, extended⟩ := run_extends three line
  have takes : Takes line (address.readingsUnder [] ⟨.utf8, line⟩).span 0 line (capturesOf parts) :=
    takes_address _ spells
  unfold Takes at takes
  rw [takes] at ending extended
  have holds := holdsOnly_of_extends three extended
  have read := partsOf_eq holds spells
  unfold judge
  simp only [Cursor.ofBytes] at read ⊢
  rw [ending, captures]
  simp only [read]
  exact ⟨trivial, after, rfl, holds⟩

/-- Any other line is judged invalid, for a reason that fits on a line. -/
theorem judge_other (three : store.capacity = 3) (other : ¬ IsAddress line) :
    ∃ failure, (judge store line).1 = .invalid failure ∧ Lines.lineFeed ∉ failure.message ∧
      ∃ after, (judge store line).2.1.captures = some after ∧ after.capacity = 3 := by
  obtain ⟨ending, after, captures, extended⟩ := run_extends three line
  obtain ⟨failure, refused, clean⟩ : Refuses line (address.readingsUnder [] ⟨.utf8, line⟩).span 0 :=
    refuses_address _ other
  rw [refused] at ending
  have capacity : after.capacity = 3 := by
    rw [extended.capacity, ← three]
    exact List.length_replicate
  unfold judge
  simp only [Cursor.ofBytes]
  rw [ending]
  exact ⟨failure, rfl, clean, after, captures, capacity⟩

/-- A line is judged valid exactly if it is an address. -/
theorem judge_valid_iff (three : store.capacity = 3) (parts : Parts) :
    (judge store line).1 = .valid parts ↔ Spells parts line := by
  constructor
  · intro valid
    by_cases address : IsAddress line
    · obtain ⟨found, spells⟩ := address
      have same := (judge_address three spells).1.symm.trans valid
      cases same
      exact spells
    · obtain ⟨failure, invalid, _⟩ := judge_other three address
      cases invalid.symm.trans valid
  · exact fun spells => (judge_address three spells).1

end

/-! ## All lines -/

/-- What is printed on a verdict, unless it breaks the report off. -/
def verdictReport : Verdict → Bytes
  | .valid parts => validLine parts
  | .invalid failure => invalidLine failure
  | .broken _ => []
  | .exhausted => []

/-- What is printed about a line. -/
def lineReport (line : Bytes) : Bytes := verdictReport (judge (.ofCapacity 3) line).1

/-- It is the same whatever was captured before. -/
theorem verdictReport_judge {store : CaptureStore} (three : store.capacity = 3) (line : Bytes) :
    verdictReport (judge store line).1 = lineReport line := by
  rw [judge_fresh three]
  rfl

/-- What is printed about an address. -/
theorem lineReport_address {parts : Parts} {line : Bytes} (spells : Spells parts line) :
    lineReport line = validLine parts := by
  rw [lineReport, (judge_address rfl spells).1]
  rfl

/-- What is printed about any other line. -/
theorem lineReport_other {line : Bytes} (other : ¬ IsAddress line) :
    ∃ failure, (judge (.ofCapacity 3) line).1 = .invalid failure ∧
      lineReport line = invalidLine failure ∧ Lines.lineFeed ∉ failure.message := by
  obtain ⟨failure, invalid, clean, _⟩ := @judge_other (.ofCapacity 3) line rfl other
  refine ⟨failure, invalid, ?_, clean⟩
  rw [lineReport, invalid]
  rfl

/-- A line ends with one octet. -/
theorem newline_eq : Bytes.ofString "\n" = [Lines.lineFeed] := by decide +kernel

/-- An address and its parts have no line feed in them. -/
theorem lineFeed_notMem_validLine {parts : Parts} (formed : WellFormed parts) :
    ∃ printed, validLine parts = printed ++ [Lines.lineFeed] ∧ Lines.lineFeed ∉ printed := by
  have head := lineFeed_notMem_wording "valid: local=" (by simp)
  have middle := lineFeed_notMem_wording " domain=" (by simp)
  have last := lineFeed_notMem_wording " tld=" (by simp)
  have first : Lines.lineFeed ∉ parts.localPart := fun member =>
    absurd (formed.localOctets _ member) (by decide)
  have second : Lines.lineFeed ∉ parts.domain := fun member =>
    absurd (formed.domainOctets _ member) (by decide)
  have third : Lines.lineFeed ∉ parts.topLevel := fun member =>
    absurd (formed.letters _ member) (by decide)
  rw [validLine, newline_eq]
  refine ⟨_, rfl, ?_⟩
  simp only [List.mem_append, not_or]
  exact ⟨⟨⟨⟨⟨head, first⟩, middle⟩, second⟩, last⟩, third⟩

/-- What is printed about a line is one line. -/
theorem lineReport_one_line (line : Bytes) :
    ∃ printed, lineReport line = printed ++ [Lines.lineFeed] ∧ Lines.lineFeed ∉ printed := by
  by_cases address : IsAddress line
  · obtain ⟨parts, spells⟩ := address
    rw [lineReport_address spells]
    exact lineFeed_notMem_validLine spells.1
  · obtain ⟨failure, _, printed, clean⟩ := lineReport_other address
    have head := lineFeed_notMem_wording "invalid: " (by simp)
    rw [invalidLine, newline_eq] at printed
    refine ⟨_, printed, ?_⟩
    simp only [List.mem_append, not_or]
    exact ⟨head, clean⟩

/-- A line is called valid where it is an address, and only there. -/
theorem valid_prefix_lineReport_iff (line : Bytes) :
    Bytes.ofString "valid: " <+: lineReport line ↔ IsAddress line := by
  by_cases address : IsAddress line
  · refine iff_of_true ?_ address
    obtain ⟨parts, spells⟩ := address
    have joined : Bytes.ofString "valid: local=" = Bytes.ofString "valid: " ++ _ :=
      ofString_append "valid: " "local="
    rw [lineReport_address spells, validLine, joined]
    simp only [List.append_assoc]
    exact List.prefix_append _ _
  · refine iff_of_false (fun called => ?_) address
    obtain ⟨failure, _, printed, _⟩ := lineReport_other address
    have valid : Bytes.ofString "valid: " = 0x76 :: Bytes.ofString "alid: " := by decide +kernel
    have invalid : Bytes.ofString "invalid: " = 0x69 :: Bytes.ofString "nvalid: " := by
      decide +kernel
    rw [printed, invalidLine, valid, invalid] at called
    exact absurd (List.cons_prefix_cons.mp called).1 (by decide)

/-- A report on lines is a report on each of them, and a total at the end. -/
theorem reportFrom_eq {store : CaptureStore} (three : store.capacity = 3) (valid number : Nat)
    (lines : List Bytes) :
    let result := reportFrom store valid number lines
    result.output = lines.flatMap lineReport ++
        totalLine (valid + lines.countP fun line => IsAddress line) (number + lines.length) ∧
      result.errors = [] ∧ result.exitCode = 0 := by
  induction lines generalizing store valid number with
  | nil => exact ⟨rfl, rfl, rfl⟩
  | cons line later ih =>
    have printed := verdictReport_judge three line
    unfold reportFrom
    by_cases address : IsAddress line
    · obtain ⟨parts, spells⟩ := address
      obtain ⟨verdict, after, captures, holds⟩ := judge_address three spells
      obtain ⟨output, errors, exitCode⟩ := ih holds.capacity (valid + 1) (number + 1)
      have counted : (line :: later).countP (fun line => IsAddress line) = _ :=
        List.countP_cons_of_pos (decide_eq_true ⟨parts, spells⟩)
      rw [verdict] at printed
      simp only [verdict, captures, Option.getD_some]
      refine ⟨?_, errors, exitCode⟩
      rw [output, List.flatMap_cons, ← printed, List.append_assoc, counted, List.length_cons,
        Nat.add_right_comm valid, Nat.add_right_comm number]
      rfl
    · obtain ⟨failure, verdict, _, after, captures, capacity⟩ := judge_other three address
      obtain ⟨output, errors, exitCode⟩ := ih capacity valid (number + 1)
      have counted : (line :: later).countP (fun line => IsAddress line) = _ :=
        List.countP_cons_of_neg (by rwa [decide_eq_true_eq])
      rw [verdict] at printed
      simp only [verdict, captures, Option.getD_some]
      refine ⟨?_, errors, exitCode⟩
      rw [output, List.flatMap_cons, ← printed, List.append_assoc, counted, List.length_cons,
        Nat.add_right_comm number]
      rfl

/-- The total is printed in decimal digits. -/
theorem totalLine_eq (valid number : Nat) :
    totalLine valid number = Bytes.ofString
      (toString valid ++ " of " ++ toString number ++ " addresses are valid\n") := by
  simp only [totalLine, decimal_eq, ofString_append]

/-- The lines of a text are its pieces between line feeds, an empty last one left out and a
carriage return at the end of each trimmed. What is printed is one line for each of them, by that
line alone, and then how many are valid. A line is called valid exactly if it is an address: its
parts are printed, and each is the only capture of its slot, whatever was captured before. -/
theorem report_classifies_lines :
    ∃ printed : Bytes → Bytes,
      (∀ line, (∃ content, printed line = content ++ [0x0A] ∧ 0x0A ∉ content) ∧
        ("valid: ".toUTF8.toList <+: printed line ↔ IsAddress line) ∧
        (∀ parts, Spells parts line → printed line =
          "valid: local=".toUTF8.toList ++ parts.localPart ++ " domain=".toUTF8.toList ++
            parts.domain ++ " tld=".toUTF8.toList ++ parts.topLevel ++ "\n".toUTF8.toList) ∧
        (¬ IsAddress line → ∃ failure, (judge (.ofCapacity 3) line).1 = .invalid failure ∧
          printed line = "invalid: ".toUTF8.toList ++ failure.message ++ "\n".toUTF8.toList)) ∧
      (∀ text,
        let lines := Lines.ofText text
        (∃ pieces, (text.splitOn 0x0A = pieces ++ [[]] ∨
            text.splitOn 0x0A = pieces ∧ pieces.getLast? ≠ some []) ∧
          List.Forall₂ (fun piece line => piece = line ++ [0x0D] ∨
            piece = line ∧ piece.getLast? ≠ some 0x0D) pieces lines) ∧
        (report text).output = lines.flatMap printed ++
          (toString (lines.countP fun line => IsAddress line) ++ " of " ++
            toString lines.length ++ " addresses are valid\n").toUTF8.toList ∧
        (report text).errors = [] ∧ (report text).exitCode = 0) ∧
      ∀ store line, store.capacity = 3 → judge store line = judge (.ofCapacity 3) line ∧
        ∀ parts, ((judge store line).1 = .valid parts ↔ Spells parts line) ∧
          (Spells parts line →
            ∃ after, (judge store line).2.1.captures = some after ∧ HoldsOnly after parts) := by
  refine ⟨lineReport, fun line => ⟨lineReport_one_line line, valid_prefix_lineReport_iff line,
    fun parts spells => lineReport_address spells, fun other => ?_⟩, fun text => ?_, ?_⟩
  · obtain ⟨failure, invalid, printed, _⟩ := lineReport_other other
    exact ⟨failure, invalid, printed⟩
  · intro lines
    obtain ⟨output, errors, exitCode⟩ := @reportFrom_eq (.ofCapacity 3) rfl 0 0 lines
    rw [Nat.zero_add, Nat.zero_add, totalLine_eq] at output
    exact ⟨⟨Lines.pieces text, Lines.splitOn_lineFeed text, Lines.trims_ofText text⟩, output,
      errors, exitCode⟩
  · intro store line three
    exact ⟨judge_fresh three line, fun parts =>
      ⟨judge_valid_iff three parts, fun spells => (judge_address three spells).2⟩⟩

/-- A text of three lines, and a line that is judged with a store that has been used. -/
theorem report_classifies_lines_used_store :
    let text := "a.b@c.d.ef\r\n\nx@y.z\n".toUTF8.toList
    let line := "a.b@c.d.ef".toUTF8.toList
    let parts : Parts := ⟨"a.b".toUTF8.toList, "c.d".toUTF8.toList, "ef".toUTF8.toList⟩
    let store := (CaptureStore.ofCapacity 3).replay [(1, ⟨7, 1⟩)]
    (∃ rest, (report text).output =
      "valid: local=a.b domain=c.d tld=ef\n".toUTF8.toList ++ rest) ∧
      (Lines.ofText text).countP (fun line => IsAddress line) = 1 ∧
      Spells parts line ∧ store.capacity = 3 ∧ (judge store line).1 = .valid parts ∧
      ∃ after, (judge store line).2.1.captures = some after ∧ HoldsOnly after parts := by
  intro text line parts store
  have spells : Spells parts line := by decide +kernel
  have three : store.capacity = 3 := (CaptureStore.ofCapacity 3).capacity_replay _
  obtain ⟨printed, about, whole, judged⟩ := report_classifies_lines
  obtain ⟨valid, left⟩ := (judged store line three).2 parts
  refine ⟨?_, by decide +kernel, spells, three, valid.mpr spells, left spells⟩
  have lines : Lines.ofText text = line :: [[], "x@y.z".toUTF8.toList] := by decide +kernel
  have first := (about line).2.2.1 parts spells
  have joined : "valid: local=".toUTF8.toList ++ parts.localPart ++ " domain=".toUTF8.toList ++
      parts.domain ++ " tld=".toUTF8.toList ++ parts.topLevel ++ "\n".toUTF8.toList =
        "valid: local=a.b domain=c.d tld=ef\n".toUTF8.toList := by decide +kernel
  rw [(whole text).2.1, lines, List.flatMap_cons, first, joined, List.append_assoc]
  exact ⟨_, rfl⟩

end TextPattern.Email
