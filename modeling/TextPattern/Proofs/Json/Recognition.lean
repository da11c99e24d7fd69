import TextPattern.Grammar.Json
import TextPattern.Proofs.Json.Grammar
import TextPattern.Proofs.Predicates
import TextPattern.Proofs.Recognition

/-!
# The recogniser of JSON

Every part of the recogniser recognises its production, and the whole of it recognises the texts of
the grammar. Objects, arrays, strings, numbers and names differ in their first runes, and what
may follow a part tells that no more of it is ahead: the recogniser never has to go back. A
value ends before the input does, so the values inside it are matched from later offsets.
-/

namespace TextPattern.Json

open scoped Computability
open Predicate (accepts_ofText_of_ascii accepts_asciiDigit accepts_asciiHexdigit)
open Words

/-! ## Predicates -/

/-- The runes that stand for themselves are those of the grammar. -/
theorem accepts_plainRune (rune : Nat) :
    plainRune.accepts .utf8 rune = true ↔ rune ≠ 0x22 ∧ rune ≠ 0x5C ∧ 0x1F < rune := by
  have octets : Bytes.ofString "\"\\" = [0x22, 0x5C] := by with_unfolding_all rfl
  have quoting : _ ↔ rune ∈ [0x22, 0x5C] := accepts_ofText_of_ascii octets (by simp) .utf8 rune
  show (!((Predicate.ofText (Bytes.ofString "\"\\")).accepts .utf8 rune ||
    (decide (0 ≤ rune) && decide (rune ≤ 0x1F)))) = true ↔ _
  rw [Bool.not_eq_true', Bool.or_eq_false_iff, ← Bool.not_eq_true, quoting]
  simp only [List.mem_cons, List.not_mem_nil, or_false, not_or, Nat.zero_le, decide_true,
    Bool.true_and, decide_eq_false_iff_not, Nat.not_le]
  tauto

/-! ## Leaves -/

section
variable {bytes : Bytes} {least : Nat} {matcher inner : Matcher} {language : Language Nat}
  {follow : Follow}

/-- What a matcher of the recogniser recognises, without a store. -/
abbrev Reads (bytes : Bytes) (least : Nat) (matcher : Matcher) (language : Language Nat)
    (follow : Follow) : Prop :=
  Recognises definitions ⟨.utf8, bytes⟩ none least matcher language follow

/-- One rune that a predicate accepts. -/
theorem reads_one {predicate : Predicate} {known : Nat → Prop}
    (same : ∀ rune, predicate.accepts .utf8 rune = true ↔ known rune) :
    Reads bytes least (.one predicate) (single known) fun _ => True := by
  rw [← single_congr same]
  exact .one predicate

/-- One rune of a given value. -/
theorem reads_rune (value : Nat) :
    Reads bytes least (.ofValue value) (Grammar.rune value) fun _ => True :=
  reads_one fun _ => beq_iff_eq

/-- One of the runes of a text of octets below 128. -/
theorem reads_ofText {text octets : Bytes} {values : List Nat} (written : text = octets)
    (ascii : ∀ octet ∈ octets, octet < 0x80)
    (same : (octets.map UInt8.toNat).Perm values) :
    Reads bytes least (.one (.ofText text)) (Grammar.oneOf values) fun _ => True :=
  reads_one fun rune => (accepts_ofText_of_ascii written ascii .utf8 rune).trans same.mem_iff

/-- White space. -/
theorem reads_space : Reads bytes least space Grammar.space fun _ => True := by
  have octets : Bytes.ofString " \t\x0d\n" = [0x20, 0x09, 0x0D, 0x0A] := by with_unfolding_all rfl
  exact reads_ofText octets (by simp) (by decide)

/-! ## White space -/

/-- A rune of white space. -/
abbrev Blank (rune : Nat) : Prop := rune ∈ [0x20, 0x09, 0x0A, 0x0D]

/-- Behind any white space, the input ends or goes on with a rune of a kind. -/
def NextInk (kind : Nat → Prop) : Follow := fun later =>
  Next kind (later.dropWhile fun rune => decide (Blank rune))

/-- Behind any white space, every word has a rune of a kind. -/
def Inks (language : Language Nat) (kind : Nat → Prop) : Prop :=
  ∀ word ∈ language, ∃ rune later,
    (word.dropWhile fun rune => decide (Blank rune)) = rune :: later ∧ kind rune

variable {kind other : Nat → Prop} {left right : Language Nat} {word : List Nat}

/-- White space before words that begin with other runes. -/
theorem inks_space_mul (begins : Begins language kind) (ink : ∀ rune, kind rune → ¬ Blank rune) :
    Inks (Grammar.space∗ * language) kind := by
  intro word member
  obtain ⟨blanks, white, rest, inside, rfl⟩ := Language.mem_mul.mp member
  obtain ⟨rune, later, rfl, known⟩ := begins rest inside
  refine ⟨rune, later, ?_, known⟩
  obtain ⟨parts, rfl, all⟩ := white
  have blank : ∀ value ∈ parts.flatten, decide (Blank value) = true := by
    intro value inside
    obtain ⟨part, among, here⟩ := List.mem_flatten.mp inside
    obtain ⟨_, known, rfl⟩ := all part among
    rw [List.mem_singleton.mp here]
    exact decide_eq_true known
  rw [List.dropWhile_append_of_pos blank]
  exact List.dropWhile_cons_of_neg (by simpa using ink rune known)

/-- Words that go on have the same first rune behind white space. -/
theorem Inks.mul (inks : Inks left kind) (right : Language Nat) : Inks (left * right) kind := by
  intro word member
  obtain ⟨first, inLeft, second, _, rfl⟩ := Language.mem_mul.mp member
  obtain ⟨rune, later, same, known⟩ := inks first inLeft
  refine ⟨rune, later ++ second, ?_, known⟩
  rw [List.dropWhile_append, same]
  rfl

/-- A word with such a rune goes on with it. -/
theorem Inks.nextInk (inks : Inks language kind) (member : word ∈ language) (later : List Nat) :
    NextInk kind (word ++ later) := by
  obtain ⟨rune, rest, same, known⟩ := inks word member
  intro first among
  rw [List.dropWhile_append, same] at among
  cases among
  exact known

/-- A word with another rune is not ahead of such runes. -/
theorem Inks.not_nextInk (inks : Inks language kind) (differ : ∀ rune, kind rune → ¬ other rune)
    (member : word ∈ language) (later : List Nat) : ¬ NextInk other (word ++ later) := by
  obtain ⟨rune, rest, same, known⟩ := inks word member
  intro next
  refine differ rune known (next rune ?_)
  rw [List.dropWhile_append, same]
  rfl

/-- Such a word has a rune. -/
theorem Inks.nil_notMem (inks : Inks language kind) : [] ∉ language := by
  intro member
  obtain ⟨_, _, same, _⟩ := inks [] member
  cases same

/-- White space before words begins with white space, or with what begins the words. -/
theorem begins_space_mul (begins : Begins language kind) :
    Begins (Grammar.space∗ * language) fun rune => Blank rune ∨ kind rune := by
  rw [← one_add_mul_kstar, add_mul, one_mul, mul_assoc]
  exact (begins.mono fun _ => .inr).add (((Begins.single _).mul _).mono fun _ => .inl)

/-- What comes behind white space comes at once or behind a rune of it. -/
theorem NextInk.next {later : List Nat} (ahead : NextInk kind later) :
    Next (fun rune => Blank rune ∨ kind rune) later := by
  intro first same
  obtain ⟨rest, rfl⟩ := List.head?_eq_some_iff.mp same
  by_cases blank : Blank first
  · exact .inl blank
  · refine .inr (ahead first ?_)
    rw [List.dropWhile_cons_of_neg (by simpa using blank)]
    rfl

/-- What comes behind white space in a kind comes there in any wider kind. -/
theorem NextInk.mono {later : List Nat} (ahead : NextInk kind later)
    (more : ∀ rune, kind rune → other rune) : NextInk other later := Next.mono ahead more

/-- Any white space, before a rune of another kind. -/
theorem reads_spaces :
    Reads bytes least (.zeroOrMore space) Grammar.space∗ (Next fun rune => ¬ Blank rune) := by
  have begins : Begins Grammar.space Blank := .single _
  rw [← times_any]
  refine reads_space.repeated begins.nil_notMem (.inr fun _ _ _ => trivial)
    (fun _ _ => trivial) (.inr fun word member rest => ?_)
  exact begins.not_next (fun rune blank => not_not_intro blank) member rest

/-- A part after any white space. -/
theorem reads_skipThen (reads : Reads bytes least inner language follow)
    (begins : Begins language kind) (ink : ∀ rune, kind rune → ¬ Blank rune) :
    Reads bytes least (.skipThen space inner) (Grammar.space∗ * language) follow := by
  have last : Reads bytes least (.sequence inner .empty) (language * 1) follow := by
    refine reads.sequence (Recognises.empty.strengthen fun _ _ => trivial) (.inl (Nat.le_refl _)) ?_
    intro word member later follows
    rw [(Language.mem_one _).mp member]
    exact follows
  rw [mul_one] at last
  refine (reads_spaces.sequence last (.inl (Nat.le_refl _)) ?_).enclosed
  intro word member later _
  exact (begins.next member later).mono ink

/-! ## Numbers -/

/-- A digit. -/
abbrev Digit (rune : Nat) : Prop := 0x30 ≤ rune ∧ rune ≤ 0x39

/-- Digits, one or more, before another rune. -/
theorem reads_digits :
    Reads bytes least digits Grammar.digits (Next fun rune => ¬ Digit rune) := by
  have same : single (fun rune => Predicate.asciiDigit.accepts .utf8 rune = true) =
      Grammar.digit := single_congr accepts_asciiDigit
  have counted : Reads bytes least digits _ (Next fun rune => ¬ Digit rune) :=
    .countAll .asciiDigit (.inr fun rune accepted rest next =>
      next rune rfl ((accepts_asciiDigit rune).mp accepted))
  change Reads bytes least digits (times (single fun rune =>
    Predicate.asciiDigit.accepts .utf8 rune = true) (.atLeast 1)) _ at counted
  rwa [same, times_atLeast_one] at counted

/-- Any number of digits, before another rune. -/
theorem reads_moreDigits :
    Reads bytes least (.countAll .asciiDigit .any) Grammar.digit∗
      (Next fun rune => ¬ Digit rune) := by
  have same : single (fun rune => Predicate.asciiDigit.accepts .utf8 rune = true) =
      Grammar.digit := single_congr accepts_asciiDigit
  have counted : Reads bytes least (.countAll .asciiDigit .any) _ (Next fun rune => ¬ Digit rune) :=
    .countAll .asciiDigit (.inr fun rune accepted rest next =>
      next rune rfl ((accepts_asciiDigit rune).mp accepted))
  change Reads bytes least _ (times (single fun rune =>
    Predicate.asciiDigit.accepts .utf8 rune = true) .any) _ at counted
  rwa [same, times_any] at counted

/-- A part that may be missing, where it is not ahead of what may follow. -/
theorem reads_optional (reads : Reads bytes least inner language follow) (filled : [] ∉ language)
    {after : Follow} (last : ∀ later, after later → follow later)
    (ends : ∀ word ∈ language, ∀ rest, ¬ after (word ++ rest)) :
    Reads bytes least (.optional inner) (1 + language) after := by
  rw [← times_atMost_one]
  exact reads.repeated filled (.inl rfl) last (.inr ends)

/-- What may not come behind a number. -/
abbrev Numeral (rune : Nat) : Prop := Digit rune ∨ rune ∈ [0x2E, 0x65, 0x45]

/-- Digits begin with a digit. -/
theorem begins_digits : Begins Grammar.digits Digit := (Begins.single _).mul _

/-- The integral part of a number, up to where no digit is next. -/
theorem reads_integer :
    Reads bytes least integralPart Grammar.integer (Next fun rune => ¬ Digit rune) := by
  have first :
      Reads bytes least (.one (.range 0x31 0x39)) (Grammar.between 0x31 0x39) fun _ => True :=
    reads_one fun rune => by
      show (decide (0x31 ≤ rune) && decide (rune ≤ 0x39)) = true ↔ _
      rw [Bool.and_eq_true, decide_eq_true_eq, decide_eq_true_eq]
  have more : Reads bytes least (.countAll .asciiDigit .any) Grammar.digit∗
      (Next fun rune => ¬ Digit rune) := reads_moreDigits
  have others := first.sequence more (.inl (Nat.le_refl _)) fun _ _ _ _ => trivial
  have zero :
      Reads bytes least (.ofValue 0x30) (Grammar.rune 0x30) (Next fun rune => ¬ Digit rune) :=
    (reads_rune 0x30).strengthen fun _ _ => trivial
  have begins : Begins (Grammar.between 0x31 0x39 * Grammar.digit∗)
      fun rune => 0x31 ≤ rune ∧ rune ≤ 0x39 := (Begins.single _).mul _
  exact zero.choice_of_begins others (Begins.single _) begins fun rune same => by omega

/-- The fraction of a number, up to where no digit is next. -/
theorem reads_fraction :
    Reads bytes least fractionalPart Grammar.fraction (Next fun rune => ¬ Digit rune) :=
  (reads_rune 0x2E).sequence reads_digits (.inl (Nat.le_refl _)) fun _ _ _ _ => trivial

/-- The exponent of a number, up to where no digit is next. -/
theorem reads_exponent :
    Reads bytes least exponentPart Grammar.exponent (Next fun rune => ¬ Digit rune) := by
  have letters : Reads bytes least (.one (.ofText (Bytes.ofString "Ee")))
      (Grammar.oneOf [0x65, 0x45]) fun _ => True := by
    have octets : Bytes.ofString "Ee" = [0x45, 0x65] := by with_unfolding_all rfl
    exact reads_ofText octets (by simp) (by decide)
  have signs : Reads bytes least (.one (.ofText (Bytes.ofString "+-")))
      (Grammar.oneOf [0x2D, 0x2B]) fun _ => True := by
    have octets : Bytes.ofString "+-" = [0x2B, 0x2D] := by with_unfolding_all rfl
    exact reads_ofText octets (by simp) (by decide)
  have begins : Begins (Grammar.oneOf [0x2D, 0x2B]) (· ∈ [0x2D, 0x2B]) := .single _
  have sign : Reads bytes least (.optional (.one (.ofText (Bytes.ofString "+-"))))
      (1 + Grammar.oneOf [0x2D, 0x2B]) (Next Digit) := by
    refine reads_optional signs begins.nil_notMem (fun _ _ => trivial) fun word member rest => ?_
    exact begins.not_next (fun rune => by simp; omega) member rest
  have signed := sign.sequence reads_digits (.inl (Nat.le_refl _)) fun word member later _ =>
    begins_digits.next member later
  exact letters.sequence signed (.inl (Nat.le_refl _)) fun _ _ _ _ => trivial

/-- An integral part begins with a digit. -/
theorem begins_integer : Begins Grammar.integer Digit :=
  Begins.add ((Begins.single _).mono fun rune same => by omega)
    (((Begins.single _).mul _).mono fun rune range => ⟨by omega, range.2⟩)

/-- A number, up to where nothing is next that could go on with it. -/
theorem reads_number :
    Reads bytes least number Grammar.number (Next fun rune => ¬ Numeral rune) := by
  have fractionBegins : Begins Grammar.fraction (· = 0x2E) := (Begins.single _).mul _
  have exponentBegins : Begins Grammar.exponent (· ∈ [0x65, 0x45]) := (Begins.single _).mul _
  have exponent : Reads bytes least (.optional exponentPart) (1 + Grammar.exponent)
      (Next fun rune => ¬ Numeral rune) := by
    refine reads_optional reads_exponent exponentBegins.nil_notMem ?_ ?_
    · exact fun later next => next.mono fun rune other digit => other (.inl digit)
    · intro word member rest
      exact exponentBegins.not_next (fun rune letter => not_not_intro (.inr (by simp_all)))
        member rest
  have fraction : Reads bytes least (.optional fractionalPart) (1 + Grammar.fraction)
      (Next fun rune => ¬ Digit rune ∧ rune ≠ 0x2E) := by
    refine reads_optional reads_fraction fractionBegins.nil_notMem ?_ ?_
    · exact fun later next => next.mono fun rune other => other.1
    · intro word member rest
      exact fractionBegins.not_next (fun rune point other => other.2 point) member rest
  have minus : Reads bytes least (.optional (.ofValue 0x2D)) (1 + Grammar.rune 0x2D)
      (Next Digit) := by
    have begins : Begins (Grammar.rune 0x2D) (· = 0x2D) := .single _
    refine reads_optional (reads_rune 0x2D) begins.nil_notMem (fun _ _ => trivial) ?_
    exact fun word member rest => begins.not_next (fun rune same => by omega) member rest
  have letter (rune : Nat) (known : rune ∈ [0x65, 0x45]) : ¬ Digit rune ∧ rune ≠ 0x2E := by
    simp only [List.mem_cons, List.not_mem_nil, or_false] at known
    omega
  have other (rune : Nat) (unlike : ¬ Numeral rune) : ¬ Digit rune ∧ rune ≠ 0x2E :=
    ⟨fun digit => unlike (.inl digit), fun point => unlike (.inr (by simp [point]))⟩
  have decimals := fraction.sequence exponent (.inl (Nat.le_refl _)) fun word member later next =>
    exponentBegins.next_oneAdd letter member (next.mono other)
  have unsigned := reads_integer.sequence decimals (.inl (Nat.le_refl _)) ?_
  · refine minus.sequence unsigned (.inl (Nat.le_refl _)) fun word member later _ => ?_
    exact (begins_integer.mul _).next member later
  · intro word member later next
    obtain ⟨point, first, behind, second, rfl⟩ := Language.mem_mul.mp member
    rw [List.append_assoc]
    refine fractionBegins.next_oneAdd (fun rune same => by omega) first ?_
    exact exponentBegins.next_oneAdd (fun rune known => (letter rune known).1) second
      (next.mono fun rune unlike => (other rune unlike).1)

/-- A number begins with a digit or a minus sign. -/
theorem begins_number : Begins Grammar.number fun rune => rune = 0x2D ∨ Digit rune :=
  Begins.oneAdd ((Begins.single _).mono fun _ => .inl)
    ((begins_integer.mul _).mono fun _ => .inr)

/-! ## Strings -/

/-- An escape, which tells by its second rune how many follow. -/
theorem reads_escape : Reads bytes least escape Grammar.escape fun _ => True := by
  have simple : Reads bytes least (.one (.ofText (Bytes.ofString "/\\\"bfnrt")))
      (Grammar.oneOf [0x22, 0x5C, 0x2F, 0x62, 0x66, 0x6E, 0x72, 0x74]) fun _ => True := by
    have octets : Bytes.ofString "/\\\"bfnrt" =
        [0x2F, 0x5C, 0x22, 0x62, 0x66, 0x6E, 0x72, 0x74] := by with_unfolding_all rfl
    exact reads_ofText octets (by simp) (by decide)
  have hexDigit : single (fun rune => Predicate.asciiHexdigit.accepts .utf8 rune = true) =
      Grammar.hexDigit := by
    rw [single_congr accepts_asciiHexdigit, single_or, single_or]
    rfl
  have counted : Reads bytes least (.countAll .asciiHexdigit (.exactly 4))
      (Grammar.hexDigit ^ 4) fun _ => True := by
    rw [← hexDigit, ← times_exactly]
    exact .countAll .asciiHexdigit (.inl rfl)
  have unicode : Reads bytes least unicodeEscape (Grammar.rune 0x75 * Grammar.hexDigit ^ 4)
      fun _ => True :=
    (reads_rune 0x75).sequence counted (.inl (Nat.le_refl _)) fun _ _ _ _ => trivial
  have begins : Begins (Grammar.rune 0x75 * Grammar.hexDigit ^ 4) (· = 0x75) :=
    (Begins.single _).mul _
  have either := simple.choice_of_begins unicode (Begins.single _) begins fun rune known same => by
    rw [same] at known
    exact absurd known (by decide)
  exact (reads_rune 0x5C).sequence either (.inl (Nat.le_refl _)) fun _ _ _ _ => trivial

/-- A string, up to its closing quotation mark. -/
theorem reads_string : Reads bytes least string Grammar.string fun _ => True := by
  have plain : Reads bytes least (.one plainRune) Grammar.unescaped fun _ => True :=
    reads_one accepts_plainRune
  have plainBegins : Begins Grammar.unescaped fun rune => rune ≠ 0x22 ∧ rune ≠ 0x5C ∧ 0x1F < rune :=
    .single _
  have escapeBegins : Begins Grammar.escape (· = 0x5C) := (Begins.single _).mul _
  have characters := plain.choice_of_begins reads_escape plainBegins escapeBegins
    fun rune known => known.2.1
  have begins : Begins (Grammar.unescaped + Grammar.escape) (· ≠ 0x22) :=
    (plainBegins.mono fun rune known => known.1).add (escapeBegins.mono fun rune same => by omega)
  have repeated : Reads bytes least (.zeroOrMore (.choice (.one plainRune) escape))
      (Grammar.unescaped + Grammar.escape)∗ (Next (· = 0x22)) := by
    rw [← times_any]
    refine characters.repeated begins.nil_notMem (.inr fun _ _ _ => trivial)
      (fun _ _ => trivial) (.inr fun word member rest => ?_)
    exact begins.not_next (fun rune other => other) member rest
  have closed := repeated.sequence (reads_rune 0x22) (.inl (Nat.le_refl _)) ?_
  · refine ((reads_rune 0x22).sequence closed (.inl (Nat.le_refl _))
      fun _ _ _ _ => trivial).enclosed
  · intro word member later _
    exact (Begins.single (· = 0x22)).next member later

/-! ## Names -/

/-- A name whose octets are known. -/
theorem reads_name {text known : Bytes} (octets : text = known)
    (ascii : ∀ octet ∈ known, octet < 0x80) :
    Reads bytes least (.literal text) {known.map UInt8.toNat} (Next (· < 0x80)) := by
  rw [octets]
  exact .literal ascii

/-- The name of nothing. -/
theorem reads_null : Reads bytes least null {[0x6E, 0x75, 0x6C, 0x6C]} (Next (· < 0x80)) := by
  have octets : Bytes.ofString "null" = [0x6E, 0x75, 0x6C, 0x6C] := by with_unfolding_all rfl
  exact reads_name octets (by simp)

/-- The names of the truth values, which differ in their first letters. -/
theorem reads_boolean :
    Reads bytes least boolean ({[0x74, 0x72, 0x75, 0x65]} + {[0x66, 0x61, 0x6C, 0x73, 0x65]})
      (Next (· < 0x80)) := by
  have trueOctets : Bytes.ofString "true" = [0x74, 0x72, 0x75, 0x65] := by with_unfolding_all rfl
  have falseOctets : Bytes.ofString "false" = [0x66, 0x61, 0x6C, 0x73, 0x65] := by
    with_unfolding_all rfl
  have yes : Reads bytes least (.literal (Bytes.ofString "true")) {[0x74, 0x72, 0x75, 0x65]}
      (Next (· < 0x80)) := reads_name trueOctets (by simp)
  have no : Reads bytes least (.literal (Bytes.ofString "false"))
      {[0x66, 0x61, 0x6C, 0x73, 0x65]} (Next (· < 0x80)) :=
    reads_name falseOctets (by simp)
  exact yes.choice_of_begins no (.singleton _ _) (.singleton _ _) fun rune same => by omega

/-! ## Lists -/

/-- A value may be followed by white space, a comma or a closing bracket. -/
abbrev Closing (rune : Nat) : Prop := Blank rune ∨ rune ∈ [0x2C, 0x5D, 0x7D]

/-- Items between brackets, with commas between them and white space before every item, comma and
closing bracket. The items come later than the opening bracket. -/
theorem reads_list {item : Matcher} (opening closing : Nat)
    (closes : closing ∈ [0x5D, 0x7D])
    (reads : Reads bytes (least + 1) item (Grammar.space∗ * language) (Next Closing))
    (begins : Begins language kind) (ink : ∀ rune, kind rune → ¬ Closing rune) :
    Reads bytes least
      (.quoted (.optional (.sequence item (.zeroOrMore (.sequence comma item))))
        (.ofValue opening) (.skipThen space (.ofValue closing)))
      (Grammar.rune opening *
        ((1 + Grammar.space∗ * language * Grammar.further (Grammar.space∗ * language)) *
          (Grammar.space∗ * Grammar.rune closing))) fun _ => True := by
  have known : ¬ Blank closing ∧ closing ≠ 0x2C ∧ Closing closing := by
    simp only [List.mem_cons, List.not_mem_nil, or_false] at closes
    rcases closes with rfl | rfl <;> decide
  have commaInk (rune : Nat) (same : rune = 0x2C) : ¬ Blank rune := by
    rw [same]
    decide
  have closingInk (rune : Nat) (same : rune = closing) : ¬ Blank rune := by
    rw [same]
    exact known.1
  -- A comma and an item
  have commas : Reads bytes (least + 1) comma (Grammar.space∗ * Grammar.rune 0x2C) fun _ => True :=
    reads_skipThen (reads_rune 0x2C) (Begins.single _) commaInk
  have next := commas.sequence reads (.inl (Nat.le_refl _)) fun _ _ _ _ => trivial
  rw [mul_assoc] at next
  have commaBegins : Begins (Grammar.rune 0x2C * (Grammar.space∗ * language)) (· = 0x2C) :=
    (Begins.single _).mul _
  have nextInks := inks_space_mul commaBegins commaInk
  have nextBegins : Begins _ Closing := (begins_space_mul commaBegins).mono fun rune begun =>
    begun.imp_right fun same => by rw [same]; decide
  -- Further items, where no comma is ahead
  have others : Reads bytes (least + 1) (.zeroOrMore (.sequence comma item)) _ fun later =>
      Next Closing later ∧ NextInk (· ≠ 0x2C) later :=
    next.repeated nextInks.nil_notMem
      (.inr fun word member later => nextBegins.next member later) (fun _ ahead => ahead.1)
      (.inr fun word member rest ahead =>
        nextInks.not_nextInk (fun rune same other => other same) member rest ahead.2)
  change Reads bytes (least + 1) _ (times _ .any) _ at others
  rw [times_any, ← Grammar.further] at others
  have items := reads.sequence others (.inl (Nat.le_refl _)) fun word member later ahead => by
    rw [Grammar.further, ← one_add_mul_kstar] at member
    exact (nextBegins.mul _).next_oneAdd (fun _ begun => begun) member ahead.1
  -- Items or none of them, before the closing bracket
  have itemInks := (inks_space_mul begins fun rune begun blank => ink rune begun (.inl blank)).mul
    (Grammar.further (Grammar.space∗ * language))
  have inner : Reads bytes (least + 1)
      (.optional (.sequence item (.zeroOrMore (.sequence comma item))))
      (1 + Grammar.space∗ * language * Grammar.further (Grammar.space∗ * language))
      (NextInk (· = closing)) := by
    refine reads_optional items itemInks.nil_notMem (fun later ahead => ⟨?_, ?_⟩) ?_
    · refine ahead.next.mono fun rune here => ?_
      rcases here with blank | rfl
      · exact .inl blank
      · exact known.2.2
    · refine ahead.mono fun rune same => ?_
      rw [same]
      exact known.2.1
    · have differ (rune : Nat) (begun : kind rune) : ¬ rune = closing := by
        rintro rfl
        exact ink rune begun known.2.2
      exact fun word member rest => itemInks.not_nextInk differ member rest
  have closed : Reads bytes (least + 1) (.skipThen space (.ofValue closing))
      (Grammar.space∗ * Grammar.rune closing) fun _ => True :=
    reads_skipThen (reads_rune closing) (Begins.single _) closingInk
  have rest := inner.sequence closed (.inl (Nat.le_refl _)) fun word member later _ =>
    (inks_space_mul (Begins.single _) closingInk).nextInk member later
  have opened : Reads bytes least (.ofValue opening) (Grammar.rune opening) fun _ => True :=
    reads_rune opening
  have filled : [] ∉ Grammar.rune opening := (Begins.single _).nil_notMem
  exact (opened.sequence rest (.inr ⟨Nat.le_refl _, filled⟩) fun _ _ _ _ => trivial).enclosed

/-! ## Values -/

/-- What begins a value behind white space. -/
abbrev Opening (rune : Nat) : Prop :=
  Digit rune ∨ rune ∈ [0x7B, 0x5B, 0x22, 0x2D, 0x74, 0x66, 0x6E]

/-- What begins a value does not follow one. -/
theorem Opening.not_closing {rune : Nat} (opening : Opening rune) : ¬ Closing rune := by
  simp only [Opening, Closing, Digit, Blank, List.mem_cons, List.not_mem_nil, or_false] at opening ⊢
  omega

/-- A name begins with one of three letters. -/
theorem begins_name : Begins Grammar.name (· ∈ [0x74, 0x66, 0x6E]) := by
  refine (Begins.add ((Begins.singleton _ _).mono ?_) ((Begins.singleton _ _).mono ?_)).add
    ((Begins.singleton _ _).mono ?_)
  all_goals
    rintro _ rfl
    decide

/-- A value begins with a rune that opens one. -/
theorem begins_value : Begins (Grammar.derived .value) Opening := by
  have single {value : Nat} (known : Opening value) (rest : Language Nat) :
      Begins (Grammar.rune value * rest) Opening := by
    refine ((Begins.single _).mul _).mono fun rune same => ?_
    rw [same]
    exact known
  rw [Grammar.derived_value]
  refine (single (by decide) _).add ((single (by decide) _).add ((single (by decide) _).add
    ((begins_number.mono ?_).add (begins_name.mono ?_))))
  · rintro rune (rfl | digit)
    · exact .inr (by decide)
    · exact .inl digit
  · intro rune known
    simp only [List.mem_cons, List.not_mem_nil, or_false] at known
    rcases known with rfl | rfl | rfl <;> exact .inr (by decide)

section
variable (inside : Reads bytes (least + 1) valueReference
  (Grammar.space∗ * Grammar.derived .value) (Next Closing))
include inside

/-- A member after white space. -/
theorem reads_member :
    Reads bytes (least + 1) member (Grammar.space∗ * Grammar.pair) (Next Closing) := by
  have quoted (rune : Nat) (same : rune = 0x22) : ¬ Blank rune := by
    rw [same]
    decide
  have stringBegins : Begins Grammar.string (· = 0x22) := (Begins.single _).mul _
  have name : Reads bytes (least + 1) (.skipThen space string) (Grammar.space∗ * Grammar.string)
      fun _ => True := reads_skipThen reads_string stringBegins quoted
  have colonInk (rune : Nat) (same : rune = 0x3A) : ¬ Blank rune := by
    rw [same]
    decide
  have colon : Reads bytes (least + 1) (.skipThen space (.ofValue 0x3A))
      (Grammar.space∗ * Grammar.rune 0x3A) fun _ => True :=
    reads_skipThen (reads_rune 0x3A) (Begins.single _) colonInk
  have valued := colon.sequence inside (.inl (Nat.le_refl _)) fun _ _ _ _ => trivial
  have whole := name.sequence valued (.inl (Nat.le_refl _)) fun _ _ _ _ => trivial
  simp only [mul_assoc] at whole
  exact whole

/-- A value after white space, if the values inside it are recognised from later offsets. -/
theorem reads_value :
    Reads bytes least value (Grammar.space∗ * Grammar.derived .value) (Next Closing) := by
  have quoted : Begins Grammar.string (· = 0x22) := (Begins.single _).mul _
  have paired : Begins Grammar.pair (· = 0x22) := quoted.mul _
  have quotes (rune : Nat) (same : rune = 0x22) : ¬ Closing rune := by
    rw [same]
    decide
  have objects := reads_list 0x7B 0x7D (by decide) (reads_member inside) paired quotes
  have arrays := reads_list 0x5B 0x5D (by decide) inside begins_value fun _ => Opening.not_closing
  have numerals : Reads bytes least number Grammar.number (Next Closing) :=
    reads_number.strengthen fun later next => next.mono fun rune known => by
      simp only [Closing, Numeral, Digit, Blank, List.mem_cons, List.not_mem_nil,
        or_false] at known ⊢
      omega
  have small (later : List Nat) (next : Next Closing later) : Next (· < 0x80) later :=
    next.mono fun rune known => by
      simp only [Closing, Blank, List.mem_cons, List.not_mem_nil, or_false] at known
      omega
  have names : Reads bytes least (.choice boolean null) Grammar.name (Next Closing) := by
    have begins : Begins ({[0x74, 0x72, 0x75, 0x65]} + {[0x66, 0x61, 0x6C, 0x73, 0x65]})
        fun rune => rune = 0x74 ∨ rune = 0x66 :=
      ((Begins.singleton _ _).mono fun _ => .inl).add ((Begins.singleton _ _).mono fun _ => .inr)
    refine (reads_boolean.choice_of_begins reads_null begins (.singleton _ _) ?_).strengthen small
    intro rune known
    omega
  have wordBegins : Begins (Grammar.number + Grammar.name)
      fun rune => rune ≠ 0x22 ∧ rune ≠ 0x5B ∧ rune ≠ 0x7B :=
    (begins_number.mono fun rune known => by omega).add (begins_name.mono fun rune known => by
      simp only [List.mem_cons, List.not_mem_nil, or_false] at known
      omega)
  have words := numerals.choice_of_begins names begins_number begins_name fun rune known name => by
    simp only [List.mem_cons, List.not_mem_nil, or_false] at name
    omega
  have stringBegins : Begins (Grammar.string + (Grammar.number + Grammar.name))
      fun rune => rune ≠ 0x5B ∧ rune ≠ 0x7B :=
    (quoted.mono fun rune same => by omega).add (wordBegins.mono fun rune other => other.2)
  have arrayBegins (rest : Language Nat) : Begins (Grammar.rune 0x5B * rest) (· = 0x5B) :=
    (Begins.single _).mul rest
  have objectBegins (rest : Language Nat) : Begins (Grammar.rune 0x7B * rest) (· = 0x7B) :=
    (Begins.single _).mul rest
  have strings := (reads_string.strengthen fun _ _ => trivial).choice_of_begins words quoted
    wordBegins fun rune same other => other.1 same
  have lists := (arrays.strengthen fun _ _ => trivial).choice_of_begins strings (arrayBegins _)
    stringBegins fun rune same other => other.1 same
  have listBegins (rest : Language Nat) :
      Begins (Grammar.rune 0x5B * rest + (Grammar.string + (Grammar.number + Grammar.name)))
        (· ≠ 0x7B) :=
    ((arrayBegins rest).mono fun rune same => by omega).add
      (stringBegins.mono fun rune other => other.2)
  have values := (objects.strengthen fun _ _ => trivial).choice_of_begins lists (objectBegins _)
    (listBegins _) fun rune same other => other same
  rw [← Grammar.value_eq] at values
  exact reads_skipThen values begins_value fun rune known blank => known.not_closing (.inl blank)

end

/-- A value after white space, by reference. -/
theorem reads_valueReference (least : Nat) :
    Reads bytes least valueReference (Grammar.space∗ * Grammar.derived .value) (Next Closing) := by
  induction room : bytes.length + 1 - least generalizing least with
  | zero =>
    have past (offset : Nat) (above : least ≤ offset) (inside : offset ≤ bytes.length) : False := by
      omega
    exact ⟨fun offset above inside => (past offset above inside).elim,
      fun offset _ _ above inside => (past offset above inside).elim⟩
  | succ room ih => exact (reads_value (ih (least + 1) (by omega))).reference rfl

/-- A whole text: a value, white space, and the end of the input. -/
theorem reads_text :
    Reads bytes 0 text (Grammar.derived .element) fun later => later = [] := by
  have begins : Begins Grammar.space Blank := .single _
  have ends : Reads bytes 0 (.sequence (.zeroOrMore space) .atEnd) (Grammar.space∗ * 1)
      fun later => later = [] := by
    refine reads_spaces.sequence .atEnd (.inl (Nat.le_refl _)) ?_
    rintro word member _ rfl
    rw [(Language.mem_one word).mp member]
    exact nofun
  rw [mul_one] at ends
  have opens : Reads bytes 0 (.handle 0) _ (Next Closing) :=
    (reads_value (reads_valueReference 1)).handle rfl
  have whole := opens.sequence ends (.inl (Nat.le_refl _)) fun word member later none => by
    rw [← one_add_mul_kstar] at member
    rw [none]
    exact (begins.mul _).next_oneAdd (fun _ => .inl) member nofun
  rw [mul_assoc, ← Grammar.derived_element] at whole
  exact whole.boxed

/-- A text is matched up to the end of the input. -/
theorem stop_of_text {result : Option (Parse Value)}
    (parsed : Parses definitions ⟨.utf8, bytes⟩ none text 0 result) (parse : Parse Value)
    (matched : result = some parse) : bytes.length ≤ parse.stop := by
  cases parsed with
  | boxed inner =>
    obtain ⟨whole, rfl, rfl⟩ := Option.map_eq_some_iff.mp matched
    rcases inner.of_sequence with ⟨_, none⟩ | ⟨_, _, _, rest, stops⟩
    · cases none
    · rcases rest.of_sequence with ⟨_, rfl⟩ | ⟨_, _, _, ended, ends⟩
      · cases stops
      · rw [ends] at stops
        exact ended.of_atEnd whole.stop stops.symm

end

/-! ## Texts -/

/-- The recogniser comes to an end on every input: it matches all of it where its runes are a JSON
text, and fails where they are not. -/
theorem recognises_texts (input : Bytes) :
    let runes := (Cursor.ofBytes .utf8 input).units.map InputUnit.value
    ((recognise input).ending = .matched ⟨0, input.length⟩ ↔ Grammar.Text runes) ∧
      ((∃ failure, (recognise input).ending = .failed failure) ↔ ¬ Grammar.Text runes) := by
  intro runes
  have begins : 0 ≤ (Subject.mk .utf8 input).length := Nat.zero_le _
  have recognises : Reads input 0 text (Grammar.derived .element) fun later => later = [] :=
    reads_text
  obtain ⟨matches_, _, _, fails, _⟩ :=
    @Matcher.run_makes_parse text definitions ⟨.utf8, input⟩ ⟨0, none⟩ begins
  obtain ⟨result, parsed, consumes⟩ := recognises.decides 0 (Nat.le_refl 0) begins
  have accepts (known : Grammar.Text runes) :=
    recognises.accepts 0 runes [] (Nat.le_refl 0) begins known rfl (List.append_nil runes).symm
  cases result with
  | none =>
    have refused : ¬ Grammar.Text runes := by
      intro known
      obtain ⟨parse, found, _⟩ := accepts known
      cases parsed.unique begins found
    have failed := fails.mpr parsed
    refine ⟨⟨fun matched => ?_, fun known => absurd known refused⟩,
      ⟨fun _ => refused, fun _ => failed⟩⟩
    obtain ⟨failure, ended⟩ := failed
    cases matched.symm.trans ended
  | some parse =>
    have within := parsed.within begins
    have stop : parse.stop = input.length :=
      Nat.le_antisymm within.2 (stop_of_text parsed parse rfl)
    obtain ⟨word, known, ahead⟩ := consumes parse rfl
    have ended : (Subject.mk .utf8 input).unitsAhead parse.stop = [] :=
      Subject.unitsAhead_eq_nil_iff.mpr (Nat.le_of_eq stop.symm)
    rw [ended, List.append_nil] at ahead
    have accepted : Grammar.Text runes := by
      rw [← ahead] at known
      exact known
    have matched := (matches_ parse parsed).1
    rw [stop] at matched
    refine ⟨⟨fun _ => accepted, fun _ => matched⟩,
      ⟨fun ⟨failure, failed⟩ => ?_, fun refused => absurd accepted refused⟩⟩
    cases matched.symm.trans failed

end TextPattern.Json
