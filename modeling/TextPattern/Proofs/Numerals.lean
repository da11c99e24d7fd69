import Mathlib.Data.List.TakeWhile
import Mathlib.Data.Nat.Digits.Defs
import Mathlib.Data.Set.Operations
import TextPattern.Converter
import TextPattern.Predicate

/-!
# Numerals

A text is laid out as a minus sign, where the type has one and the text begins with it, as many
digits as follow, and what comes behind them. The digits denote a number, the first of them being
worth the most. To read the text is to find that number, if there are digits, if the type holds it
and if nothing comes behind them. A number that the type does not hold is told apart from all other
texts, whatever comes behind it. `Converter.toInteger_exact` is the main statement.
-/

namespace TextPattern

/-! ## Machine types -/

/-- The numbers of a machine type: the last of its bits counts negatively where it has a sign. -/
def IntegerType.range (type : IntegerType) : Set Int :=
  if type.signed then { number | -2 ^ (type.bits - 1) ≤ number ∧ number < 2 ^ (type.bits - 1) }
  else { number | 0 ≤ number ∧ number < 2 ^ type.bits }

/-- A type holds the numbers of its range. -/
theorem IntegerType.holds_iff {type : IntegerType} {number : Int} :
    type.holds number = true ↔ number ∈ type.range := by
  obtain ⟨signed, bits⟩ := type
  have powers (count : Nat) : ((Nat.pow 2 count : Nat) : Int) = 2 ^ count := by
    show ((2 ^ count : Nat) : Int) = 2 ^ count
    rw [Nat.cast_pow]
    rfl
  cases signed
  · simp only [holds, least, greatest, magnitudes, range, powers, Bool.and_eq_true,
      decide_eq_true_eq, Bool.false_eq_true, ↓reduceIte, Set.mem_ofPred_eq]
    omega
  · simp only [holds, least, greatest, magnitudes, range, powers, Bool.and_eq_true,
      decide_eq_true_eq, ↓reduceIte, Set.mem_ofPred_eq]
    omega

namespace Numeral

/-! ## Digits -/

/-- The digit that an octet stands for: a figure, or a letter of either case from ten on. -/
inductive StandsFor (octet : UInt8) : Nat → Prop where
  | figure {value : Nat} (few : value < 10) (code : octet.toNat = 0x30 + value) :
    StandsFor octet value
  | small {place : Nat} (few : place < 26) (code : octet.toNat = 0x61 + place) :
    StandsFor octet (10 + place)
  | capital {place : Nat} (few : place < 26) (code : octet.toNat = 0x41 + place) :
    StandsFor octet (10 + place)

/-- The predicate for digits goes by the same values. -/
theorem digitValue?_eq (octet : UInt8) :
    digitValue? octet = Predicate.digitValue? octet.toNat := by
  have below := octet.toNat_lt
  have less (least : UInt8) : (octet - least).toNat = (256 - least.toNat + octet.toNat) % 256 :=
    UInt8.toNat_sub octet least
  simp only [digitValue?, Predicate.digitValue?, Rune.isAsciiDigit, Rune.isAsciiLowercase,
    Rune.isAsciiUppercase, UInt8.le_iff_toNat_le, UInt8.reduceToNat, less, Bool.and_eq_true,
    decide_eq_true_eq]
  split
  · rw [Option.some.injEq]
    omega
  split
  · rw [Option.some.injEq]
    omega
  split
  · rw [Option.some.injEq]
    omega
  · rfl

/-- The value of an octet as a digit is the digit that it stands for. -/
theorem digitValue?_eq_some_iff {octet : UInt8} {value : Nat} :
    digitValue? octet = some value ↔ StandsFor octet value := by
  rw [digitValue?_eq]
  simp only [Predicate.digitValue?, Rune.isAsciiDigit, Rune.isAsciiLowercase,
    Rune.isAsciiUppercase, Bool.and_eq_true, decide_eq_true_eq]
  constructor
  · intro found
    split at found
    · cases found
      exact .figure (by omega) (by omega)
    split at found
    · cases found
      rw [Nat.add_comm]
      exact .small (by omega) (by omega)
    split at found
    · cases found
      rw [Nat.add_comm]
      exact .capital (by omega) (by omega)
    · cases found
  · intro stands
    cases stands with
    | figure few code =>
      rw [if_pos (by omega), Option.some.injEq]
      omega
    | small few code =>
      rw [if_neg (by omega), if_pos (by omega), Option.some.injEq]
      omega
    | capital few code =>
      rw [if_neg (by omega), if_neg (by omega), if_pos (by omega), Option.some.injEq]
      omega

/-- The digits of a radix are the octets that stand for less than the radix. -/
theorem digit?_eq_some_iff {radix value : Nat} {octet : UInt8} :
    digit? radix octet = some value ↔ StandsFor octet value ∧ value < radix := by
  rw [digit?, Option.filter_eq_some_iff, digitValue?_eq_some_iff, decide_eq_true_eq]

/-- An octet is accepted as a digit where it is one. -/
theorem accepts_digit_eq (radix : Nat) (encoding : Encoding) (octet : UInt8) :
    (Predicate.digit radix).accepts encoding octet.toNat = (digit? radix octet).isSome := by
  unfold digit?
  show (Predicate.digitValue? octet.toNat).any _ = _
  rw [← digitValue?_eq]
  cases digitValue? octet with
  | none => rfl
  | some value => by_cases less : value < radix <;> simp [less]

/-- Digits denote a number in a radix: the last one is worth itself, and every other one is worth
the radix times what it would be worth one place further on. -/
def Denotes (radix : Nat) (digits : Bytes) (number : Nat) : Prop :=
  ∃ values, List.Forall₂ StandsFor digits values ∧ number = Nat.ofDigits radix values.reverse

/-- To add digits up from the first one on comes to their worth by place. -/
theorem ofDigits_eq (radix : Nat) (values : List Nat) :
    ofDigits radix values = Nat.ofDigits radix values.reverse := by
  have step : (fun number digit : Nat => number * radix + digit) =
      fun number digit => digit + radix * number := by
    funext number digit
    rw [Nat.add_comm, Nat.mul_comm]
  rw [ofDigits, Nat.ofDigits_eq_foldr, List.foldr_reverse, step]
  rfl

/-! ## Texts -/

/-- How a text is laid out as a numeral of a type. -/
structure Layout (type : IntegerType) (radix : Nat) (text sign digits rest : Bytes) : Prop where
  /-- The parts make up the text. -/
  whole : sign ++ (digits ++ rest) = text
  /-- The text begins with a minus sign that the type allows, or there is none. -/
  sign : sign = if type.signed = true ∧ text.head? = some 0x2D then [0x2D] else []
  /-- The digits are digits. -/
  digits : ∀ octet ∈ digits, (Predicate.digit radix).accepts .octet octet.toNat = true
  /-- No other digit follows them. -/
  longest : ∀ octet ∈ rest.head?, (Predicate.digit radix).accepts .octet octet.toNat = false

variable {type : IntegerType} {radix : Nat} {text sign digits rest : Bytes}

/-- The sign of a text is the one that it is laid out with. -/
theorem Layout.splitSign_eq (layout : Layout type radix text sign digits rest) :
    splitSign type text = (!sign.isEmpty, digits ++ rest) := by
  have whole := layout.whole
  have marked := layout.sign
  by_cases minus : type.signed = true ∧ text.head? = some 0x2D
  · rw [if_pos minus] at marked
    subst marked
    subst whole
    simp [splitSign, minus.1]
  · rw [if_neg minus] at marked
    subst marked
    rw [List.nil_append] at whole
    subst whole
    cases body : digits ++ rest with
    | nil => rfl
    | cons octet later =>
      rw [body, List.head?_cons, Option.some.injEq] at minus
      have plain : (type.signed && octet == 0x2D) = false := by
        simpa using minus
      simp [splitSign, plain]

/-- The digits that a text begins with are read as long as they go on. -/
theorem splitDigits_append {values : List Nat} (stand : List.Forall₂ StandsFor digits values)
    (accepted : ∀ octet ∈ digits, (Predicate.digit radix).accepts .octet octet.toNat = true)
    (longest : ∀ octet ∈ rest.head?, (Predicate.digit radix).accepts .octet octet.toNat = false) :
    splitDigits radix (digits ++ rest) = (values, rest) := by
  induction stand with
  | nil =>
    cases rest with
    | nil => rfl
    | cons octet later =>
      have refused := longest octet rfl
      rw [accepts_digit_eq, Option.isSome_eq_false_iff, Option.isNone_iff_eq_none] at refused
      rw [List.nil_append, splitDigits, refused]
  | @cons octet value digits values stands stand ih =>
    obtain ⟨first, others⟩ := List.forall_mem_cons.mp accepted
    rw [accepts_digit_eq, Option.isSome_iff_exists] at first
    obtain ⟨other, found⟩ := first
    have same : other = value := by
      have valued := (digit?_eq_some_iff.mp found).1
      have again := (digitValue?_eq_some_iff.mpr valued).symm.trans
        (digitValue?_eq_some_iff.mpr stands)
      exact Option.some.inj again
    rw [List.cons_append, splitDigits, found, same]
    dsimp only
    rw [ih others]

/-- Digits stand for values. -/
theorem exists_values
    (accepted : ∀ octet ∈ digits, (Predicate.digit radix).accepts .octet octet.toNat = true) :
    ∃ values, List.Forall₂ StandsFor digits values := by
  induction digits with
  | nil => exact ⟨[], .nil⟩
  | cons octet later ih =>
    obtain ⟨first, others⟩ := List.forall_mem_cons.mp accepted
    rw [accepts_digit_eq, Option.isSome_iff_exists] at first
    obtain ⟨value, found⟩ := first
    obtain ⟨values, stand⟩ := ih others
    exact ⟨value :: values, .cons (digit?_eq_some_iff.mp found).1 stand⟩

/-- Every text is laid out in some way, and its digits denote a number. -/
theorem exists_layout (type : IntegerType) (radix : Nat) (text : Bytes) :
    ∃ sign digits rest number, Layout type radix text sign digits rest ∧
      Denotes radix digits number := by
  obtain ⟨sign, body, whole, marked⟩ : ∃ sign body, sign ++ body = text ∧
      sign = if type.signed = true ∧ text.head? = some 0x2D then [0x2D] else [] := by
    by_cases minus : type.signed = true ∧ text.head? = some 0x2D
    · obtain ⟨body, begins⟩ := List.head?_eq_some_iff.mp minus.2
      exact ⟨[0x2D], body, begins.symm, (if_pos minus).symm⟩
    · exact ⟨[], text, rfl, (if_neg minus).symm⟩
  let isDigit (octet : UInt8) : Bool := (Predicate.digit radix).accepts .octet octet.toNat
  have accepted : ∀ octet ∈ body.takeWhile isDigit, isDigit octet = true :=
    fun octet member => List.mem_takeWhile_imp member
  obtain ⟨values, stand⟩ := exists_values accepted
  refine ⟨sign, body.takeWhile isDigit, body.dropWhile isDigit, _, ⟨?_, marked, accepted, ?_⟩,
    values, stand, rfl⟩
  · rw [List.takeWhile_append_dropWhile]
    exact whole
  · intro octet first
    have refused := List.head?_dropWhile_not isDigit body
    rw [Option.mem_def.mp first] at refused
    exact refused

/-- The number that digits denote with their sign. -/
def signedNumber (sign : Bytes) (magnitude : Nat) : Int :=
  if sign = [] then magnitude else -magnitude

/-- What parsing a text leaves, by its layout. -/
theorem Layout.parse_eq (layout : Layout type radix text sign digits rest) {magnitude : Nat}
    (denotes : Denotes radix digits magnitude) (before : Int) :
    parse type radix before text =
      if digits = [] then ⟨before, text, some .invalidArgument⟩
      else if type.holds (signedNumber sign magnitude) then
        ⟨signedNumber sign magnitude, rest, none⟩
      else ⟨before, rest, some .resultOutOfRange⟩ := by
  obtain ⟨values, stand, rfl⟩ := denotes
  have split := splitDigits_append stand layout.digits layout.longest
  have number : (if (!sign.isEmpty) = true then -((ofDigits radix values : Nat) : Int)
      else ofDigits radix values) = signedNumber sign (Nat.ofDigits radix values.reverse) := by
    rw [ofDigits_eq, signedNumber]
    cases sign <;> rfl
  have empty : values.isEmpty = digits.isEmpty := by
    cases stand <;> rfl
  unfold parse
  dsimp only
  rw [layout.splitSign_eq, split]
  dsimp only
  rw [number, empty]
  cases digits <;> rfl

/-- What reading a text comes to, by its layout. -/
theorem Layout.read_eq (layout : Layout type radix text sign digits rest) {magnitude : Nat}
    (denotes : Denotes radix digits magnitude) :
    read type radix text =
      if digits = [] then .error .notNumeral
      else if type.holds (signedNumber sign magnitude) = false then .error .outOfRange
      else if rest ≠ [] then .error .notNumeral
      else .ok (signedNumber sign magnitude) := by
  unfold read
  rw [layout.parse_eq denotes]
  by_cases none : digits = []
  · simp [none]
  · cases held : type.holds (signedNumber sign magnitude) with
    | false => simp [none]
    | true => cases rest <;> simp [none]

end Numeral

/-! ## Reading integers -/

namespace Converter

variable {type : IntegerType} {radix : Nat} {text : Bytes}

/-- What a text is converted to where it is read as an integer. -/
theorem toInteger?_eq (type : IntegerType) {radix : Int} (proper : 2 ≤ radix ∧ radix ≤ 36) :
    ∃ converter, toInteger? type radix = .ok converter ∧
      ∀ value text, value.bytes? = some text →
        converter value =
          match Numeral.read type radix.toNat text with
          | .ok number => .produced (.integer number)
          | .error refusal => .failed (.conversionFailed 0 text refusal.message) := by
  have allowed : ¬ (decide (radix < 2) || decide (36 < radix)) = true := by
    rw [Bool.or_eq_true, decide_eq_true_eq, decide_eq_true_eq]
    omega
  refine ⟨_, if_neg allowed, ?_⟩
  intro value text slice
  unfold ofBytes integerOf
  rw [slice]
  dsimp only
  cases Numeral.read type radix.toNat text <;> rfl

/-- The two refusals are worded differently. -/
theorem message_ne : Numeral.Refusal.outOfRange.message ≠ Numeral.Refusal.notNumeral.message := by
  decide +kernel

/-- To read integers is exact, whatever the type, the radix and the text. Every text is laid out as
a sign, digits and a rest, and its digits denote a magnitude. It is read where there are digits,
nothing behind them and a signed number in the range of the type, and then as that number. It is out
of range where there are digits and their signed number is not in the range, whatever comes behind
them. In all other cases it is no integer. -/
theorem toInteger_exact (type : IntegerType) {radix : Int} (proper : 2 ≤ radix ∧ radix ≤ 36) :
    ∃ converter, toInteger? type radix = .ok converter ∧
      ∀ value text, value.bytes? = some text →
        (∃ sign digits rest magnitude,
          Numeral.Layout type radix.toNat text sign digits rest ∧
            Numeral.Denotes radix.toNat digits magnitude) ∧
        ∀ sign digits rest magnitude,
          Numeral.Layout type radix.toNat text sign digits rest →
          Numeral.Denotes radix.toNat digits magnitude →
            let number := Numeral.signedNumber sign magnitude
            let Reads := digits ≠ [] ∧ rest = [] ∧ number ∈ type.range
            let Overflows := digits ≠ [] ∧ number ∉ type.range
            let refusal (cause : String) :=
              Conversion.failed (.conversionFailed 0 text (Bytes.ofString cause))
            (∀ result, converter value = .produced (.integer result) ↔
              Reads ∧ result = number) ∧
              (converter value = refusal "integer out of range" ↔ Overflows) ∧
              (converter value = refusal "invalid integer" ↔ ¬ Reads ∧ ¬ Overflows) := by
  obtain ⟨converter, made, converts⟩ := toInteger?_eq type proper
  refine ⟨converter, made, fun value text slice =>
    ⟨Numeral.exists_layout type radix.toNat text, ?_⟩⟩
  intro sign digits rest magnitude layout denotes number Reads Overflows refusal
  have converted := converts value text slice
  rw [layout.read_eq denotes] at converted
  have held : type.holds number = true ↔ number ∈ type.range := IntegerType.holds_iff
  have differ : refusal "integer out of range" ≠ refusal "invalid integer" := by
    intro same
    injection same with same
    injection same with _ _ same
    exact message_ne same
  by_cases none : digits = []
  · have refused : converter value = refusal "invalid integer" := by
      rw [converted, if_pos none]
      rfl
    rw [refused]
    simp [Reads, Overflows, none, differ.symm, refusal]
  rw [if_neg none] at converted
  by_cases inside : number ∈ type.range
  · rw [if_neg (by simp [number, held.mpr inside])] at converted
    by_cases ended : rest = []
    · have read : converter value = .produced (.integer number) := by
        rw [converted, if_neg (not_not.mpr ended)]
      rw [read]
      simp [Reads, Overflows, none, inside, ended, refusal, eq_comm]
    · have refused : converter value = refusal "invalid integer" := by
        rw [converted, if_pos ended]
        rfl
      rw [refused]
      simp [Reads, Overflows, inside, ended, differ.symm, refusal]
  · have refused : converter value = refusal "integer out of range" := by
      rw [converted, if_pos (by simpa using mt held.mp inside)]
      rfl
    rw [refused]
    simp [Reads, Overflows, none, inside, differ, refusal]

/-- The ends of the range of an octet with a sign: the least number behind a zero, the number above
the greatest one with a letter behind it, and the greatest one with that letter behind it. -/
theorem toInteger_exact_octet :
    let type : IntegerType := ⟨true, 8⟩
    let least : Bytes := [0x2D, 0x30, 0x38, 0x30]
    let above : Bytes := [0x38, 0x30, 0x7A]
    let followed : Bytes := [0x37, 0x46, 0x7A]
    ((2 : Int) ≤ 16 ∧ (16 : Int) ≤ 36) ∧
      ∃ converter, toInteger? type 16 = .ok converter ∧
        converter (.text least) = .produced (.integer (-128)) ∧
        converter (.text above) =
          .failed (.conversionFailed 0 above (Bytes.ofString "integer out of range")) ∧
        converter (.text followed) =
          .failed (.conversionFailed 0 followed (Bytes.ofString "invalid integer")) := by
  intro type least above followed
  have proper : (2 : Int) ≤ 16 ∧ (16 : Int) ≤ 36 := by decide
  have zero : Numeral.StandsFor 0x30 0 := .figure (by decide) (by decide)
  have seven : Numeral.StandsFor 0x37 7 := .figure (by decide) (by decide)
  have eight : Numeral.StandsFor 0x38 8 := .figure (by decide) (by decide)
  have fifteen : Numeral.StandsFor 0x46 15 := @Numeral.StandsFor.capital _ 5 (by decide) (by decide)
  obtain ⟨converter, made, exact⟩ := toInteger_exact type proper
  refine ⟨proper, converter, made, ?_, ?_, ?_⟩
  · have layout : Numeral.Layout type 16 least [0x2D] [0x30, 0x38, 0x30] [] :=
      ⟨rfl, rfl, List.all_eq_true.mp (by decide), nofun⟩
    have denotes : Numeral.Denotes 16 [0x30, 0x38, 0x30] 128 :=
      ⟨[0, 8, 0], .cons zero (.cons eight (.cons zero .nil)), by decide⟩
    have read := ((exact (.text least) least rfl).2 _ _ _ _ layout denotes).1 (-128)
    exact read.mpr ⟨⟨nofun, rfl, IntegerType.holds_iff.mp (by decide)⟩, rfl⟩
  · have layout : Numeral.Layout type 16 above [] [0x38, 0x30] [0x7A] :=
      ⟨rfl, rfl, List.all_eq_true.mp (by decide), by rintro octet ⟨⟩; rfl⟩
    have denotes : Numeral.Denotes 16 [0x38, 0x30] 128 :=
      ⟨[8, 0], .cons eight (.cons zero .nil), by decide⟩
    have refused := ((exact (.text above) above rfl).2 _ _ _ _ layout denotes).2.1
    exact refused.mpr ⟨nofun, mt IntegerType.holds_iff.mpr (by decide)⟩
  · have layout : Numeral.Layout type 16 followed [] [0x37, 0x46] [0x7A] :=
      ⟨rfl, rfl, List.all_eq_true.mp (by decide), by rintro octet ⟨⟩; rfl⟩
    have denotes : Numeral.Denotes 16 [0x37, 0x46] 127 :=
      ⟨[7, 15], .cons seven (.cons fifteen .nil), by decide⟩
    have refused := ((exact (.text followed) followed rfl).2 _ _ _ _ layout denotes).2.2
    refine refused.mpr ⟨fun read => absurd read.2.1 nofun, fun overflows => overflows.2 ?_⟩
    exact IntegerType.holds_iff.mp (by decide)

end Converter

end TextPattern
