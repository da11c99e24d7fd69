import TextPattern.Proofs.Words
import Mathlib.Data.List.Basic

/-!
# The grammar of JSON

JSON texts as RFC 7159 defines them, as words over the runes of a text. White space may stand around
every value and every structural character. The productions for white space, numbers and strings
are regular; values nest.
-/

namespace TextPattern.Json.Grammar

open scoped Computability
open Words

/-! ## Regular productions -/

/-- A single rune. -/
def rune (value : Nat) : Language Nat := single (· = value)

/-- One of several runes. -/
def oneOf (values : List Nat) : Language Nat := single (· ∈ values)

/-- One of the runes from one to another. -/
def between (first last : Nat) : Language Nat := single fun value => first ≤ value ∧ value ≤ last

/-- Space, tab, line feed or carriage return. -/
def space : Language Nat := oneOf [0x20, 0x09, 0x0A, 0x0D]

/-- A digit. -/
def digit : Language Nat := between 0x30 0x39

/-- Digits, one or more. -/
def digits : Language Nat := digit * digit∗

/-- An integer without a sign and without a leading zero. -/
def integer : Language Nat := rune 0x30 + between 0x31 0x39 * digit∗

/-- A point and digits. -/
def fraction : Language Nat := rune 0x2E * digits

/-- A letter e of either case, a sign or none, and digits. -/
def exponent : Language Nat := oneOf [0x65, 0x45] * ((1 + oneOf [0x2D, 0x2B]) * digits)

/-- A number. -/
def number : Language Nat :=
  (1 + rune 0x2D) * (integer * ((1 + fraction) * (1 + exponent)))

/-- A hexadecimal digit of either case. -/
def hexDigit : Language Nat := digit + (between 0x61 0x66 + between 0x41 0x46)

/-- A backslash and what it stands in front of: a quotation mark, a backslash, a slash, one of the
letters b, f, n, r and t, or the letter u and four hexadecimal digits. -/
def escape : Language Nat :=
  rune 0x5C * (oneOf [0x22, 0x5C, 0x2F, 0x62, 0x66, 0x6E, 0x72, 0x74] + rune 0x75 * hexDigit ^ 4)

/-- A rune that stands for itself: neither a quotation mark, nor a backslash, nor a control rune. -/
def unescaped : Language Nat := single fun value => value ≠ 0x22 ∧ value ≠ 0x5C ∧ 0x1F < value

/-- A string. -/
def string : Language Nat := rune 0x22 * ((unescaped + escape)∗ * rune 0x22)

/-- The names of the literal values: true, false and null. -/
def name : Language Nat :=
  {[0x74, 0x72, 0x75, 0x65]} + {[0x66, 0x61, 0x6C, 0x73, 0x65]} + {[0x6E, 0x75, 0x6C, 0x6C]}

/-! ## Nested productions -/

/-- What can be derived. -/
inductive Symbol where
  /-- A value. -/
  | value
  /-- A value with white space around it. -/
  | element
  /-- A name and a value with a colon between them. -/
  | member

/-- The derivations of JSON texts. -/
inductive Derives : Symbol → List Nat → Prop where
  /-- A literal value is written by its name. -/
  | name {word : List Nat} (known : word ∈ name) : Derives .value word
  /-- A number is a value. -/
  | number {word : List Nat} (written : word ∈ number) : Derives .value word
  /-- A string is a value. -/
  | string {word : List Nat} (written : word ∈ string) : Derives .value word
  /-- An array may be empty. -/
  | emptyArray {inner : List Nat} (blank : inner ∈ space∗) :
    Derives .value ([0x5B] ++ inner ++ [0x5D])
  /-- The elements of an array have commas between them. -/
  | array {elements : List (List Nat)} (filled : elements ≠ [])
    (each : ∀ element ∈ elements, Derives .element element) :
    Derives .value ([0x5B] ++ (elements.intersperse [0x2C]).flatten ++ [0x5D])
  /-- An object may be empty. -/
  | emptyObject {inner : List Nat} (blank : inner ∈ space∗) :
    Derives .value ([0x7B] ++ inner ++ [0x7D])
  /-- The members of an object have commas between them. -/
  | object {members : List (List Nat)} (filled : members ≠ [])
    (each : ∀ member ∈ members, Derives .member member) :
    Derives .value ([0x7B] ++ (members.intersperse [0x2C]).flatten ++ [0x7D])
  /-- White space may stand around a value. -/
  | element {before word after : List Nat} (left : before ∈ space∗)
    (derived : Derives .value word) (right : after ∈ space∗) :
    Derives .element (before ++ word ++ after)
  /-- White space may stand around the name of a member as well. -/
  | member {before name after element : List Nat} (left : before ∈ space∗)
    (written : name ∈ Grammar.string) (right : after ∈ space∗)
    (derived : Derives .element element) :
    Derives .member (before ++ name ++ after ++ [0x3A] ++ element)

/-- A text is a value with white space around it. -/
def Text (runes : List Nat) : Prop := Derives .element runes

/-! ## Derivations as languages -/

/-- What is derived from a symbol. -/
def derived (symbol : Symbol) : Language Nat := {word | Derives symbol word}

/-- Words of a language with commas between them. -/
def listed (item : Language Nat) : Language Nat := item * (rune 0x2C * item)∗

/-- The only word of a rune is the rune. -/
theorem mem_rune {value : Nat} {word : List Nat} : word ∈ rune value ↔ word = [value] := by
  constructor
  · rintro ⟨_, rfl, rfl⟩
    rfl
  · rintro rfl
    exact ⟨value, rfl, rfl⟩

/-- Commas between words. -/
theorem mem_listed {item : Language Nat} {word : List Nat} :
    word ∈ listed item ↔
      ∃ items, items ≠ [] ∧ (∀ part ∈ items, part ∈ item) ∧
        word = (items.intersperse [0x2C]).flatten := by
  constructor
  · intro member
    obtain ⟨first, here, rest, ⟨parts, rfl, all⟩, rfl⟩ := Language.mem_mul.mp member
    clear member
    induction parts generalizing first with
    | nil =>
      refine ⟨[first], nofun, ?_, ?_⟩
      · intro part inside
        rwa [List.mem_singleton.mp inside]
      · simp
    | cons next parts ih =>
      obtain ⟨second, others⟩ := List.forall_mem_cons.mp all
      obtain ⟨_, comma, item', inside, rfl⟩ := Language.mem_mul.mp second
      obtain ⟨items, filled, each, same⟩ := ih item' inside others
      rw [mem_rune] at comma
      refine ⟨first :: items, nofun, List.forall_mem_cons.mpr ⟨here, each⟩, ?_⟩
      obtain ⟨head, tail, rfl⟩ := List.exists_cons_of_ne_nil filled
      simp only [List.intersperse_cons_cons, List.flatten_cons, ← same, comma, List.append_assoc]
  · rintro ⟨items, filled, each, rfl⟩
    induction items with
    | nil => exact absurd rfl filled
    | cons first items ih =>
      obtain ⟨here, others⟩ := List.forall_mem_cons.mp each
      cases items with
      | nil =>
        have alone : first ++ [] ∈ listed item :=
          Language.append_mem_mul here (Language.nil_mem_kstar _)
        simpa using alone
      | cons second later =>
        obtain ⟨next, inside, rest, ⟨parts, rfl, all⟩, same⟩ :=
          Language.mem_mul.mp (ih nofun others)
        rw [List.intersperse_cons_cons, List.flatten_cons, List.flatten_cons, ← same]
        refine Language.append_mem_mul here ⟨([0x2C] ++ next) :: parts, ?_, ?_⟩
        · rw [List.flatten_cons, List.append_assoc]
        · refine List.forall_mem_cons.mpr ⟨?_, all⟩
          exact Language.append_mem_mul (mem_rune.mpr rfl) inside

/-- A word in three parts, one for each language. -/
theorem append_mem_mul₃ {first second third : Language Nat} {a b c : List Nat} (one : a ∈ first)
    (two : b ∈ second) (three : c ∈ third) : a ++ b ++ c ∈ first * (second * third) := by
  rw [List.append_assoc]
  exact Language.append_mem_mul one (Language.append_mem_mul two three)

/-- An element is a value with white space around it. -/
theorem derived_element : derived .element = space∗ * (derived .value * space∗) := by
  ext word
  constructor
  · intro derivation
    cases derivation with
    | element left derivation right => exact append_mem_mul₃ left derivation right
  · intro member
    obtain ⟨before, left, rest, inside, rfl⟩ := Language.mem_mul.mp member
    obtain ⟨word, derivation, after, right, rfl⟩ := Language.mem_mul.mp inside
    rw [← List.append_assoc]
    exact Derives.element left derivation right

/-- A member is a name, a colon and an element. -/
theorem derived_member :
    derived .member = space∗ * (string * (space∗ * (rune 0x3A * derived .element))) := by
  ext word
  constructor
  · intro derivation
    cases derivation with
    | member left written right derivation =>
      simp only [List.append_assoc]
      refine Language.append_mem_mul left (Language.append_mem_mul written
        (Language.append_mem_mul right (Language.append_mem_mul (mem_rune.mpr rfl) derivation)))
  · intro member
    obtain ⟨before, left, _, named, rfl⟩ := Language.mem_mul.mp member
    obtain ⟨name, written, _, behind, rfl⟩ := Language.mem_mul.mp named
    obtain ⟨after, right, _, valued, rfl⟩ := Language.mem_mul.mp behind
    obtain ⟨colon, known, element, derivation, rfl⟩ := Language.mem_mul.mp valued
    rw [mem_rune.mp known]
    simp only [← List.append_assoc]
    exact Derives.member left written right derivation

/-- Brackets around white space or around a list. -/
def bracketed (opening closing : Nat) (item : Language Nat) : Language Nat :=
  rune opening * ((space∗ + listed item) * rune closing)

/-- What a bracketed list is made of. -/
theorem mem_bracketed {opening closing : Nat} {item : Language Nat} {word : List Nat} :
    word ∈ bracketed opening closing item ↔
      ∃ inner, (inner ∈ space∗ ∨ inner ∈ listed item) ∧
        word = [opening] ++ inner ++ [closing] := by
  constructor
  · intro member
    obtain ⟨first, opens, rest, inside, rfl⟩ := Language.mem_mul.mp member
    obtain ⟨inner, known, last, closes, rfl⟩ := Language.mem_mul.mp inside
    rw [mem_rune.mp opens, mem_rune.mp closes, ← List.append_assoc]
    exact ⟨inner, known, rfl⟩
  · rintro ⟨inner, known, rfl⟩
    exact append_mem_mul₃ (mem_rune.mpr rfl) known (mem_rune.mpr rfl)

/-- A value is an object, an array, a string, a number or a name. -/
theorem derived_value :
    derived .value = bracketed 0x7B 0x7D (derived .member) +
      (bracketed 0x5B 0x5D (derived .element) +
        (string + (number + name))) := by
  ext word
  constructor
  · intro derivation
    cases derivation with
    | name known => exact .inr (.inr (.inr (.inr known)))
    | number written => exact .inr (.inr (.inr (.inl written)))
    | string written => exact .inr (.inr (.inl written))
    | emptyArray blank => exact .inr (.inl (mem_bracketed.mpr ⟨_, .inl blank, rfl⟩))
    | array filled each =>
      have inner := mem_listed.mpr ⟨_, filled, each, rfl⟩
      exact .inr (.inl (mem_bracketed.mpr ⟨_, .inr inner, rfl⟩))
    | emptyObject blank => exact .inl (mem_bracketed.mpr ⟨_, .inl blank, rfl⟩)
    | object filled each =>
      have inner := mem_listed.mpr ⟨_, filled, each, rfl⟩
      exact .inl (mem_bracketed.mpr ⟨_, .inr inner, rfl⟩)
  · rintro (member | member | written | written | known)
    · obtain ⟨inner, blank | inside, rfl⟩ := mem_bracketed.mp member
      · exact Derives.emptyObject blank
      · obtain ⟨members, filled, each, rfl⟩ := mem_listed.mp inside
        exact Derives.object filled each
    · obtain ⟨inner, blank | inside, rfl⟩ := mem_bracketed.mp member
      · exact Derives.emptyArray blank
      · obtain ⟨elements, filled, each, rfl⟩ := mem_listed.mp inside
        exact Derives.array filled each
    · exact Derives.string written
    · exact Derives.number written
    · exact Derives.name known

/-! ## White space before items -/

/-- A repetition may begin with either of two words that take turns. -/
theorem mul_kstar_slide (first second : Language Nat) :
    first * (second * first)∗ = (first * second)∗ * first := by
  apply le_antisymm
  · apply mul_kstar_le
    · calc
        first = 1 * first := (one_mul first).symm
        _ ≤ (first * second)∗ * first := mul_le_mul_left one_le_kstar first
    · calc
        (first * second)∗ * first * (second * first)
          = (first * second)∗ * (first * second) * first := by simp only [mul_assoc]
        _ ≤ (first * second)∗ * first := mul_le_mul_left kstar_mul_le_kstar first
  · apply kstar_mul_le
    · calc
        first = first * 1 := (mul_one first).symm
        _ ≤ first * (second * first)∗ := mul_le_mul_right one_le_kstar first
    · calc
        first * second * (first * (second * first)∗)
          = first * (second * first * (second * first)∗) := by simp only [mul_assoc]
        _ ≤ first * (second * first)∗ := mul_le_mul_right mul_kstar_le_kstar first

/-- Further items of a list, each behind white space and a comma. -/
def further (item : Language Nat) : Language Nat := (space∗ * (rune 0x2C * item))∗

/-- A list of items with white space behind them is a list of items with white space before every
comma, and white space at the end. -/
theorem space_add_listed (item : Language Nat) :
    space∗ + listed (item * space∗) = (1 + item * further item) * space∗ := by
  have slid := mul_kstar_slide space∗ (rune 0x2C * item)
  calc
    space∗ + listed (item * space∗)
      = space∗ + item * (space∗ * (rune 0x2C * item * space∗)∗) := by
        simp only [listed, mul_assoc]
    _ = space∗ + item * (further item * space∗) := by rw [slid, further]
    _ = (1 + item * further item) * space∗ := by rw [add_mul, one_mul, mul_assoc]

/-- A bracketed list of items with white space behind them. -/
theorem bracketed_eq (opening closing : Nat) (item : Language Nat) :
    bracketed opening closing (item * space∗) =
      rune opening * ((1 + item * further item) * (space∗ * rune closing)) := by
  rw [bracketed, space_add_listed, mul_assoc]

/-- A member without the white space around it. -/
def pair : Language Nat := string * (space∗ * (rune 0x3A * (space∗ * derived .value)))

/-- A value is an object, an array, a string, a number or a name, where the white space in lists
stands before what it separates. -/
theorem value_eq :
    derived .value =
      rune 0x7B * ((1 + space∗ * pair * further (space∗ * pair)) * (space∗ * rune 0x7D)) +
        (rune 0x5B * ((1 + space∗ * derived .value * further (space∗ * derived .value)) *
            (space∗ * rune 0x5D)) +
          (string + (number + name))) := by
  have elements : derived .element = space∗ * derived .value * space∗ := by
    rw [derived_element, mul_assoc]
  have members : derived .member = space∗ * pair * space∗ := by
    rw [derived_member, derived_element, pair]
    simp only [mul_assoc]
  rw [← bracketed_eq, ← bracketed_eq, ← elements, ← members]
  exact derived_value

end TextPattern.Json.Grammar
