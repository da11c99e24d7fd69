import Mathlib.Computability.Language
import TextPattern.Bounds

/-!
# Languages of runes

Words over the runes, with what is needed to say where a word ends: the words of a language that
are repeated within bounds, and the runes with which words begin.
-/

namespace TextPattern

/-- Whether a number lies within bounds. -/
theorem Bounds.contains_iff {bounds : Bounds} {count : Nat} :
    bounds.contains count = true ↔
      bounds.least ≤ count ∧ ∀ limit, bounds.greatest = some limit → count ≤ limit := by
  rw [Bounds.contains, Bool.and_eq_true, decide_eq_true_eq]
  cases bounds.greatest with
  | none => exact and_congr_right fun _ => ⟨fun _ => nofun, fun _ => rfl⟩
  | some greatest =>
    rw [Option.all_some, decide_eq_true_eq]
    refine and_congr_right fun _ => ⟨fun most limit same => ?_, fun limited => limited _ rfl⟩
    cases same
    exact most

namespace Words

open scoped Computability

variable {language left right : Language Nat} {accepted : Nat → Prop} {word : List Nat}

/-- The words of one rune that is accepted. -/
def single (accepted : Nat → Prop) : Language Nat := {word | ∃ rune, accepted rune ∧ word = [rune]}

/-- Languages of single runes are the same where the runes are. -/
theorem single_congr {known : Nat → Prop} (same : ∀ rune, accepted rune ↔ known rune) :
    single accepted = single known :=
  congrArg single (funext fun rune => propext (same rune))

/-- A rune of either kind. -/
theorem single_or (one other : Nat → Prop) :
    single (fun rune => one rune ∨ other rune) = single one + single other := by
  ext word
  constructor
  · rintro ⟨rune, known | known, rfl⟩
    · exact .inl ⟨rune, known, rfl⟩
    · exact .inr ⟨rune, known, rfl⟩
  · rintro (⟨rune, known, rfl⟩ | ⟨rune, known, rfl⟩)
    · exact ⟨rune, .inl known, rfl⟩
    · exact ⟨rune, .inr known, rfl⟩

/-! ## Repeated words -/

/-- Words of a language one after the other, as often as bounds allow. -/
def times (language : Language Nat) (bounds : Bounds) : Language Nat :=
  {word | ∃ parts : List (List Nat), word = parts.flatten ∧ (∀ part ∈ parts, part ∈ language) ∧
    bounds.contains parts.length = true}

/-- A repeated word is in as many parts as the bounds contain. -/
theorem mem_times {bounds : Bounds} : word ∈ times language bounds ↔
    ∃ parts : List (List Nat), word = parts.flatten ∧ (∀ part ∈ parts, part ∈ language) ∧
      bounds.contains parts.length = true := Iff.rfl

/-- Any number of repetitions. -/
theorem times_any : times language .any = language∗ := by
  ext word
  rw [mem_times, Language.mem_kstar]
  constructor
  · rintro ⟨parts, same, all, _⟩
    exact ⟨parts, same, all⟩
  · rintro ⟨parts, same, all⟩
    exact ⟨parts, same, all, rfl⟩

/-- A fixed number of repetitions. -/
theorem times_exactly (count : Nat) : times language (.exactly count) = language ^ count := by
  ext word
  rw [mem_times, Language.mem_pow]
  constructor
  · rintro ⟨parts, same, all, within⟩
    refine ⟨parts, same, ?_, all⟩
    have both := Bool.and_eq_true_iff.mp within
    have least : count ≤ parts.length := of_decide_eq_true both.1
    have most : parts.length ≤ count := of_decide_eq_true both.2
    omega
  · rintro ⟨parts, same, number, all⟩
    refine ⟨parts, same, all, ?_⟩
    simp [Bounds.exactly, Bounds.contains, number]

/-- One repetition or more. -/
theorem times_atLeast_one : times language (.atLeast 1) = language * language∗ := by
  ext word
  rw [mem_times, Language.mem_mul]
  constructor
  · rintro ⟨parts, rfl, all, within⟩
    cases parts with
    | nil => exact absurd within (by decide)
    | cons first later =>
      have others : ∀ part ∈ later, part ∈ language :=
        fun part member => all part (List.mem_cons_of_mem first member)
      exact ⟨first, all first List.mem_cons_self, later.flatten, ⟨later, rfl, others⟩, rfl⟩
  · rintro ⟨first, member, _, ⟨later, rfl, others⟩, rfl⟩
    refine ⟨first :: later, rfl, List.forall_mem_cons.mpr ⟨member, others⟩, ?_⟩
    simp [Bounds.atLeast, Bounds.contains]

/-- One repetition or none. -/
theorem times_atMost_one : times language (.atMost 1) = 1 + language := by
  ext word
  rw [mem_times, Language.mem_add, Language.mem_one]
  constructor
  · rintro ⟨parts, rfl, all, within⟩
    match parts with
    | [] => exact .inl rfl
    | [part] =>
      rw [List.flatten_cons, List.flatten_nil, List.append_nil]
      exact .inr (all part List.mem_cons_self)
    | _ :: _ :: _ => simp [Bounds.atMost, Bounds.contains] at within
  · rintro (rfl | member)
    · exact ⟨[], rfl, nofun, rfl⟩
    · refine ⟨[word], ?_, ?_, rfl⟩
      · rw [List.flatten_cons, List.flatten_nil, List.append_nil]
      · intro part inside
        rwa [List.mem_singleton.mp inside]

/-! ## Openings -/

/-- Every word of a language begins with a rune of a kind. -/
def Begins (language : Language Nat) (kind : Nat → Prop) : Prop :=
  ∀ word ∈ language, ∃ rune later, word = rune :: later ∧ kind rune

namespace Begins

variable {kind other : Nat → Prop}

/-- A word of one rune begins with it. -/
theorem single (accepted : Nat → Prop) : Begins (Words.single accepted) accepted := by
  rintro _ ⟨rune, known, rfl⟩
  exact ⟨rune, [], rfl, known⟩

/-- A word begins with its first rune. -/
theorem singleton (rune : Nat) (later : List Nat) :
    Begins ({rune :: later} : Language Nat) (· = rune) := by
  rintro _ rfl
  exact ⟨rune, later, rfl, rfl⟩

/-- A word that goes on begins as its first part does. -/
theorem mul (begins : Begins left kind) (right : Language Nat) : Begins (left * right) kind := by
  rintro _ member
  obtain ⟨first, inLeft, second, _, rfl⟩ := Language.mem_mul.mp member
  obtain ⟨rune, later, rfl, known⟩ := begins first inLeft
  exact ⟨rune, later ++ second, rfl, known⟩

/-- Two languages that begin alike do so together. -/
theorem add (begins : Begins left kind) (also : Begins right kind) :
    Begins (left + right) kind := by
  rintro word (member | member)
  · exact begins word member
  · exact also word member

/-- What begins with runes of a kind begins with runes of any wider kind. -/
theorem mono (begins : Begins language kind) (more : ∀ rune, kind rune → other rune) :
    Begins language other := by
  intro word member
  obtain ⟨rune, later, same, known⟩ := begins word member
  exact ⟨rune, later, same, more rune known⟩

/-- Something always begins such a word. -/
theorem nil_notMem (begins : Begins language kind) : [] ∉ language := by
  intro member
  obtain ⟨_, _, same, _⟩ := begins [] member
  cases same

/-- Words that begin differently go on differently. -/
theorem ne_append (begins : Begins left kind) (also : Begins right other)
    (differ : ∀ rune, kind rune → ¬ other rune) {first second : List Nat} (one : first ∈ left)
    (two : second ∈ right) (rest later : List Nat) : first ++ rest ≠ second ++ later := by
  obtain ⟨rune, _, rfl, known⟩ := begins first one
  obtain ⟨_, _, rfl, alsoKnown⟩ := also second two
  intro same
  obtain ⟨rfl, _⟩ := List.cons.inj same
  exact differ rune known alsoKnown

/-- An optional first part changes nothing where both parts begin alike. -/
theorem oneAdd (begins : Begins left kind) (also : Begins right kind) :
    Begins ((1 + left) * right) kind := by
  rw [add_mul, one_mul]
  exact also.add (begins.mul right)

end Begins

/-- The end may come next, or a rune of a kind. -/
def Next (kind : Nat → Prop) (later : List Nat) : Prop := ∀ rune ∈ later.head?, kind rune

namespace Next

variable {kind other : Nat → Prop}

/-- What is next in a kind is next in any wider kind. -/
theorem mono {later : List Nat} (next : Next kind later) (more : ∀ rune, kind rune → other rune) :
    Next other later :=
  fun rune first => more rune (next rune first)

end Next

namespace Begins

variable {kind other : Nat → Prop}

/-- A word comes with its first rune. -/
theorem next (begins : Begins language kind) (member : word ∈ language) (later : List Nat) :
    Next kind (word ++ later) := by
  obtain ⟨rune, rest, rfl, known⟩ := begins word member
  intro first same
  cases same
  exact known

/-- A word that may be missing comes with its first rune or with what comes behind it. -/
theorem next_oneAdd (begins : Begins language kind) (more : ∀ rune, kind rune → other rune)
    (member : word ∈ 1 + language) {later : List Nat} (next : Next other later) :
    Next other (word ++ later) := by
  rcases member with none | member
  · rw [(Language.mem_one word).mp none]
    exact next
  · exact (begins.next member later).mono more

/-- A word does not come where no rune comes with which it could begin. -/
theorem not_next (begins : Begins language kind) (differ : ∀ rune, kind rune → ¬ other rune)
    (member : word ∈ language) (later : List Nat) : ¬ Next other (word ++ later) := by
  obtain ⟨rune, rest, rfl, known⟩ := begins word member
  intro next
  exact differ rune known (next rune rfl)

end Begins

end Words

end TextPattern
