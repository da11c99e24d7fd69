import TextPattern.Proofs.Utf8.Decoder

/-!
# Encoding and decoding whole texts

Runes that are encoded one after the other are decoded one by one: no encoding runs into the next.
In the other direction a text comes back octet by octet where it is well-formed, and nowhere else.
`runes_encodeAll_round_trip` is the main statement.
-/

namespace TextPattern.Utf8

/-- The octets of several runes, one after the other. -/
def encodeAll (runes : List Nat) : Bytes := runes.flatMap fun rune => (encode rune).1

/-! ## The encoder -/

/-- An octet of the encoder: the six lowest bits of what is shifted, and a mark above them. -/
theorem toNat_marked {bits mark : Nat} (places : Nat) (few : bits % 64 < 2 ^ places)
    (above : 2 ^ places ∣ mark) (fits : mark + bits % 64 < 256) :
    (UInt8.ofNat ((bits &&& 0x3F) ||| mark)).toNat = mark + bits % 64 := by
  obtain ⟨high, rfl⟩ := above
  have six : bits &&& 0x3F = bits % 64 := Nat.and_two_pow_sub_one_eq_mod bits 6
  rw [six, Nat.or_comm, ← Nat.two_pow_add_eq_or_of_lt few]
  exact UInt8.toNat_ofNat_of_lt fits

/-- The encoder shifts by six bits for each octet that is left. -/
theorem shiftRight_six_mul (rune count : Nat) : rune >>> (6 * count) = rune / 64 ^ count := by
  rw [Nat.shiftRight_eq_div_pow, Nat.pow_mul]

/-- The octets behind the opening one continue what the bits before them begin. -/
theorem continues_encodeBits (rune count : Nat) :
    Continues (rune / 64 ^ count) (encodeBits rune count 0x80) rune := by
  induction count with
  | zero =>
    rw [Nat.pow_zero, Nat.div_one]
    exact .done rune
  | succ count ih =>
    have few : rune / 64 ^ count % 64 < 64 := Nat.mod_lt _ (by decide)
    have joined : rune / 64 ^ (count + 1) * 0x40 + rune / 64 ^ count % 64 = rune / 64 ^ count := by
      rw [Nat.pow_succ, ← Nat.div_div_eq_div_mul]
      exact Nat.div_add_mod' _ 64
    rw [encodeBits, shiftRight_six_mul]
    exact .next ⟨few, toNat_marked 6 few (by decide) (by omega)⟩ (joined.symm ▸ ih)

/-- There is an octet for each time six bits. -/
theorem length_encodeBits (rune count mark : Nat) :
    (encodeBits rune count mark).length = count := by
  induction count generalizing mark with
  | zero => rfl
  | succ count ih => exact congrArg Nat.succ (ih 0x80)

/-- Behind an octet that opens a sequence for what is left of a number, the encoder writes the rest
of its encoding. -/
theorem encodes_encodeBits {rune count mark : Nat}
    (opens : Opens (.ofNat (((rune / 64 ^ count) &&& 0x3F) ||| mark)) count (rune / 64 ^ count))
    (scalar : rune ≤ 0x10FFFF ∧ ¬ (0xD800 ≤ rune ∧ rune ≤ 0xDFFF))
    (needed : leastRune count ≤ rune) :
    Encodes (encodeBits rune (count + 1) mark) rune := by
  rw [encodeBits, shiftRight_six_mul, encodes_iff, length_encodeBits]
  refine ⟨⟨_, ?_, continues_encodeBits rune count⟩, scalar, needed⟩
  rwa [length_encodeBits]

/-- The length that the encoder selects is the one that a number needs, and its mark tells this
length. -/
theorem encodes_encodeLonger {rune : Nat} (wide : 0x80 ≤ rune)
    (scalar : rune ≤ 0x10FFFF ∧ ¬ (0xD800 ≤ rune ∧ rune ≤ 0xDFFF)) :
    Encodes (encodeLonger rune) rune := by
  unfold encodeLonger longerLength
  split
  · rename_i two
    have marked := @toNat_marked (rune / 64 ^ 1) 0xC0 5 (by omega) (by decide) (by omega)
    show Encodes (encodeBits rune 2 0xC0) rune
    exact encodes_encodeBits (.two (by omega) (by omega)) scalar wide
  · rename_i from_three
    split
    · rename_i three
      have marked := @toNat_marked (rune / 64 ^ 2) 0xE0 4 (by omega) (by decide) (by omega)
      show Encodes (encodeBits rune 3 0xE0) rune
      exact encodes_encodeBits (.three (by omega) (by omega)) scalar (Nat.le_of_not_lt from_three)
    · rename_i from_four
      have marked := @toNat_marked (rune / 64 ^ 3) 0xF0 3 (by omega) (by decide) (by omega)
      show Encodes (encodeBits rune 4 0xF0) rune
      exact encodes_encodeBits (.four (by omega) (by omega)) scalar (Nat.le_of_not_lt from_four)

/-- The encoding of the replacement rune. -/
theorem encodes_replacement : Encodes (encodeLonger replacement) replacement :=
  encodes_encodeLonger (by decide) (by decide)

/-- The mask of the encoder keeps all but the eleven lowest bits. -/
theorem and_surrogate_mask {rune : Nat} (small : rune < 2 ^ 32) :
    rune &&& 0xFFFFF800 = rune / 0x800 * 0x800 := by
  have mask : 0xFFFFF800 = (2 ^ 21 - 1) <<< 11 := by decide
  have shifted : rune / 0x800 * 0x800 = (rune >>> 11) <<< 11 := by
    rw [Nat.shiftLeft_eq, Nat.shiftRight_eq_div_pow]
  rw [mask, shifted]
  apply Nat.eq_of_testBit_eq
  intro place
  rw [Nat.testBit_and, Nat.testBit_shiftLeft, Nat.testBit_shiftLeft, Nat.testBit_two_pow_sub_one,
    Nat.testBit_shiftRight]
  by_cases low : 11 ≤ place
  · by_cases high : place < 32
    · simp [low, show place - 11 < 21 by omega]
    · have limit : 2 ^ 32 ≤ 2 ^ place :=
        Nat.pow_le_pow_right (by decide) (Nat.le_of_not_lt high)
      have absent := Nat.testBit_lt_two_pow (Nat.lt_of_lt_of_le small limit)
      simp [low, absent]
  · simp [low]

/-- Comparing and masking, the encoder finds surrogates and numbers past the last scalar value. -/
theorem refused_iff (rune : Nat) :
    0x110000 ≤ rune ∨ rune &&& 0xFFFFF800 = 0xD800 ↔
      0x110000 ≤ rune ∨ (0xD800 ≤ rune ∧ rune ≤ 0xDFFF) := by
  rcases Nat.lt_or_ge rune 0x110000 with below | beyond
  · rw [and_surrogate_mask (Nat.lt_trans below (by decide))]
    omega
  · exact iff_of_true (.inl beyond) (.inl beyond)

/-- The encoder writes the encoding of a scalar value. -/
theorem encode_scalar {rune : Nat} (scalar : rune ≤ 0x10FFFF ∧ ¬ (0xD800 ≤ rune ∧ rune ≤ 0xDFFF)) :
    (encode rune).2 = true ∧ Encodes (encode rune).1 rune := by
  unfold encode
  split
  · rename_i ascii
    have opens : Opens (.ofNat rune) 0 rune :=
      .one ascii (UInt8.toNat_ofNat_of_lt (show _ < 0x100 by omega))
    exact ⟨rfl, encodes_iff.mpr ⟨⟨_, opens, .done rune⟩, scalar, Nat.zero_le _⟩⟩
  · rename_i wide
    rw [if_neg (by rw [refused_iff]; omega)]
    exact ⟨rfl, encodes_encodeLonger (Nat.le_of_not_lt wide) scalar⟩

/-- Anything else is encoded as the replacement rune. -/
theorem encode_not_scalar {rune : Nat}
    (refused : ¬ (rune ≤ 0x10FFFF ∧ ¬ (0xD800 ≤ rune ∧ rune ≤ 0xDFFF))) :
    encode rune = (encodeLonger replacement, false) := by
  rw [encode, if_neg (by omega), if_pos ((refused_iff rune).mpr (by omega))]

/-- A scalar value is its own rune, any other number stands for U+FFFD. -/
theorem encodes_encode (rune : Nat) :
    Encodes (encode rune).1 (if (encode rune).2 then rune else 0xFFFD) := by
  by_cases scalar : rune ≤ 0x10FFFF ∧ ¬ (0xD800 ≤ rune ∧ rune ≤ 0xDFFF)
  · obtain ⟨accepted, encodes⟩ := encode_scalar scalar
    rwa [if_pos accepted]
  · rw [encode_not_scalar scalar]
    exact encodes_replacement

/-- The encoder refuses surrogates and numbers past the last scalar value. -/
theorem encode_refuses_iff {rune : Nat} :
    (encode rune).2 = false ↔ (0xD800 ≤ rune ∧ rune ≤ 0xDFFF) ∨ 0x110000 ≤ rune := by
  by_cases scalar : rune ≤ 0x10FFFF ∧ ¬ (0xD800 ≤ rune ∧ rune ≤ 0xDFFF)
  · rw [(encode_scalar scalar).1]
    exact iff_of_false nofun (by omega)
  · rw [encode_not_scalar scalar]
    exact iff_of_true rfl (by omega)

/-- The encoder writes the only encoding of a scalar value. -/
theorem Encodes.encode_eq {sequence : Bytes} {rune : Nat} (encodes : Encodes sequence rune) :
    encode rune = (sequence, true) := by
  obtain ⟨accepted, written⟩ := encode_scalar encodes.scalar
  exact Prod.ext (written.unique encodes) accepted

/-! ## Whole texts -/

/-- A text is decoded from its first rune on. -/
theorem decodeAll_eq {bytes : Bytes} (more : bytes ≠ []) :
    decodeAll bytes = decode bytes :: decodeAll (bytes.drop (decode bytes).2) := by
  obtain ⟨octet, rest, rfl⟩ := List.exists_cons_of_ne_nil more
  obtain ⟨width, positive⟩ := Nat.exists_eq_succ_of_ne_zero
    (Nat.ne_of_gt (decode_width_pos (octet :: rest)))
  rw [decodeAll, positive, List.drop_succ_cons]
  rfl

/-- Counting goes from rune to rune as decoding does. -/
theorem countFrom_eq (bytes : Bytes) (position count : Nat) :
    countFrom bytes position count = count + (decodeAll (bytes.drop position)).length := by
  induction position, count using countFrom.induct bytes with
  | case1 position count more ih =>
    have some_left : bytes.drop position ≠ [] := by rwa [Ne, List.drop_eq_nil_iff, Nat.not_le]
    rw [countFrom, if_pos more, ih, decodeAll_eq some_left, List.length_cons, List.drop_drop]
    omega
  | case2 position count ended =>
    rw [countFrom, if_neg ended, List.drop_eq_nil_of_le (Nat.le_of_not_lt ended), decodeAll]
    rfl

/-- As many runes are counted as are decoded. -/
theorem countRunes_eq (bytes : Bytes) : countRunes bytes = (decodeAll bytes).length := by
  rw [countRunes, countFrom_eq, Nat.zero_add, List.drop_zero]

/-- An encoding in front of a text is decoded by itself. -/
theorem runes_append {sequence : Bytes} {rune : Nat} (encodes : Encodes sequence rune)
    (rest : Bytes) : runes (sequence ++ rest) = rune :: runes rest := by
  have more : sequence ++ rest ≠ [] := by
    intro none_left
    rw [(List.append_eq_nil_iff.mp none_left).1] at encodes
    exact encodes.spells
  rw [runes, decodeAll_eq more, decode_of_encodes (List.prefix_append _ _) encodes,
    List.drop_left]
  rfl

/-- Octets below 128 are a rune each. -/
theorem runes_eq_of_ascii {text octets : Bytes} (same : text = octets)
    (ascii : ∀ octet ∈ octets, octet < 0x80) : runes text = octets.map UInt8.toNat := by
  subst same
  induction text with
  | nil => rw [runes, decodeAll, List.map_nil, List.map_nil]
  | cons octet rest ih =>
    have smaller : ∀ other ∈ rest, other < 0x80 :=
      fun other member => ascii other (List.mem_cons_of_mem octet member)
    rw [List.map_cons, ← ih smaller]
    exact runes_append (encodes_ascii (ascii octet List.mem_cons_self)) rest

/-- Every decoded rune has an encoding. -/
theorem exists_encodes_decode (bytes : Bytes) : ∃ sequence, Encodes sequence (decode bytes).1 := by
  by_cases found : ∃ sequence rune, sequence <+: bytes ∧ Encodes sequence rune
  · obtain ⟨sequence, rune, ahead, encodes⟩ := found
    rw [decode_of_encodes ahead encodes]
    exact ⟨sequence, encodes⟩
  · rw [decode_of_not_encodes found]
    exact ⟨_, encodes_replacement⟩

/-- All runes of a text have an encoding. -/
theorem exists_encodes_of_mem_runes {bytes : Bytes} {rune : Nat} (member : rune ∈ runes bytes) :
    ∃ sequence, Encodes sequence rune := by
  obtain ⟨decoded, among, rfl⟩ := List.mem_map.mp member
  clear member
  induction bytes using decodeAll.induct with
  | case1 =>
    rw [decodeAll] at among
    cases among
  | case2 octet rest first ih =>
    rw [decodeAll] at among
    rcases List.mem_cons.mp among with rfl | later
    · exact exists_encodes_decode _
    · exact ih later

/-- Runes come back one by one, those that are none as U+FFFD. -/
theorem runes_encodeAll (list : List Nat) :
    runes (encodeAll list) = list.map fun rune => if (encode rune).2 then rune else 0xFFFD := by
  induction list with
  | nil =>
    rw [encodeAll, List.flatMap_nil, runes, decodeAll]
    rfl
  | cons rune later ih =>
    rw [List.map_cons, ← ih, encodeAll, List.flatMap_cons,
      runes_append (encodes_encode rune)]
    rfl

/-- Encodings one after the other are a text. -/
theorem isText_encodeAll (list : List Nat) : IsText (encodeAll list) := by
  induction list with
  | nil => exact .nil
  | cons rune later ih =>
    rw [encodeAll, List.flatMap_cons]
    exact .cons (encodes_encode rune) ih

/-- A text comes back octet by octet. -/
theorem IsText.encodeAll_runes {bytes : Bytes} (text : IsText bytes) :
    encodeAll (runes bytes) = bytes := by
  induction text with
  | nil =>
    rw [runes, decodeAll]
    rfl
  | cons encodes _ ih =>
    rw [runes_append encodes, encodeAll, List.flatMap_cons, encodes.encode_eq]
    exact congrArg _ ih

/-- Encoding and decoding undo each other: on runes up to what is no scalar value, on octets up to
what is no text. -/
theorem runes_encodeAll_round_trip :
    (∀ list : List Nat, runes (encodeAll list) =
      list.map fun rune => if (encode rune).2 then rune else 0xFFFD) ∧
    (∀ rune, (encode rune).2 = false ↔ (0xD800 ≤ rune ∧ rune ≤ 0xDFFF) ∨ 0x110000 ≤ rune) ∧
    ∀ bytes, IsText (encodeAll (runes bytes)) ∧ runes (encodeAll (runes bytes)) = runes bytes ∧
      (encodeAll (runes bytes) = bytes ↔ IsText bytes) := by
  refine ⟨runes_encodeAll, fun _ => encode_refuses_iff, fun bytes => ⟨?_, ?_, ?_⟩⟩
  · exact isText_encodeAll _
  · rw [runes_encodeAll]
    conv_rhs => rw [← List.map_id (runes bytes)]
    refine List.map_congr_left fun rune member => ?_
    obtain ⟨sequence, encodes⟩ := exists_encodes_of_mem_runes member
    rw [encodes.encode_eq]
    rfl
  · constructor
    · intro same
      rw [← same]
      exact isText_encodeAll _
    · exact IsText.encodeAll_runes

end TextPattern.Utf8
