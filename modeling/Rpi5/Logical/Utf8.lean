import Rpi5.Logical.Bytes

/-!
# Characters in UTF-8

The bytes of a string are those of its characters one after another. A character below
128 is one byte, the character itself; every other one is at least two bytes, none of
them zero. So a zero byte is the NUL character, and what stands before and behind it in
valid UTF-8 is valid too.
-/

namespace Rpi5.Logical

/-- The bytes of a character. -/
abbrev utf8Char (char : Char) : Bytes := String.utf8EncodeChar char

/-- A character of seven bits. -/
def IsAscii (char : Char) : Prop := char.toNat < 128

instance (char : Char) : Decidable (IsAscii char) := inferInstanceAs (Decidable (_ < _))

section Characters

variable {char : Char}

/-- A character below 128 is one byte, its code. -/
theorem utf8Char_of_isAscii (ascii : IsAscii char) : utf8Char char = [UInt8.ofNat char.toNat] := by
  have low : char.val.toNat ≤ 0x7f := Nat.le_of_lt_succ ascii
  exact if_pos low

/-- Every other character has at least two bytes, all of them with the high bit. -/
theorem utf8Char_of_not_isAscii (wide : ¬ IsAscii char) :
    2 ≤ (utf8Char char).length ∧ ∀ byte ∈ utf8Char char, 128 ≤ byte.toNat := by
  have high : ¬ char.val.toNat ≤ 0x7f := fun low => wide (Nat.lt_succ_of_le low)
  simp only [utf8Char, String.utf8EncodeChar, if_neg high]
  split
  · simp
    omega
  · split
    · simp
      omega
    · simp
      omega

/-- Each character has a byte. -/
theorem length_utf8Char_pos (char : Char) : 0 < (utf8Char char).length := by
  by_cases ascii : IsAscii char
  · rw [utf8Char_of_isAscii ascii]
    exact Nat.one_pos
  · exact Nat.lt_of_lt_of_le Nat.two_pos (utf8Char_of_not_isAscii ascii).1

/-- Only the NUL character has a zero byte. -/
theorem zero_mem_utf8Char : 0 ∈ utf8Char char ↔ char = '\x00' := by
  by_cases ascii : IsAscii char
  · rw [utf8Char_of_isAscii ascii, List.mem_singleton]
    unfold IsAscii at ascii
    constructor
    · intro zero
      have code := congrArg UInt8.toNat zero
      simp only [UInt8.toNat_ofNat'] at code
      apply Char.toNat_inj.mp
      rw [← Nat.mod_eq_of_lt (show char.toNat < 2 ^ 8 by omega), ← code]
      rfl
    · rintro rfl
      rfl
  · constructor
    · intro zero
      have high := (utf8Char_of_not_isAscii ascii).2 0 zero
      exact absurd high (by decide)
    · rintro rfl
      exact absurd (by decide : IsAscii '\x00') ascii

/-- The byte with all bits set is in no character. -/
theorem utf8Char_lt (char : Char) : ∀ byte ∈ utf8Char char, byte.toNat < 255 := by
  by_cases ascii : IsAscii char
  · rw [utf8Char_of_isAscii ascii]
    unfold IsAscii at ascii
    simp only [List.mem_singleton, forall_eq, UInt8.toNat_ofNat']
    omega
  · have high : ¬ char.val.toNat ≤ 0x7f := fun low => ascii (Nat.lt_succ_of_le low)
    simp only [utf8Char, String.utf8EncodeChar, if_neg high]
    split
    · simp
      omega
    · split
      · simp
        omega
      · simp
        omega

end Characters

section Strings

/-- The bytes of a string are those of its characters. -/
theorem utf8_eq_flatMap (text : String) : utf8 text = text.toList.flatMap utf8Char := by
  have bytes : text.toList.utf8Encode = text.toByteArray := String.utf8Encode_toList
  unfold utf8
  rw [← bytes]
  exact List.toList_data_toByteArray

/-- The bytes of a text are those of its characters. -/
theorem utf8_ofList (chars : List Char) : utf8 (String.ofList chars) = chars.flatMap utf8Char := by
  rw [utf8_eq_flatMap, String.toList_ofList]

/-- None of them is 255. -/
theorem utf8_lt (text : String) : ∀ byte ∈ utf8 text, byte.toNat < 255 := by
  intro byte member
  rw [utf8_eq_flatMap] at member
  obtain ⟨char, -, within⟩ := List.mem_flatMap.mp member
  exact utf8Char_lt char byte within

/-- Characters which make no more bytes than they are many are all below 128. -/
theorem isAscii_of_length_le {chars : List Char}
    (short : (chars.flatMap utf8Char).length ≤ chars.length) : ∀ char ∈ chars, IsAscii char := by
  have least : ∀ rest : List Char, rest.length ≤ (rest.flatMap utf8Char).length := by
    intro rest
    induction rest with
    | nil => exact Nat.le_refl 0
    | cons char rest ih =>
        have positive := length_utf8Char_pos char
        rw [List.flatMap_cons, List.length_append, List.length_cons]
        omega
  induction chars with
  | nil => nofun
  | cons char chars ih =>
      have rest := least chars
      have positive := length_utf8Char_pos char
      rw [List.flatMap_cons, List.length_append, List.length_cons] at short
      rw [List.forall_mem_cons]
      constructor
      · by_contra wide
        have long := (utf8Char_of_not_isAscii wide).1
        omega
      · exact ih (by omega)

/-- At its first zero byte a string is cut between two characters. -/
theorem chars_of_nul {chars : List Char} {raw rest : Bytes} (free : 0 ∉ raw)
    (split : chars.flatMap utf8Char = raw ++ 0 :: rest) :
    ∃ before after, chars = before ++ '\x00' :: after ∧ before.flatMap utf8Char = raw ∧
      after.flatMap utf8Char = rest := by
  induction chars generalizing raw with
  | nil => simp at split
  | cons char chars ih =>
      rw [List.flatMap_cons] at split
      by_cases nul : char = '\x00'
      · subst nul
        have first : raw = [] := by
          cases raw with
          | nil => rfl
          | cons byte raw =>
              have same : (0 : UInt8) = byte := (List.cons.inj split).1
              exact absurd (same ▸ List.mem_cons_self) free
        subst first
        exact ⟨[], chars, rfl, rfl, (List.cons.inj split).2⟩
      · have whole : utf8Char char <+: raw := by
          have absent : 0 ∉ utf8Char char := fun zero => nul (zero_mem_utf8Char.mp zero)
          rcases List.append_eq_append_iff.mp split with ⟨middle, same, -⟩ | ⟨middle, same, later⟩
          · exact ⟨middle, same.symm⟩
          · cases middle with
            | nil =>
                exact ⟨[], by rw [List.append_nil, same, List.append_nil]⟩
            | cons byte middle =>
                have zero : 0 = byte := (List.cons.inj later).1
                rw [same, ← zero] at absent
                exact absurd (List.mem_append_right raw List.mem_cons_self) absent
        obtain ⟨middle, rfl⟩ := whole
        rw [List.append_assoc, List.append_cancel_left_eq] at split
        obtain ⟨before, after, rfl, bytes, tail⟩ :=
          ih (fun zero => free (List.mem_append_right _ zero)) split
        exact ⟨char :: before, after, rfl, by rw [List.flatMap_cons, bytes], tail⟩

/-- What stands before and behind a zero byte in valid UTF-8 is valid. -/
theorem decodeUtf8_split {raw rest : Bytes} (free : 0 ∉ raw)
    (valid : (decodeUtf8 (raw ++ 0 :: rest)).isSome) :
    (∃ text, utf8 text = raw) ∧ (decodeUtf8 rest).isSome := by
  obtain ⟨text, decoded⟩ := Option.isSome_iff_exists.mp valid
  have bytes := decodeUtf8_eq_some_iff.mp decoded
  rw [utf8_eq_flatMap] at bytes
  obtain ⟨before, after, -, first, second⟩ := chars_of_nul free bytes
  refine ⟨⟨String.ofList before, by rw [utf8_ofList, first]⟩, ?_⟩
  rw [Option.isSome_iff_exists]
  exact ⟨String.ofList after, decodeUtf8_eq_some_iff.mpr (by rw [utf8_ofList, second])⟩

/-- The complete strings of valid UTF-8 are valid, and so is the rest. -/
theorem decodeUtf8_cstrings {bytes : Bytes} (valid : (decodeUtf8 bytes).isSome) :
    (∃ texts : List String, texts.map utf8 = (cstrings bytes).1) ∧
      (decodeUtf8 (cstrings bytes).2).isSome := by
  induction length : bytes.length using Nat.strong_induction_on generalizing bytes with
  | _ size ih =>
      by_cases nul : 0 ∈ bytes
      · obtain ⟨raw, rest, rfl, free⟩ := List.eq_append_cons_of_mem nul
        obtain ⟨⟨text, rfl⟩, later⟩ := decodeUtf8_split free valid
        have shorter : rest.length < size := by
          rw [← length, List.length_append, List.length_cons]
          omega
        obtain ⟨⟨texts, same⟩, last⟩ := ih rest.length shorter later rfl
        rw [cstrings_append_nul free]
        exact ⟨⟨text :: texts, by rw [List.map_cons, same]⟩, last⟩
      · rw [cstrings_of_notMem nul]
        exact ⟨⟨[], rfl⟩, valid⟩

end Strings
end Rpi5.Logical
