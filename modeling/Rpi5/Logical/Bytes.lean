import Mathlib.Tactic.Common
import Mathlib.Data.List.Induction
import Mathlib.Tactic.Ring

/-!
# Byte sequences

Big-endian numbers, alignment, NUL-terminated strings and UTF-8 over lists of
bytes. A NUL-terminated string is read up to the first zero byte; `cstrings`
cuts a sequence into all its complete strings and the unterminated remainder.
-/

namespace Rpi5.Logical

/-- A byte sequence. -/
abbrev Bytes := List UInt8

section BigEndian

/-- The number a byte sequence encodes, most significant byte first. -/
def beNat (bytes : Bytes) : Nat := bytes.foldl (fun value byte => value * 256 + byte.toNat) 0

/-- No bytes are 0. -/
@[simp] theorem beNat_nil : beNat [] = 0 := rfl

/-- What has been read before is shifted by the bytes behind it. -/
private theorem foldl_eq (bytes : Bytes) (start : Nat) :
    bytes.foldl (fun value byte => value * 256 + byte.toNat) start =
      start * 256 ^ bytes.length + beNat bytes := by
  induction bytes generalizing start with
  | nil => simp
  | cons byte rest ih =>
      unfold beNat
      simp only [List.foldl_cons, List.length_cons, ih (start * 256 + byte.toNat),
        ih (0 * 256 + byte.toNat)]
      ring

/-- The first of two parts is shifted by the second one. -/
theorem beNat_append (first second : Bytes) :
    beNat (first ++ second) = beNat first * 256 ^ second.length + beNat second := by
  rw [beNat, List.foldl_append, foldl_eq]
  rfl

/-- Bytes are less than the power of 256 their number says. -/
theorem beNat_lt (bytes : Bytes) : beNat bytes < 256 ^ bytes.length := by
  induction bytes using List.reverseRecOn with
  | nil => simp
  | append_singleton rest byte ih =>
      have small := byte.toNat_lt
      have single : beNat [byte] = byte.toNat := by simp [beNat]
      simp only [beNat_append, single, List.length_append, List.length_singleton, pow_succ]
      omega

/-- Eight bytes are a 64-bit number. -/
theorem beNat_take_lt {count : Nat} (few : count ≤ 8) (bytes : Bytes) :
    beNat (bytes.take count) < 2 ^ 64 := by
  have bound := beNat_lt (bytes.take count)
  have short : (256 : Nat) ^ (bytes.take count).length ≤ 256 ^ 8 := by
    apply Nat.pow_le_pow_right (by decide)
    rw [List.length_take]
    omega
  exact Nat.lt_of_lt_of_le bound short

/-- The four bytes of a 32-bit number. -/
def be32 (value : Nat) : Bytes :=
  [UInt8.ofNat (value / 2 ^ 24), UInt8.ofNat (value / 2 ^ 16), UInt8.ofNat (value / 2 ^ 8),
    UInt8.ofNat value]

/-- A cell has four bytes. -/
@[simp] theorem length_be32 (value : Nat) : (be32 value).length = 4 := rfl

/-- A number of 32 bits is read back from its bytes. -/
theorem beNat_be32 {value : Nat} (small : value < 2 ^ 32) : beNat (be32 value) = value := by
  simp [beNat, be32]
  omega

/-- Four bytes are the bytes of what is read from them. -/
theorem be32_beNat {bytes : Bytes} (four : bytes.length = 4) : be32 (beNat bytes) = bytes := by
  match bytes, four with
  | [a, b, c, d], _ =>
      have := a.toNat_lt
      have := b.toNat_lt
      have := c.toNat_lt
      have := d.toNat_lt
      simp only [be32, beNat, List.foldl_cons, List.foldl_nil, List.cons.injEq, and_true]
      refine ⟨?_, ?_, ?_, ?_⟩ <;> apply UInt8.toNat_inj.mp <;> simp <;> omega

end BigEndian

section Alignment

/-- The number of bytes missing to a multiple of four. -/
def padLength (length : Nat) : Nat := (4 - length % 4) % 4

/-- Padding is shorter than a word. -/
theorem padLength_lt (length : Nat) : padLength length < 4 := Nat.mod_lt _ (by decide)

end Alignment

section CString

/-- The bytes before the first zero, if there is a zero. -/
def cstring : Bytes → Option Bytes
  | [] => none
  | byte :: rest => if byte = 0 then some [] else (cstring rest).map (byte :: ·)

/-- A string ends at the first NUL. -/
theorem cstring_eq_some_iff {bytes text : Bytes} :
    cstring bytes = some text ↔ 0 ∉ text ∧ ∃ rest, bytes = text ++ 0 :: rest := by
  induction bytes generalizing text with
  | nil => simp [cstring]
  | cons byte rest ih =>
      by_cases zero : byte = 0
      · subst zero
        simp only [cstring, ↓reduceIte, Option.some.injEq]
        constructor
        · rintro rfl
          exact ⟨by simp, rest, rfl⟩
        · rintro ⟨free, tail, split⟩
          cases text with
          | nil => rfl
          | cons head text =>
              simp only [List.cons_append, List.cons.injEq] at split
              simp [← split.1] at free
      · simp only [cstring, zero, ↓reduceIte, Option.map_eq_some_iff]
        constructor
        · rintro ⟨inner, found, rfl⟩
          obtain ⟨free, tail, rfl⟩ := ih.mp found
          exact ⟨by simp [free, Ne.symm zero], tail, rfl⟩
        · rintro ⟨free, tail, split⟩
          cases text with
          | nil => simp [zero] at split
          | cons head text =>
              simp only [List.cons_append, List.cons.injEq] at split
              obtain ⟨rfl, rfl⟩ := split
              simp only [List.mem_cons, not_or] at free
              exact ⟨text, ih.mpr ⟨free.2, tail, rfl⟩, rfl⟩

/-- A string depends only on the bytes up to its NUL. -/
theorem cstring_congr {first second : Bytes} (length : second.length = first.length)
    (same : ∀ index < first.length, 0 ∉ first.take index → second[index]? = first[index]?) :
    cstring second = cstring first := by
  induction first generalizing second with
  | nil => rw [List.eq_nil_of_length_eq_zero length]
  | cons byte rest ih =>
      cases second with
      | nil => cases length
      | cons head tail =>
          have here : head = byte := by simpa using same 0 (by simp) (by simp)
          subst here
          by_cases zero : head = 0
          · simp [cstring, zero]
          · have later : cstring tail = cstring rest := by
              refine ih (by simpa using length) fun index inside free => ?_
              have next := same (index + 1) (by simpa using inside) (by simp [free, Ne.symm zero])
              simpa using next
            simp [cstring, zero, later]

/-- Where there is a zero, there is a string which ends there or before. -/
theorem exists_cstring {bytes : Bytes} {index : Nat} (zero : bytes[index]? = some 0) :
    ∃ text, cstring bytes = some text ∧ text.length ≤ index ∧ bytes[text.length]? = some 0 := by
  induction bytes generalizing index with
  | nil => simp at zero
  | cons byte rest ih =>
      by_cases here : byte = 0
      · exact ⟨[], by simp [cstring, here], Nat.zero_le _, by simp [here]⟩
      · cases index with
        | zero => simp [here] at zero
        | succ index =>
            obtain ⟨text, found, before, ends⟩ := ih (by simpa using zero)
            exact ⟨byte :: text, by simp [cstring, here, found], by simpa using before, by simpa using ends⟩

/-- All complete strings of a sequence and what is left after the last zero. -/
def cstrings : Bytes → List Bytes × Bytes
  | [] => ([], [])
  | byte :: rest =>
      if byte = 0 then ([] :: (cstrings rest).1, (cstrings rest).2)
      else match (cstrings rest).1 with
        | [] => ([], byte :: (cstrings rest).2)
        | text :: texts => ((byte :: text) :: texts, (cstrings rest).2)

/-- Behind the NUL of a string the others follow. -/
theorem cstrings_append_nul {text : Bytes} (free : 0 ∉ text) (rest : Bytes) :
    cstrings (text ++ 0 :: rest) = (text :: (cstrings rest).1, (cstrings rest).2) := by
  induction text with
  | nil => simp [cstrings]
  | cons byte text ih =>
      simp only [List.mem_cons, not_or] at free
      simp [cstrings, Ne.symm free.1, ih free.2]

/-- The strings of a list of terminated strings are that list. -/
theorem cstrings_flatMap {texts : List Bytes} (free : ∀ text ∈ texts, 0 ∉ text) :
    cstrings (texts.flatMap fun text => text ++ [0]) = (texts, []) := by
  induction texts with
  | nil => rfl
  | cons text texts ih =>
      have rest := ih fun later member => free later (by simp [member])
      rw [List.flatMap_cons, List.append_assoc, List.singleton_append,
        cstrings_append_nul (free text (by simp)), rest]

/-- Without a NUL there is no string, only a rest. -/
theorem cstrings_of_notMem {bytes : Bytes} (free : 0 ∉ bytes) : cstrings bytes = ([], bytes) := by
  induction bytes with
  | nil => rfl
  | cons byte rest ih =>
      simp only [List.mem_cons, not_or] at free
      simp [cstrings, Ne.symm free.1, ih free.2]

/-- A value is its complete strings and the bytes behind the last NUL. -/
theorem cstrings_split (bytes : Bytes) :
    bytes = ((cstrings bytes).1.flatMap fun text => text ++ [0]) ++ (cstrings bytes).2 ∧
      (∀ text ∈ (cstrings bytes).1, 0 ∉ text) ∧ 0 ∉ (cstrings bytes).2 := by
  induction length : bytes.length using Nat.strong_induction_on generalizing bytes with
  | _ size ih =>
      by_cases nul : 0 ∈ bytes
      · obtain ⟨raw, rest, rfl, free⟩ := List.eq_append_cons_of_mem nul
        have shorter : rest.length < size := by
          rw [← length, List.length_append, List.length_cons]
          omega
        obtain ⟨whole, texts, last⟩ := ih rest.length shorter rest rfl
        rw [cstrings_append_nul free]
        refine ⟨?_, ?_, last⟩
        · rw [List.flatMap_cons, List.append_assoc, ← whole, List.append_assoc]
          rfl
        · rintro text member
          rcases List.mem_cons.mp member with rfl | member
          · exact free
          · exact texts text member
      · rw [cstrings_of_notMem nul]
        exact ⟨rfl, nofun, nul⟩

end CString

section Utf8

/-- The UTF-8 bytes of a string. -/
def utf8 (text : String) : Bytes := text.toByteArray.data.toList

/-- The string a byte sequence encodes in UTF-8, if it is valid. -/
def decodeUtf8 (bytes : Bytes) : Option String := String.fromUTF8? ⟨bytes.toArray⟩

/-- Bytes decode to a text exactly if they are its bytes. -/
theorem decodeUtf8_eq_some_iff {bytes : Bytes} {text : String} :
    decodeUtf8 bytes = some text ↔ utf8 text = bytes := by
  unfold decodeUtf8 String.fromUTF8? utf8
  constructor
  · intro decoded
    split at decoded
    · simp only [Option.some.injEq] at decoded
      rw [← decoded]
      rfl
    · cases decoded
  · rintro rfl
    have valid : (⟨text.toByteArray.data.toList.toArray⟩ : ByteArray).IsValidUTF8 := text.isValidUTF8
    rw [dif_pos valid]
    rfl

/-- The bytes of a text decode to it. -/
@[simp] theorem decodeUtf8_utf8 (text : String) : decodeUtf8 (utf8 text) = some text :=
  decodeUtf8_eq_some_iff.mpr rfl

/-- Different texts have different bytes. -/
theorem utf8_injective : Function.Injective utf8 := by
  intro first second same
  have decoded := decodeUtf8_utf8 first
  rw [same, decodeUtf8_utf8] at decoded
  exact (Option.some.inj decoded).symm

end Utf8
end Rpi5.Logical
