import Rpi5.DeviceTree.Memory

/-!
# Big-endian readers

The module `big_endian` of the source: the header, the property header, cells
and NUL-terminated strings. Every field is a big-endian number in the blob.

`readRegs` keeps the low 64 bits of the number its cells encode
(`eval_readRegs`); `CharStringIter` takes one string at a time off a value and
checks afterwards that the string was inside it.
-/

namespace Rpi5.DeviceTree

open Rpi5.Logical Rpi5.Semantics

/-- The fields of `FtdHeader` the parser looks at. -/
structure FtdHeader where
  magic : Nat
  offDtStruct : Nat
  offDtStrings : Nat
  lastCompVersion : Nat
  sizeDtStrings : Nat
  sizeDtStruct : Nat
deriving DecidableEq, Repr

namespace FtdHeader

/-- The `index`-th big-endian `u32` of a byte sequence. -/
def field (bytes : Bytes) (index : Nat) : Nat := beNat ((bytes.drop (4 * index)).take 4)

/-- The ten fields of the header stand in the order of the source; four are unused. -/
def ofBytes (bytes : Bytes) : FtdHeader where
  magic := field bytes 0
  offDtStruct := field bytes 2
  offDtStrings := field bytes 3
  lastCompVersion := field bytes 6
  sizeDtStrings := field bytes 8
  sizeDtStruct := field bytes 9

end FtdHeader

/-- `FdtProperty`: the header of a property, after its token. -/
structure FdtProperty where
  propertyLen : Nat
  nameOffset : Nat
deriving DecidableEq, Repr

namespace FdtProperty

/-- Dereference an `FdtProperty`. -/
def read (address : Nat) : Reading FdtProperty := do
  let bytes ← ask (.property address)
  return ⟨FtdHeader.field bytes 0, FtdHeader.field bytes 1⟩

end FdtProperty

/-- `Dtb`: the address of the blob and its header. -/
structure Dtb where
  address : Nat
  header : FtdHeader
deriving DecidableEq, Repr

namespace Dtb

def dtbVersion : Nat := 17
def dtbHeaderMagic : Nat := 0xd00dfeed

/-- `Dtb::new`. -/
def new (address : Nat) : Reading Dtb := do
  let header := FtdHeader.ofBytes (← ask (.header address))
  if header.magic ≠ dtbHeaderMagic then
    err "invalid magic"
  else if header.lastCompVersion > dtbVersion then
    err "this dtb is not compatible with the version 17"
  else
    return ⟨address, header⟩

def getStructStartAddress (dtb : Dtb) : Reading Nat :=
  checkedAdd 64 dtb.address dtb.header.offDtStruct

def getStructEndAddress (dtb : Dtb) : Reading Nat := do
  checkedAdd 64 (← dtb.getStructStartAddress) dtb.header.sizeDtStruct

def getStringStartAddress (dtb : Dtb) : Reading Nat :=
  checkedAdd 64 dtb.address dtb.header.offDtStrings

def getStringEndAddress (dtb : Dtb) : Reading Nat := do
  checkedAdd 64 (← dtb.getStringStartAddress) dtb.header.sizeDtStrings

def readU32FromPtr (address : Nat) : Reading Nat := do
  return beNat (← ask (.word address))

/-- `read_char_str`: a NUL-terminated string which has to be valid UTF-8. The
block says where the caller expects the string to lie. -/
def readCharStr (block : Block) (address : Nat) : Reading String := do
  match decodeUtf8 (← ask (.text block address)) with
  | some text => return text
  | none => err "failed to convert &Cstr to &str"

/-- The loop of `read_regs`, with the cells left to read, the result so far and
the bytes consumed so far. -/
def readRegsLoop (address : Nat) : Nat → Nat → Nat → Reading (Nat × Nat)
  | 0, result, consumed => return (result, consumed)
  | size + 1, result, consumed => do
      let shifted := (result <<< 32) % 2 ^ 64
      let word ← readU32FromPtr (← checkedAdd 64 address consumed)
      let result ← checkedAdd 64 shifted word
      let consumed ← checkedAdd 64 consumed 4
      readRegsLoop address size result consumed

/-- `read_regs`: the number in the given count of cells, and its length in bytes. -/
def readRegs (address size : Nat) : Reading (Nat × Nat) := readRegsLoop address size 0 0

end Dtb

/-- `CharStringIter`: the strings of a value of `remainSize` bytes at `pointer`. -/
structure CharStringIter where
  pointer : Nat
  remainSize : Nat

namespace CharStringIter

/-- `next_internal`. The string is read to its NUL wherever that is; only then is
its size subtracted from the remaining size. -/
def nextInternal (iter : CharStringIter) : Reading (String × CharStringIter) := do
  let text ← Dtb.readCharStr .struct iter.pointer
  let size := text.utf8ByteSize + 1
  let pointer ← checkedAdd 64 iter.pointer size
  if size ≥ 2 ^ 32 then
    err "over flow"
  else if iter.remainSize < size then
    err "too small"
  else
    return (text, ⟨pointer, iter.remainSize - size⟩)

/-- `next`, with an `Err` item stopping the loop which takes it. -/
def next (iter : CharStringIter) : Reading (Option (String × CharStringIter)) := do
  if iter.remainSize = 0 then return none
  else return some (← iter.nextInternal)

end CharStringIter

section Outcomes

variable {memory : Memory} {address : Nat} {bytes text : Bytes}

/-- A sequence yields a value exactly when both parts do. -/
theorem bind_eq_ok {δ α β : Type} {first : Except δ α} {next : α → Except δ β} {result : β} :
    (first >>= next) = .ok result ↔ ∃ value, first = .ok value ∧ next value = .ok result := by
  cases first with
  | ok value => exact ⟨fun done => ⟨value, rfl, done⟩, by rintro ⟨_, ⟨⟩, done⟩; exact done⟩
  | error reason => exact ⟨nofun, by rintro ⟨_, ⟨⟩, _⟩⟩

/-- A value is handed on. -/
@[simp] theorem ok_bind {δ α β : Type} (value : α) (next : α → Except δ β) :
    ((.ok value : Except δ α) >>= next) = next value := rfl

/-- An error is the end. -/
@[simp] theorem error_bind {δ α β : Type} (reason : δ) (next : α → Except δ β) :
    ((.error reason : Except δ α) >>= next) = .error reason := rfl

/-- An ending is a value or an error. -/
theorem ok_or_error {δ α : Type} (ending : Except δ α) :
    (∃ value, ending = .ok value) ∨ ∃ reason, ending = .error reason := by
  cases ending with
  | ok value => exact .inl ⟨value, rfl⟩
  | error reason => exact .inr ⟨reason, rfl⟩

/-- A question has its answer as value. -/
theorem eval_ask_eq_ok {answer : Request → Option Bytes} {request : Request} :
    Inquiry.eval answer (ask request) = .ok bytes ↔ answer request = some bytes := by
  rw [eval_ask]
  cases answer request <;> simp

/-- A string is read exactly if it stands there with its NUL and is valid UTF-8. -/
theorem eval_readCharStr_eq_ok {block : Block} {name : String} :
    (Dtb.readCharStr block address).eval memory.answer = .ok name ↔
      0 ∉ utf8 name ∧ memory.Holds block address (utf8 name ++ [0]) := by
  unfold Dtb.readCharStr
  rw [Inquiry.eval_bind, bind_eq_ok]
  simp only [eval_ask_eq_ok, Memory.answer, Memory.readText_eq_some]
  constructor
  · rintro ⟨text, present, decoded⟩
    cases found : decodeUtf8 text with
    | none => simp [found] at decoded
    | some other =>
        simp only [found, Inquiry.eval_pure, Except.ok.injEq] at decoded
        subst decoded
        rwa [decodeUtf8_eq_some_iff.mp found]
  · intro present
    exact ⟨utf8 name, present, by simp⟩

/-- One word is read exactly if it stands there. -/
theorem eval_readU32FromPtr_eq_ok {value : Nat} :
    (Dtb.readU32FromPtr address).eval memory.answer = .ok value ↔
      ∃ bytes, memory.Holds .struct address bytes ∧ bytes.length = 4 ∧ beNat bytes = value := by
  unfold Dtb.readU32FromPtr
  rw [Inquiry.eval_bind, bind_eq_ok]
  simp only [eval_ask_eq_ok, Memory.answer, Memory.read_eq_some,
    Inquiry.eval_pure, Except.ok.injEq, and_assoc]

/-- The property header is read exactly if it stands there. -/
theorem eval_readProperty_eq_ok {property : FdtProperty} :
    (FdtProperty.read address).eval memory.answer = .ok property ↔
      memory.Holds .struct address (be32 property.propertyLen ++ be32 property.nameOffset) ∧
        property.propertyLen < 2 ^ 32 ∧ property.nameOffset < 2 ^ 32 := by
  unfold FdtProperty.read
  rw [Inquiry.eval_bind, bind_eq_ok]
  simp only [eval_ask_eq_ok, Memory.answer, Memory.read_eq_some,
    Inquiry.eval_pure, Except.ok.injEq]
  constructor
  · rintro ⟨bytes, ⟨holds, eight⟩, rfl⟩
    have low : (bytes.take 4).length = 4 := by simp [eight]
    have high : (bytes.drop 4).length = 4 := by simp [eight]
    have highTake : (bytes.drop 4).take 4 = bytes.drop 4 := List.take_of_length_le (by omega)
    have lowBound := beNat_lt (bytes.take 4)
    have highBound := beNat_lt (bytes.drop 4)
    rw [low] at lowBound
    rw [high] at highBound
    refine ⟨?_, by simpa [FtdHeader.field] using lowBound,
      by simpa [FtdHeader.field, highTake] using highBound⟩
    simp only [FtdHeader.field, Nat.mul_zero, List.drop_zero, Nat.mul_one, highTake]
    rwa [be32_beNat low, be32_beNat high, List.take_append_drop]
  · rintro ⟨holds, lenBound, offsetBound⟩
    refine ⟨_, ⟨holds, rfl⟩, ?_⟩
    have len : FtdHeader.field (be32 property.propertyLen ++ be32 property.nameOffset) 0 =
        property.propertyLen := beNat_be32 lenBound
    have offset : FtdHeader.field (be32 property.propertyLen ++ be32 property.nameOffset) 1 =
        property.nameOffset := beNat_be32 offsetBound
    rw [len, offset]

end Outcomes

section Regs

variable {memory : Memory} {address : Nat}

/-- A word is shifted in from below. -/
private theorem shift_add_word {result word : Nat} (small : word < 2 ^ 32) :
    (result % 2 ^ 64) <<< 32 % 2 ^ 64 + word = (result * 2 ^ 32 + word) % 2 ^ 64 := by
  rw [Nat.shiftLeft_eq]
  omega

/-- The loop appends its cells to the number read so far, modulo 64 bits. -/
private theorem eval_readRegsLoop (bytes : Bytes) (size consumed result : Nat)
    (holds : memory.Holds .struct (address + consumed) bytes) (cells : bytes.length = 4 * size)
    (short : consumed + 4 * size < 2 ^ 64) :
    (Dtb.readRegsLoop address size (result % 2 ^ 64) consumed).eval memory.answer =
      .ok ((result * 256 ^ bytes.length + beNat bytes) % 2 ^ 64, consumed + 4 * size) := by
  induction size generalizing bytes consumed result with
  | zero =>
      have empty : bytes = [] := List.eq_nil_of_length_eq_zero cells
      subst empty
      simp [Dtb.readRegsLoop]
  | succ size ih =>
      obtain ⟨first, rest, rfl, four⟩ : ∃ first rest, bytes = first ++ rest ∧ first.length = 4 :=
        ⟨bytes.take 4, bytes.drop 4, (List.take_append_drop 4 bytes).symm, by
          rw [List.length_take]; omega⟩
      have small := beNat_lt first
      rw [four] at small
      have parts := Memory.holds_append.mp holds
      have bound := holds.addressable
      have restCells : rest.length = 4 * size := by
        rw [List.length_append, four] at cells
        omega
      have word : (Dtb.readU32FromPtr (address + consumed)).eval memory.answer = .ok (beNat first) :=
        eval_readU32FromPtr_eq_ok.mpr ⟨first, parts.1, four, rfl⟩
      have tail := ih rest (consumed + 4) (result * 2 ^ 32 + beNat first)
        (by rw [← Nat.add_assoc, ← four]; exact parts.2) restCells (by omega)
      have inRange : address + consumed < 2 ^ 64 := by omega
      unfold Dtb.readRegsLoop
      simp only [Inquiry.eval_bind, eval_checkedAdd inRange, ok_bind, word]
      have sumFits : (result % 2 ^ 64) <<< 32 % 2 ^ 64 + beNat first < 2 ^ 64 := by
        rw [shift_add_word (by simpa using small)]
        exact Nat.mod_lt _ (by decide)
      rw [eval_checkedAdd sumFits, shift_add_word (by simpa using small)]
      simp only [ok_bind]
      rw [eval_checkedAdd (by omega)]
      simp only [ok_bind]
      rw [tail, beNat_append, List.length_append, pow_add, four]
      have lengths : consumed + 4 + 4 * size = consumed + 4 * (size + 1) := by omega
      rw [lengths, show (256 : Nat) ^ 4 = 2 ^ 32 by decide]
      congr 3
      ring

/-- `read_regs` on cells which are there: the low 64 bits of their number. -/
theorem eval_readRegs {bytes : Bytes} {size : Nat} (holds : memory.Holds .struct address bytes)
    (cells : bytes.length = 4 * size) (short : 4 * size < 2 ^ 64) :
    (Dtb.readRegs address size).eval memory.answer = .ok (beNat bytes % 2 ^ 64, 4 * size) := by
  have run := eval_readRegsLoop bytes size 0 0 (by simpa using holds) cells (by simpa using short)
  simpa [Dtb.readRegs] using run

/-- Reading some cells consumes four bytes for each. -/
theorem consumed_of_readRegs {answer : Request → Option Bytes} {cells : Nat} {result : Nat × Nat}
    (read : (Dtb.readRegs address cells).eval answer = .ok result) : result.2 = 4 * cells := by
  have loop : ∀ value consumed,
      (Dtb.readRegsLoop address cells value consumed).eval answer = .ok result →
        result.2 = consumed + 4 * cells := by
    clear read
    induction cells with
    | zero =>
        intro value consumed read
        simp only [Dtb.readRegsLoop, Inquiry.eval_pure, Except.ok.injEq] at read
        rw [← read]
        rfl
    | succ cells ih =>
        intro value consumed read
        unfold Dtb.readRegsLoop at read
        simp only [Inquiry.eval_bind, bind_eq_ok, eval_checkedAdd_eq_ok] at read
        obtain ⟨_, -, _, -, _, -, _, ⟨-, rfl⟩, rest⟩ := read
        have later := ih _ _ rest
        omega
  have whole := loop 0 0 read
  omega

/-- Cells which were read are there. -/
theorem holds_of_readRegs {cells : Nat} {result : Nat × Nat} (some : 0 < cells)
    (read : (Dtb.readRegs address cells).eval memory.answer = .ok result) :
    4 * cells < 2 ^ 64 ∧
      ∃ bytes, memory.Holds .struct address bytes ∧ bytes.length = 4 * cells := by
  have loop : ∀ value consumed,
      (Dtb.readRegsLoop address cells value consumed).eval memory.answer = .ok result →
        consumed + 4 * cells < 2 ^ 64 ∧
          ∃ bytes, memory.Holds .struct (address + consumed) bytes ∧ bytes.length = 4 * cells := by
    clear read
    induction cells with
    | zero => omega
    | succ cells ih =>
        intro value consumed read
        unfold Dtb.readRegsLoop at read
        simp only [Inquiry.eval_bind, bind_eq_ok, eval_checkedAdd_eq_ok] at read
        obtain ⟨_, ⟨-, rfl⟩, _, word, _, -, _, ⟨fits, rfl⟩, rest⟩ := read
        obtain ⟨first, holds, four, -⟩ := eval_readU32FromPtr_eq_ok.mp word
        rcases Nat.eq_zero_or_pos cells with rfl | more
        · exact ⟨by omega, first, holds, by omega⟩
        · obtain ⟨short, later, laterHolds, length⟩ := ih more _ _ rest
          refine ⟨by omega, first ++ later, ?_, by rw [List.length_append]; omega⟩
          rw [← Nat.add_assoc, ← four] at laterHolds
          exact Memory.holds_append.mpr ⟨holds, laterHolds⟩
  obtain ⟨short, bytes, holds, length⟩ := loop 0 0 read
  exact ⟨by omega, bytes, holds, length⟩

end Regs
end Rpi5.DeviceTree
