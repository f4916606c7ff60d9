import Rpi5.Logical.Bytes
import Rpi5.Semantics.Dialogue

/-!
# The blob in memory

A device tree blob is a byte sequence at a base address. The parser reads it
through raw pointers, so every read is a `Request` naming an address. A `Memory`
is what can be seen of the blob, usually all of it, and `Memory.answer` resolves a
request if its extent can be seen. A read outside has no answer and ends the run.

Numbers are natural numbers with the checks of a build with overflow checks: an
arithmetic overflow stops the run.
-/

namespace Rpi5.DeviceTree

open Rpi5.Logical Rpi5.Semantics

/-- The two blocks of the blob in which strings are read. -/
inductive Block where
  | struct
  | strings
deriving DecidableEq, Repr

/-- The raw reads of the parser. -/
inductive Request where
  /-- The `FtdHeader` at the start of the blob. -/
  | header (address : Nat)
  /-- A token, read as a byte array. -/
  | token (address : Nat)
  /-- A dereferenced `FdtProperty`. -/
  | property (address : Nat)
  /-- A dereferenced `u32`. -/
  | word (address : Nat)
  /-- A NUL-terminated string, meant to lie in the given block. -/
  | text (block : Block) (address : Nat)
deriving DecidableEq, Repr

/-- Why the code stops without a result. -/
inductive Stop where
  /-- `Err` with its message. -/
  | err (message : String)
  /-- Panic on an arithmetic overflow. -/
  | overflow
  /-- Panic of `Option::unwrap` on `None`. -/
  | unwrapNone
  /-- Panic of the debug build on a pointer which is null or not aligned. -/
  | invalidPointer
  /-- The bound on the number of steps was too small. -/
  | outOfFuel
deriving DecidableEq, Repr

/-- Code which only reads the blob. -/
abbrev Reading (α : Type) := Inquiry Request Bytes Stop α

/-- Why a run has no value: the code stopped, or it read outside the blob. -/
abbrev Failure := Halt Request Stop

/-- Return `Err`. -/
def err {α : Type} (message : String) : Reading α := .stop (.err message)

/-- A message is the error of the run. -/
@[simp] theorem eval_err {α : Type} {answer : Request → Option Bytes} (message : String) :
    Inquiry.eval answer (err message : Reading α) = .error (.stopped (.err message)) := rfl

/-- Put one request. -/
def ask (request : Request) : Reading Bytes := .ask request .done

/-- A question has its answer as value, or is unanswered. -/
@[simp] theorem eval_ask {answer : Request → Option Bytes} (request : Request) :
    Inquiry.eval answer (ask request) =
      match answer request with
      | some bytes => .ok bytes
      | none => .error (.unanswered request) := by
  unfold ask
  simp only [Inquiry.eval]
  cases answer request <;> rfl

section Arithmetic

/-- Addition in an unsigned type of the given width. -/
def checkedAdd (width first second : Nat) : Reading Nat :=
  if first + second < 2 ^ width then pure (first + second) else .stop .overflow

/-- Multiplication in an unsigned type of the given width. -/
def checkedMul (width first second : Nat) : Reading Nat :=
  if first * second < 2 ^ width then pure (first * second) else .stop .overflow

/-- Subtraction in an unsigned type. -/
def checkedSub (first second : Nat) : Reading Nat :=
  if second ≤ first then pure (first - second) else .stop .overflow

/-- `next_multiple_of` of an unsigned type of the given width. -/
def nextMultipleOf (width value factor : Nat) : Reading Nat :=
  if value % factor = 0 then pure value else checkedAdd width value (factor - value % factor)

variable {answer : Request → Option Bytes} {width first second result : Nat}

/-- A sum is a value if it fits into the width. -/
theorem eval_checkedAdd_eq_ok :
    Inquiry.eval answer (checkedAdd width first second) = .ok result ↔
      first + second < 2 ^ width ∧ first + second = result := by
  unfold checkedAdd
  split <;> simp_all

/-- A sum which fits is the value. -/
theorem eval_checkedAdd (fits : first + second < 2 ^ width) :
    Inquiry.eval answer (checkedAdd width first second) = .ok (first + second) :=
  eval_checkedAdd_eq_ok.mpr ⟨fits, rfl⟩

/-- One which does not overflows. -/
theorem eval_checkedAdd_overflow (overflow : 2 ^ width ≤ first + second) :
    Inquiry.eval answer (checkedAdd width first second) = .error (.stopped .overflow) := by
  unfold checkedAdd
  rw [if_neg (Nat.not_lt.mpr overflow), Inquiry.eval_stop]

/-- A product is a value if it fits. -/
theorem eval_checkedMul_eq_ok :
    Inquiry.eval answer (checkedMul width first second) = .ok result ↔
      first * second < 2 ^ width ∧ first * second = result := by
  unfold checkedMul
  split <;> simp_all

/-- A difference is a value if it is not negative. -/
theorem eval_checkedSub_eq_ok :
    Inquiry.eval answer (checkedSub first second) = .ok result ↔
      second ≤ first ∧ first - second = result := by
  unfold checkedSub
  split <;> simp_all

/-- One which is not negative is the value. -/
theorem eval_checkedSub (ordered : second ≤ first) :
    Inquiry.eval answer (checkedSub first second) = .ok (first - second) :=
  eval_checkedSub_eq_ok.mpr ⟨ordered, rfl⟩

/-- One which is overflows. -/
theorem eval_checkedSub_overflow (overflow : first < second) :
    Inquiry.eval answer (checkedSub first second) = .error (.stopped .overflow) := by
  unfold checkedSub
  rw [if_neg (Nat.not_le.mpr overflow), Inquiry.eval_stop]

/-- Rounding up to a multiple of four adds the padding, if the result fits. -/
theorem eval_nextMultipleOf_eq_ok :
    Inquiry.eval answer (nextMultipleOf width first 4) = .ok result ↔
      (padLength first = 0 ∨ first + padLength first < 2 ^ width) ∧
        first + padLength first = result := by
  unfold nextMultipleOf
  split
  · have none : padLength first = 0 := by unfold padLength; omega
    simp [none]
  · have some : padLength first = 4 - first % 4 := by unfold padLength; omega
    have positive : padLength first ≠ 0 := by unfold padLength; omega
    rw [eval_checkedAdd_eq_ok, ← some]
    simp [positive]

end Arithmetic

/-- A blob at its place in the address space. -/
structure Blob where
  base : Nat
  bytes : Bytes
  addressable : base + bytes.length ≤ 2 ^ 64

namespace Blob

/-- The first address after the blob. -/
def limit (blob : Blob) : Nat := blob.base + blob.bytes.length

/-- The bytes from an address on. -/
def tail (blob : Blob) (address : Nat) : Bytes := blob.bytes.drop (address - blob.base)

/-- Further on there is less left. -/
theorem tail_add {blob : Blob} {address size : Nat} (inside : blob.base ≤ address) :
    blob.tail (address + size) = (blob.tail address).drop size := by
  unfold tail
  rw [List.drop_drop]
  congr 1
  omega

end Blob

/-- What a run can see of a blob: for each block a range of addresses. -/
structure Memory where
  blob : Blob
  low : Block → Nat
  high : Block → Nat
  base_le : ∀ block, blob.base ≤ low block
  le_limit : ∀ block, high block ≤ blob.limit

/-- The whole blob, for both blocks. -/
def Blob.whole (blob : Blob) : Memory where
  blob := blob
  low _ := blob.base
  high _ := blob.limit
  base_le _ := Nat.le_refl _
  le_limit _ := Nat.le_refl _

namespace Memory

/-- A read of a fixed number of bytes. -/
def read (memory : Memory) (block : Block) (address size : Nat) : Option Bytes :=
  if memory.low block ≤ address ∧ address + size ≤ memory.high block then
    some ((memory.blob.tail address).take size)
  else none

/-- A read of a string, up to its first NUL. -/
def readText (memory : Memory) (block : Block) (address : Nat) : Option Bytes :=
  match cstring (memory.blob.tail address) with
  | some text =>
      if memory.low block ≤ address ∧ address + (text.length + 1) ≤ memory.high block then some text
      else none
  | none => none

/-- How the reads of the parser are answered. -/
def answer (memory : Memory) : Request → Option Bytes
  | .header address => memory.read .struct address 40
  | .token address => memory.read .struct address 4
  | .property address => memory.read .struct address 8
  | .word address => memory.read .struct address 4
  | .text block address => memory.readText block address

/-- The given bytes can be seen at the given address. -/
def Holds (memory : Memory) (block : Block) (address : Nat) (bytes : Bytes) : Prop :=
  memory.low block ≤ address ∧ address + bytes.length ≤ memory.high block ∧
    bytes <+: memory.blob.tail address

variable {memory : Memory} {block : Block} {address size : Nat} {first second bytes text : Bytes}

/-- What memory holds ends inside the address space. -/
theorem Holds.addressable (holds : memory.Holds block address bytes) :
    address + bytes.length ≤ 2 ^ 64 :=
  (holds.2.1.trans (memory.le_limit block)).trans memory.blob.addressable

/-- Two parts are held one behind the other. -/
theorem holds_append :
    memory.Holds block address (first ++ second) ↔
      memory.Holds block address first ∧ memory.Holds block (address + first.length) second := by
  unfold Holds
  rw [List.length_append]
  have base := memory.base_le block
  constructor
  · rintro ⟨above, below, rest, split⟩
    have inside : memory.blob.base ≤ address := by omega
    refine ⟨⟨above, by omega, second ++ rest, by rw [← split, List.append_assoc]⟩,
      by omega, by omega, rest, ?_⟩
    rw [Blob.tail_add inside, ← split, List.append_assoc, List.drop_left]
  · rintro ⟨⟨above, -, rest, split⟩, -, below, later, after⟩
    have inside : memory.blob.base ≤ address := by omega
    refine ⟨above, by omega, later, ?_⟩
    rw [Blob.tail_add inside, ← split, List.drop_left] at after
    rw [← split, ← after, List.append_assoc]

/-- What is read is held, and has the size asked for. -/
theorem read_eq_some :
    memory.read block address size = some bytes ↔
      memory.Holds block address bytes ∧ bytes.length = size := by
  unfold read Holds
  have base := memory.base_le block
  have limit := memory.le_limit block
  constructor
  · intro found
    split at found
    case isFalse => cases found
    case isTrue inside =>
      simp only [Option.some.injEq] at found
      subst found
      have size : ((memory.blob.tail address).take size).length = size := by
        unfold Blob.limit at limit
        simp only [Blob.tail, List.length_take, List.length_drop]
        omega
      exact ⟨⟨inside.1, by omega, List.take_prefix _ _⟩, size⟩
  · rintro ⟨⟨above, below, present⟩, rfl⟩
    rw [if_pos ⟨above, below⟩, Option.some.injEq]
    exact (List.prefix_iff_eq_take.mp present).symm

/-- A text which is read is held with its NUL, and contains none. -/
theorem readText_eq_some :
    memory.readText block address = some text ↔
      0 ∉ text ∧ memory.Holds block address (text ++ [0]) := by
  unfold readText Holds
  constructor
  · intro found
    split at found
    case h_2 => cases found
    case h_1 other terminated =>
      split at found
      case isFalse => cases found
      case isTrue inside =>
        simp only [Option.some.injEq] at found
        subst found
        obtain ⟨free, rest, split⟩ := cstring_eq_some_iff.mp terminated
        refine ⟨free, inside.1, by simpa using inside.2, rest, ?_⟩
        rw [split, List.append_assoc]
        rfl
  · rintro ⟨free, above, below, rest, split⟩
    have terminated : cstring (memory.blob.tail address) = some text :=
      cstring_eq_some_iff.mpr ⟨free, rest, by rw [← split, List.append_assoc]; rfl⟩
    rw [terminated]
    exact if_pos ⟨above, by simpa using below⟩

/-- What can be seen in a part of what is seen of a blob can be seen in the whole. -/
theorem answer_mono {narrow wide : Memory} (same : narrow.blob = wide.blob)
    (low : ∀ block, wide.low block ≤ narrow.low block)
    (high : ∀ block, narrow.high block ≤ wide.high block) {request : Request}
    (found : narrow.answer request = some bytes) : wide.answer request = some bytes := by
  have holds : ∀ {block address bytes}, narrow.Holds block address bytes →
      wide.Holds block address bytes := by
    rintro block address bytes ⟨above, below, rest⟩
    exact ⟨(low block).trans above, below.trans (high block), by rwa [← same]⟩
  cases request with
  | header | token | property | word =>
      obtain ⟨seen, size⟩ := read_eq_some.mp found
      exact read_eq_some.mpr ⟨holds seen, size⟩
  | text block address =>
      obtain ⟨free, seen⟩ := readText_eq_some.mp found
      exact readText_eq_some.mpr ⟨free, holds seen⟩

end Memory
end Rpi5.DeviceTree
