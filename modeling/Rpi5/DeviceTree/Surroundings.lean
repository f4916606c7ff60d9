import Mathlib.Data.List.Infix
import Rpi5.DeviceTree.Position
import Rpi5.Semantics.Embedding

/-!
# What lies around a blob

A blob is loaded into a memory with other contents around it. A blob inside a larger one
answers the same reads, so that a search which stays inside the blob finds in memory what
is in the blob. What is around the blob does not matter to such a search, nor where it is, as
long as the checks of pointers see no difference (`search_local`).
-/

namespace Rpi5.DeviceTree

open Rpi5.Logical Rpi5.Semantics

/-- All of a memory of some size as one blob. -/
def ram (memory : BitVec 64 → UInt8) (size : Nat) (small : size ≤ 2 ^ 64) : Blob where
  base := 0
  bytes := (List.range size).map fun address => memory (BitVec.ofNat 64 address)
  addressable := by
    rwa [List.length_map, List.length_range, Nat.zero_add]

namespace Blob

/-- The bytes of a blob stand in memory at its addresses. -/
def Loaded (blob : Blob) (memory : BitVec 64 → UInt8) : Prop :=
  ∀ index (within : index < blob.bytes.length),
    memory (BitVec.ofNat 64 (blob.base + index)) = blob.bytes[index]

/-- A blob is a part of another one. -/
def Inside (blob large : Blob) : Prop :=
  large.base ≤ blob.base ∧ blob.limit ≤ large.limit ∧ blob.bytes <+: large.tail blob.base

variable {blob large : Blob}

/-- A blob which is loaded is inside the memory of the machine. -/
theorem Loaded.inside {memory : BitVec 64 → UInt8} (loaded : blob.Loaded memory) {size : Nat}
    (small : size ≤ 2 ^ 64) (room : blob.limit ≤ size) : blob.Inside (ram memory size small) := by
  have length : (ram memory size small).bytes.length = size := by
    rw [ram, List.length_map, List.length_range]
  have limit : (ram memory size small).limit = size := by
    rw [Blob.limit, length, ram, Nat.zero_add]
  refine ⟨Nat.zero_le _, room.trans (Nat.le_of_eq limit.symm), List.prefix_iff_eq_take.mpr ?_⟩
  have fits : blob.base + blob.bytes.length ≤ size := room
  apply List.ext_getElem
  · rw [List.length_take, tail, List.length_drop, length, ram]
    omega
  · intro index within _
    rw [List.getElem_take, ← loaded index within]
    simp [tail, ram]

/-- What is held by a part is held by the whole. -/
theorem Inside.holds (inside : blob.Inside large) {block : Block} {address : Nat} {bytes : Bytes}
    (holds : blob.whole.Holds block address bytes) : large.whole.Holds block address bytes := by
  obtain ⟨base, limit, part⟩ := inside
  obtain ⟨above, below, rest⟩ := holds
  have wholeBelow : address + bytes.length ≤ blob.limit := below
  refine ⟨base.trans above, wholeBelow.trans limit, rest.trans ?_⟩
  have later : blob.base + (address - blob.base) = address := Nat.add_sub_cancel' above
  change blob.bytes.drop (address - blob.base) <+: large.tail address
  rw [← later, tail_add base, Nat.add_sub_cancel_left]
  exact part.drop _

/-- What a blob answers the memory around it does too. -/
theorem Inside.answer (inside : blob.Inside large) {request : Request} {bytes : Bytes}
    (found : blob.whole.answer request = some bytes) : large.whole.answer request = some bytes := by
  cases request with
  | header | token | property | word =>
      obtain ⟨seen, size⟩ := Memory.read_eq_some.mp found
      exact Memory.read_eq_some.mpr ⟨inside.holds seen, size⟩
  | text block address =>
      obtain ⟨free, seen⟩ := Memory.readText_eq_some.mp found
      exact Memory.readText_eq_some.mpr ⟨free, inside.holds seen⟩

end Blob
section Local

variable {blob large : Blob} {deviceName compatibleName : Option String} {callback : Callback}
  {fuel : Nat}

/-- A search which stays inside a blob is the same in every memory around it. -/
theorem searchAt_of_inside (inside : blob.Inside large)
    (stays : ∀ request, (blob.searchAt blob.base deviceName compatibleName callback fuel).1 ≠
      .error (.unanswered request)) :
    large.searchAt blob.base deviceName compatibleName callback fuel =
      blob.searchAt blob.base deviceName compatibleName callback fuel :=
  Dialogue.exec_eq_of_narrower (fun _ _ => inside.answer) stays

variable {other around : Blob}

/-- A search which stays inside its blob depends on the bytes of the blob alone: not on where they
are, up to the checks of pointers, and not on what is around them. -/
theorem search_local (same : other.bytes = blob.bytes) (congruent : blob.Congruent other)
    (inside : blob.Inside large) (inside' : other.Inside around) (clear : blob.Clear) (clear' : other.Clear)
    (stays : ∀ request, (blob.searchAt blob.base deviceName compatibleName callback fuel).1 ≠
      .error (.unanswered request)) :
    around.searchAt other.base deviceName compatibleName callback fuel =
      large.searchAt blob.base deviceName compatibleName callback fuel := by
  obtain ⟨calls, ended⟩ :=
    searchAt_ended same congruent clear clear' deviceName compatibleName callback fuel
  have equal : (other.searchAt other.base deviceName compatibleName callback fuel).1 =
      (blob.searchAt blob.base deviceName compatibleName callback fuel).1 := by
    revert ended stays
    generalize (blob.searchAt blob.base deviceName compatibleName callback fuel).1 = ending
    generalize (other.searchAt other.base deviceName compatibleName callback fuel).1 = ending'
    intro stays ended
    cases ended with
    | value => rfl
    | stopped => rfl
    | unanswered => exact absurd rfl (stays _)
  have there : ∀ request, (other.searchAt other.base deviceName compatibleName callback fuel).1 ≠
      .error (.unanswered request) := by
    rwa [equal]
  rw [searchAt_of_inside inside stays, searchAt_of_inside inside' there]
  exact Prod.ext equal calls

end Local

/-- A blob with other bytes before and behind it. -/
def Blob.among (blob : Blob) (before behind : Bytes) (low : before.length ≤ blob.base)
    (room : blob.limit + behind.length ≤ 2 ^ 64) : Blob where
  base := blob.base - before.length
  bytes := before ++ (blob.bytes ++ behind)
  addressable := by
    unfold Blob.limit at room
    simp only [List.length_append]
    omega

/-- A blob is inside the bytes around it. -/
theorem Blob.inside_among {blob : Blob} {before behind : Bytes} (low : before.length ≤ blob.base)
    (room : blob.limit + behind.length ≤ 2 ^ 64) :
    blob.Inside (blob.among before behind low room) := by
  have start : blob.base - (blob.base - before.length) = before.length := Nat.sub_sub_self low
  refine ⟨Nat.sub_le _ _, ?_, ?_⟩
  · unfold Blob.limit Blob.among
    simp only [List.length_append]
    omega
  · unfold Blob.tail Blob.among
    rw [start, List.drop_left]
    exact List.prefix_append _ _

/-- A memory with a board with a UART. -/
def lowMemory : Blob :=
  uartImage.blob.among [0xd0, 0x0d] [0x00] (by decide +kernel) (by decide +kernel)

/-- Another memory with the same board. -/
def highMemory : Blob := uartAbove.among [] [0xfe, 0xed] (by decide +kernel) (by decide +kernel)

/-- The same search in another memory, at the address which corresponds. -/
theorem highMemory_found :
    lowMemory.searchAt uartImage.blob.base none (some "pl011") .always 20 =
        (.ok (), [(0x1000, 0x200)]) ∧
      highMemory.searchAt uartAbove.base none (some "pl011") .always 20 =
        lowMemory.searchAt uartImage.blob.base none (some "pl011") .always 20 := by
  have found : uartImage.blob.searchAt uartImage.blob.base none (some "pl011") .always 20 =
      (.ok (), [(0x1000, 0x200)]) := by
    decide +kernel
  constructor
  · decide +kernel
  · refine @search_local uartImage.blob lowMemory none (some "pl011") .always 20 uartAbove highMemory
      rfl (by decide) (Blob.inside_among _ _) (Blob.inside_among _ _) (by decide +kernel)
      (by decide +kernel) ?_
    intro request
    rw [found]
    nofun

end Rpi5.DeviceTree
