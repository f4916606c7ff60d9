import Rpi5.DeviceTree.Assembly
import Rpi5.DeviceTree.Visits

/-!
# Reads and the two blocks

The header gives a structure block and a strings block inside the blob. Only `skip_nop`
compares an address with the end of a block; every other read relies on the blob. So a search
keeps to its blocks exactly if whatever it comes to is complete there: the tokens with their
names and property headers, the strings and cells of the values it looks into, and the entries
of `reg` and `ranges` of the nodes it reports (`Image.keepsToBlocks_iff`). There is no check
which would turn a missing part into an `Err` instead.
-/

namespace Rpi5.DeviceTree

open Rpi5.Logical Rpi5.Semantics

namespace Image

/-- The two blocks the header gives, as far as they lie in the blob. -/
def blocks (image : Image) : Memory where
  blob := image.blob
  low
    | .struct => max image.blob.base image.parser.structStart
    | .strings => max image.blob.base image.parser.stringStart
  high
    | .struct => min image.blob.limit image.parser.structEnd
    | .strings => min image.blob.limit image.parser.stringEnd
  base_le block := by cases block <;> exact Nat.le_max_left _ _
  le_limit block := by cases block <;> exact Nat.min_le_left _ _

/-- Every byte of a read lies in the block it belongs to. -/
def Inside (image : Image) (request : Request) : Prop := (image.blocks.answer request).isSome

variable (image : Image) (deviceName compatibleName : Option String) (callback : Callback)

/-- A run which can see nothing of the blob but its two blocks. -/
def confinedRun (fuel : Nat) : Except Failure Unit × List Window :=
  (debug (image.parser.findNode deviceName compatibleName fuel)).exec image.blocks.answer
    callback []

/-- A search reads nothing outside its blocks, and one which would have to returns `Err`. -/
structure KeepsToBlocks : Prop where
  inside : ∀ fuel, ∀ request ∈ image.debugAsked deviceName compatibleName callback fuel,
    image.Inside request
  refuses : ∀ fuel request, (image.confinedRun deviceName compatibleName callback fuel).1 =
      .error (.unanswered request) →
    ∃ message calls, image.DebugReturns deviceName compatibleName callback
      (.error (.stopped (.err message))) calls

variable {image deviceName compatibleName callback}

/-- What can be read in the blocks can be read in the blob. -/
theorem answer_of_blocks {request : Request} {given : Bytes}
    (found : image.blocks.answer request = some given) :
    image.blob.whole.answer request = some given := by
  refine @Memory.answer_mono given image.blocks image.blob.whole rfl (fun block => ?_)
    (fun block => ?_) request found
  · cases block <;> exact Nat.le_max_left _ _
  · cases block <;> exact Nat.min_le_left _ _

/-- The reads of a run are inside exactly if it lacks nothing which it cannot see. -/
theorem inside_iff_confined (fuel : Nat) :
    (∀ request ∈ image.debugAsked deviceName compatibleName callback fuel,
        image.Inside request) ↔
      ∀ request, (image.confinedRun deviceName compatibleName callback fuel).1 ≠
        .error (.unanswered request) :=
  Dialogue.restricted_iff _ [] fun _ _ => answer_of_blocks

/-- A search keeps to its blocks exactly if every stage it comes to is complete in them. -/
theorem keepsToBlocks_iff :
    image.KeepsToBlocks deviceName compatibleName callback ↔
      ∀ stage calls, image.ComesTo deviceName compatibleName callback stage calls →
        image.StageFits image.Inside deviceName compatibleName stage := by
  rw [← asks_findNode_iff]
  constructor
  · exact KeepsToBlocks.inside
  · intro inside
    refine ⟨inside, fun fuel request lacks => ?_⟩
    exact absurd lacks ((inside_iff_confined fuel).mp (inside fuel) request)

/-- One run which is not cut, and reads nothing outside, is enough. -/
theorem keepsToBlocks_of_run {enough : Nat}
    (whole : (image.debugRun deviceName compatibleName callback enough).1 ≠ cut)
    (inside : ∀ request ∈ image.debugAsked deviceName compatibleName callback enough,
      image.Inside request) :
    image.KeepsToBlocks deviceName compatibleName callback :=
  keepsToBlocks_iff.mpr <| asks_findNode_iff.mp fun _ request member =>
    inside request (mem_debugAsked whole member)

/-- The reads of a search for one UART are in its blocks. -/
example : uartImage.KeepsToBlocks none (some "pl011") .always :=
  @keepsToBlocks_of_run uartImage none (some "pl011") .always 20 (by decide +kernel)
    (List.all_eq_true.mp (by decide +kernel : (uartImage.debugAsked none (some "pl011") .always 20).all
      (fun request => (uartImage.blocks.answer request).isSome) = true))

end Image

section Truncated

/-- The header of a structure block which ends one word too early. -/
def cutHeader : FtdHeader :=
  { headerFor uartBoard.encode.length knownNames.length with
    sizeDtStruct := uartBoard.encode.length - 4 }

/-- The board with one UART, with its `FDT_END` behind the end of its structure block. -/
def cutImage : Image where
  blob :=
    { base := 0x80000
      bytes := cutHeader.encode 0 ++ (uartBoard.encode ++ knownNames)
      addressable := by decide +kernel }
  parser := ⟨⟨0x80000, cutHeader⟩⟩
  loaded := by decide +kernel

/-- The search of the truncated structure block reads its `FDT_END` outside, and succeeds. -/
theorem cutImage_reads_outside :
    cutImage.parser.structEnd ≤ cutImage.blob.limit ∧
      cutImage.parser.stringEnd ≤ cutImage.blob.limit ∧
      .token cutImage.parser.structEnd ∈ cutImage.debugAsked none (some "pl011") .always 20 ∧
      cutImage.DebugReturns none (some "pl011") .always (.ok ()) [(0x1000, 0x200)] ∧
      ¬ cutImage.KeepsToBlocks none (some "pl011") .always := by
  have asked : .token cutImage.parser.structEnd ∈
      cutImage.debugAsked none (some "pl011") .always 20 := by decide +kernel
  have outside : ¬ cutImage.Inside (.token cutImage.parser.structEnd) := by
    unfold Image.Inside
    decide +kernel
  refine ⟨by decide +kernel, by decide +kernel, asked, ⟨nofun, 20, by decide +kernel⟩, ?_⟩
  exact fun keeps => outside (keeps.inside 20 _ asked)

end Truncated

end Rpi5.DeviceTree
