import Rpi5.DeviceTree.Grammar
import Rpi5.DeviceTree.Pointers

/-!
# What the debug build accepts

The grammar of the structure block says nothing about where the block is. The debug build
checks the pointer to each property, so that it accepts the grammar only where these
pointers are aligned: in a blob at a multiple of four, with its structure block at a multiple
of four (`Image.accepts_iff_grammar`). Two bytes further on it panics at the first property
(`shiftedImage_panics`).
-/

namespace Rpi5.DeviceTree

open Rpi5.Logical Rpi5.Semantics

namespace Image

variable {image : Image} {name : String} {callback : Callback}

/-- In an aligned blob, a search for a `compatible` name which no node has returns `Ok` exactly
if the structure block is one of the grammar, with accepted properties and nothing between
the root and `FDT_END`. -/
theorem accepts_iff_grammar (aligned : image.Aligned)
    (unmatched : ∀ block : StructBlock, Serialises image.blob.whole image.parser block →
      block.tree.Accepted none (some name) → block.tree.matching none (some name) = []) :
    (∃ calls, image.DebugReturns none (some name) callback (.ok ()) calls) ↔
      ∃ block : StructBlock, Serialises image.blob.whole image.parser block ∧
        block.trailing = 0 ∧ block.tree.Accepted none (some name) := by
  simp only [debugReturns_iff aligned]
  exact returns_iff_grammar image name callback unmatched

/-- A search whose scan finds nothing matches in no block which the blob serialises. -/
theorem unmatched_of_scan (empty : (image.blob.whole.scan
      (image.search none (some name) image.blob.whole.stepBound)).output.length = 0)
    (block : StructBlock) (serial : Serialises image.blob.whole image.parser block)
    (accepted : block.tree.Accepted none (some name)) :
    block.tree.matching none (some name) = [] := by
  obtain ⟨nodes, _, scan, agree, -, -⟩ := @scan_of_block image.blob.whole
    (image.search none (some name) image.blob.whole.stepBound) block serial accepted
    (Nat.le_refl _)
  rw [scan, List.length_eq_zero_iff] at empty
  cases empty
  exact List.forall₂_nil_left_iff.mp agree

end Image

/-- The board with one UART is searched for a device which it does not have. -/
theorem uartImage_accepts_iff :
    (∃ calls, uartImage.DebugReturns none (some "ns16550") .always (.ok ()) calls) ↔
      ∃ block : StructBlock, Serialises uartImage.blob.whole uartImage.parser block ∧
        block.trailing = 0 ∧ block.tree.Accepted none (some "ns16550") :=
  Image.accepts_iff_grammar (by decide) (Image.unmatched_of_scan (by decide +kernel))

section Shifted

/-- The header of a structure block two bytes behind it. -/
def shiftedHeader (structSize stringSize : Nat) : FtdHeader :=
  { headerFor structSize stringSize with
    offDtStruct := 42
    offDtStrings := 42 + structSize }

/-- The board with one UART, two bytes behind its header. -/
def shiftedImage : Image where
  blob :=
    { base := 0x80000
      bytes := (shiftedHeader uartBoard.encode.length knownNames.length).encode 0 ++
        ([0, 0] ++ (uartBoard.encode ++ knownNames))
      addressable := by decide +kernel }
  parser := ⟨⟨0x80000, shiftedHeader uartBoard.encode.length knownNames.length⟩⟩
  loaded := by decide +kernel

/-- The names of the board are behind it. -/
theorem shiftedImage_serialises :
    Serialises shiftedImage.blob.whole shiftedImage.parser uartBoard where
  encoded := ⟨by decide +kernel, by decide +kernel, by decide +kernel⟩
  rootNamed := by
    intro token member
    simp only [uartBoard, rootNode, oneCell, List.mem_singleton, PropItem.prop.injEq] at member
    subst member
    exact ⟨by decide +kernel, by decide +kernel, by decide +kernel⟩
  named := by
    refine ⟨fun token member => ?_, trivial, trivial⟩
    simp only [uartNode, pl011, uartReg, List.mem_cons, PropItem.prop.injEq, List.not_mem_nil,
      or_false] at member
    rcases member with rfl | rfl <;>
      exact ⟨by decide +kernel, by decide +kernel, by decide +kernel⟩
  covered := by decide +kernel
  addressable := by decide +kernel

/-- The bytes are of the grammar and no node matches, but the debug build panics. -/
theorem shiftedImage_panics :
    (∀ block : StructBlock, Serialises shiftedImage.blob.whole shiftedImage.parser block →
        block.tree.Accepted none (some "ns16550") →
          block.tree.matching none (some "ns16550") = []) ∧
      shiftedImage.DebugReturns none (some "ns16550") .always
        (.error (.stopped .invalidPointer)) [] ∧
      ¬ ((∃ calls, shiftedImage.DebugReturns none (some "ns16550") .always (.ok ()) calls) ↔
        ∃ block : StructBlock, Serialises shiftedImage.blob.whole shiftedImage.parser block ∧
          block.trailing = 0 ∧ block.tree.Accepted none (some "ns16550")) := by
  have panics : shiftedImage.DebugReturns none (some "ns16550") .always
      (.error (.stopped .invalidPointer)) [] := ⟨by decide, 20, by decide +kernel⟩
  refine ⟨Image.unmatched_of_scan (by decide +kernel), panics, fun same => ?_⟩
  obtain ⟨calls, returned⟩ := same.mpr ⟨uartBoard, shiftedImage_serialises, rfl, by decide⟩
  exact absurd (panics.unique returned).1 nofun

end Shifted
end Rpi5.DeviceTree
