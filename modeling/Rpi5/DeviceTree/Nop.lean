import Rpi5.DeviceTree.Assembly
import Rpi5.DeviceTree.Reports
import Rpi5.DeviceTree.Steps

/-!
# `FDT_NOP` tokens

`bare` takes all `FDT_NOP` tokens out of a structure block; two blocks with the
same bare block differ by inserted tokens only. The walk skips them everywhere
except between the root and `FDT_END`, where `find_node` fails: two such blocks
give the same searches exactly if both have tokens there or none, or the search
fails before it comes there (`nop_transparent_iff`).
-/

namespace Rpi5.DeviceTree

open Rpi5.Logical Rpi5.Semantics

section Bare

def PropItem.isProp : PropItem → Bool
  | .nop => false
  | .prop _ => true

def NodeToken.bare (head : NodeToken) : NodeToken where
  name := head.name
  padding := head.padding
  items := head.items.filter PropItem.isProp
  nulFree := head.nulFree
  padded := head.padded

def TokenForest.bare : TokenForest → TokenForest
  | .nil => .nil
  | .nop rest => rest.bare
  | .node head children rest => .node head.bare children.bare rest.bare

/-- The block without its `FDT_NOP` tokens. -/
def StructBlock.bare (block : StructBlock) : StructBlock where
  leading := 0
  root := block.root.bare
  children := block.children.bare
  trailing := 0

/-- Without its `FDT_NOP` items a head is of the same device. -/
@[simp] theorem NodeToken.device_bare (head : NodeToken) : head.bare.device = head.device := by
  have same : (head.items.filter PropItem.isProp).filterMap PropItem.property? =
      head.items.filterMap PropItem.property? := by
    rw [List.filterMap_filter]
    congr 1
    funext item
    cases item <;> rfl
  simp only [device, bare, same]

/-- Without them a forest is of the same devices. -/
@[simp] theorem TokenForest.forest_bare (forest : TokenForest) :
    forest.bare.forest = forest.forest := by
  induction forest with
  | nil => rfl
  | nop rest ih => exact ih
  | node head children rest childrenSame restSame =>
      simp only [bare, TokenForest.forest, NodeToken.device_bare, childrenSame, restSame]

/-- `FDT_NOP` tokens say nothing about the tree. -/
@[simp] theorem StructBlock.tree_bare (block : StructBlock) : block.bare.tree = block.tree := by
  simp only [tree, bare, NodeToken.device_bare, TokenForest.forest_bare]

end Bare

namespace Image

variable {image other : Image} {block inserted : StructBlock}
  {deviceName compatibleName : Option String}

/-- Two blobs which differ by `FDT_NOP` tokens give the same searches exactly if
both have such tokens in front of `FDT_END` or neither has, or if the search fails at
a matching node. -/
theorem nop_transparent_iff (serial : Serialises image.blob.whole image.parser block)
    (serial' : Serialises other.blob.whole other.parser inserted)
    (same : block.bare = inserted.bare)
    (wellFormed : block.tree.WellFormed deviceName compatibleName) :
    (∀ callback result calls, image.Returns deviceName compatibleName callback result calls ↔
        other.Returns deviceName compatibleName callback result calls) ↔
      (OneName deviceName compatibleName → (block.trailing = 0 ↔ inserted.trailing = 0) ∨
        ∃ lineage ∈ block.tree.matching deviceName compatibleName,
          (lineageReport lineage).ending ≠ .ok ()) := by
  have sameTree : block.tree = inserted.tree := by
    rw [← block.tree_bare, same, inserted.tree_bare]
  have wellFormed' := sameTree ▸ wellFormed
  have whole : ∀ count : Nat,
      (if count = 0 then .ok () else .error parseIncomplete : Except Failure Unit) ≠ cut := by
    intro count
    split <;> decide
  constructor
  · intro equal one
    by_contra differ
    simp only [not_or, not_exists, not_and, not_not] at differ
    obtain ⟨differ, fine⟩ := differ
    -- All reports end well, so each search ends with its check for `FDT_END`.
    have reports := fun last => @Emission.each_of_ok Lineage Window Failure Unit lineageReport
      (fun lineage => (lineageReport lineage).output)
      (block.tree.matching deviceName compatibleName)
      (fun lineage member => Emission.ext rfl (fine lineage member)) last
    have first := emission_of_tree serial wellFormed one (Nat.le_refl _)
    have second := emission_of_tree serial' wellFormed' one (Nat.le_refl _)
    rw [Tree.emission, reports] at first
    rw [← sameTree, Tree.emission, reports] at second
    have results := @emission_eq_of_returns image deviceName compatibleName
      image.blob.whole.stepBound other.blob.whole.stepBound other
      (by rw [first]; exact whole block.trailing) (by rw [second]; exact whole inserted.trailing)
      (equal .always)
    rw [first, second] at results
    apply differ
    have endings : (if block.trailing = 0 then .ok () else .error parseIncomplete :
        Except Failure Unit) = if inserted.trailing = 0 then .ok () else .error parseIncomplete :=
      congrArg Emission.ending results
    by_cases left : block.trailing = 0 <;> by_cases right : inserted.trailing = 0 <;>
      simp_all
  · intro condition callback result calls
    apply @returns_congr image deviceName compatibleName callback result calls other
      (max image.blob.whole.stepBound other.blob.whole.stepBound)
    intro fuel large
    by_cases one : OneName deviceName compatibleName
    · rw [emission_of_tree serial wellFormed one ((Nat.le_max_left _ _).trans large),
        emission_of_tree serial' wellFormed' one ((Nat.le_max_right _ _).trans large), ← sameTree]
      rcases condition one with agree | ⟨lineage, member, failed⟩
      · simp only [agree]
      · exact Emission.each_of_error member failed _ _
    · exact (emission_of_no_name one).trans (emission_of_no_name one).symm

end Image

section TrailingNop

/-- The board with one UART, with a `FDT_NOP` before its root and one after it. -/
def noppedBoard : StructBlock := { uartBoard with leading := 1, trailing := 1 }

def noppedImage : Image :=
  .assemble 0x80000 noppedBoard.encode knownNames (by decide) (by decide)

/-- The image holds the board. -/
theorem noppedImage_serialises :
    Serialises noppedImage.blob.whole noppedImage.parser noppedBoard := by
  apply known_serialises
  simp [noppedBoard, uartBoard, rootNode, uartNode, oneCell, pl011, uartReg, TokenForest.IsKnown,
    NodeToken.IsKnown, PropToken.isKnown_known]

/-- The board without `FDT_NOP` tokens is well formed. -/
theorem uartBoard_wellFormed : uartBoard.tree.WellFormed none (some "pl011") :=
  ⟨by decide +kernel, by decide +kernel, by decide +kernel⟩

/-- The inserted tokens make a search fail which succeeded before. -/
theorem noppedImage_differs :
    Serialises uartImage.blob.whole uartImage.parser uartBoard ∧
      Serialises noppedImage.blob.whole noppedImage.parser noppedBoard ∧
      uartBoard.bare = noppedBoard.bare ∧ uartBoard.tree.WellFormed none (some "pl011") ∧
      uartImage.Returns none (some "pl011") .always (.ok ()) [(0x1000, 0x200)] ∧
      noppedImage.Returns none (some "pl011") .always (.error parseIncomplete)
        [(0x1000, 0x200)] := by
  refine ⟨uartImage_serialises, noppedImage_serialises, rfl, uartBoard_wellFormed,
    ⟨by decide, 20, ?_⟩, ⟨by decide, 20, ?_⟩⟩
  · decide +kernel
  · decide +kernel

/-- The two images behave alike exactly if the condition holds of them. -/
theorem noppedImage_iff :
    (∀ callback result calls, uartImage.Returns none (some "pl011") callback result calls ↔
        noppedImage.Returns none (some "pl011") callback result calls) ↔
      (OneName none (some "pl011") → (uartBoard.trailing = 0 ↔ noppedBoard.trailing = 0) ∨
        ∃ lineage ∈ uartBoard.tree.matching none (some "pl011"),
          (lineageReport lineage).ending ≠ .ok ()) :=
  Image.nop_transparent_iff uartImage_serialises noppedImage_serialises rfl uartBoard_wellFormed

end TrailingNop
end Rpi5.DeviceTree
