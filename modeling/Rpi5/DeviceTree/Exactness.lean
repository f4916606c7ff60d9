import Mathlib.Logic.Relation
import Rpi5.DeviceTree.Translation

/-!
# Numbers of more than two cells

`read_reg_internal` refuses cells which do not fit a `usize`. `read_round_internal` has
no such check, and `read_regs` shifts the high cells out. So the numbers of an entry are
exact or refused exactly if all three counts are at most 2 (`rangesExact_iff`).
-/

namespace Rpi5.DeviceTree

open Rpi5.Logical Rpi5.Semantics

/-- A number is the one all its cells encode. -/
def Memory.Encodes (memory : Memory) (address cells number : Nat) : Prop :=
  ∃ bytes, bytes.length = 4 * cells ∧ (0 < cells → memory.Holds .struct address bytes) ∧
    number = beNat bytes

namespace SimpleDeviceNode

/-- The counts of cells of an entry of `ranges`. -/
def rangeCells (node : SimpleDeviceNode) : List Nat :=
  node.addressCells :: node.sizeCells :: (node.parent.map addressCells).toList

/-- The numbers of every entry of `reg` are exact, or refused. -/
structure RegExact (memory : Memory) (node : SimpleDeviceNode) : Prop where
  exact : ∀ parent start len offset address size, node.parent = some parent →
    node.reg = some (start, len) →
    (node.readRegInternal offset).eval memory.answer = .ok (some (address, size)) →
      memory.Encodes (start + offset) parent.addressCells address ∧
        memory.Encodes (start + offset + 4 * parent.addressCells) parent.sizeCells size
  refused : ∀ parent place offset, node.parent = some parent → node.reg = some place →
    (2 < parent.addressCells ∨ 2 < parent.sizeCells) →
      Refused ((node.readRegInternal offset).eval memory.answer)

/-- The numbers of the entry of `ranges` are exact, or refused. -/
structure RangesExact (memory : Memory) (node : SimpleDeviceNode) : Prop where
  exact : ∀ parent start child place len, node.parent = some parent → node.ranges = some start →
    node.readRoundInternal.eval memory.answer = .ok (some (child, place, len)) →
      memory.Encodes start node.addressCells child ∧
        memory.Encodes (start + 4 * node.addressCells) parent.addressCells place ∧
        memory.Encodes (start + 4 * node.addressCells + 4 * parent.addressCells) node.sizeCells len
  refused : node.ranges.isSome → (∃ count ∈ node.rangeCells, 2 < count) →
    Refused (node.readRoundInternal.eval memory.answer)

/-- A node is another one or below it. -/
def Under : SimpleDeviceNode → SimpleDeviceNode → Prop :=
  Relation.ReflTransGen fun lower upper => lower.parent = some upper

end SimpleDeviceNode

section Reading

variable {memory : Memory} {node : SimpleDeviceNode} {address cells : Nat}

/-- At most two cells are read exactly. -/
theorem encodes_of_readRegs {result : Nat × Nat} (few : cells ≤ 2)
    (read : (Dtb.readRegs address cells).eval memory.answer = .ok result) :
    memory.Encodes address cells result.1 := by
  rcases Nat.eq_zero_or_pos cells with rfl | some
  · cases read
    exact ⟨[], rfl, by omega, rfl⟩
  · obtain ⟨short, bytes, holds, length⟩ := holds_of_readRegs some read
    rw [eval_readRegs holds length short] at read
    cases read
    have small : beNat bytes < 2 ^ 64 := by
      calc beNat bytes < 256 ^ bytes.length := beNat_lt bytes
        _ ≤ 256 ^ 8 := Nat.pow_le_pow_right (by decide) (by omega)
        _ = 2 ^ 64 := by decide
    exact ⟨bytes, length, fun _ => holds, Nat.mod_eq_of_lt small⟩

/-- The reader of `reg` is exact, or refuses. -/
theorem regExact (memory : Memory) (node : SimpleDeviceNode) : node.RegExact memory where
  exact parent start len offset address size above given read := by
    unfold SimpleDeviceNode.readRegInternal at read
    simp only [given, above] at read
    by_cases wide : parent.addressCells > 2 ∨ parent.sizeCells > 2
    · rw [if_pos wide] at read
      cases read
    · rw [if_neg wide] at read
      obtain ⟨fewAddress, fewSize⟩ := not_or.mp wide
      simp only [Inquiry.eval_bind, bind_eq_ok, eval_checkedAdd_eq_ok] at read
      obtain ⟨_, ⟨-, rfl⟩, first, readAddress, _, ⟨-, rfl⟩, second, readSize, done⟩ := read
      cases done
      have consumed := consumed_of_readRegs readAddress
      rw [consumed] at readSize
      exact ⟨encodes_of_readRegs (by omega) readAddress, encodes_of_readRegs (by omega) readSize⟩
  refused parent place offset above given wide := by
    obtain ⟨start, len⟩ := place
    unfold SimpleDeviceNode.readRegInternal
    simp only [given, above]
    rw [if_pos wide]
    exact ⟨_, rfl⟩

/-- The reader of `ranges` is exact where no number has more than two cells. -/
theorem encodes_of_ranges {parent : SimpleDeviceNode} {start child place len : Nat}
    (above : node.parent = some parent) (given : node.ranges = some start)
    (few : ∀ count ∈ node.rangeCells, count ≤ 2)
    (read : node.readRoundInternal.eval memory.answer = .ok (some (child, place, len))) :
    memory.Encodes start node.addressCells child ∧
      memory.Encodes (start + 4 * node.addressCells) parent.addressCells place ∧
      memory.Encodes (start + 4 * node.addressCells + 4 * parent.addressCells) node.sizeCells len := by
  have own : node.addressCells ≤ 2 := few _ (by simp [SimpleDeviceNode.rangeCells])
  have size : node.sizeCells ≤ 2 := few _ (by simp [SimpleDeviceNode.rangeCells])
  have upper : parent.addressCells ≤ 2 := few _ (by simp [SimpleDeviceNode.rangeCells, above])
  unfold SimpleDeviceNode.readRoundInternal at read
  simp only [given, above, Inquiry.eval_bind, bind_eq_ok, eval_checkedAdd_eq_ok] at read
  obtain ⟨first, readChild, _, ⟨-, rfl⟩, second, readParent, _, ⟨-, rfl⟩, third, readLen, done⟩ := read
  cases done
  have childEnd := consumed_of_readRegs readChild
  have parentEnd := consumed_of_readRegs readParent
  rw [childEnd] at readParent readLen
  rw [parentEnd] at readLen
  exact ⟨encodes_of_readRegs own readChild, encodes_of_readRegs upper readParent,
    encodes_of_readRegs size readLen⟩

/-- The reader of `ranges` is exact, or refuses, exactly if no number has more than two
cells. -/
theorem rangesExact_iff : node.RangesExact memory ↔
    (node.ranges.isSome → ∀ count ∈ node.rangeCells, count ≤ 2) := by
  constructor
  · intro exact given count member
    by_contra wide
    have refused := exact.refused given ⟨count, member, Nat.lt_of_not_le wide⟩
    exact onlyPanics_readRoundInternal.not_refused refused
  · intro few
    refine ⟨?_, ?_⟩
    · intro parent start child place len above given read
      exact encodes_of_ranges above given (few (by simp [given])) read
    · rintro given ⟨count, member, wide⟩
      exact absurd (few given count member) (Nat.not_le.mpr wide)

/-- All numbers which take part in the windows of a node are exact, or refused, exactly if
no number of an entry of its `ranges` or of those of its ancestors has more than two
cells. -/
theorem numbers_exact_iff (memory : Memory) (node : SimpleDeviceNode) :
    (node.RegExact memory ∧ ∀ upper, node.Under upper → upper.RangesExact memory) ↔
      ∀ upper, node.Under upper → upper.ranges.isSome → ∀ count ∈ upper.rangeCells, count ≤ 2 := by
  constructor
  · rintro ⟨-, exact⟩ upper above
    exact rangesExact_iff.mp (exact upper above)
  · intro few
    exact ⟨regExact memory node, fun upper above => rangesExact_iff.mpr (few upper above)⟩

end Reading

section ThreeCells

/-- A bus mapped beyond the addresses of a `usize`, at 0x10000000000008000. -/
def wideBus : NodeToken := axiNode
  [oneCell, .prop (.known .ranges
    (be32 0x1000 ++ (be32 1 ++ be32 0 ++ be32 0x8000) ++ be32 0x1000) (by decide))]

def wideBoard : StructBlock :=
  { uartBoard with
    root := rootNode [.prop (.known .addressCells (be32 3) (by decide))]
    children := .node wideBus
      (.node (uartNode [pl011, .prop (.known .reg (be32 0x1800 ++ be32 0x200) (by decide))]) .nil .nil)
      .nil }

def wideImage : Image :=
  .assemble 0x80000 wideBoard.encode knownNames (by decide +kernel) (by decide +kernel)

/-- The image holds the board. -/
theorem wideImage_serialises : Serialises wideImage.blob.whole wideImage.parser wideBoard := by
  apply known_serialises
  simp [wideBoard, wideBus, axiNode, uartBoard, rootNode, uartNode, oneCell, pl011,
    TokenForest.IsKnown, NodeToken.IsKnown, PropToken.isKnown_known]

/-- The bus as the walk finds it. -/
def wideNode : SimpleDeviceNode := ⟨some ⟨none, 3, 1, none, none⟩, 1, 1, none, some 0x80064⟩

/-- The UART below it. -/
def wideUart : SimpleDeviceNode := ⟨some wideNode, 2, 1, some (0x800a4, 8), none⟩

/-- The UART is reported at an address which lacks the high cell. -/
theorem wideImage_truncates :
    Serialises wideImage.blob.whole wideImage.parser wideBoard ∧
      wideBus.device.rangeEntry wideBoard.root.device
        (be32 0x1000 ++ (be32 1 ++ be32 0 ++ be32 0x8000) ++ be32 0x1000) =
          ⟨0x1000, 0x10000000000008000, 0x1000⟩ ∧
      wideNode.readRoundInternal.eval wideImage.blob.whole.answer =
        .ok (some (0x1000, 0x8000, 0x1000)) ∧
      (wideImage.blob.whole.report 20 wideUart).output = [(0x8800, 0x200)] ∧
      wideImage.Returns none (some "pl011") .always (.ok ()) [(0x8800, 0x200)] ∧
      ¬ (wideUart.RegExact wideImage.blob.whole ∧
        ∀ upper, wideUart.Under upper → upper.RangesExact wideImage.blob.whole) := by
  refine ⟨wideImage_serialises, by decide, by decide +kernel, by decide +kernel,
    ⟨by decide, 20, by decide +kernel⟩, ?_⟩
  rintro ⟨-, exact⟩
  have refused := (exact wideNode (.single rfl)).refused rfl ⟨3, by decide, by decide⟩
  exact onlyPanics_readRoundInternal.not_refused refused

end ThreeCells
end Rpi5.DeviceTree
