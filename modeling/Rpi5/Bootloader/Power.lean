import Rpi5.Bootloader.Pacing
import Rpi5.Bootloader.Startup
import Rpi5.DeviceTree.Surroundings

/-!
# From power on

The firmware leaves a device tree in memory and enters the start-up code. That code clears a
part of memory below the stack, and what `main` reads afterwards is memory and no longer a blob
of its own. It still holds the tree, so that `main` finds there what was in the tree.
-/

namespace Rpi5.Bootloader

open Rpi5.Logical Rpi5.Semantics Rpi5.Semantics.A64 Rpi5.DeviceTree StateTransition

/-- The search finds in memory what it finds in a blob which is loaded there. -/
theorem located_of_loaded {blob : Blob} {memory : BitVec 64 → UInt8} (loaded : blob.Loaded memory)
    {size : Nat} (small : size ≤ 2 ^ 64) (room : blob.limit ≤ size) {fuel address : Nat}
    (found : located fuel blob.whole.answer = .ok address) :
    located fuel (ram memory size small).whole.answer = .ok address := by
  unfold located at found ⊢
  have run : (findDebugUart fuel).exec blob.whole.answer (fun _ _ => 0) [] =
      (.ok address, ((findDebugUart fuel).exec blob.whole.answer (fun _ _ => 0) []).2) :=
    Prod.ext found rfl
  rw [Dialogue.exec_of_narrower (fun _ _ => (loaded.inside small room).answer) run]

/-- The start-up code leaves what is above the stack alone. -/
theorem loaded_of_entered {blob : Blob} {initial final : Machine} {kernel : Kernel}
    (fits : kernel.bss.stop ≤ 0x4000000) (above : 0x4000000 ≤ blob.base)
    (memory : ∀ address : BitVec 64, final.memory address =
      if kernel.bss.start ≤ address.toNat ∧ address.toNat < kernel.bss.stop then 0
      else initial.memory address) (loaded : blob.Loaded initial.memory) :
    blob.Loaded final.memory := by
  intro index within
  have room := blob.addressable
  have place : (BitVec.ofNat 64 (blob.base + index)).toNat = blob.base + index := by
    rw [BitVec.toNat_ofNat, Nat.mod_eq_of_lt (by omega)]
  rw [memory, place, if_neg (by omega)]
  exact loaded index within

/-- From power on: with a kernel whose `.bss` ends below its stack, and a conforming tree in an
aligned blob where the firmware leaves it, `main` is entered, finds its UART in memory, and
then neither panics nor returns. -/
theorem runs_from_power (objects : Objects)
    (below : objects.kernel.bss.stop ≤ objects.kernel.stackTop)
    (power : objects.boot.power ≤ 21) (entry : Nat) {initial : Machine}
    (at' : initial.pc = 0x200000) {image : Image} {block : StructBlock}
    (placed : image.blob.base = dtbAddress) (loaded : image.blob.Loaded initial.memory)
    (offset : 4 ∣ image.parser.dtbHeader.header.offDtStruct)
    (serial : Serialises image.blob.whole image.parser block) (untrailed : block.trailing = 0)
    (conforming : block.tree.Conforming none (some "arm,pl011")) {first : Window}
    {others : List Window} (reported : (block.tree.matching none (some "arm,pl011")).flatMap
      reportedWindows = first :: others) (valid : ValidRegisters first.1) {size : Nat} (small : size ≤ 2 ^ 64)
    (room : image.blob.limit ≤ size) (tock : TockRegisters) :
    ∃ final, Reaches (starting (objects.kernel.symbols entry)) initial final ∧
      final.pc = BitVec.ofNat 64 entry ∧ final.sp = 0x4000000 ∧
      ∃ enough, ∀ fuel ≥ enough,
        located fuel (ram final.memory size small).whole.answer = .ok first.1 ∧
        ∀ board : Board, board.frequency ≠ 0 → ∃ history,
          (main tock fuel).exec (ram final.memory size small).whole.answer board.respond [] =
            (.error (.stopped .limit), history) := by
  obtain ⟨final, reached, entered, stack, memory⟩ := entered_of_link objects below power entry at'
  have still : image.blob.Loaded final.memory :=
    loaded_of_entered below (by rw [placed]; decide) memory loaded
  obtain ⟨enough, found⟩ :=
    located_of_tree placed offset serial untrailed conforming reported valid
  refine ⟨final, reached, entered, stack, enough, fun fuel large => ?_⟩
  have here := located_of_loaded still small room (found fuel large)
  exact ⟨here, fun board running => main_calm tock here running⟩

/-- A memory which holds a blob, and zeros elsewhere. -/
def memoryOf (blob : Blob) (address : BitVec 64) : UInt8 :=
  if blob.base ≤ address.toNat then (blob.bytes[address.toNat - blob.base]?).getD 0 else 0

/-- A blob is loaded in the memory made of it. -/
theorem loaded_memoryOf (blob : Blob) : blob.Loaded (memoryOf blob) := by
  intro index within
  have room := blob.addressable
  have place : (BitVec.ofNat 64 (blob.base + index)).toNat = blob.base + index := by
    rw [BitVec.toNat_ofNat, Nat.mod_eq_of_lt (by omega)]
  rw [memoryOf, place, if_pos (Nat.le_add_right _ _), Nat.add_sub_cancel_left,
    List.getElem?_eq_getElem within, Option.getD_some]

/-- The board with one debug UART does. -/
theorem piImage_runs_from_power : ∃ final,
    Reaches (starting (fewSections.kernel.symbols 0x200100))
      ⟨fun _ => 0, 0, false, 0x200000, memoryOf piImage.blob⟩ final ∧
      final.pc = 0x200100 ∧ final.sp = 0x4000000 ∧
      ∃ enough, ∀ fuel ≥ enough,
        located fuel (ram final.memory piImage.blob.limit piImage.blob.addressable).whole.answer =
          .ok 0x107d001000 ∧
        ∀ board : Board, board.frequency ≠ 0 → ∃ history,
          (main tockRegisters fuel).exec
              (ram final.memory piImage.blob.limit piImage.blob.addressable).whole.answer
              board.respond [] =
            (.error (.stopped .limit), history) := by
  have reported : (piBoard.tree.matching none (some "arm,pl011")).flatMap reportedWindows =
      [(0x107d001000, 0x200)] := by
    decide +kernel
  exact runs_from_power fewSections (by decide) (by decide) 0x200100 rfl rfl (loaded_memoryOf _)
    (by decide) piImage_serialises rfl piBoard_conforming reported (by decide)
    piImage.blob.addressable (Nat.le_refl _) tockRegisters

end Rpi5.Bootloader
