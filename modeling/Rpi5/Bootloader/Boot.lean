import Rpi5.Bootloader.Main
import Rpi5.DeviceTree.Correctness

/-!
# The search for the debug UART

Before `main` accesses any register it searches the device tree, and takes the first address
the search reports. What the search comes to is a matter of the device tree alone. On a
conforming tree it is the start of the first window of the first UART in document order.
-/

namespace Rpi5.Bootloader

open Rpi5.Logical Rpi5.Semantics Rpi5.DeviceTree

section Search

variable (tock : TockRegisters) (fuel : Nat) {answer : Request → Option Bytes}
  {respond : List Contact → Contact → BitVec 64}

/-- Making a UART accesses nothing. -/
theorem new_within (address : Nat) : Dialogue.Within (fun _ => True) (fun _ => False)
    (fun _ => True) (Pl011Uart.new address) := by
  unfold Pl011Uart.new
  split
  · exact .done
  · exact .stop trivial

/-- Neither does the search for the debug UART. -/
theorem findDebugUart_within : Dialogue.Within (fun _ => True) (fun _ => False) (fun _ => True)
    (findDebugUart fuel) := by
  have parsed {α : Type} (program : Walking α) :
      Dialogue.Within (fun _ => True) (fun _ => False) (fun _ => True) (parsing program) :=
    Dialogue.absorb_within (.trivial (debug program)) (fun _ _ => trivial) none
  refine (parsed _).bind fun (dtb, _) => (parsed _).bind fun (_, cell) => ?_
  cases cell with
  | none => exact .stop trivial
  | some address => exact (new_within address).bind fun _ => .done

/-- What the search for the debug UART comes to, which no hardware has a say in. -/
def located (answer : Request → Option Bytes) : Except (Halt Request Abort) Nat :=
  ((findDebugUart fuel).exec answer (fun _ _ => 0) []).1

/-- `main` stops before it accesses anything, or it starts with an address. -/
theorem exec_main : (main tock fuel).exec answer respond [] =
    match located fuel answer with
    | .ok address => (start tock fuel address).exec answer respond []
    | .error halt => (.error halt, []) := by
  have found : (findDebugUart fuel).exec answer respond [] = (located fuel answer, []) :=
    (findDebugUart_within fuel).exec_eq _ _ _
  unfold main
  rw [Dialogue.exec_bind, found]
  cases located fuel answer <;> rfl

variable {tock fuel}

/-- Behind a search which has found an address the start goes on with it. -/
theorem exec_main_of_ok {address : Nat} (found : located fuel answer = .ok address) :
    (main tock fuel).exec answer respond [] = (start tock fuel address).exec answer respond [] := by
  rw [exec_main, found]

/-- A search which fails is the end of `main`. -/
theorem exec_main_of_error {halt : Halt Request Abort} (failed : located fuel answer = .error halt) :
    (main tock fuel).exec answer respond [] = (.error halt, []) := by
  rw [exec_main, failed]

end Search

section Tree

variable {image : Image} {block : StructBlock} {fuel : Nat}

/-- The closure of `main` lets the search go on. -/
theorem listener_setOnce : Dialogue.listener setOnce none = Callback.always := rfl

/-- The cell of `main` keeps the first address. -/
theorem absorbed_setOnce (calls : List Window) :
    Dialogue.absorbed setOnce none calls = calls.head?.map Prod.fst := by
  have kept : ∀ (rest : List Window) (address : Nat),
      Dialogue.absorbed setOnce (some address) rest = some address := by
    intro rest address
    induction rest with
    | nil => rfl
    | cons window rest ih => exact ih
  cases calls with
  | nil => rfl
  | cons window rest => exact kept rest window.1

/-- The search makes no contact of its own, and hands on the first window it has reported. -/
theorem exec_parsing {α : Type} {answer : Request → Option Bytes}
    {respond : List Contact → Contact → BitVec 64} (program : Walking α) (calls : List Contact) :
    (parsing program).exec answer respond calls =
      match (debug program).exec answer Callback.always [] with
      | (.ok value, made) => (.ok (value, made.head?.map Prod.fst), calls)
      | (.error halt, _) => (.error (halt.map .ofStop), calls) := by
  have run := Dialogue.exec_absorb setOnce Abort.ofStop none (debug program) [] answer respond calls
  rw [listener_setOnce] at run
  rcases ended : (debug program).exec answer Callback.always [] with ⟨halt | value, made⟩
  · rw [ended] at run
    exact run
  · rw [ended] at run
    dsimp only at run
    rw [absorbed_setOnce made] at run
    exact run

/-- The header is where its pointer is valid. -/
theorem debug_init (image : Image) (placed : image.blob.base = dtbAddress) :
    (debug (liftM (DtbParser.init dtbAddress) : Walking DtbParser)).exec image.blob.whole.answer
      Callback.always [] = (.ok image.parser, []) := by
  have loaded := image.loaded
  rw [placed] at loaded
  refine Dialogue.exec_checked_eq_ok.mpr ⟨?_, fun request member => ?_⟩
  · rw [Inquiry.exec_liftM, loaded]
  · have only : request = .header dtbAddress := (init_meets dtbAddress).lift.of_asked member
    rw [only]
    rfl

/-- In a loaded image the search comes to the first address which `find_node` reports, if that
can be the address of registers. -/
theorem located_image (placed : image.blob.base = dtbAddress) :
    located fuel image.blob.whole.answer =
      match image.debugRun none (some "arm,pl011") .always fuel with
      | (.ok _, first :: _) =>
          if ValidRegisters first.1 then .ok first.1 else .error (.stopped .panic)
      | (.ok _, []) => .error (.stopped .panic)
      | (.error halt, _) => .error (halt.map .ofStop) := by
  unfold located findDebugUart Image.debugRun
  rw [Dialogue.exec_bind, exec_parsing, debug_init image placed]
  dsimp only
  rw [Dialogue.exec_bind, exec_parsing]
  rcases (debug (image.parser.findNode none (some "arm,pl011") fuel)).exec image.blob.whole.answer
    Callback.always [] with ⟨halt | value, calls⟩
  · rfl
  · cases calls with
    | nil => rfl
    | cons first others =>
        change ((Pl011Uart.new first.1 >>= fun uart => .done uart.registers).exec
          image.blob.whole.answer (fun _ _ => 0) []).1 = _
        unfold Pl011Uart.new
        dsimp only
        split <;> rfl

/-- A search leaves `main` without a debug UART: it fails, or reports nothing, or its first window
cannot be that of registers. -/
def NoDebugUart (result : Except Failure Unit) (calls : List Window) : Prop :=
  (∃ reason, result = .error (.stopped reason)) ∨
    result = .ok () ∧ ∀ window ∈ calls.head?, ¬ ValidRegisters window.1

/-- Then `main` has nothing to start with. -/
theorem located_of_noDebugUart {result : Except Failure Unit} {calls : List Window}
    (placed : image.blob.base = dtbAddress)
    (run : image.debugRun none (some "arm,pl011") .always fuel = (result, calls))
    (whole : result ≠ Image.cut) (fails : NoDebugUart result calls) :
    located fuel image.blob.whole.answer = .error (.stopped .panic) := by
  rw [located_image placed, run]
  rcases fails with ⟨reason, rfl⟩ | ⟨rfl, invalid⟩
  · cases reason with
    | outOfFuel => exact absurd rfl whole
    | err | overflow | unwrapNone | invalidPointer => rfl
  · cases calls with
    | nil => rfl
    | cons first others => exact if_neg (invalid first rfl)

/-- If it does not fail otherwise, `main` starts with the first window. -/
theorem located_of_found {calls : List Window} (placed : image.blob.base = dtbAddress)
    (run : image.debugRun none (some "arm,pl011") .always fuel = (.ok (), calls))
    (found : ¬ NoDebugUart (.ok ()) calls) :
    ∃ first others, calls = first :: others ∧ ValidRegisters first.1 ∧
      located fuel image.blob.whole.answer = .ok first.1 := by
  cases calls with
  | nil => exact absurd (.inr ⟨rfl, nofun⟩) found
  | cons first others =>
      have valid : ValidRegisters first.1 := by
        by_contra invalid
        refine found (.inr ⟨rfl, ?_⟩)
        rintro window ⟨⟩
        exact invalid
      refine ⟨first, others, rfl, valid, ?_⟩
      rw [located_image placed, run]
      exact if_pos valid

/-- On a conforming tree with a UART the search comes to the first window which the first
one with any has. -/
theorem located_of_tree (placed : image.blob.base = dtbAddress)
    (offset : 4 ∣ image.parser.dtbHeader.header.offDtStruct)
    (serial : Serialises image.blob.whole image.parser block) (untrailed : block.trailing = 0)
    (conforming : block.tree.Conforming none (some "arm,pl011")) {first : Window}
    {others : List Window} (reported : (block.tree.matching none (some "arm,pl011")).flatMap
      reportedWindows = first :: others) (valid : ValidRegisters first.1) :
    ∃ enough, ∀ fuel ≥ enough, located fuel image.blob.whole.answer = .ok first.1 := by
  have aligned : image.Aligned := ⟨by rw [placed]; decide, offset⟩
  have reports := @Emission.each_of_ok Lineage Window Failure Unit lineageReport reportedWindows
    (block.tree.matching none (some "arm,pl011"))
    (fun lineage member => lineageReport_of_reportable (conforming.matching lineage member))
    (.ofExcept (.ok ()))
  rw [reported] at reports
  refine ⟨image.blob.whole.stepBound, fun fuel enough => ?_⟩
  have emits := Image.emission_of_tree serial conforming.wellFormed (.inr ⟨rfl, rfl⟩) enough
  rw [located_image placed, Image.debugRun_eq aligned, Image.run_always, emits, if_pos untrailed,
    Tree.emission, reports]
  exact if_pos valid

end Tree

section PiBoard

/-- The debug UART, behind the bus `socBus`. -/
def piUart : NodeToken := uartNode
  [.prop (.known .compatible (utf8 "arm,pl011" ++ [0]) (by decide)),
    .prop (.known .reg (be32 0x7d001000 ++ be32 0x200) (by decide))]

/-- A board with this UART. -/
def piBoard : StructBlock where
  leading := 0
  root := rootNode []
  children := .node socBus (.node piUart .nil .nil) .nil
  trailing := 0

def piImage : Image :=
  .assemble dtbAddress piBoard.encode knownNames (by decide +kernel) (by decide +kernel)

/-- The image holds the board. -/
theorem piImage_serialises : Serialises piImage.blob.whole piImage.parser piBoard := by
  apply known_serialises
  simp [piBoard, socBus, piUart, rootNode, uartNode, oneCell, TokenForest.IsKnown,
    NodeToken.IsKnown, PropToken.isKnown_known]

/-- The board conforms. -/
theorem piBoard_conforming : piBoard.tree.Conforming none (some "arm,pl011") := by
  refine ⟨⟨⟨by decide, ?_⟩, ⟨⟨by decide, ?_⟩, ⟨⟨by decide, ?_⟩, trivial, trivial⟩, trivial⟩,
    trivial⟩, ?_⟩
  · intro property member
    cases member
  · intro property member
    rcases List.mem_cons.mp member with rfl | member
    · exact (rfl : (be32 1).length = 4)
    · rcases List.mem_singleton.mp member with rfl
      exact List.cons_ne_nil _ _
  · intro property member
    rcases List.mem_cons.mp member with rfl | member
    · exact ⟨["arm,pl011"], by decide, by decide⟩
    · rcases List.mem_singleton.mp member with rfl
      exact ⟨_, rfl, by decide⟩
  · decide +kernel

/-- So the address of its UART is found. -/
theorem piImage_located : located 30 piImage.blob.whole.answer = .ok 0x107d001000 := by
  decide +kernel

end PiBoard
end Rpi5.Bootloader
