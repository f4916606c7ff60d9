import Rpi5.DeviceTree.Alignment
import Rpi5.Semantics.Checked

/-!
# Checked pointers

The parser dereferences raw pointers. A debug build looks at each of them first and panics
if it is null or not aligned for its type. The header, the header of a property and a cell
need a multiple of four; a token is an array of bytes, and a string is read byte by byte.
Everything is behind the header, so that only the pointer to the header can be null.

`debug` puts these checks into a program. In a blob at a multiple of four, with its structure
block at a multiple of four, every pointer of a search passes, and the search is the same
with and without checks (`Image.debugRun_eq`).
-/

namespace Rpi5.DeviceTree

open Rpi5.Logical Rpi5.Semantics

/-- The pointer of a read passes the check of the debug build. -/
def Request.isValid : Request → Bool
  | .header address => address ≠ 0 ∧ address % 4 = 0
  | .token _ => true
  | .property address => address % 4 = 0
  | .word address => address % 4 = 0
  | .text _ _ => true

/-- A program with the checks of the debug build. -/
abbrev debug {W B α : Type} (program : Dialogue Request Bytes W B Stop α) :
    Dialogue Request Bytes W B Stop α :=
  program.checked Request.isValid .invalidPointer

/-- On a grid which starts at a multiple of four every pointer passes. -/
theorem Request.isValid_of_onGrid {request : Request} {start : Nat} (here : request.OnGrid start)
    (whole : 4 ∣ start) : request.isValid := by
  cases request with
  | header => exact here.elim
  | token | text => rfl
  | property | word => exact decide_eq_true (Nat.mod_eq_zero_of_dvd (OnGrid.aligned here whole))

/-- The parser is made from the header alone. -/
theorem init_meets (base : Nat) : Dialogue.Meets (⟨(· = .header base), fun _ => True⟩ :
    Contract Request Stop) (fun _ => True) (DtbParser.init base) := by
  have read : Dialogue.Meets (⟨(· = .header base), fun _ => True⟩ : Contract Request Stop)
      (fun _ => True) (ask (.header base)) := .ask rfl fun _ => .done trivial
  have loaded : Dialogue.Meets (⟨(· = .header base), fun _ => True⟩ : Contract Request Stop)
      (fun _ => True) (Dtb.new base) := by
    unfold Dtb.new
    refine read.bind fun bytes _ => ?_
    dsimp only
    split
    · exact .stop trivial
    · split
      · exact .stop trivial
      · exact .done trivial
  exact loaded.bind fun _ _ => .done trivial

namespace Image

variable (image : Image) (deviceName compatibleName : Option String) (callback : Callback)
  (fuel : Nat)

/-- A run of `find_node` in the debug build. -/
def debugRun : Except Failure Unit × List Window :=
  (debug (image.parser.findNode deviceName compatibleName fuel)).exec image.blob.whole.answer
    callback []

/-- In the debug build `find_node` stops after finitely many steps with this result and these
calls. -/
def DebugReturns (result : Except Failure Unit) (calls : List Window) : Prop :=
  result ≠ cut ∧ ∃ fuel, image.debugRun deviceName compatibleName callback fuel = (result, calls)

/-- The blob and its structure block are at multiples of four. -/
structure Aligned : Prop where
  base : 4 ∣ image.blob.base
  offset : 4 ∣ image.parser.dtbHeader.header.offDtStruct

instance : Decidable image.Aligned :=
  decidable_of_iff (4 ∣ image.blob.base ∧ 4 ∣ image.parser.dtbHeader.header.offDtStruct)
    ⟨fun both => ⟨both.1, both.2⟩, fun aligned => ⟨aligned.base, aligned.offset⟩⟩

variable {image deviceName compatibleName callback fuel} {result : Except Failure Unit}
  {calls : List Window}

/-- So the structure block starts at a multiple of four. -/
theorem Aligned.structStart (aligned : image.Aligned) : 4 ∣ image.parser.structStart := by
  unfold DtbParser.structStart
  rw [address_of_init image.loaded]
  exact Nat.dvd_add aligned.base aligned.offset

/-- No pointer of a search in such a blob is refused. -/
theorem Aligned.isValid (aligned : image.Aligned) :
    ∀ request ∈ image.asked deviceName compatibleName callback fuel, request.isValid :=
  fun _ member => Request.isValid_of_onGrid
    ((walks_findNode image.parser deviceName compatibleName fuel).of_asked member)
    aligned.structStart

/-- There the debug build runs like any other. -/
theorem debugRun_eq (aligned : image.Aligned) :
    image.debugRun deviceName compatibleName callback fuel =
      image.run deviceName compatibleName callback fuel :=
  Dialogue.exec_checked_of_asked aligned.isValid

/-- And returns the same. -/
theorem debugReturns_iff (aligned : image.Aligned) :
    image.DebugReturns deviceName compatibleName callback result calls ↔
      image.Returns deviceName compatibleName callback result calls := by
  simp only [DebugReturns, Returns, debugRun_eq aligned]

/-- Once a search returns in the debug build, it does so with every larger bound. -/
theorem DebugReturns.eventually
    (returned : image.DebugReturns deviceName compatibleName callback result calls) :
    ∃ enough, ∀ fuel ≥ enough,
      image.debugRun deviceName compatibleName callback fuel = (result, calls) := by
  obtain ⟨whole, enough, run⟩ := returned
  refine ⟨enough, fun fuel large => ?_⟩
  rcases (findNode_extends large).checked.exec image.blob.whole.answer callback [] with same | cut
  · exact same.symm.trans run
  · have ended : (image.debugRun deviceName compatibleName callback enough).1 = Image.cut := cut.1
    rw [run] at ended
    exact absurd ended whole

/-- With any bound such a search returns this result, or is cut. -/
theorem DebugReturns.or_cut
    (returned : image.DebugReturns deviceName compatibleName callback result calls) (fuel : Nat) :
    image.debugRun deviceName compatibleName callback fuel = (result, calls) ∨
      (image.debugRun deviceName compatibleName callback fuel).1 = cut := by
  obtain ⟨enough, runs⟩ := returned.eventually
  have grows : Dialogue.Extends .outOfFuel
      (image.parser.findNode deviceName compatibleName fuel)
      (image.parser.findNode deviceName compatibleName (max fuel enough)) :=
    findNode_extends (Nat.le_max_left _ _)
  rcases grows.checked.exec image.blob.whole.answer callback [] with same | cut
  · exact .inl (same.trans (runs _ (Nat.le_max_right _ _)))
  · exact .inr cut.1

/-- A search has at most one result in the debug build. -/
theorem DebugReturns.unique {other : Except Failure Unit} {otherCalls : List Window}
    (one : image.DebugReturns deviceName compatibleName callback result calls)
    (two : image.DebugReturns deviceName compatibleName callback other otherCalls) :
    result = other ∧ calls = otherCalls := by
  obtain ⟨enough, first⟩ := one.eventually
  obtain ⟨enough', second⟩ := two.eventually
  have same := first (max enough enough') (Nat.le_max_left _ _)
  rw [second (max enough enough') (Nat.le_max_right _ _)] at same
  exact ⟨(Prod.mk.inj same).1.symm, (Prod.mk.inj same).2.symm⟩

end Image
end Rpi5.DeviceTree
