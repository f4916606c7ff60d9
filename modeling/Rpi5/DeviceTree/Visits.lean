import Rpi5.DeviceTree.Demands

/-!
# The stages a search comes to

In the debug build a search comes to certain stages (`Image.ComesTo`), whatever its bound is.
It puts the requests of the steps at these stages and no others, so it puts only allowed
ones exactly if each of the stages fits (`asks_findNode_iff`), and it returns what the machine
returns (`debugReturns_iff_ends`).
-/

namespace Rpi5.DeviceTree

open Rpi5.Logical Rpi5.Semantics

section Stages

variable {image : Image} {allowed : Request → Prop} {deviceName compatibleName : Option String}
  {callback : Callback} {calls : List Window}

/-- The tokens in front of the root are read only inside the structure block. -/
theorem asks_skip {search : Search} {place : Nat} (same : search.parser = image.parser) :
    image.Asks allowed (Stage.skip search place) ↔ image.StageFits allowed deviceName compatibleName
      (.leading place) := by
  unfold Stage.skip Dtb.getStructEndAddress Dtb.getStructStartAddress
  rw [same]
  simp only [asks_bind, asks_checkedAdd, true_and, finds_checkedAdd, eval_checkedAdd_eq_ok,
    finds_bind, implies_true]
  constructor
  · intro all room before
    have whole : image.parser.dtbHeader.address + image.parser.dtbHeader.header.offDtStruct +
        image.parser.dtbHeader.header.sizeDtStruct < 2 ^ 64 := room
    have inside : place < image.parser.dtbHeader.address + image.parser.dtbHeader.header.offDtStruct +
        image.parser.dtbHeader.header.sizeDtStruct := before
    have looked := all _ ⟨_, ⟨by omega, rfl⟩, whole, rfl⟩
    rw [if_pos inside, asks_bind, asks_getTypes] at looked
    exact looked.1
  · rintro fits _ ⟨_, ⟨-, rfl⟩, room, rfl⟩
    split
    case isFalse => exact (asks_pure _).mpr trivial
    case isTrue before =>
      refine asks_bind.mpr ⟨asks_getTypes.mpr (fits room before), fun token _ => ?_⟩
      cases token with
      | nop => simp only [asks_bind, asks_checkedAdd, asks_pure, implies_true, and_self]
      | _ => exact (asks_pure _).mpr trivial

/-- A node is opened by its token and its name. -/
theorem asks_enter {outer : List SimpleDeviceNode} {place : Nat} :
    image.Asks allowed (Stage.enter outer place) ↔ image.StageFits allowed deviceName compatibleName
      (.opening outer place) := by
  unfold Stage.enter
  rw [asks_bind, asks_getTypes]
  refine and_congr_right fun _ => ?_
  constructor
  · intro all token room
    have named := (asks_bind.mp (all _ token)).2 _ (by
      rw [finds_checkedAdd]
      exact eval_checkedAdd room)
    exact asks_readCharStr.mp (asks_bind.mp named).1
  · intro fits token found
    cases token with
    | beginNode =>
        simp only [asks_bind, asks_checkedAdd, asks_readCharStr, asks_nextMultipleOf, asks_pure,
          implies_true, and_true, true_and, finds_checkedAdd, eval_checkedAdd_eq_ok]
        rintro _ ⟨room, rfl⟩
        exact fits found room
    | _ => exact (asks_err _).mpr trivial

/-- A turn of the property loop reads a token, and the property behind it. -/
theorem asks_read {outer : List SimpleDeviceNode} {node : SimpleDeviceNode} {found : Bool}
    {place : Nat} :
    (∀ fuel, image.Asks allowed
        (Stage.read (image.search deviceName compatibleName fuel) outer node found place)) ↔
      image.StageFits allowed deviceName compatibleName (.properties outer node found place) := by
  unfold Stage.read
  constructor
  · intro all
    refine ⟨asks_getTypes.mp (asks_bind.mp (all 0)).1, fun token => ?_⟩
    refine (@asks_parseProp image allowed deviceName compatibleName node place token).mp fun fuel => ?_
    exact (asks_bind.mp ((asks_bind.mp (all fuel)).2 _ token)).1
  · rintro ⟨read, fits⟩ fuel
    refine asks_bind.mpr ⟨asks_getTypes.mpr read, fun token seen => ?_⟩
    cases token with
    | nop => simp only [asks_bind, asks_checkedAdd, asks_pure, implies_true, and_self]
    | prop =>
        refine asks_bind.mpr ⟨(asks_parseProp seen).mpr (fits seen) fuel, fun parsed _ => ?_⟩
        exact (asks_pure _).mpr trivial
    | beginNode | endNode => exact (asks_pure _).mpr trivial
    | fdtEnd | unknown => exact (asks_err _).mpr trivial

/-- A turn of the loop over the children reads a token. -/
theorem asks_descend {outer : List SimpleDeviceNode} {node : SimpleDeviceNode} {place : Nat} :
    image.Asks allowed (Stage.descend outer node place) ↔ allowed (.token place) := by
  unfold Stage.descend
  rw [asks_bind, asks_getTypes]
  refine and_iff_left fun token _ => ?_
  cases token with
  | nop | endNode => simp only [asks_bind, asks_checkedAdd, asks_pure, implies_true, and_self]
  | beginNode => exact (asks_pure _).mpr trivial
  | _ => exact (asks_err _).mpr trivial

/-- So does the last check. -/
theorem asks_finish {place : Nat} :
    image.Asks allowed (Stage.finish place) ↔ allowed (.token place) := by
  unfold Stage.finish DtbParser.checkEnd
  rw [asks_bind, asks_bind, asks_getTypes]
  simp only [asks_pure, implies_true, and_true]
  refine and_iff_left fun token _ => ?_
  cases token with
  | fdtEnd => exact (asks_pure _).mpr trivial
  | _ => exact (asks_err _).mpr trivial

/-- A stage which only reads puts what its reading puts. -/
theorem asked_liftM {α : Type} (reading : Reading α) :
    (debug (liftM reading : Walking α)).asked image.blob.whole.answer callback calls =
      Inquiry.questions image.blob.whole.answer (debug reading) := by
  have checks : debug (liftM reading : Walking α) = Inquiry.lift (debug reading) :=
    Inquiry.lift_checked reading
  rw [checks, Inquiry.asked_lift]

/-- And ends as its reading does. -/
theorem exec_liftM {α : Type} (reading : Reading α) :
    (debug (liftM reading : Walking α)).exec image.blob.whole.answer callback calls =
      (image.finds reading, calls) := by
  have checks : debug (liftM reading : Walking α) = Inquiry.lift (debug reading) :=
    Inquiry.lift_checked reading
  rw [checks]
  exact Inquiry.exec_lift _ _

/-- A turn of the address loop puts what the iterator puts. -/
theorem asked_report {outer : List SimpleDeviceNode} {node : SimpleDeviceNode}
    {iter : DeviceAddressIter} {place : Nat} :
    (debug (Stage.report outer node iter place)).asked image.blob.whole.answer callback calls =
      Inquiry.questions image.blob.whole.answer (debug iter.nextInternal) := by
  unfold Stage.report
  rw [debug, Dialogue.checked_bind, Dialogue.asked_bind, ← asked_liftM]
  refine (congrArg _ ?_).trans (List.append_nil _)
  split
  case h_2 => rfl
  case h_1 taken later _ =>
    rcases taken with ⟨_ | address, iter⟩
    · rfl
    · simp only [Dialogue.checked_bind, Dialogue.checked_call, Dialogue.checked_done,
        Dialogue.call_bind, Dialogue.asked]
      cases callback later address <;> rfl

/-- A stage puts only allowed requests, with every bound, exactly if it fits. -/
theorem asks_step_iff (stage : Stage) :
    (∀ fuel, ∀ request ∈ (debug (Stage.step (image.search deviceName compatibleName fuel)
        stage)).asked image.blob.whole.answer callback calls, allowed request) ↔
      image.StageFits allowed deviceName compatibleName stage := by
  unfold Stage.step
  cases stage with
  | starting =>
      refine iff_of_true (fun fuel => ?_) trivial
      rw [asked_liftM]
      change image.Asks allowed (Stage.start _)
      unfold Stage.start Dtb.getStructStartAddress
      split
      · exact (asks_err _).mpr trivial
      · simp only [asks_bind, asks_checkedAdd, asks_pure, implies_true, and_self]
  | leading place =>
      simp only [asked_liftM]
      exact (forall_congr' fun fuel => asks_skip rfl).trans (forall_const _)
  | opening outer place =>
      simp only [asked_liftM, forall_const]
      exact asks_enter
  | properties outer node found place =>
      simp only [asked_liftM]
      exact asks_read
  | reporting outer node iter place =>
      simp only [asked_report, forall_const]
      exact asks_nextInternal
  | children outer node place =>
      simp only [asked_liftM, forall_const]
      exact asks_descend
  | behind place =>
      simp only [asked_liftM, forall_const]
      exact asks_finish

end Stages

namespace Image

variable (image : Image) (deviceName compatibleName : Option String) (callback : Callback)

/-- The requests of a search in the debug build. -/
def debugAsked (fuel : Nat) : List Request :=
  (debug (image.parser.findNode deviceName compatibleName fuel)).asked image.blob.whole.answer
    callback []

/-- A step of a search in the debug build. -/
abbrev debugStep (fuel : Nat) (stage : Stage) : Walking (Stage ⊕ Unit) :=
  debug (Stage.step (image.search deviceName compatibleName fuel) stage)

/-- A search in the debug build comes to a stage, after some calls. -/
def ComesTo (stage : Stage) (calls : List Window) : Prop :=
  ∃ fuel, Dialogue.Reached image.blob.whole.answer callback
    (image.debugStep deviceName compatibleName fuel) .starting stage calls

variable {image deviceName compatibleName callback}

/-- A larger bound takes every step further. -/
theorem debugStep_extends {fuel more : Nat} (grows : fuel ≤ more) (stage : Stage) :
    Reaches (image.debugStep deviceName compatibleName fuel stage)
      (image.debugStep deviceName compatibleName more stage) :=
  (@Stage.step_extends (image.search deviceName compatibleName fuel) fuel more grows stage).checked

/-- A number of steps in the debug build. -/
theorem debug_steps (fuel bound : Nat) (stage : Stage) :
    debug (Stage.steps (image.search deviceName compatibleName fuel) bound stage) =
      Dialogue.iterate .outOfFuel (image.debugStep deviceName compatibleName fuel) bound stage :=
  Dialogue.checked_iterate _ _ _ _

/-- A search puts only allowed requests exactly if every stage fits which it comes to. -/
theorem asks_findNode_iff {allowed : Request → Prop} :
    (∀ fuel, ∀ request ∈ image.debugAsked deviceName compatibleName callback fuel,
        allowed request) ↔
      ∀ stage calls, image.ComesTo deviceName compatibleName callback stage calls →
        image.StageFits allowed deviceName compatibleName stage := by
  constructor
  · rintro all stage calls ⟨fuel, reached⟩
    refine (@asks_step_iff image allowed deviceName compatibleName callback calls stage).mp
      fun further request member => ?_
    -- The stage is reached, and left, with the larger of both bounds.
    have there := reached.mono (debugStep_extends (Nat.le_max_left fuel further))
    have put := ((debugStep_extends (Nat.le_max_right fuel further) stage).asked
      image.blob.whole.answer callback calls).subset member
    obtain ⟨bound, asked⟩ := Dialogue.asked_of_reached .outOfFuel there put
    rw [← debug_steps] at asked
    have whole := @Stage.steps_le_findNode
      (image.search deviceName compatibleName (max fuel further)) (max fuel further) bound
    exact all _ request ((whole.checked.asked _ _ _).subset asked)
  · intro fits fuel request member
    obtain ⟨bound, whole⟩ := Stage.findNode_le_steps (image.search deviceName compatibleName fuel)
    have asked := (whole.checked.asked image.blob.whole.answer callback []).subset member
    rw [show Dialogue.checked _ _ _ = _ from debug_steps fuel bound .starting] at asked
    obtain ⟨stage, calls, reached, here⟩ := Dialogue.asked_iterate .start asked
    exact asks_step_iff stage |>.mpr (fits stage calls ⟨fuel, reached⟩) fuel request here

/-- A search which is not cut puts all requests which it puts with any bound. -/
theorem mem_debugAsked {enough fuel : Nat} {request : Request}
    (whole : (image.debugRun deviceName compatibleName callback enough).1 ≠ cut)
    (member : request ∈ image.debugAsked deviceName compatibleName callback fuel) :
    request ∈ image.debugAsked deviceName compatibleName callback enough := by
  have grows : Reaches (image.parser.findNode deviceName compatibleName fuel)
      (image.parser.findNode deviceName compatibleName (max fuel enough)) :=
    findNode_extends (Nat.le_max_left _ _)
  have longer : Reaches (image.parser.findNode deviceName compatibleName enough)
      (image.parser.findNode deviceName compatibleName (max fuel enough)) :=
    findNode_extends (Nat.le_max_right _ _)
  have all := (grows.checked.asked image.blob.whole.answer callback []).subset member
  rwa [longer.checked.asked_eq whole] at all

/-- A search returns what its machine ends with. -/
theorem debugReturns_iff_ends {result : Except Failure Unit} {calls : List Window} :
    image.DebugReturns deviceName compatibleName callback result calls ↔
      Dialogue.Ends .outOfFuel image.blob.whole.answer callback
        (image.debugStep deviceName compatibleName) .starting result calls := by
  refine and_congr_right fun whole => ⟨?_, ?_⟩
  · rintro ⟨fuel, run⟩
    obtain ⟨bound, goes⟩ := Stage.findNode_le_steps (image.search deviceName compatibleName fuel)
    refine ⟨fuel, bound, ?_⟩
    rw [← debug_steps]
    exact goes.checked.exec_run run whole
  · rintro ⟨fuel, bound, run⟩
    rw [← debug_steps] at run
    have goes := @Stage.steps_le_findNode (image.search deviceName compatibleName fuel) fuel bound
    exact ⟨fuel + bound, goes.checked.exec_run run whole⟩

end Image
end Rpi5.DeviceTree
