import Rpi5.DeviceTree.Progress
import Rpi5.DeviceTree.Reports
import Rpi5.DeviceTree.EarlyStop

/-!
# Termination

The walk over the structure block always comes to an end (`uncut_scan`). The loop
over the addresses of a matching node takes its stride off the bytes left in
`reg`, and the stride is that of the parent's cells. If these are 0 and 0 the loop
goes on for ever with the same window (`addresses_of_stuck`); everywhere else it
makes at most one call for four bytes (`addresses_of_moving`).

`Image.terminates_iff` says when every search comes to an end: if it does not come
to such a node.
-/

namespace Rpi5.DeviceTree

open Rpi5.Logical Rpi5.Semantics

/-- A node whose addresses never end: there are bytes in its `reg`, an entry in its
parent's cells has none, and the window of such an entry has a translation. -/
def Memory.Stuck (memory : Memory) (node : SimpleDeviceNode) : Prop :=
  ∃ start size parent window, node.reg = some (start, size) ∧ size ≠ 0 ∧
    node.parent = some parent ∧ parent.addressCells = 0 ∧ parent.sizeCells = 0 ∧
      memory.translation node (0, 0) = .ok window

section Iterating

variable {memory : Memory} {node parent : SimpleDeviceNode} {start size : Nat}

/-- An entry without cells is the empty window, wherever it is. -/
theorem eval_readRegInternal_empty {offset : Nat} (given : node.reg = some (start, size))
    (above : node.parent = some parent) (noAddress : parent.addressCells = 0)
    (noSize : parent.sizeCells = 0) :
    (node.readRegInternal offset).eval memory.answer =
      if start + offset < 2 ^ 64 then .ok (some (0, 0)) else .error (.stopped .overflow) := by
  have cells : ∀ address, (Dtb.readRegs address 0).eval memory.answer = .ok (0, 0) := fun _ => rfl
  unfold SimpleDeviceNode.readRegInternal
  simp only [given, above, noAddress, noSize, Nat.not_lt_zero, or_self, ↓reduceIte,
    Inquiry.eval_bind, gt_iff_lt]
  by_cases fits : start + offset < 2 ^ 64
  · rw [if_pos fits, eval_checkedAdd fits, ok_bind, cells, ok_bind, eval_checkedAdd (by simpa using fits),
      ok_bind, cells]
    rfl
  · rw [if_neg fits, eval_checkedAdd_overflow (Nat.not_lt.mp fits), error_bind]

/-- A step of the iteration which yields an address takes the stride of the parent's cells
off what is left. -/
theorem step_of_nextInternal {iter later : DeviceAddressIter} {window : Window}
    (done : iter.nextInternal.eval memory.answer = .ok (some window, later)) :
    ∃ start size parent, iter.prop.reg = some (start, size) ∧ size ≠ 0 ∧
      iter.prop.parent = some parent ∧ iter.remain.getD size ≤ size ∧
      4 * (parent.addressCells + parent.sizeCells) ≤ iter.remain.getD size ∧
      later = ⟨iter.prop,
        some (iter.remain.getD size - 4 * (parent.addressCells + parent.sizeCells))⟩ ∧
      (parent.addressCells = 0 → parent.sizeCells = 0 →
        memory.translation iter.prop (0, 0) = .ok window) := by
  unfold DeviceAddressIter.nextInternal at done
  cases given : iter.prop.reg with
  | none => simp [given] at done
  | some place =>
      obtain ⟨start, size⟩ := place
      simp only [given] at done
      by_cases finished : iter.remain.getD size = 0
      · simp [finished] at done
      rw [if_neg finished] at done
      simp only [Inquiry.eval_bind, bind_eq_ok, eval_checkedSub_eq_ok] at done
      obtain ⟨offset, ⟨inside, -⟩, entry, read, rest⟩ := done
      cases entry with
      | none => simp at rest
      | some asked =>
          cases above : iter.prop.parent with
          | none => simp [above, bind_eq_ok] at rest
          | some parent =>
              simp only [above, Inquiry.eval_bind, bind_eq_ok, eval_checkedAdd_eq_ok,
                eval_checkedMul_eq_ok, eval_checkedSub_eq_ok, Inquiry.eval_pure, Except.ok.injEq,
                Prod.mk.injEq, Option.some.injEq] at rest
              obtain ⟨_, translated, _, ⟨-, rfl⟩, _, ⟨-, rfl⟩, _, ⟨stride, rfl⟩, rfl, rfl⟩ := rest
              refine ⟨start, size, parent, rfl, by omega, rfl, inside, by omega, ?_, ?_⟩
              · rw [Nat.mul_comm]
              · intro noAddress noSize
                rw [eval_readRegInternal_empty given above noAddress noSize] at read
                split at read
                · cases read
                  exact translated
                · cases read

/-- Where the stride is positive, or no address can be had, the iteration ends. -/
theorem addresses_of_moving (free : ¬ memory.Stuck node) {remain : Option Nat} {steps : Nat}
    (longer : remain.getD node.regSize < steps) :
    Uncut (memory.addresses steps ⟨node, remain⟩).ending ∧
      4 * (memory.addresses steps ⟨node, remain⟩).output.length ≤ remain.getD node.regSize := by
  induction steps generalizing remain with
  | zero => omega
  | succ steps ih =>
      have whole := @uncut_nextInternal memory.answer ⟨node, remain⟩
      unfold Memory.addresses Memory.observe
      rcases ok_or_error ((DeviceAddressIter.nextInternal ⟨node, remain⟩).eval memory.answer) with
        ⟨⟨_ | window, later⟩, done⟩ | ⟨reason, failed⟩
      · rw [done, Emission.ofExcept_ok_bind]
        exact ⟨uncut_ok (), Nat.zero_le _⟩
      · obtain ⟨start, size, parent, given, filled, above, -, stride, rfl, translated⟩ :=
          step_of_nextInternal done
        dsimp only at given stride
        have regSize : node.regSize = size := by simp [SimpleDeviceNode.regSize, given]
        have positive : 0 < parent.addressCells + parent.sizeCells := by
          by_contra none
          exact free ⟨start, size, parent, window, given, filled, above, by omega, by omega,
            translated (by omega) (by omega)⟩
        have ended : (Emission.emit window : Emission Window Failure Unit).ending = .ok () := rfl
        rw [done, Emission.ofExcept_ok_bind]
        simp only [Emission.bind_of_ok ended]
        rw [regSize] at longer ⊢
        obtain ⟨ends, calls⟩ := @ih
          (some (remain.getD size - 4 * (parent.addressCells + parent.sizeCells)))
          (by rw [Option.getD_some]; omega)
        rw [Option.getD_some] at calls
        refine ⟨ends, ?_⟩
        rw [List.length_append, Emission.output_emit, List.length_singleton]
        omega
      · rw [failed, Emission.ofExcept_error_bind]
        rw [failed] at whole
        refine ⟨fun same => ?_, Nat.zero_le _⟩
        cases same
        exact whole rfl

/-- On a stuck node every step calls back with the same window. -/
theorem addresses_of_stuck (stuck : memory.Stuck node)
    (small : ∀ place ∈ node.reg, place.1 < 2 ^ 64) :
    ∃ window, ∀ steps, memory.report steps node =
      ⟨List.replicate steps window, .error (.stopped .outOfFuel)⟩ := by
  obtain ⟨start, size, parent, window, given, filled, above, noAddress, noSize, translated⟩ := stuck
  have fits := small (start, size) given
  have next : ∀ remain : Option Nat, remain.getD size = size →
      (DeviceAddressIter.nextInternal ⟨node, remain⟩).eval memory.answer =
        .ok (some window, ⟨node, some size⟩) := by
    intro remain all
    have read := @eval_readRegInternal_empty memory node parent start size 0 given above noAddress
      noSize
    rw [Nat.add_zero, if_pos fits] at read
    unfold Memory.translation at translated
    unfold DeviceAddressIter.nextInternal
    simp only [given, all, filled, ↓reduceIte, Inquiry.eval_bind, eval_checkedSub (Nat.le_refl _),
      Nat.sub_self, ok_bind, read, translated, above, noAddress, noSize]
    rfl
  refine ⟨window, fun steps => ?_⟩
  have loop : ∀ remain : Option Nat, remain.getD size = size →
      memory.addresses steps ⟨node, remain⟩ =
        ⟨List.replicate steps window, .error (.stopped .outOfFuel)⟩ := by
    induction steps with
    | zero => exact fun _ _ => rfl
    | succ steps ih =>
        intro remain all
        have ended : (Emission.emit window : Emission Window Failure Unit).ending = .ok () := rfl
        unfold Memory.addresses Memory.observe
        rw [next remain all, Emission.ofExcept_ok_bind]
        simp only [Emission.bind_of_ok ended, ih (some size) rfl]
        rfl
  exact loop none rfl

end Iterating

namespace Image

variable {image : Image} {deviceName compatibleName : Option String}

/-- The search comes to a stuck node: with every large enough bound it begins its report. -/
def Stalls (image : Image) (deviceName compatibleName : Option String) : Prop :=
  ∃ enough, ∀ fuel, enough ≤ fuel →
    ∃ node ∈ Emission.started (image.blob.whole.report fuel)
        (image.blob.whole.scan (image.search deviceName compatibleName fuel)).output,
      image.blob.whole.Stuck node

/-- The emission of a search for one name, report after report. -/
theorem emission_eq_each {fuel : Nat} (one : OneName deviceName compatibleName) :
    image.emission deviceName compatibleName fuel =
      Emission.each (image.blob.whole.report fuel)
        (image.blob.whole.scan (image.search deviceName compatibleName fuel)).output
        (.ofExcept (image.blob.whole.scan (image.search deviceName compatibleName fuel)).ending >>=
          fun pointer => image.blob.whole.observe (DtbParser.checkEnd pointer)) := by
  have whole := @emission_eq image.blob.whole (image.search deviceName compatibleName fuel) one
  rw [Emission.expand, Emission.each_bind] at whole
  exact whole

/-- A search which does not begin the report of a stuck node ends, with at most one call
for every word of the blob. -/
theorem emission_of_moving {fuel : Nat} (enough : image.blob.whole.stepBound ≤ fuel)
    (moving : ∀ node ∈ Emission.started (image.blob.whole.report fuel)
        (image.blob.whole.scan (image.search deviceName compatibleName fuel)).output,
      OneName deviceName compatibleName → ¬ image.blob.whole.Stuck node) :
    (image.emission deviceName compatibleName fuel).ending ≠ cut ∧
      (image.emission deviceName compatibleName fuel).output.length ≤
        image.blob.bytes.length / 4 := by
  by_cases one : OneName deviceName compatibleName
  case neg =>
    rw [emission_of_no_name one]
    exact ⟨nofun, Nat.zero_le _⟩
  rw [emission_eq_each one]
  have scanned := @uncut_scan image.blob.whole (image.search deviceName compatibleName fuel) enough
  have bytes := (@scan_advances image.blob.whole
    (image.search deviceName compatibleName fuel)).1
  generalize image.blob.whole.scan (image.search deviceName compatibleName fuel) = scan
    at moving scanned bytes ⊢
  have report : ∀ node ∈ Emission.started (image.blob.whole.report fuel) scan.output,
      Uncut (image.blob.whole.report fuel node).ending ∧
        4 * (image.blob.whole.report fuel node).output.length ≤ node.regSize := by
    intro node begun
    have size := regSize_le_regBytes (Emission.mem_of_mem_started begun)
    have within : node.regSize < fuel := by
      unfold Memory.stepBound at enough
      omega
    exact addresses_of_moving (moving node begun one) within
  constructor
  · refine Emission.each_ending_ne (fun node begun => (report node begun).1) ?_
    exact Uncut.sequence scanned fun _ _ => uncut_checkEnd
  · have calls := Emission.length_each_le (fun node begun => (report node begun).2)
      (.ofExcept scan.ending >>= fun pointer =>
        image.blob.whole.observe (DtbParser.checkEnd pointer) : Emission Window Failure Unit)
    have silent : (.ofExcept scan.ending >>= fun pointer =>
        image.blob.whole.observe (DtbParser.checkEnd pointer) :
          Emission Window Failure Unit).output = [] := by
      rcases scan.ending with reason | pointer
      · rw [Emission.ofExcept_error_bind]
        rfl
      · rw [Emission.ofExcept_ok_bind]
        rfl
    rw [silent, List.length_nil] at calls
    unfold regBytes at bytes
    have words := bytes
    simp only [Blob.whole] at words
    omega

/-- A search which comes to a stuck node never returns to a caller who does not break it. -/
theorem not_returns_of_stalls (one : OneName deviceName compatibleName)
    (stalls : image.Stalls deviceName compatibleName) (result : Except Failure Unit)
    (calls : List Window) : ¬ image.Returns deviceName compatibleName .always result calls := by
  intro returns
  obtain ⟨late, runs⟩ := returns.eventually
  obtain ⟨enough, stuck⟩ := stalls
  have run := runs (max late enough) (Nat.le_max_left _ _)
  obtain ⟨node, begun, stuck⟩ := stuck (max late enough) (Nat.le_max_right _ _)
  have small := (@scan_advances image.blob.whole
    (image.search deviceName compatibleName (max late enough))).2 node
      (Emission.mem_of_mem_started begun)
  obtain ⟨window, report⟩ := addresses_of_stuck stuck small
  have failed : (image.blob.whole.report (max late enough) node).ending =
      .error (.stopped .outOfFuel) := by rw [report]
  rw [run_always, emission_eq_each one] at run
  obtain ⟨before, whole⟩ := Emission.each_of_started begun failed
    (.ofExcept (image.blob.whole.scan
      (image.search deviceName compatibleName (max late enough))).ending >>= fun pointer =>
        image.blob.whole.observe (DtbParser.checkEnd pointer) : Emission Window Failure Unit)
  rw [whole] at run
  exact returns.1 (Prod.mk.inj run).1.symm

/-- Every search with these names comes to an end, with at most one call for every word
of the blob, if and only if it does not come to a stuck node. -/
theorem terminates_iff (image : Image) (deviceName compatibleName : Option String) :
    (∀ callback, ∃ result calls,
        image.Returns deviceName compatibleName callback result calls ∧
          calls.length ≤ image.blob.bytes.length / 4) ↔
      (OneName deviceName compatibleName → ¬ image.Stalls deviceName compatibleName) := by
  constructor
  · intro ends one stalls
    obtain ⟨result, calls, returns, -⟩ := ends .always
    exact not_returns_of_stalls one stalls result calls returns
  · intro moving callback
    have free : ∃ fuel, image.blob.whole.stepBound ≤ fuel ∧
        ∀ node ∈ Emission.started (image.blob.whole.report fuel)
            (image.blob.whole.scan (image.search deviceName compatibleName fuel)).output,
          OneName deviceName compatibleName → ¬ image.blob.whole.Stuck node := by
      by_contra all
      push Not at all
      by_cases one : OneName deviceName compatibleName
      · refine moving one ⟨image.blob.whole.stepBound, fun fuel enough => ?_⟩
        obtain ⟨node, begun, -, stuck⟩ := all fuel enough
        exact ⟨node, begun, stuck⟩
      · obtain ⟨_, _, clash, -⟩ := all _ (Nat.le_refl _)
        exact one clash
    obtain ⟨fuel, enough, free⟩ := free
    obtain ⟨whole, few⟩ := emission_of_moving enough free
    refine ⟨(image.run deviceName compatibleName callback fuel).1,
      (image.run deviceName compatibleName callback fuel).2, ⟨?_, fuel, rfl⟩, ?_⟩
    · rw [run_eq]
      split
      · exact nofun
      · exact whole
    · rw [run_calls]
      exact (heard_isPrefix _ _).length_le.trans few

end Image

section NoCells

/-- A node which stands for one whose owner has no cells is stuck, if it has a `reg` and
the empty window can be translated. -/
theorem stuck_of_stands {memory : Memory} {node : SimpleDeviceNode} {device owner : Device}
    {ancestors : Lineage} {value : Bytes} {window : Window}
    (stands : Stands memory (some node) (device :: owner :: ancestors))
    (fit : RangesFit (device :: owner :: ancestors)) (given : device.value? "reg" = some value)
    (filled : value ≠ []) (noAddress : owner.addressCells = 0) (noSize : owner.sizeCells = 0)
    (climbed : climb (device :: owner :: ancestors) (0, 0) = .ok window) : memory.Stuck node := by
  obtain ⟨parent, above, level⟩ := stands.above.exists_node
  obtain ⟨start, reg, -⟩ := stands.level.exists_reg given
  refine ⟨start, value.length, parent, window, reg, by simpa using filled, above, ?_, ?_, ?_⟩
  · rw [level.addressCells, noAddress]
  · rw [level.sizeCells, noSize]
  · rw [translation_of_stands stands fit, climbed]

/-- A board whose root has no cells, with a UART which still has a `reg`. -/
def noCellsBoard : StructBlock where
  leading := 0
  root := rootNode [.prop (.known .addressCells (be32 0) (by decide)),
    .prop (.known .sizeCells (be32 0) (by decide))]
  children := .node (uartNode [pl011, .prop (.known .reg (be32 0x1000) (by decide))]) .nil .nil
  trailing := 0

def noCellsImage : Image :=
  .assemble 0x80000 noCellsBoard.encode knownNames (by decide) (by decide)

/-- The image holds the board. -/
theorem noCellsImage_serialises :
    Serialises noCellsImage.blob.whole noCellsImage.parser noCellsBoard := by
  apply known_serialises
  simp [noCellsBoard, rootNode, uartNode, pl011, TokenForest.IsKnown, NodeToken.IsKnown,
    PropToken.isKnown_known]

/-- A search in it stalls at the UART, whose entries have no bytes. -/
theorem noCellsImage_stalls : noCellsImage.Stalls none (some "pl011") := by
  refine ⟨noCellsImage.blob.whole.stepBound, fun fuel enough => ?_⟩
  have accepted : noCellsBoard.tree.Accepted none (some "pl011") := by decide +kernel
  have found : noCellsBoard.tree.matching none (some "pl011") =
      [[⟨"uart", [⟨"compatible", utf8 "pl011" ++ [0]⟩, ⟨"reg", be32 0x1000⟩]⟩,
        ⟨"", [⟨"#address-cells", be32 0⟩, ⟨"#size-cells", be32 0⟩]⟩]] := by decide +kernel
  obtain ⟨nodes, stop, scan, agree, -, -⟩ := @scan_of_block noCellsImage.blob.whole
    (noCellsImage.search none (some "pl011") fuel) noCellsBoard noCellsImage_serialises accepted enough
  change List.Forall₂ _ nodes (noCellsBoard.tree.matching none (some "pl011")) at agree
  rw [found] at agree
  cases agree with
  | @cons node _ _ _ stands _ =>
      rw [scan]
      refine ⟨node, by simp [Emission.started], ?_⟩
      exact stuck_of_stands stands (by decide +kernel) rfl (by decide) (by decide) (by decide)
        (by decide +kernel : climb _ (0, 0) = .ok (0, 0))

/-- On this blob the search for the UART never returns to a caller who does not break it. -/
theorem noCellsImage_runs_forever :
    ¬ ∃ result calls, noCellsImage.Returns none (some "pl011") .always result calls := by
  rintro ⟨result, calls, returns⟩
  exact Image.not_returns_of_stalls (.inr ⟨rfl, rfl⟩) noCellsImage_stalls result calls returns

end NoCells

end Rpi5.DeviceTree
