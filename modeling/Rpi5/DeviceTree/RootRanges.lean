import Rpi5.DeviceTree.Alignment
import Rpi5.DeviceTree.SubWindows

/-!
# A root with `ranges`

A `reg` of the root is refused when it is parsed, but a `ranges` of the root is kept, and
`read_round_internal` unwraps the parent of every node with `ranges`. The search panics
there exactly if it reports a matching node whose first window is passed on by every node
below such a root (`unwraps_iff`).
-/

namespace Rpi5.DeviceTree

open Rpi5.Logical Rpi5.Semantics

/-- The topmost ancestor of a node. -/
def SimpleDeviceNode.root : SimpleDeviceNode → SimpleDeviceNode
  | ⟨none, addressCells, sizeCells, reg, ranges⟩ => ⟨none, addressCells, sizeCells, reg, ranges⟩
  | ⟨some parent, _, _, _, _⟩ => parent.root

/-- The entries which `read_round_internal` decodes for a node and its ancestors, without
the root. -/
inductive DecodesBelow (memory : Memory) : SimpleDeviceNode → List (Option RangeEntry) → Prop where
  | root {node} (top : node.parent = none) : DecodesBelow memory node []
  | inner {node parent path} {entry : Option RangeEntry} (above : node.parent = some parent)
      (read : node.readRoundInternal.eval memory.answer = .ok (entry.map RangeEntry.fields))
      (rest : DecodesBelow memory parent path) : DecodesBelow memory node (entry :: path)

/-- A node has `ranges`, and the first number there can be read. -/
def Memory.OpensEntry (memory : Memory) (node : SimpleDeviceNode) : Prop :=
  ∃ start ∈ node.ranges, ∃ first,
    (Dtb.readRegs start node.addressCells).eval memory.answer = .ok first ∧ start + first.2 < 2 ^ 64

/-- A window is inside the entry of every node below the root, and the root has `ranges`. -/
def Memory.ClimbsOut (memory : Memory) (node : SimpleDeviceNode) (window : Window) : Prop :=
  ∃ path result, DecodesBelow memory node path ∧ PathFits path window ∧
    Relocation.Moves (relocations path) window (some result) ∧ memory.OpensEntry node.root

/-- The first window of a node's `reg` climbs to a root with `ranges`. -/
def Memory.Orphans (memory : Memory) (node : SimpleDeviceNode) : Prop :=
  node.regSize ≠ 0 ∧ ∃ window,
    (node.readRegInternal 0).eval memory.answer = .ok (some window) ∧ memory.ClimbsOut node window

/-- The panic of `unwrap` on a missing parent. -/
def unwrapped : Failure := .stopped .unwrapNone

section Climbing

variable {memory : Memory} {node parent : SimpleDeviceNode} {window : Window}

/-- A sequence fails in one of its parts. -/
theorem bind_eq_error {δ α β : Type} {first : Except δ α} {next : α → Except δ β} {reason : δ} :
    (first >>= next) = .error reason ↔
      first = .error reason ∨ ∃ value, first = .ok value ∧ next value = .error reason := by
  cases first with
  | ok value =>
      constructor
      · exact fun failed => .inr ⟨value, rfl, failed⟩
      · rintro (⟨⟨⟩⟩ | ⟨_, ⟨⟩, failed⟩)
        exact failed
  | error other =>
      constructor
      · rintro ⟨⟩
        exact .inl rfl
      · rintro (same | ⟨_, ⟨⟩, _⟩)
        rw [Except.error.inj same]
        rfl

/-- Parsing code does not unwrap. -/
theorem Parses.not_unwrapped {α : Type} {start : Nat} {post : α → Prop} {reading : Reading α}
    {answer : Request → Option Bytes} (parses : Parses start post reading) :
    reading.eval answer ≠ .error unwrapped :=
  fun failed => parses.of_stopped failed rfl

/-- Reading cells unwraps nothing. -/
theorem readRegs_not_unwrapped {answer : Request → Option Bytes} {address cells : Nat} :
    (Dtb.readRegs address cells).eval answer ≠ .error unwrapped :=
  (@parses_readRegs address address cells ⟨0, rfl⟩).not_unwrapped

/-- Nor does a sum. -/
theorem checkedAdd_not_unwrapped {answer : Request → Option Bytes} {width first second : Nat} :
    (checkedAdd width first second).eval answer ≠ .error unwrapped :=
  (@parses_checkedAdd 0 width first second).not_unwrapped

/-- The reader of `ranges` unwraps the parent which a root does not have. -/
theorem readRoundInternal_unwraps_iff (top : node.parent = none) :
    node.readRoundInternal.eval memory.answer = .error unwrapped ↔ memory.OpensEntry node := by
  unfold SimpleDeviceNode.readRoundInternal Memory.OpensEntry
  cases node.ranges with
  | none => exact ⟨nofun, by rintro ⟨_, ⟨⟩, _⟩⟩
  | some start =>
      simp only [top, Inquiry.eval_bind, bind_eq_error, Inquiry.eval_stop]
      constructor
      · rintro (failed | ⟨first, read, failed | ⟨second, moved, -⟩⟩)
        · exact absurd failed readRegs_not_unwrapped
        · exact absurd failed checkedAdd_not_unwrapped
        · exact ⟨start, rfl, first, read, (eval_checkedAdd_eq_ok.mp moved).1⟩
      · rintro ⟨_, ⟨⟩, first, read, fits⟩
        exact .inr ⟨first, read, .inr ⟨_, eval_checkedAdd fits, rfl⟩⟩

/-- Below the root it does not. -/
theorem readRoundInternal_not_unwrapped (above : node.parent = some parent) :
    node.readRoundInternal.eval memory.answer ≠ .error unwrapped := by
  unfold SimpleDeviceNode.readRoundInternal
  cases node.ranges with
  | none => nofun
  | some start =>
      simp only [above, Inquiry.eval_bind, ne_eq, bind_eq_error, not_or, not_exists, not_and]
      refine ⟨readRegs_not_unwrapped, fun _ _ => ⟨checkedAdd_not_unwrapped, fun _ _ => ?_⟩⟩
      refine ⟨readRegs_not_unwrapped, fun _ _ => ⟨checkedAdd_not_unwrapped, fun _ _ => ?_⟩⟩
      exact ⟨readRegs_not_unwrapped, fun _ _ => nofun⟩

/-- A window which an entry moves fits it and is inside it. -/
theorem apply_eq_ok {entry : RangeEntry} {moved : Window} :
    entry.apply window = .ok moved ↔
      entry.Fits window ∧ entry.relocation.Holds window ∧ moved = entry.relocation.apply window := by
  by_cases fits : entry.Fits window
  · by_cases holds : entry.relocation.Holds window
    · rw [apply_of_holds fits holds, Except.ok.injEq]
      exact ⟨fun same => ⟨fits, holds, same.symm⟩, fun ⟨_, _, same⟩ => same.symm⟩
    · rw [apply_of_outside fits holds]
      exact ⟨nofun, fun ⟨_, inside, _⟩ => absurd inside holds⟩
  · rw [apply_of_not_fits fits]
    exact ⟨nofun, fun ⟨fits', _, _⟩ => absurd fits' fits⟩

/-- Nor does applying an entry. -/
theorem apply_not_unwrapped {entry : RangeEntry} : entry.apply window ≠ .error unwrapped := by
  unfold RangeEntry.apply
  split
  · nofun
  · split
    · nofun
    · split <;> nofun

/-- A node unwraps its parent where it reads its entry. -/
theorem addressChild_unwraps_iff :
    (node.addressChild window).eval memory.answer = .error unwrapped ↔
      node.readRoundInternal.eval memory.answer = .error unwrapped := by
  rcases ok_or_error (node.readRoundInternal.eval memory.answer) with ⟨fields, read⟩ | ⟨reason, failed⟩
  · obtain ⟨entry, rfl⟩ : ∃ entry : Option RangeEntry, fields = entry.map RangeEntry.fields :=
      ⟨fields.map fun (child, parent, len) => ⟨child, parent, len⟩, by cases fields <;> rfl⟩
    rw [eval_addressChild_of_read read, read]
    refine ⟨fun failed => ?_, nofun⟩
    cases entry with
    | none => cases failed
    | some entry => exact absurd failed apply_not_unwrapped
  · have given : node.ranges.isSome := by
      by_contra none
      rw [Option.not_isSome_iff_eq_none] at none
      unfold SimpleDeviceNode.readRoundInternal at failed
      rw [none] at failed
      cases failed
    unfold SimpleDeviceNode.addressChild
    rw [if_pos given, Inquiry.eval_bind, failed, error_bind, Except.error.injEq, Except.error.injEq]

/-- At the root nothing is left to climb. -/
theorem climbsOut_root_iff (top : node.parent = none) (own : node.root = node) :
    memory.ClimbsOut node window ↔ memory.OpensEntry node := by
  constructor
  · rintro ⟨path, result, decodes, -, -, opens⟩
    rwa [own] at opens
  · exact fun opens => ⟨[], window, .root top, trivial, .top, own.symm ▸ opens⟩

/-- Below the root a window climbs out if it does so where the node moves it. -/
theorem climbsOut_inner_iff (above : node.parent = some parent) (same : node.root = parent.root) :
    memory.ClimbsOut node window ↔
      ∃ child, (node.addressChild window).eval memory.answer = .ok child ∧
        memory.ClimbsOut parent child := by
  constructor
  · rintro ⟨path, result, decodes, fits, moves, opens⟩
    rw [same] at opens
    cases decodes with
    | root top => cases above.symm.trans top
    | @inner _ other path entry above' read rest =>
        cases above.symm.trans above'
        rw [eval_addressChild_of_read read]
        cases entry with
        | none =>
            cases moves with
            | pass moves => exact ⟨window, rfl, path, result, rest, fits, moves, opens⟩
        | some entry =>
            cases moves with
            | move holds lands moves =>
                refine ⟨_, apply_of_holds fits.1 holds, ?_⟩
                exact ⟨path, result, rest, fits.2 holds, moves, opens⟩
  · rintro ⟨child, moved, path, result, decodes, fits, moves, opens⟩
    obtain ⟨entry, read⟩ := read_of_addressChild moved
    rw [eval_addressChild_of_read read] at moved
    refine ⟨entry :: path, result, .inner above read decodes, ?_⟩
    rw [same]
    cases entry with
    | none =>
        cases moved
        exact ⟨fits, .pass moves, opens⟩
    | some entry =>
        obtain ⟨here, holds, rfl⟩ := apply_eq_ok.mp moved
        exact ⟨⟨here, fun _ => fits⟩, .move holds holds.lands moves, opens⟩

/-- A translation unwraps the parent of a root exactly if its window climbs out. -/
theorem translation_unwraps_iff (node : SimpleDeviceNode) (window : Window) :
    memory.translation node window = .error unwrapped ↔ memory.ClimbsOut node window := by
  induction node, window using SimpleDeviceNode.calculateAddressInternal.induct with
  | case1 addressCells sizeCells reg ranges window =>
      generalize whole : SimpleDeviceNode.mk none addressCells sizeCells reg ranges = node
      have top : node.parent = none := by rw [← whole]
      have own : node.root = node := by rw [← whole]; rfl
      have alone : memory.translation node window = (node.addressChild window).eval memory.answer := by
        rw [← whole]
        rfl
      rw [alone, addressChild_unwraps_iff, readRoundInternal_unwraps_iff top,
        climbsOut_root_iff top own]
  | case2 parent addressCells sizeCells reg ranges window ih =>
      generalize whole : SimpleDeviceNode.mk (some parent) addressCells sizeCells reg ranges = node
      have above : node.parent = some parent := by rw [← whole]
      have same : node.root = parent.root := by rw [← whole]; rfl
      have step := @translation_eq memory node window
      rw [above] at step
      rw [step, bind_eq_error, addressChild_unwraps_iff, climbsOut_inner_iff above same]
      constructor
      · rintro (failed | ⟨child, moved, failed⟩)
        · exact absurd failed (readRoundInternal_not_unwrapped above)
        · exact ⟨child, moved, (ih child).mp failed⟩
      · rintro ⟨child, moved, climbs⟩
        exact .inr ⟨child, moved, (ih child).mpr climbs⟩

/-- Where one window is translated, the root has no `ranges` which could be opened. -/
theorem not_opens_of_translation {moved : Window}
    (done : memory.translation node window = .ok moved) : ¬ memory.OpensEntry node.root := by
  intro opens
  induction node, window using SimpleDeviceNode.calculateAddressInternal.induct with
  | case1 addressCells sizeCells reg ranges window =>
      have failed := (@translation_unwraps_iff memory ⟨none, addressCells, sizeCells, reg, ranges⟩
        window).mpr ⟨[], window, .root rfl, trivial, .top, opens⟩
      rw [done] at failed
      cases failed
  | case2 parent addressCells sizeCells reg ranges window ih =>
      obtain ⟨child, -, rest⟩ := bind_eq_ok.mp ((translation_eq _ window).symm.trans done)
      exact ih child rest opens

end Climbing

section Reporting

variable {memory : Memory} {node parent : SimpleDeviceNode} {remain : Option Nat} {start size : Nat}

/-- Below another node the cells of the parent are there. -/
theorem readRegInternal_not_unwrapped {offset : Nat} (above : node.parent = some parent) :
    (node.readRegInternal offset).eval memory.answer ≠ .error unwrapped := by
  unfold SimpleDeviceNode.readRegInternal
  cases node.reg with
  | none => nofun
  | some place =>
      simp only [above]
      split
      · nofun
      · simp only [Inquiry.eval_bind, ne_eq, bind_eq_error, not_or, not_exists, not_and]
        refine ⟨checkedAdd_not_unwrapped, fun _ _ => ⟨readRegs_not_unwrapped, fun _ _ => ?_⟩⟩
        exact ⟨checkedAdd_not_unwrapped, fun _ _ => ⟨readRegs_not_unwrapped, fun _ _ => nofun⟩⟩

/-- A step of the iteration over a `reg` panics at the root exactly if the window it reads
climbs out. -/
theorem nextInternal_unwraps_iff (given : node.reg = some (start, size))
    (above : node.parent = some parent) :
    (DeviceAddressIter.nextInternal ⟨node, remain⟩).eval memory.answer = .error unwrapped ↔
      remain.getD size ≠ 0 ∧ remain.getD size ≤ size ∧ ∃ window,
        (node.readRegInternal (size - remain.getD size)).eval memory.answer = .ok (some window) ∧
          memory.ClimbsOut node window := by
  unfold DeviceAddressIter.nextInternal
  simp only [given, above]
  generalize remain.getD size = left
  by_cases finished : left = 0
  · rw [if_pos finished]
    exact ⟨nofun, fun ⟨more, _⟩ => absurd finished more⟩
  rw [if_neg finished]
  simp only [Inquiry.eval_bind, bind_eq_error]
  constructor
  · rintro (failed | ⟨offset, taken, failed | ⟨entry, read, failed⟩⟩)
    · exact absurd failed (@parses_checkedSub 0 size left).not_unwrapped
    · exact absurd failed (readRegInternal_not_unwrapped above)
    · obtain ⟨inside, rfl⟩ := eval_checkedSub_eq_ok.mp taken
      cases entry with
      | none => cases failed
      | some window =>
          simp only [Inquiry.eval_bind, bind_eq_error] at failed
          rcases failed with failed | ⟨moved, -, failed | ⟨cells, -, failed | ⟨stride, -, failed⟩⟩⟩
          · exact ⟨finished, inside, window, read, (translation_unwraps_iff node window).mp failed⟩
          · exact absurd failed checkedAdd_not_unwrapped
          · exact absurd failed (@parses_checkedMul 0 32 cells 4).not_unwrapped
          · rcases failed with failed | ⟨left, -, failed⟩
            · exact absurd failed (@parses_checkedSub 0 _ stride).not_unwrapped
            · cases failed
  · rintro ⟨-, inside, window, read, climbs⟩
    refine .inr ⟨_, eval_checkedSub inside, .inr ⟨some window, read, ?_⟩⟩
    have failed := (translation_unwraps_iff node window).mpr climbs
    unfold Memory.translation at failed
    rw [Inquiry.eval_bind, failed, error_bind]

/-- A step yields a window only if its node translates one. -/
theorem translated_of_nextInternal {iter later : DeviceAddressIter} {window : Window}
    (done : iter.nextInternal.eval memory.answer = .ok (some window, later)) :
    later.prop = iter.prop ∧ ∃ asked, memory.translation iter.prop asked = .ok window := by
  obtain ⟨start, size, parent, given, filled, above, inside, -, same, -⟩ := step_of_nextInternal done
  refine ⟨by rw [same], ?_⟩
  unfold DeviceAddressIter.nextInternal at done
  simp only [given, above] at done
  split at done
  · cases done
  · simp only [Inquiry.eval_bind] at done
    obtain ⟨offset, -, done⟩ := bind_eq_ok.mp done
    obtain ⟨entry, -, done⟩ := bind_eq_ok.mp done
    cases entry with
    | none => cases done
    | some asked =>
        simp only [Inquiry.eval_bind] at done
        obtain ⟨moved, translated, done⟩ := bind_eq_ok.mp done
        obtain ⟨cells, -, done⟩ := bind_eq_ok.mp done
        obtain ⟨stride, -, done⟩ := bind_eq_ok.mp done
        obtain ⟨left, -, done⟩ := bind_eq_ok.mp done
        cases done
        exact ⟨asked, translated⟩

/-- Without `ranges` at the root no step of the iteration panics there. -/
theorem addresses_not_unwrapped {steps : Nat} {iter : DeviceAddressIter}
    (owner : iter.prop.reg.isSome → iter.prop.parent.isSome)
    (closed : ¬ memory.OpensEntry iter.prop.root) :
    (memory.addresses steps iter).ending ≠ .error unwrapped := by
  induction steps generalizing iter with
  | zero => rintro ⟨⟩
  | succ steps ih =>
      unfold Memory.addresses Memory.observe
      rcases ok_or_error (iter.nextInternal.eval memory.answer) with
        ⟨⟨_ | window, later⟩, done⟩ | ⟨reason, failed⟩
      · rw [done, Emission.ofExcept_ok_bind]
        rintro ⟨⟩
      · have same := (translated_of_nextInternal done).1
        have ended : (Emission.emit window : Emission Window Failure Unit).ending = .ok () := rfl
        rw [done, Emission.ofExcept_ok_bind]
        simp only [Emission.bind_of_ok ended]
        rw [← same] at owner closed
        exact ih owner closed
      · rw [failed, Emission.ofExcept_error_bind]
        rintro ⟨⟩
        cases given : iter.prop.reg with
        | none =>
            unfold DeviceAddressIter.nextInternal at failed
            simp [given, unwrapped] at failed
        | some place =>
            obtain ⟨parent, above⟩ := Option.isSome_iff_exists.mp (owner (by simp [given]))
            obtain ⟨-, -, window, -, path, result, -, -, -, opens⟩ :=
              (nextInternal_unwraps_iff given above).mp failed
            exact closed opens

/-- The report of a node panics at the root exactly if its first window climbs out: where
the root lets one window through it has no `ranges`. -/
theorem report_unwraps_iff {steps : Nat} (owner : node.reg.isSome → node.parent.isSome) :
    (memory.report (steps + 1) node).ending = .error unwrapped ↔ memory.Orphans node := by
  have first : (DeviceAddressIter.nextInternal ⟨node, none⟩).eval memory.answer = .error unwrapped ↔
      memory.Orphans node := by
    unfold Memory.Orphans SimpleDeviceNode.regSize
    cases given : node.reg with
    | none =>
        unfold DeviceAddressIter.nextInternal
        simp [given, unwrapped]
    | some place =>
        obtain ⟨parent, above⟩ := Option.isSome_iff_exists.mp (owner (by simp [given]))
        rw [nextInternal_unwraps_iff given above, Option.getD_none, Nat.sub_self]
        simp only [le_refl, true_and]
  rw [← first]
  unfold Memory.report Memory.addresses Memory.observe DeviceAddressIter.new
  rcases ok_or_error ((DeviceAddressIter.nextInternal ⟨node, none⟩).eval memory.answer) with
    ⟨⟨_ | window, later⟩, done⟩ | ⟨reason, failed⟩
  · rw [done, Emission.ofExcept_ok_bind]
    constructor <;> rintro ⟨⟩
  · obtain ⟨same, asked, translated⟩ := translated_of_nextInternal done
    have ended : (Emission.emit window : Emission Window Failure Unit).ending = .ok () := rfl
    have closed : ¬ memory.OpensEntry later.prop.root := by
      rw [same]
      exact not_opens_of_translation translated
    have owner' : later.prop.reg.isSome → later.prop.parent.isSome := by rwa [same]
    have quiet := @addresses_not_unwrapped memory steps later owner' closed
    rw [done, Emission.ofExcept_ok_bind]
    simp only [Emission.bind_of_ok ended]
    constructor
    · exact fun failed => absurd failed quiet
    · rintro ⟨⟩
  · rw [failed, Emission.ofExcept_error_bind, Emission.ending_ofExcept, Except.error.injEq,
      Except.error.injEq]

end Reporting

section Scanning

variable {memory : Memory} {search : Search} {start : Nat}

/-- A scan which reports only sited nodes and does not unwrap. -/
abbrev Scans (start : Nat) {α : Type} (post : α → Prop)
    (emission : Emission SimpleDeviceNode Failure α) : Prop :=
  emission.Meets (·.Sited start) (· ≠ unwrapped) post

/-- What is observed of parsing code has no output and no unwrap. -/
theorem Parses.scans {ω α : Type} {outputs : ω → Prop} {post : α → Prop} {reading : Reading α}
    (parses : Parses start post reading) :
    (memory.observe reading).Meets outputs (· ≠ unwrapped) post := by
  refine .ofExcept (fun reason failed same => ?_) fun value => parses.of_ok
  rw [same] at failed
  exact parses.not_unwrapped failed

/-- Both mutual functions at once, by induction on the steps. -/
theorem scans_steps (search : Search) (steps : Nat) :
    (∀ nodeInfo pointer, OnGrid start pointer →
      Scans start (OnGrid start) (memory.scanNode search steps nodeInfo pointer)) ∧
    ∀ prop pointer, OnGrid start pointer →
      Scans start (OnGrid start) (memory.scanChildren search steps prop pointer) := by
  induction steps with
  | zero =>
      constructor
      · exact fun _ _ _ => .ofExcept (by rintro _ ⟨⟩; nofun) nofun
      · exact fun _ _ _ => .ofExcept (by rintro _ ⟨⟩; nofun) nofun
  | succ steps ih =>
      constructor
      · intro nodeInfo pointer here
        unfold Memory.scanNode
        refine (parses_openNode here).scans.bind ?_
        rintro ⟨prop, found, next⟩ ⟨sited, -, there⟩
        cases found with
        | false => exact ih.2 prop next there
        | true => exact (Emission.Meets.emit sited).bind fun _ _ => ih.2 prop next there
      · intro prop pointer here
        unfold Memory.scanChildren
        refine (parses_getTypes here).scans.bind fun token _ => ?_
        have moves : Parses start (OnGrid start) (checkedAdd 64 pointer 4) := by
          refine parses_checkedAdd.mono (fun _ => id) (fun _ => id) ?_
          rintro _ rfl
          exact here.add (by decide)
        cases token with
        | nop => exact moves.scans.bind fun next there => ih.2 prop next there
        | beginNode => exact (ih.1 (some prop) pointer here).bind fun next there => ih.2 prop next there
        | endNode => exact moves.scans
        | _ => exact (@parses_err start _ _ _).scans

/-- A scan leaves the cursor on the grid of the structure block. -/
theorem scans_scan (search : Search) : Scans search.parser.structStart
    (OnGrid search.parser.structStart) (memory.scan search) := by
  have begins : OnGrid search.parser.structStart search.parser.structStart := ⟨0, rfl⟩
  have first : Parses search.parser.structStart (· = search.parser.structStart)
      search.parser.dtbHeader.getStructStartAddress := parses_checkedAdd
  unfold Memory.scan
  refine first.scans.bind ?_
  rintro _ rfl
  refine (parses_skipNop begins).scans.bind fun pointer here => ?_
  exact (scans_steps search search.fuel).1 none pointer here

end Scanning

namespace Image

variable {image : Image} {deviceName compatibleName : Option String} {fuel : Nat}

/-- The nodes whose reports a search begins whose callback does not break. -/
def begun (image : Image) (deviceName compatibleName : Option String) (fuel : Nat) :
    List SimpleDeviceNode :=
  Emission.started (image.blob.whole.report fuel)
    (image.blob.whole.scan (image.search deviceName compatibleName fuel)).output

/-- The report of such a node panics at the root exactly if its first window climbs out. -/
theorem report_unwraps_of_begun {node : SimpleDeviceNode}
    (member : node ∈ image.begun deviceName compatibleName fuel) :
    (image.blob.whole.report fuel node).ending = .error unwrapped ↔
      image.blob.whole.Orphans node := by
  have scanned := Emission.mem_of_mem_started member
  have owner := ((scans_scan (image.search deviceName compatibleName fuel)).output node scanned).owner
  cases fuel with
  | zero =>
      have silent : (image.blob.whole.scan (image.search deviceName compatibleName 0)).output = [] := by
        unfold Memory.scan Memory.observe
        rcases ok_or_error ((image.search deviceName compatibleName
            0).parser.dtbHeader.getStructStartAddress.eval image.blob.whole.answer) with
          ⟨start, begins⟩ | ⟨reason, failed⟩
        · rw [begins, Emission.ofExcept_ok_bind]
          rfl
        · rw [failed, Emission.ofExcept_error_bind]
          rfl
      rw [silent] at scanned
      cases scanned
  | succ fuel => exact report_unwraps_iff owner

/-- No search with these names panics on a missing parent, if and only if none of the
matching nodes it comes to has a first window which climbs to a root with `ranges`. -/
theorem never_unwraps_iff (image : Image) (deviceName compatibleName : Option String) :
    (∀ callback fuel, (image.run deviceName compatibleName callback fuel).1 ≠ .error unwrapped) ↔
      (OneName deviceName compatibleName → ∀ fuel,
        ∀ node ∈ image.begun deviceName compatibleName fuel, ¬ image.blob.whole.Orphans node) := by
  constructor
  · intro quiet one fuel node member orphans
    have failed := (report_unwraps_of_begun member).mpr orphans
    obtain ⟨before, whole⟩ := Emission.each_of_started member failed
      (.ofExcept (image.blob.whole.scan (image.search deviceName compatibleName fuel)).ending >>=
        fun pointer => image.blob.whole.observe (DtbParser.checkEnd pointer) :
          Emission Window Failure Unit)
    apply quiet .always fuel
    rw [run_always, emission_eq_each one, whole]
  · intro free callback fuel
    rw [run_eq]
    split
    · nofun
    · by_cases one : OneName deviceName compatibleName
      case neg =>
        rw [emission_of_no_name one]
        nofun
      rw [emission_eq_each one]
      refine Emission.each_ending_ne (fun node member => ?_) ?_
      · exact fun failed => free one fuel node member ((report_unwraps_of_begun member).mp failed)
      · have scanned := @scans_scan image.blob.whole (image.search deviceName compatibleName fuel)
        have last : (.ofExcept (image.blob.whole.scan
            (image.search deviceName compatibleName fuel)).ending >>= fun pointer =>
              image.blob.whole.observe (DtbParser.checkEnd pointer) :
                Emission Window Failure Unit).Meets (fun _ => True) (· ≠ unwrapped) fun _ => True :=
          (Emission.Meets.ofExcept scanned.error scanned.value).bind fun pointer here =>
            (parses_checkEnd here).scans
        exact fun failed => last.error unwrapped failed rfl

end Image

/-- An empty value with its padding is short. -/
theorem padded_nil_lt : ([] : Bytes).length + padLength ([] : Bytes).length < 2 ^ 32 := by decide

/-- A board whose root has an empty `ranges`. -/
def rootRangesBoard : StructBlock :=
  { uartBoard with root := rootNode [oneCell, .prop (.known .ranges [] padded_nil_lt)] }

def rootRangesImage : Image :=
  .assemble 0x80000 rootRangesBoard.encode knownNames (by decide) (by decide)

/-- The image holds the board. -/
theorem rootRangesImage_serialises :
    Serialises rootRangesImage.blob.whole rootRangesImage.parser rootRangesBoard := by
  apply known_serialises
  simp [rootRangesBoard, uartBoard, rootNode, uartNode, oneCell, pl011, uartReg,
    TokenForest.IsKnown, NodeToken.IsKnown, PropToken.isKnown_known]

/-- A search for its UART panics before it makes a call. -/
theorem rootRangesImage_unwraps :
    Serialises rootRangesImage.blob.whole rootRangesImage.parser rootRangesBoard ∧
      rootRangesImage.run none (some "pl011") .always 20 = (.error unwrapped, []) ∧
      ¬ ∀ callback fuel,
        (rootRangesImage.run none (some "pl011") callback fuel).1 ≠ .error unwrapped := by
  have panics : rootRangesImage.run none (some "pl011") .always 20 = (.error unwrapped, []) := by
    decide +kernel
  refine ⟨rootRangesImage_serialises, panics, fun quiet => quiet .always 20 ?_⟩
  rw [panics]

end Rpi5.DeviceTree
