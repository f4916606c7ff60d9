import Rpi5.DeviceTree.Nodes

/-!
# Reports as values

What is reported for a matching node, computed from the values of its lineage
alone: `climb` is the translation of one window with every check the code makes,
`lineageReport` the report of a whole `reg`. Where every value is long enough for
what is read from it, the report of a node in memory is the report of its lineage
(`report_of_stands`).
-/

namespace Rpi5.DeviceTree

open Rpi5.Logical Rpi5.Semantics

namespace RangeEntry

/-- The low 64 bits of an entry. -/
def low (entry : RangeEntry) : RangeEntry where
  child := entry.child % 2 ^ 64
  parent := entry.parent % 2 ^ 64
  len := entry.len % 2 ^ 64

/-- The translation of a window by an entry. Only the end of the window is compared
with the end of the entry; a window below the entry is an overflow. -/
def apply (entry : RangeEntry) (window : Window) : Except Failure Window :=
  if 2 ^ 64 ≤ entry.child + entry.len ∨ 2 ^ 64 ≤ window.1 + window.2 then
    .error (.stopped .overflow)
  else if entry.child + entry.len < window.1 + window.2 then
    .error (.stopped (.err "ranges size overflow"))
  else if window.1 < entry.child ∨ 2 ^ 64 ≤ window.1 - entry.child + entry.parent then
    .error (.stopped .overflow)
  else .ok (window.1 - entry.child + entry.parent, window.2)

end RangeEntry

/-- The entry which `read_round_internal` decodes at an address, in the cells of a node
and of its parent. -/
def Memory.entryAt (memory : Memory) (device parent : Device) (start : Nat) :
    Except Failure RangeEntry :=
  Inquiry.eval memory.answer do
    let childAddress ← Dtb.readRegs start device.addressCells
    let second ← checkedAdd 64 start childAddress.2
    let parentAddress ← Dtb.readRegs second parent.addressCells
    let third ← checkedAdd 64 second parentAddress.2
    let parentLen ← Dtb.readRegs third device.sizeCells
    return ⟨childAddress.1, parentAddress.1, parentLen.1⟩

/-- The translation of a window by the entry at the address of a `ranges`, if any. -/
def Memory.translateAt (memory : Memory) (device parent : Device) (site : Option Nat)
    (window : Window) : Except Failure Window :=
  match site with
  | none => .ok window
  | some start => do (← memory.entryAt device parent start).apply window

/-- The translation of a window by a node's own `ranges`. -/
def Device.translate (device parent : Device) (window : Window) : Except Failure Window :=
  match device.value? "ranges" with
  | none => .ok window
  | some value => (device.rangeEntry parent value).low.apply window

/-- The translation of a window by a node and all its ancestors. -/
def climb : Lineage → Window → Except Failure Window
  | [], window => .ok window
  | [_], window => .ok window
  | device :: parent :: ancestors, window => do
      let window ← device.translate parent window
      climb (parent :: ancestors) window

/-- No `ranges` is shorter than one entry, and the root has none. -/
def RangesFit : Lineage → Prop
  | [] => True
  | [root] => root.value? "ranges" = none
  | device :: parent :: ancestors =>
      (∀ value ∈ device.value? "ranges", device.rangeStride parent ≤ value.length) ∧
        RangesFit (parent :: ancestors)

/-- The `reg` of the first of a lineage consists of whole entries of positive size,
and the root has none. -/
def RegWhole : Lineage → Prop
  | [] => True
  | [root] => root.value? "reg" = none
  | device :: parent :: _ =>
      ∀ value ∈ device.value? "reg", value = [] ∨ 0 < parent.stride ∧ parent.stride ∣ value.length

instance : (lineage : Lineage) → Decidable (RangesFit lineage)
  | [] => inferInstanceAs (Decidable True)
  | [root] => inferInstanceAs (Decidable (root.value? "ranges" = none))
  | device :: parent :: ancestors =>
      have := instDecidableRangesFit (parent :: ancestors)
      inferInstanceAs (Decidable ((∀ value ∈ device.value? "ranges",
        device.rangeStride parent ≤ value.length) ∧ RangesFit (parent :: ancestors)))

instance : (lineage : Lineage) → Decidable (RegWhole lineage)
  | [] => inferInstanceAs (Decidable True)
  | [root] => inferInstanceAs (Decidable (root.value? "reg" = none))
  | device :: parent :: _ => inferInstanceAs (Decidable (∀ value ∈ device.value? "reg",
      value = [] ∨ 0 < parent.stride ∧ parent.stride ∣ value.length))

/-- The error of a matching node without `reg`. -/
def regMissing : Failure := .stopped (.err "reg property is none")

/-- The error of cells which do not fit a `usize`. -/
def cellsOverflow : Failure := .stopped (.err "address or size cells overflow usize")

/-- The windows asked for by a `reg` in the cells of its owner, or why there are none. -/
def Device.asked (owner : Device) (value : Bytes) : List (Except Failure Window) :=
  if value = [] then []
  else if owner.addressCells > 2 ∨ owner.sizeCells > 2 then [.error cellsOverflow]
  else (owner.windows value).map .ok

/-- The windows asked for by the first of a lineage. -/
def asked : Lineage → List (Except Failure Window)
  | device :: owner :: _ =>
      match device.value? "reg" with
      | none => [.error regMissing]
      | some value => owner.asked value
  | _ => [.error regMissing]

/-- The report for the first of a lineage: every window is translated by the lineage. -/
def lineageReport (lineage : Lineage) : Emission Window Failure Unit :=
  .emitAll ((asked lineage).map fun window => window >>= climb lineage)

section Translating

variable {memory : Memory} {node parent : SimpleDeviceNode} {device owner : Device}
  {ancestors : Lineage} {window : Window}

/-- Cells at an address are read as the low 64 bits of their number. -/
theorem eval_readRegs_drop {start cells skipped : Nat} {value : Bytes}
    (placed : Placed memory start value) (few : cells < 2 ^ 32)
    (inside : skipped + 4 * cells ≤ value.length) :
    (Dtb.readRegs (start + skipped) cells).eval memory.answer =
      .ok (beNat ((value.drop skipped).take (4 * cells)) % 2 ^ 64, 4 * cells) := by
  have split : value = value.take skipped ++
      ((value.drop skipped).take (4 * cells) ++ (value.drop skipped).drop (4 * cells)) := by
    rw [List.take_append_drop, List.take_append_drop]
  have holds := placed.1
  rw [split, Memory.holds_append, Memory.holds_append] at holds
  have before : (value.take skipped).length = skipped := by
    rw [List.length_take]
    omega
  rw [before] at holds
  apply eval_readRegs holds.2.1
  · rw [List.length_take, List.length_drop]
    omega
  · omega

/-- The entry of a `ranges` which is long enough. -/
theorem entryAt_of_placed {start : Nat} {value : Bytes} (placed : Placed memory start value)
    (long : device.rangeStride owner ≤ value.length) :
    memory.entryAt device owner start = .ok (device.rangeEntry owner value).low := by
  have childCells := device.addressCells_lt
  have sizeCells := device.sizeCells_lt
  have parentCells := owner.addressCells_lt
  have below := placed.2
  unfold Device.rangeStride at long
  have child := @eval_readRegs_drop memory start device.addressCells 0 value placed childCells
    (by omega)
  have second := @eval_readRegs_drop memory start owner.addressCells (4 * device.addressCells) value
    placed parentCells (by omega)
  have third := @eval_readRegs_drop memory start device.sizeCells
    (4 * device.addressCells + 4 * owner.addressCells) value placed sizeCells (by omega)
  unfold Memory.entryAt
  simp only [Inquiry.eval_bind]
  rw [Nat.add_zero, List.drop_zero] at child
  rw [child, ok_bind, eval_checkedAdd (by omega), ok_bind]
  simp only
  rw [second, ok_bind, eval_checkedAdd (by omega), ok_bind, Nat.add_assoc start, third, ok_bind]
  simp only [RangeEntry.low, Device.rangeEntry, Nat.mul_add]
  rfl

/-- `read_round_internal` decodes the entry at the address of `ranges`. -/
theorem eval_readRoundInternal {start : Nat} (level : Level memory node device)
    (above : node.parent = some parent) (parentLevel : Level memory parent owner)
    (ranges : node.ranges = some start) :
    node.readRoundInternal.eval memory.answer = (do
      let entry ← memory.entryAt device owner start
      return some (entry.child, entry.parent, entry.len)) := by
  unfold SimpleDeviceNode.readRoundInternal Memory.entryAt
  simp only [ranges, above, level.addressCells, level.sizeCells, parentLevel.addressCells,
    Inquiry.eval_bind, bind_assoc]
  rfl

/-- The checks on a window and an entry, in the order the code makes them. -/
theorem eval_apply {answer : Request → Option Bytes} (entry : RangeEntry) :
    Inquiry.eval answer (do
        let childEnd ← checkedAdd 64 entry.child entry.len
        let addressEnd ← checkedAdd 64 window.1 window.2
        if childEnd < addressEnd then
          err "ranges size overflow"
        else
          let offset ← checkedSub window.1 entry.child
          return (← checkedAdd 64 offset entry.parent, window.2)) = entry.apply window := by
  unfold RangeEntry.apply
  simp only [Inquiry.eval_bind]
  by_cases endOverflow : 2 ^ 64 ≤ entry.child + entry.len
  · rw [eval_checkedAdd_overflow endOverflow, if_pos (.inl endOverflow), error_bind]
  · rw [eval_checkedAdd (Nat.not_le.mp endOverflow), ok_bind]
    by_cases windowOverflow : 2 ^ 64 ≤ window.1 + window.2
    · rw [eval_checkedAdd_overflow windowOverflow, if_pos (.inr windowOverflow), error_bind]
    · rw [eval_checkedAdd (Nat.not_le.mp windowOverflow), ok_bind,
        if_neg (not_or.mpr ⟨endOverflow, windowOverflow⟩)]
      by_cases tooLong : entry.child + entry.len < window.1 + window.2
      · rw [if_pos tooLong, if_pos tooLong, eval_err]
      · rw [if_neg tooLong, if_neg tooLong, Inquiry.eval_bind]
        by_cases below : window.1 < entry.child
        · rw [eval_checkedSub_overflow below, if_pos (.inl below), error_bind]
        · rw [eval_checkedSub (Nat.not_lt.mp below), ok_bind, Inquiry.eval_bind]
          by_cases sumOverflow : 2 ^ 64 ≤ window.1 - entry.child + entry.parent
          · rw [eval_checkedAdd_overflow sumOverflow, if_pos (.inr sumOverflow), error_bind]
          · rw [eval_checkedAdd (Nat.not_le.mp sumOverflow),
              if_neg (not_or.mpr ⟨below, sumOverflow⟩)]
            rfl

/-- The first half of `calculate_address_internal` is the translation by the node itself. -/
theorem eval_addressChild (level : Level memory node device) (above : node.parent = some parent)
    (parentLevel : Level memory parent owner) :
    (node.addressChild window).eval memory.answer =
      memory.translateAt device owner node.ranges window := by
  unfold SimpleDeviceNode.addressChild
  cases start : node.ranges with
  | none => simp [Memory.translateAt]
  | some place =>
      have read := eval_readRoundInternal level above parentLevel start
      simp only [Option.isSome_some, ↓reduceIte, Inquiry.eval_bind, read, Memory.translateAt,
        bind_assoc, pure_bind, ← @eval_apply _ memory.answer]

/-- Where `ranges` is long enough its value says the same. -/
theorem Level.translateAt (level : Level memory node device)
    (long : ∀ value ∈ device.value? "ranges", device.rangeStride owner ≤ value.length) :
    memory.translateAt device owner node.ranges window = device.translate owner window := by
  have related := level.ranges
  unfold Device.translate
  generalize device.value? "ranges" = found at related long
  generalize node.ranges = place at related
  cases related with
  | none => rfl
  | @some value _ placed =>
      simp only [Memory.translateAt, entryAt_of_placed placed (long value rfl), ok_bind]

/-- The translation of a window by a node of the walk. -/
def Memory.translation (memory : Memory) (node : SimpleDeviceNode) (window : Window) :
    Except Failure Window :=
  (node.calculateAddressInternal window).eval memory.answer

/-- `calculate_address_internal` is the translation by the node, then by its parents. -/
theorem calculateAddressInternal_eq (node : SimpleDeviceNode) (window : Window) :
    node.calculateAddressInternal window = (do
      let child ← node.addressChild window
      match node.parent with
      | none => return child
      | some parent => parent.calculateAddressInternal child) := by
  rcases node with ⟨_ | parent, addressCells, sizeCells, reg, ranges⟩
  · exact (bind_pure _).symm
  · rfl

/-- In memory a window is translated by the node itself, then by its parent. -/
theorem Stands.translation
    (stands : Stands memory (some node) (device :: owner :: ancestors)) :
    ∃ parent, node.parent = some parent ∧ Stands memory (some parent) (owner :: ancestors) ∧
      ∀ window, memory.translation node window = (do
        let window ← memory.translateAt device owner node.ranges window
        memory.translation parent window) := by
  have above := stands.above
  obtain ⟨parent, owned, parentLevel⟩ := above.exists_node
  rw [owned] at above
  refine ⟨parent, owned, above, fun window => ?_⟩
  rw [Memory.translation, calculateAddressInternal_eq]
  simp only [owned, Inquiry.eval_bind, eval_addressChild stands.level owned parentLevel,
    Memory.translation]

/-- In memory a window is translated as the values of the lineage say. -/
theorem translation_of_stands {lineage : Lineage} (stands : Stands memory (some node) lineage)
    (fit : RangesFit lineage) : memory.translation node window = climb lineage window := by
  induction lineage generalizing node window with
  | nil => cases stands
  | cons device ancestors ih =>
      have level := stands.level
      cases ancestors with
      | nil =>
          have above := stands.above
          have root : node.parent = none := by
            cases parent : node.parent with
            | none => rfl
            | some other =>
                rw [parent] at above
                cases above
          have free : node.ranges = none := by
            have related := level.ranges
            have absent : device.value? "ranges" = none := fit
            rw [absent] at related
            generalize node.ranges = place at related
            cases related
            rfl
          rw [Memory.translation, calculateAddressInternal_eq]
          simp [SimpleDeviceNode.addressChild, free, root, climb]
      | cons owner rest =>
          obtain ⟨parent, -, above, step⟩ := stands.translation
          rw [step, level.translateAt fit.1, climb]
          congr 1
          funext child
          exact ih above fit.2

end Translating

section Entries

/-- The windows of a value are those of its entries. -/
theorem Device.windows_append {parent : Device} {entry rest : Bytes} (positive : 0 < parent.stride)
    (whole : entry.length = parent.stride) :
    parent.windows (entry ++ rest) = parent.window entry :: parent.windows rest := by
  have count : (entry ++ rest).length / parent.stride = rest.length / parent.stride + 1 := by
    rw [List.length_append, whole, Nat.add_comm, Nat.add_div_right _ positive]
  unfold windows
  rw [count, List.range_succ_eq_map, List.map_cons, List.map_map]
  congr 1
  · rw [Nat.mul_zero, List.drop_zero, ← whole, List.take_left]
  · apply List.map_congr_left
    intro index _
    simp only [Function.comp_apply, Nat.succ_eq_add_one]
    rw [Nat.mul_add, Nat.mul_one, Nat.add_comm, ← whole, List.drop_length_add_append]

variable {memory : Memory} {node : SimpleDeviceNode} {device owner : Device} {ancestors : Lineage}
  {start : Nat} {value : Bytes}

/-- Where the value of a `reg` stands. -/
theorem Level.exists_reg (level : Level memory node device)
    (given : device.value? "reg" = some value) :
    ∃ start, node.reg = some (start, value.length) ∧ Placed memory start value := by
  have related := level.reg
  rw [given] at related
  generalize node.reg = place at related
  cases related with
  | @some _ place agrees =>
      obtain ⟨start, length⟩ := place
      exact ⟨start, by rw [← agrees.1], agrees.2⟩

/-- An entry of `reg` is read as its window. -/
theorem eval_readRegInternal {parent : SimpleDeviceNode} {offset : Nat}
    (above : node.parent = some parent) (addressCells : parent.addressCells = owner.addressCells)
    (sizeCells : parent.sizeCells = owner.sizeCells) (reg : node.reg = some (start, value.length))
    (placed : Placed memory start value) (few : owner.addressCells ≤ 2 ∧ owner.sizeCells ≤ 2)
    (positive : 0 < owner.stride)
    (inside : offset + owner.stride ≤ value.length) :
    (node.readRegInternal offset).eval memory.answer =
      .ok (some (owner.window ((value.drop offset).take owner.stride))) := by
  have below := placed.2
  have stride : owner.stride = 4 * owner.addressCells + 4 * owner.sizeCells := Nat.mul_add 4 _ _
  rw [stride] at positive inside
  have first := @eval_readRegs_drop memory start owner.addressCells offset value placed (by omega)
    (by omega)
  have second := @eval_readRegs_drop memory start owner.sizeCells (offset + 4 * owner.addressCells)
    value placed (by omega) (by omega)
  rw [Nat.mod_eq_of_lt (beNat_take_lt (by omega) _)] at first second
  rw [← Nat.add_assoc] at second
  have clear : ¬ (owner.addressCells > 2 ∨ owner.sizeCells > 2) := by omega
  unfold SimpleDeviceNode.readRegInternal
  simp only [reg, above, addressCells, sizeCells, clear, ↓reduceIte, Inquiry.eval_bind]
  rw [eval_checkedAdd (by omega), ok_bind, first, ok_bind, eval_checkedAdd (by omega), ok_bind,
    second, ok_bind]
  have front : ((value.drop offset).take owner.stride).take (4 * owner.addressCells) =
      (value.drop offset).take (4 * owner.addressCells) := by
    rw [List.take_take]
    congr 1
    omega
  have back : (((value.drop offset).take owner.stride).drop (4 * owner.addressCells)).take
      (4 * owner.sizeCells) = (value.drop (offset + 4 * owner.addressCells)).take
        (4 * owner.sizeCells) := by
    rw [List.drop_take, List.take_take, List.drop_drop]
    congr 1
    omega
  rw [Device.window, front, back]
  rfl

/-- One step of the iteration over `reg`: the next entry is translated and its
stride is taken off. -/
theorem eval_nextInternal_entry {remain : Option Nat} {rest : Nat}
    (stands : Stands memory (some node) (device :: owner :: ancestors))
    (given : device.value? "reg" = some value)
    (few : owner.addressCells ≤ 2 ∧ owner.sizeCells ≤ 2) (positive : 0 < owner.stride)
    (left : remain.getD value.length = owner.stride + rest)
    (inside : owner.stride + rest ≤ value.length) :
    (DeviceAddressIter.nextInternal ⟨node, remain⟩).eval memory.answer = (do
      let window ← memory.translation node
        (owner.window ((value.drop (value.length - (owner.stride + rest))).take owner.stride))
      return (some window, ⟨node, some rest⟩)) := by
  obtain ⟨parent, above, parentLevel⟩ := stands.above.exists_node
  obtain ⟨start, reg, placed⟩ := stands.level.exists_reg given
  have stride : owner.stride = 4 * (owner.addressCells + owner.sizeCells) := rfl
  have read := @eval_readRegInternal memory node owner start value parent
    (value.length - (owner.stride + rest)) above parentLevel.addressCells parentLevel.sizeCells reg
    placed few positive (by omega)
  unfold DeviceAddressIter.nextInternal
  simp only [reg, left]
  rw [if_neg (by omega), Inquiry.eval_bind, eval_checkedSub inside, ok_bind, Inquiry.eval_bind, read,
    ok_bind]
  simp only [Inquiry.eval_bind, Memory.translation, above, parentLevel.addressCells,
    parentLevel.sizeCells]
  congr 1
  funext window
  rw [eval_checkedAdd (by omega), ok_bind, eval_checkedMul_eq_ok.mpr ⟨by omega, rfl⟩, ok_bind,
    eval_checkedSub (by omega), ok_bind]
  have later : owner.stride + rest - (owner.addressCells + owner.sizeCells) * 4 = rest := by omega
  rw [later]
  rfl

/-- A new iterator has the whole value before it. -/
theorem addresses_new (level : Level memory node device) (given : device.value? "reg" = some value)
    (steps : Nat) :
    memory.addresses steps (.new node) = memory.addresses steps ⟨node, some value.length⟩ := by
  obtain ⟨start, reg, -⟩ := level.exists_reg given
  have same : (DeviceAddressIter.new node).nextInternal =
      DeviceAddressIter.nextInternal ⟨node, some value.length⟩ := by
    unfold DeviceAddressIter.nextInternal DeviceAddressIter.new
    simp only [reg, Option.getD_none, Option.getD_some]
  cases steps with
  | zero => rfl
  | succ steps =>
      unfold Memory.addresses
      rw [same]

/-- The iteration reports the translations of whole entries, and goes on with what
is left of the value. -/
theorem addresses_entries {count rest steps : Nat}
    (stands : Stands memory (some node) (device :: owner :: ancestors))
    (given : device.value? "reg" = some value)
    (few : owner.addressCells ≤ 2 ∧ owner.sizeCells ≤ 2) (positive : 0 < owner.stride)
    (short : rest < owner.stride) (inside : count * owner.stride + rest ≤ value.length) :
    memory.addresses (count + steps) ⟨node, some (count * owner.stride + rest)⟩ =
      (.emitAll ((owner.windows (value.drop (value.length - (count * owner.stride + rest)))).map
        (memory.translation node)) >>= fun _ => memory.addresses steps ⟨node, some rest⟩) := by
  induction count with
  | zero =>
      have few : (value.drop (value.length - (0 * owner.stride + rest))).length = rest := by
        rw [List.length_drop]
        omega
      have nothing : owner.windows (value.drop (value.length - (0 * owner.stride + rest))) = [] := by
        unfold Device.windows
        rw [few, Nat.div_eq_of_lt short]
        rfl
      rw [nothing, Nat.zero_mul, Nat.zero_add, Nat.zero_add]
      rfl
  | succ count ih =>
      have next : (count + 1) * owner.stride + rest = owner.stride + (count * owner.stride + rest) := by
        rw [Nat.succ_mul]
        omega
      have split : value.drop (value.length - ((count + 1) * owner.stride + rest)) =
          (value.drop (value.length - ((count + 1) * owner.stride + rest))).take owner.stride ++
            value.drop (value.length - (count * owner.stride + rest)) := by
        have later : value.length - (count * owner.stride + rest) =
            value.length - ((count + 1) * owner.stride + rest) + owner.stride := by omega
        rw [later, ← List.drop_drop, List.take_append_drop]
      have entry : ((value.drop (value.length - ((count + 1) * owner.stride + rest))).take
          owner.stride).length = owner.stride := by
        rw [List.length_take, List.length_drop]
        omega
      have step := @eval_nextInternal_entry memory node device owner ancestors value
        (some ((count + 1) * owner.stride + rest)) (count * owner.stride + rest) stands given few
        positive next (by omega)
      rw [← next] at step
      rw [split, Device.windows_append positive entry, List.map_cons, Nat.add_right_comm]
      conv_lhs => unfold Memory.addresses Memory.observe
      rw [step]
      generalize (value.drop (value.length - ((count + 1) * owner.stride + rest))).take
        owner.stride = bytes
      rcases ok_or_error (memory.translation node (owner.window bytes)) with
        ⟨window, translated⟩ | ⟨reason, failed⟩
      · simp only [translated, ok_bind, Emission.emitAll, bind_assoc]
        rw [← ih (by omega)]
        exact Emission.ofExcept_ok_bind _ _
      · simp only [failed, error_bind, Emission.emitAll, Emission.ofExcept_error_bind]

/-- With nothing left there is no entry. -/
theorem eval_nextInternal_done {remain : Option Nat} (level : Level memory node device)
    (given : device.value? "reg" = some value) (nothing : remain.getD value.length = 0) :
    (DeviceAddressIter.nextInternal ⟨node, remain⟩).eval memory.answer =
      .ok (none, ⟨node, some 0⟩) := by
  obtain ⟨start, reg, -⟩ := level.exists_reg given
  unfold DeviceAddressIter.nextInternal
  simp [reg, nothing]

/-- Then the iteration ends. -/
theorem addresses_done (level : Level memory node device) (given : device.value? "reg" = some value)
    (steps : Nat) : memory.addresses (steps + 1) ⟨node, some 0⟩ = .ofExcept (.ok ()) := by
  unfold Memory.addresses Memory.observe
  rw [eval_nextInternal_done level given rfl, Emission.ofExcept_ok_bind]
  rfl

/-- The iteration over a `reg` which is missing or cannot be read as numbers. -/
theorem report_of_error {fuel : Nat} {reason : Failure}
    (failed : (DeviceAddressIter.new node).nextInternal.eval memory.answer = .error reason)
    (enough : memory.stepBound ≤ fuel) :
    memory.report fuel node = .ofExcept (.error reason) := by
  obtain ⟨fuel, rfl⟩ : ∃ rest, fuel = rest + 1 :=
    ⟨fuel - 1, by unfold Memory.stepBound at enough; omega⟩
  unfold Memory.report Memory.addresses Memory.observe
  rw [failed, Emission.ofExcept_error_bind]

/-- A node without `reg` has nothing to report. -/
theorem report_of_no_reg {fuel : Nat} (level : Level memory node device)
    (absent : device.value? "reg" = none) (enough : memory.stepBound ≤ fuel) :
    memory.report fuel node = .ofExcept (.error regMissing) := by
  apply report_of_error _ enough
  have related := level.reg
  rw [absent] at related
  unfold DeviceAddressIter.nextInternal DeviceAddressIter.new
  generalize node.reg = place at related
  cases related
  rfl

/-- The value of a `reg` is not longer than the blob. -/
theorem Level.length_le (level : Level memory node device)
    (given : device.value? "reg" = some value) : value.length ≤ memory.blob.bytes.length := by
  obtain ⟨start, -, placed⟩ := level.exists_reg given
  have above := (memory.base_le .struct).trans placed.1.1
  have below := placed.1.2.1.trans (memory.le_limit .struct)
  unfold Blob.limit at below
  omega

/-- The report of a node with `reg` in memory. -/
theorem report_of_reg {fuel : Nat}
    (stands : Stands memory (some node) (device :: owner :: ancestors))
    (given : device.value? "reg" = some value)
    (whole : value = [] ∨ 0 < owner.stride ∧ owner.stride ∣ value.length)
    (enough : memory.stepBound ≤ fuel) :
    memory.report fuel node =
      .emitAll ((owner.asked value).map fun window => window >>= memory.translation node) := by
  obtain ⟨parent, above, parentLevel⟩ := stands.above.exists_node
  obtain ⟨start, reg, placed⟩ := stands.level.exists_reg given
  unfold Device.asked
  by_cases empty : value = []
  · obtain ⟨fuel, rfl⟩ : ∃ rest, fuel = rest + 1 :=
      ⟨fuel - 1, by unfold Memory.stepBound at enough; omega⟩
    rw [if_pos empty, Memory.report, addresses_new stands.level given, empty]
    exact addresses_done stands.level given fuel
  · have filled : value.length ≠ 0 := by simpa using empty
    rw [if_neg empty]
    by_cases many : owner.addressCells > 2 ∨ owner.sizeCells > 2
    · rw [if_pos many]
      apply report_of_error _ enough
      unfold DeviceAddressIter.nextInternal DeviceAddressIter.new SimpleDeviceNode.readRegInternal
      simp only [reg, Option.getD_none, filled, ↓reduceIte, above, parentLevel.addressCells,
        parentLevel.sizeCells, many, Inquiry.eval_bind, eval_checkedSub (Nat.le_refl _)]
      rfl
    · obtain ⟨positive, count, length⟩ := whole.resolve_left empty
      have length : value.length = count * owner.stride + 0 := by
        rw [length, Nat.mul_comm, Nat.add_zero]
      have few : count ≤ value.length := by
        rw [length]
        exact Nat.le_add_right_of_le (Nat.le_mul_of_pos_right _ positive)
      have seen := stands.level.length_le given
      unfold Memory.stepBound at enough
      obtain ⟨steps, rfl⟩ : ∃ steps, fuel = count + (steps + 1) := ⟨fuel - count - 1, by omega⟩
      have run := @addresses_entries memory node device owner ancestors value count 0 (steps + 1)
        stands given (by omega) positive positive (Nat.le_of_eq length.symm)
      rw [← length, Nat.sub_self, List.drop_zero, addresses_done stands.level given] at run
      rw [if_neg many, List.map_map, Memory.report, addresses_new stands.level given, run]
      exact bind_pure _

/-- In memory the report of a node are the translations of the windows asked for. -/
theorem report_of_stands {lineage : Lineage} {fuel : Nat}
    (stands : Stands memory (some node) lineage) (whole : RegWhole lineage)
    (enough : memory.stepBound ≤ fuel) :
    memory.report fuel node =
      .emitAll ((asked lineage).map fun window => window >>= memory.translation node) := by
  match lineage with
  | [] => cases stands
  | [root] => exact report_of_no_reg stands.level whole enough
  | device :: owner :: ancestors =>
      cases given : device.value? "reg" with
      | none =>
          simp only [asked, given]
          exact report_of_no_reg stands.level given enough
      | some value =>
          simp only [asked, given]
          exact report_of_reg stands given (whole value given) enough

/-- Where every `ranges` is long enough these are those of the values. -/
theorem lineageReport_of_stands {lineage : Lineage} {fuel : Nat}
    (stands : Stands memory (some node) lineage) (fit : RangesFit lineage)
    (whole : RegWhole lineage) (enough : memory.stepBound ≤ fuel) :
    memory.report fuel node = lineageReport lineage := by
  have same : memory.translation node = climb lineage :=
    funext fun window => translation_of_stands stands fit
  rw [report_of_stands stands whole enough, lineageReport, same]

end Entries

/-- The calls of a search on a tree whose callback always continues, given how it
ends after the root. -/
def Tree.emission (tree : Tree) (deviceName compatibleName : Option String)
    (ending : Except Failure Unit) : Emission Window Failure Unit :=
  .each lineageReport (tree.matching deviceName compatibleName) (.ofExcept ending)

/-- A tree is well-formed for a search if its nodes are accepted, and what is read
for its matching nodes are whole entries of their properties. -/
structure Tree.WellFormed (deviceName compatibleName : Option String) (tree : Tree) : Prop where
  accepted : tree.Accepted deviceName compatibleName
  fit : ∀ lineage ∈ tree.matching deviceName compatibleName, RangesFit lineage
  whole : ∀ lineage ∈ tree.matching deviceName compatibleName, RegWhole lineage

/-- On a serialised tree a search emits what its tree says. -/
theorem emission_of_tree {memory : Memory} {search : Search} {block : StructBlock}
    (serial : Serialises memory search.parser block)
    (wellFormed : block.tree.WellFormed search.deviceName search.compatibleName)
    (enough : memory.stepBound ≤ search.fuel)
    (one : OneName search.deviceName search.compatibleName) :
    memory.emission search = block.tree.emission search.deviceName search.compatibleName
      (if block.trailing = 0 then .ok () else .error parseIncomplete) := by
  obtain ⟨accepted, fit, whole⟩ := wellFormed
  obtain ⟨nodes, agree, -, emits⟩ := emission_of_block serial accepted enough one
  rw [emits]
  apply Emission.each_eq_of_forall₂
  clear emits
  generalize block.tree.matching search.deviceName search.compatibleName = lineages at agree fit whole
  induction agree with
  | nil => exact .nil
  | cons stands _ ih =>
      refine .cons (lineageReport_of_stands stands (fit _ (by simp)) (whole _ (by simp)) enough)
        (ih (fun lineage member => fit lineage (by simp [member]))
          fun lineage member => whole lineage (by simp [member]))

/-- The emission of an image which serialises a well-formed tree. -/
theorem Image.emission_of_tree {image : Image} {block : StructBlock}
    {deviceName compatibleName : Option String} {fuel : Nat}
    (serial : Serialises image.blob.whole image.parser block)
    (wellFormed : block.tree.WellFormed deviceName compatibleName)
    (one : OneName deviceName compatibleName) (enough : image.blob.whole.stepBound ≤ fuel) :
    image.emission deviceName compatibleName fuel = block.tree.emission deviceName compatibleName
      (if block.trailing = 0 then .ok () else .error parseIncomplete) :=
  @DeviceTree.emission_of_tree image.blob.whole (image.search deviceName compatibleName fuel) block
    serial wellFormed enough one

end Rpi5.DeviceTree
