import Rpi5.DeviceTree.Translation

/-!
# The iteration over `reg`

`parse_prop` only checks that one entry fits a `reg`. `DeviceAddressIter` takes a stride
off what remains until exactly nothing remains. So where the stride does not divide the
length the last step reads behind the value, unless an entry is refused before
(`consumes_iff`).
-/

namespace Rpi5.DeviceTree

open Rpi5.Logical Rpi5.Semantics

namespace Memory

/-- What can be seen if nothing but some bytes is shown. -/
def only (memory : Memory) (start length : Nat) : Memory where
  blob := memory.blob
  low block := max (memory.low block) start
  high block := min (memory.high block) (start + length)
  base_le block := (memory.base_le block).trans (Nat.le_max_left _ _)
  le_limit block := (Nat.min_le_left _ _).trans (memory.le_limit block)

/-- The iterators of a node which are reached, with the windows yielded before. -/
inductive Iterates (memory : Memory) (node : SimpleDeviceNode) :
    List Window → DeviceAddressIter → Prop where
  | new : Iterates memory node [] (.new node)
  | next {windows iter window later} (before : Iterates memory node windows iter)
      (yields : iter.nextInternal.eval memory.answer = .ok (some window, later)) :
      Iterates memory node (windows ++ [window]) later

end Memory

/-- The iteration over the `reg` of a node consumes exactly its value. -/
structure Consumes (memory : Memory) (node : SimpleDeviceNode) (owner : Device) (start : Nat)
    (value : Bytes) : Prop where
  /-- Every entry which is read lies in the value. -/
  inside : ∀ windows iter, memory.Iterates node windows iter → iter.remain.getD value.length ≠ 0 →
    ∀ request ∈ (node.readRegInternal (value.length - iter.remain.getD value.length)).questions
        memory.answer, ((memory.only start value.length).answer request).isSome
  /-- When the stride is taken off, enough remains. -/
  decrement : ∀ windows iter window place, memory.Iterates node windows iter →
    iter.remain.getD value.length ≠ 0 →
    (node.readRegInternal (value.length - iter.remain.getD value.length)).eval memory.answer =
      .ok (some window) →
    memory.translation node window = .ok place → owner.stride ≤ iter.remain.getD value.length
  whole : owner.stride ∣ value.length →
    (∀ window ∈ owner.windows value, ∃ place, memory.translation node window = .ok place) →
    ∀ fuel, memory.stepBound ≤ fuel → (memory.report fuel node).ending = .ok () ∧
      (memory.report fuel node).output.length = value.length / owner.stride
  broken : ¬ owner.stride ∣ value.length →
    ∀ fuel, memory.stepBound ≤ fuel → Refused (memory.report fuel node).ending

section Only

variable {memory : Memory} {start length : Nat}

/-- What is answered from a part of the memory is answered from the whole. -/
theorem answer_of_only (request : Request) (given : Bytes)
    (found : (memory.only start length).answer request = some given) :
    memory.answer request = some given :=
  @Memory.answer_mono given (memory.only start length) memory rfl (fun _ => Nat.le_max_left _ _)
    (fun _ => Nat.min_le_left _ _) request found

/-- A value lies in the part which it fills. -/
theorem placed_only {value : Bytes} (placed : Placed memory start value) :
    Placed (memory.only start value.length) start value := by
  obtain ⟨⟨above, below, shown⟩, short⟩ := placed
  exact ⟨⟨Nat.max_le.mpr ⟨above, Nat.le_refl _⟩, Nat.le_min.mpr ⟨below, Nat.le_refl _⟩, shown⟩, short⟩

end Only

section Entries

variable {memory : Memory} {node parent : SimpleDeviceNode} {device owner : Device}
  {ancestors : Lineage} {start offset : Nat} {value : Bytes}

/-- An entry which is read can be seen. -/
theorem inside_of_readRegInternal {place : Nat × Nat} {entry : Option Window}
    (above : node.parent = some parent) (reg : node.reg = some place)
    (some' : 0 < parent.addressCells + parent.sizeCells)
    (read : (node.readRegInternal offset).eval memory.answer = .ok entry) :
    place.1 + offset + 4 * (parent.addressCells + parent.sizeCells) ≤ memory.high .struct := by
  obtain ⟨start, length⟩ := place
  unfold SimpleDeviceNode.readRegInternal at read
  simp only [reg, above] at read
  by_cases wide : parent.addressCells > 2 ∨ parent.sizeCells > 2
  · rw [if_pos wide] at read
    cases read
  · rw [if_neg wide] at read
    simp only [Inquiry.eval_bind, bind_eq_ok, eval_checkedAdd_eq_ok] at read
    obtain ⟨_, ⟨-, rfl⟩, first, readAddress, _, ⟨-, rfl⟩, second, readSize, -⟩ := read
    rw [consumed_of_readRegs readAddress] at readSize
    rcases Nat.eq_zero_or_pos parent.sizeCells with none | more
    · obtain ⟨-, bytes, holds, count⟩ := holds_of_readRegs (by omega) readAddress
      have below := holds.2.1
      omega
    · obtain ⟨-, bytes, holds, count⟩ := holds_of_readRegs more readSize
      have below := holds.2.1
      omega

/-- A whole entry is read inside the value. -/
theorem asks_inside (stands : Stands memory (some node) (device :: owner :: ancestors))
    (reg : node.reg = some (start, value.length)) (placed : Placed memory start value)
    (few : owner.addressCells ≤ 2 ∧ owner.sizeCells ≤ 2) (positive : 0 < owner.stride)
    (inside : offset + owner.stride ≤ value.length) :
    ∀ request ∈ (node.readRegInternal offset).questions memory.answer,
      ((memory.only start value.length).answer request).isSome := by
  obtain ⟨parent, above, level⟩ := stands.above.exists_node
  refine (Inquiry.restricted_iff _ answer_of_only).mpr fun question => ?_
  rw [eval_readRegInternal above level.addressCells level.sizeCells reg (placed_only placed) few
    positive inside]
  rintro ⟨⟩

/-- An entry which does not end in the value is not read inside it. -/
theorem asks_outside (stands : Stands memory (some node) (device :: owner :: ancestors))
    (reg : node.reg = some (start, value.length)) (positive : 0 < owner.stride)
    (outside : value.length < offset + owner.stride) {entry : Option Window}
    (read : (node.readRegInternal offset).eval memory.answer = .ok entry) :
    ¬ ∀ request ∈ (node.readRegInternal offset).questions memory.answer,
      ((memory.only start value.length).answer request).isSome := by
  intro inside
  obtain ⟨parent, above, level⟩ := stands.above.exists_node
  have stride : owner.stride = 4 * (parent.addressCells + parent.sizeCells) := by
    rw [level.addressCells, level.sizeCells]
    rfl
  rw [← Inquiry.eval_of_restricted _ answer_of_only inside] at read
  have below := inside_of_readRegInternal above reg (by omega) read
  have limit : (memory.only start value.length).high .struct ≤ start + value.length :=
    Nat.min_le_right _ _
  rw [← stride] at below
  have behind := below.trans limit
  simp only at behind
  omega

end Entries

section Runs

variable {memory : Memory} {node : SimpleDeviceNode} {device owner : Device} {ancestors : Lineage}
  {start : Nat} {value : Bytes}

/-- The attempts to translate the whole entries of a `reg`. -/
def attempts (memory : Memory) (node : SimpleDeviceNode) (owner : Device) (value : Bytes) :
    List (Except Failure Window) := (owner.windows value).map (memory.translation node)

/-- There are as many attempts as whole entries. -/
theorem length_attempts : (attempts memory node owner value).length = value.length / owner.stride := by
  simp [attempts, Device.windows]

/-- The stride divides the length, or a whole entry is refused before one fails otherwise. -/
def Ends (memory : Memory) (node : SimpleDeviceNode) (owner : Device) (value : Bytes) : Prop :=
  owner.stride ∣ value.length ∨
    Refused (.emitAll (attempts memory node owner value) : Emission Window Failure Unit).ending

/-- As long as something remains after some entries, the next entry is whole. -/
theorem entry_left (ends : Ends memory node owner value) {windows : List Window}
    (translated : windows.map .ok <+: attempts memory node owner value)
    (left : value.length - windows.length * owner.stride ≠ 0) :
    windows.length < value.length / owner.stride := by
  have most := translated.length_le
  rw [List.length_map, length_attempts] at most
  refine Nat.lt_of_le_of_ne most fun all => ?_
  rcases ends with whole | ⟨text, refused⟩
  · rw [all, Nat.div_mul_cancel whole, Nat.sub_self] at left
    exact left rfl
  · have same := translated.eq_of_length (by rw [List.length_map, length_attempts, all])
    have fine := @Emission.emitAll_map_ok Window Window Failure id windows
    simp only [id_eq] at fine
    rw [← same, fine] at refused
    cases refused

variable (stands : Stands memory (some node) (device :: owner :: ancestors))
  (given : device.value? "reg" = some value) (few : owner.addressCells ≤ 2 ∧ owner.sizeCells ≤ 2)
  (positive : 0 < owner.stride)

include stands given few positive

/-- The step at a whole entry. -/
theorem eval_nextInternal_at {remain : Option Nat} {index : Nat}
    (here : index < (attempts memory node owner value).length)
    (left : remain.getD value.length = value.length - index * owner.stride) :
    (DeviceAddressIter.nextInternal ⟨node, remain⟩).eval memory.answer = (do
      let window ← (attempts memory node owner value)[index]
      return (some window, ⟨node, some (value.length - (index + 1) * owner.stride)⟩)) := by
  have inside : (index + 1) * owner.stride ≤ value.length := by
    rw [length_attempts] at here
    exact (Nat.mul_le_mul_right _ here).trans (Nat.div_mul_le_self _ _)
  have next : (index + 1) * owner.stride = index * owner.stride + owner.stride := Nat.succ_mul _ _
  have place : value.length - (owner.stride + (value.length - (index + 1) * owner.stride)) =
      owner.stride * index := by
    rw [Nat.mul_comm owner.stride]
    omega
  rw [eval_nextInternal_entry stands given few positive
    (by omega : _ = owner.stride + (value.length - (index + 1) * owner.stride)) (by omega), place]
  simp [attempts, Device.windows]

/-- The iterators which are reached have yielded the first entries, and the others remain. -/
theorem iterates_prefix (ends : Ends memory node owner value) {windows : List Window}
    {iter : DeviceAddressIter} (iterates : memory.Iterates node windows iter) :
    iter.prop = node ∧ iter.remain.getD value.length = value.length - windows.length * owner.stride ∧
      windows.map .ok <+: attempts memory node owner value := by
  induction iterates with
  | new => exact ⟨rfl, by simp [DeviceAddressIter.new], List.nil_prefix⟩
  | @next windows iter window later _ yields ih =>
      obtain ⟨prop, remain⟩ := iter
      obtain ⟨same, left, translated⟩ := ih
      obtain rfl : node = prop := same.symm
      replace left : remain.getD value.length = value.length - windows.length * owner.stride := left
      have more : value.length - windows.length * owner.stride ≠ 0 := by
        intro nothing
        rw [eval_nextInternal_done stands.level given (left.trans nothing)] at yields
        cases yields
      have here : windows.length < (attempts memory node owner value).length := by
        rw [length_attempts]
        exact entry_left ends translated more
      rw [eval_nextInternal_at stands given few positive here left] at yields
      obtain ⟨place, moved, yielded⟩ := bind_eq_ok.mp yields
      cases yielded
      refine ⟨rfl, by simp, ?_⟩
      have split := List.prefix_iff_eq_take.mp translated
      rw [List.length_map] at split
      rw [List.map_append, split, List.map_singleton, ← moved, List.take_append_getElem]
      exact List.take_prefix _ _

/-- The report of a node are the attempts for its whole entries, and what comes of the rest. -/
theorem report_of_entries {fuel : Nat} (enough : memory.stepBound ≤ fuel) :
    ∃ steps, memory.report fuel node = (.emitAll (attempts memory node owner value) >>= fun _ =>
      memory.addresses (steps + 1) ⟨node, some (value.length % owner.stride)⟩) := by
  have split : value.length / owner.stride * owner.stride + value.length % owner.stride =
      value.length := Nat.div_add_mod' _ _
  have few' : value.length / owner.stride ≤ value.length := Nat.div_le_self _ _
  have seen := stands.level.length_le given
  unfold Memory.stepBound at enough
  obtain ⟨steps, rfl⟩ : ∃ steps, fuel = value.length / owner.stride + (steps + 1) :=
    ⟨fuel - value.length / owner.stride - 1, by omega⟩
  have run := @addresses_entries memory node device owner ancestors value (value.length / owner.stride)
    (value.length % owner.stride) (steps + 1) stands given few positive (Nat.mod_lt _ positive)
    (Nat.le_of_eq split)
  rw [split, Nat.sub_self, List.drop_zero] at run
  refine ⟨steps, ?_⟩
  rw [Memory.report, addresses_new stands.level given]
  exact run

/-- If all entries are translated the iteration comes to what is left. -/
theorem iterates_of_translated {places : List Window}
    (translated : attempts memory node owner value = places.map .ok) {count : Nat}
    (most : count ≤ places.length) :
    ∃ remain, memory.Iterates node (places.take count) ⟨node, remain⟩ ∧
      remain.getD value.length = value.length - count * owner.stride := by
  induction count with
  | zero => exact ⟨none, .new, by simp⟩
  | succ count ih =>
      obtain ⟨remain, iterates, left⟩ := ih (by omega)
      have here : count < (attempts memory node owner value).length := by
        rw [translated, List.length_map]
        omega
      have step := eval_nextInternal_at stands given few positive here left
      simp only [translated, List.getElem_map, ok_bind] at step
      refine ⟨some (value.length - (count + 1) * owner.stride), ?_, rfl⟩
      rw [← List.take_append_getElem (by omega)]
      exact .next iterates step

/-- Then the iteration consumes exactly the value. -/
theorem consumes_of_ends (reg : node.reg = some (start, value.length))
    (placed : Placed memory start value) (ends : Ends memory node owner value) :
    Consumes memory node owner start value := by
  have remains : ∀ {windows iter}, memory.Iterates node windows iter →
      iter.remain.getD value.length ≠ 0 →
        value.length - iter.remain.getD value.length + owner.stride ≤ value.length := by
    intro windows iter iterates more
    obtain ⟨-, left, translated⟩ := iterates_prefix stands given few positive ends iterates
    rw [left] at more ⊢
    have next := (Nat.mul_le_mul_right owner.stride (entry_left ends translated more)).trans
      (Nat.div_mul_le_self _ _)
    rw [Nat.succ_mul] at next
    omega
  refine ⟨?_, ?_, ?_, ?_⟩
  · intro windows iter iterates more
    exact asks_inside stands reg placed few positive (remains iterates more)
  · intro windows iter window place iterates more _ _
    have inside := remains iterates more
    obtain ⟨-, left, -⟩ := iterates_prefix stands given few positive ends iterates
    omega
  · intro whole translated fuel enough
    obtain ⟨steps, report⟩ := report_of_entries stands given few positive enough
    rw [Nat.mod_eq_zero_of_dvd whole, addresses_done stands.level given] at report
    have fine : (.emitAll (attempts memory node owner value) :
        Emission Window Failure Unit).ending = .ok () := by
      refine Emission.emitAll_ending_ok.mpr ?_
      intro attempt member
      obtain ⟨window, entry, rfl⟩ := List.mem_map.mp member
      exact translated window entry
    have outputs := congrArg List.length (Emission.eq_of_emitAll_ok fine)
    rw [length_attempts, List.length_map] at outputs
    rw [report, Emission.bind_of_ok fine]
    refine ⟨rfl, ?_⟩
    rw [Emission.output_ofExcept, List.append_nil, outputs]
  · intro short fuel enough
    obtain ⟨steps, report⟩ := report_of_entries stands given few positive enough
    obtain ⟨text, refused⟩ := ends.resolve_left short
    rw [report, Emission.bind_of_error refused]
    exact ⟨text, rfl⟩

omit given in
/-- The step with which the rest of an entry is read does not refuse. -/
theorem not_refused_of_rest {rest : Nat} (steps : Nat) (more : rest ≠ 0)
    (short : rest < owner.stride) (least : rest ≤ value.length)
    (reg : node.reg = some (start, value.length))
    (inside : ∀ request ∈ (node.readRegInternal (value.length - rest)).questions memory.answer,
      ((memory.only start value.length).answer request).isSome) :
    ¬ Refused (memory.addresses (steps + 1) ⟨node, some rest⟩).ending := by
  obtain ⟨parent, above, level⟩ := stands.above.exists_node
  have fewer : parent.addressCells ≤ 2 ∧ parent.sizeCells ≤ 2 := by
    rw [level.addressCells, level.sizeCells]
    exact few
  rcases ok_or_error ((node.readRegInternal (value.length - rest)).eval memory.answer) with
    ⟨entry, read⟩ | ⟨reason, read⟩
  · exact absurd inside (asks_outside stands reg positive (by omega) read)
  · have fails : (DeviceAddressIter.nextInternal ⟨node, some rest⟩).eval memory.answer =
        .error reason := by
      unfold DeviceAddressIter.nextInternal
      simp only [reg, Option.getD_some]
      rw [if_neg more, Inquiry.eval_bind, eval_checkedSub least, ok_bind, Inquiry.eval_bind, read,
        error_bind]
    unfold Memory.addresses Memory.observe
    rw [fails, Emission.ofExcept_error_bind]
    have panics : OnlyPanics (.error reason : Except Failure (Option Window)) := by
      rw [← read]
      exact onlyPanics_readRegInternal above fewer
    rintro ⟨text, refused⟩
    cases refused
    exact panics.not_refused ⟨text, rfl⟩

/-- It does so only then. -/
theorem ends_of_consumes (reg : node.reg = some (start, value.length))
    (consumes : Consumes memory node owner start value) : Ends memory node owner value := by
  by_contra endless
  obtain ⟨short, fails⟩ := not_or.mp endless
  obtain ⟨steps, report⟩ := report_of_entries stands given few positive (Nat.le_refl _)
  have refused := consumes.broken short memory.stepBound (Nat.le_refl _)
  rw [report] at refused
  cases ended : (.emitAll (attempts memory node owner value) : Emission Window Failure Unit).ending with
  | error reason =>
      rw [Emission.bind_of_error ended] at refused
      exact fails (ended ▸ refused)
  | ok _ =>
      -- All whole entries are translated, and the iteration comes to the rest.
      rw [Emission.bind_of_ok ended] at refused
      have translated := Emission.eq_of_emitAll_ok ended
      have count := congrArg List.length translated
      rw [length_attempts, List.length_map] at count
      obtain ⟨remain, iterates, left⟩ := iterates_of_translated stands given few positive translated
        (Nat.le_refl _)
      have split := Nat.div_add_mod' value.length owner.stride
      have rest : remain.getD value.length = value.length % owner.stride := by
        rw [left, ← count]
        omega
      have more : value.length % owner.stride ≠ 0 := fun none => short (Nat.dvd_of_mod_eq_zero none)
      have inside := consumes.inside _ _ iterates (by rw [rest]; exact more)
      simp only [rest] at inside
      exact not_refused_of_rest stands few positive steps more (Nat.mod_lt _ positive)
        (Nat.mod_le _ _) reg inside refused

omit given in
/-- The iteration over a `reg` consumes exactly its value if and only if the stride divides
the length, or a whole entry is refused before one fails otherwise. -/
theorem consumes_iff (given : device.value? "reg" = some value)
    (reg : node.reg = some (start, value.length)) :
    Consumes memory node owner start value ↔ Ends memory node owner value := by
  obtain ⟨place, reg', placed⟩ := stands.level.exists_reg given
  obtain rfl : place = start := by
    rw [reg] at reg'
    cases reg'
    rfl
  exact ⟨ends_of_consumes stands given few positive reg,
    consumes_of_ends stands given few positive reg placed⟩

end Runs

section Rest

/-- A board whose UART has a `reg` of one entry and a half. -/
def oddBoard : StructBlock :=
  { uartBoard with
    children := .node (uartNode [pl011,
      .prop (.known .reg (be32 0x1000 ++ be32 0x200 ++ be32 0x3000) (by decide))]) .nil .nil }

def oddImage : Image :=
  .assemble 0x80000 oddBoard.encode knownNames (by decide +kernel) (by decide +kernel)

/-- The image holds the board. -/
theorem oddImage_serialises : Serialises oddImage.blob.whole oddImage.parser oddBoard := by
  apply known_serialises
  simp [oddBoard, uartBoard, rootNode, uartNode, oneCell, pl011, TokenForest.IsKnown,
    NodeToken.IsKnown, PropToken.isKnown_known]

/-- The UART on the board. -/
def oddUart : Device :=
  ⟨"uart", [⟨"compatible", utf8 "pl011" ++ [0]⟩, ⟨"reg", be32 0x1000 ++ be32 0x200 ++ be32 0x3000⟩]⟩

/-- The parser stands at its UART. -/
theorem oddUart_stands : ∃ node,
    Stands oddImage.blob.whole (some node) [oddUart, uartBoard.root.device] := by
  obtain ⟨node, -, stands, -⟩ := @node_at oddImage.blob.whole
    (oddImage.search none (some "pl011") oddImage.blob.whole.stepBound) oddBoard oddImage_serialises
    (by decide +kernel) (Nat.le_refl _) 0 [oddUart, uartBoard.root.device] (by decide +kernel)
  exact ⟨node, stands⟩

/-- The search reads on behind the `reg` and then panics. -/
theorem oddImage_overruns :
    Serialises oddImage.blob.whole oddImage.parser oddBoard ∧
      oddBoard.tree.matching none (some "pl011") = [[oddUart, uartBoard.root.device]] ∧
      oddBoard.tree.Accepted none (some "pl011") ∧
      (uartBoard.root.device.addressCells, uartBoard.root.device.sizeCells) = (1, 1) ∧
      oddImage.Returns none (some "pl011") .always (.error (.stopped .overflow)) [(0x1000, 0x200)] ∧
      ∀ node start, Stands oddImage.blob.whole (some node) [oddUart, uartBoard.root.device] →
        node.reg = some (start, 12) → ¬ Consumes oddImage.blob.whole node uartBoard.root.device start
          (be32 0x1000 ++ be32 0x200 ++ be32 0x3000) := by
  refine ⟨oddImage_serialises, by decide +kernel, by decide +kernel, by decide,
    ⟨by decide, 20, by decide +kernel⟩, ?_⟩
  intro node start stands reg consumes
  have ends := ends_of_consumes stands rfl (by decide) (by decide) reg consumes
  have same : oddImage.blob.whole.translation node = climb [oddUart, uartBoard.root.device] :=
    funext fun window => translation_of_stands stands (by decide)
  unfold Ends attempts at ends
  rw [same] at ends
  rcases ends with whole | ⟨text, refused⟩
  · exact absurd whole (by decide)
  · have fine : (.emitAll ((uartBoard.root.device.windows
        (be32 0x1000 ++ be32 0x200 ++ be32 0x3000)).map (climb [oddUart, uartBoard.root.device])) :
          Emission Window Failure Unit).ending = .ok () := by decide +kernel
    rw [fine] at refused
    cases refused

/-- There its value of twelve bytes is consumed exactly if the attempts end well. -/
theorem oddUart_consumes_iff : ∃ node start,
    Stands oddImage.blob.whole (some node) [oddUart, uartBoard.root.device] ∧
      (Consumes oddImage.blob.whole node uartBoard.root.device start
          (be32 0x1000 ++ be32 0x200 ++ be32 0x3000) ↔
        Ends oddImage.blob.whole node uartBoard.root.device
          (be32 0x1000 ++ be32 0x200 ++ be32 0x3000)) := by
  obtain ⟨node, stands⟩ := oddUart_stands
  obtain ⟨start, reg, -⟩ := stands.level.exists_reg rfl
  exact ⟨node, start, stands, consumes_iff stands (by decide) (by decide) rfl reg⟩

end Rest
end Rpi5.DeviceTree
