import Mathlib.Data.List.Forall2
import Rpi5.DeviceTree.Properties

/-!
# Reading nodes

The scan reads a structure block in memory completely: its matching nodes agree
with the matching nodes of the device tree, in document order, and the cursor ends
after the root (`scan_of_block`). So all the calls of a search on a serialised
tree are the reports of these nodes (`emission_of_block`).
-/

namespace Rpi5.DeviceTree

open Rpi5.Logical Rpi5.Semantics

/-- A number of steps no part of the walk over the blob exceeds. -/
def Memory.stepBound (memory : Memory) : Nat := memory.blob.bytes.length + 2 ^ 32

/-- The addresses of the values of `ranges` of a node and its parents. -/
def SimpleDeviceNode.sites : SimpleDeviceNode → List (Option Nat)
  | ⟨none, _, _, _, ranges⟩ => [ranges]
  | ⟨some parent, _, _, _, ranges⟩ => ranges :: parent.sites

/-- The addresses above a node which may be the root. -/
def sitesAbove : Option SimpleDeviceNode → List (Option Nat)
  | none => []
  | some parent => parent.sites

/-- The sites of a node are its own and those above it. -/
theorem SimpleDeviceNode.sites_eq (node : SimpleDeviceNode) :
    node.sites = node.ranges :: sitesAbove node.parent := by
  rcases node with ⟨_ | parent, addressCells, sizeCells, reg, ranges⟩ <;> rfl

section Nops

/-- Items of two lists are encoded one list after the other. -/
theorem encodeItems_append (first second : List PropItem) :
    encodeItems (first ++ second) = encodeItems first ++ encodeItems second := by
  induction first with
  | nil => rfl
  | cons item items ih => simp only [List.cons_append, encodeItems, ih, List.append_assoc]

/-- A number of `FDT_NOP` items is that number of words. -/
theorem encodeItems_nops (count : Nat) :
    encodeItems (List.replicate count .nop) = nops count := by
  induction count with
  | zero => rfl
  | succ count ih =>
      simp only [List.replicate_succ, encodeItems, ih, nops]
      rfl

/-- Every item takes some space. -/
theorem length_le_encodeItems (items : List PropItem) : items.length ≤ (encodeItems items).length := by
  induction items with
  | nil => exact Nat.le_refl 0
  | cons item items ih =>
      have some : 0 < item.encode.length := by
        cases item with
        | nop => decide
        | prop token =>
            simp only [PropItem.encode, token.length_encode]
            omega
      simp only [encodeItems, List.length_append, List.length_cons]
      omega

/-- A node with further `FDT_NOP` tokens after its properties. -/
def NodeToken.withNops (head : NodeToken) (count : Nat) : NodeToken where
  name := head.name
  padding := head.padding
  items := head.items ++ List.replicate count .nop
  nulFree := head.nulFree
  padded := head.padded

/-- Further `FDT_NOP` items stand at the end of the head. -/
theorem NodeToken.encode_withNops (head : NodeToken) (count : Nat) :
    (head.withNops count).encode = head.encode ++ nops count := by
  simp only [encode, withNops, encodeItems_append, encodeItems_nops, List.append_assoc]

/-- They say nothing about the device. -/
@[simp] theorem NodeToken.device_withNops (head : NodeToken) (count : Nat) :
    (head.withNops count).device = head.device := by
  have none : (List.replicate count PropItem.nop).filterMap PropItem.property? = [] := by
    rw [List.filterMap_replicate_of_none rfl]
  simp [device, withNops, none]

/-- Nor do they move its `ranges`. -/
theorem rangesSite_append_nops (items : List PropItem) (count address : Nat) (found : Option Nat) :
    rangesSite (items ++ List.replicate count .nop) address found = rangesSite items address found := by
  induction items generalizing address found with
  | nil =>
      induction count generalizing address with
      | zero => rfl
      | succ count ih => exact ih (address + 4)
  | cons item items ih =>
      cases item with
      | nop => exact ih _ _
      | prop token => exact ih _ _

/-- So its site stays. -/
@[simp] theorem NodeToken.site_withNops (head : NodeToken) (count address : Nat) :
    (head.withNops count).site address = head.site address :=
  rangesSite_append_nops head.items count _ none

/-- And its names. -/
theorem NodeToken.Named.withNops {memory : Memory} {strings : Nat} {head : NodeToken}
    (named : head.Named memory strings) (count : Nat) :
    (head.withNops count).Named memory strings := by
  intro token member
  simp only [NodeToken.withNops, List.mem_append, List.mem_replicate, reduceCtorEq, and_false,
    or_false] at member
  exact named token member

/-- A node begins with its token. -/
theorem NodeToken.begins {memory : Memory} {pointer : Nat} {head : NodeToken} {rest : Bytes}
    (holds : memory.Holds .struct pointer (head.encode ++ rest)) :
    (DtbParser.getTypes pointer).eval memory.answer = .ok .beginNode := by
  simp only [encode, List.append_assoc, Memory.holds_append] at holds
  exact (eval_getTypes_eq_ok (by decide)).mpr holds.1

namespace TokenForest

/-- The number of `FDT_NOP` tokens at the start. -/
def nopCount : TokenForest → Nat
  | .nop rest => rest.nopCount + 1
  | _ => 0

/-- The forest without the `FDT_NOP` tokens at its start. -/
def dropNops : TokenForest → TokenForest
  | .nop rest => rest.dropNops
  | other => other

/-- A forest is its leading `FDT_NOP` tokens and the rest. -/
theorem encode_dropNops (forest : TokenForest) :
    forest.encode = nops forest.nopCount ++ forest.dropNops.encode := by
  induction forest with
  | nil => rfl
  | nop rest ih => simp only [encode, nopCount, dropNops, nops, ih, List.append_assoc]
  | node => rfl

/-- Without them it is the same forest of devices. -/
@[simp] theorem forest_dropNops (forest : TokenForest) : forest.dropNops.forest = forest.forest := by
  induction forest with
  | nil => rfl
  | nop rest ih => simp only [dropNops, TokenForest.forest, ih]
  | node => rfl

/-- The first `FDT_NOP` tokens only move the rest. -/
theorem sites_dropNops (forest : TokenForest) (deviceName compatibleName : Option String)
    (address : Nat) (above : List (Option Nat)) :
    forest.dropNops.sites deviceName compatibleName (address + 4 * forest.nopCount) above =
      forest.sites deviceName compatibleName address above := by
  induction forest generalizing address with
  | nil => rfl
  | nop rest ih =>
      rw [sites, ← ih (address + 4), dropNops, nopCount]
      congr 1
      omega
  | node => rfl

/-- It has the same names. -/
theorem Named.dropNops {memory : Memory} {strings : Nat} {forest : TokenForest}
    (named : forest.Named memory strings) : forest.dropNops.Named memory strings := by
  induction forest with
  | nil => exact named
  | nop rest ih => exact ih named
  | node => exact named

/-- Without `FDT_NOP` tokens at its start a forest begins with the token of a node. -/
theorem atNode_dropNops {memory : Memory} {pointer : Nat} {forest : TokenForest}
    (holds : memory.Holds .struct pointer forest.dropNops.encode) : AtNode memory pointer := by
  induction forest with
  | nil => exact .inr ((eval_getTypes_eq_ok (by decide)).mpr holds)
  | nop rest ih => exact ih holds
  | node head children rest =>
      simp only [TokenForest.dropNops, encode, List.append_assoc] at holds
      exact .inl (NodeToken.begins holds)

end TokenForest
end Nops

section Scanning

variable {memory : Memory} {search : Search}

/-- An accepted node is opened, with the cursor after its properties. -/
theorem openNode_of_head {head : NodeToken} {nodeInfo : Option SimpleDeviceNode}
    {ancestors : Lineage} {pointer : Nat} (holds : memory.Holds .struct pointer head.encode)
    (named : head.Named memory search.parser.stringStart)
    (accepted : head.device.Accepted search.deviceName search.compatibleName ancestors)
    (atNode : AtNode memory (pointer + head.encode.length)) (stands : Stands memory nodeInfo ancestors)
    (enough : memory.stepBound ≤ search.fuel) :
    ∃ node, (DtbParser.openNode search nodeInfo pointer).eval memory.answer =
        .ok (node, head.device.isMatch search.deviceName search.compatibleName,
          pointer + head.encode.length) ∧
      node.parent = nodeInfo ∧ Level memory node head.device ∧
      node.ranges = head.site pointer := by
  have size := head.length_encode
  unfold NodeToken.encode at holds
  obtain ⟨start, items⟩ := Memory.holds_append.mp holds
  obtain ⟨begins, name⟩ := Memory.holds_append.mp start
  have name := (Memory.holds_append.mp name).1
  have itemsBound := items.2.1
  have below := items.addressable
  have opening : (DtbParser.fdtBeginNode ++ ((utf8 head.name ++ [0]) ++ head.padding)).length =
      4 + ((utf8 head.name).length + 1 + head.padding.length) := by
    simp only [DtbParser.fdtBeginNode, List.length_append, List.length_cons, List.length_nil]
  rw [opening] at items below
  have read : (DtbParser.getTypes pointer).eval memory.answer = .ok .beginNode :=
    (eval_getTypes_eq_ok (by decide)).mpr begins
  have text : (Dtb.readCharStr .struct (pointer + 4)).eval memory.answer = .ok head.name :=
    eval_readCharStr_eq_ok.mpr ⟨head.nulFree, name⟩
  have inside := atNode.addressable
  have rounded : (nextMultipleOf 64 (head.name.utf8ByteSize + 1) 4).eval memory.answer =
      .ok ((utf8 head.name).length + 1 + head.padding.length) := by
    rw [eval_nextMultipleOf_eq_ok, head.padded]
    refine ⟨.inr ?_, rfl⟩
    have length : head.name.utf8ByteSize = (utf8 head.name).length := rfl
    rw [length, ← head.padded]
    omega
  have itemsEnd : AtNode memory (pointer + (4 + ((utf8 head.name).length + 1 + head.padding.length)) +
      (encodeItems head.items).length) := by
    rw [size, ← Nat.add_assoc] at atNode
    exact atNode
  have visible := memory.le_limit .struct
  have low := memory.base_le .struct
  have from' := holds.1
  obtain ⟨after, run, parent, agrees, site⟩ := @propLoop_of_items memory search ancestors head.items
    (.new nodeInfo) head.name [] false _ search.fuel items named accepted itemsEnd
    (.fresh head.name nodeInfo) stands (by unfold Memory.stepBound at enough; omega) (by
      have fewer := length_le_encodeItems head.items
      unfold Memory.stepBound at enough
      unfold Blob.limit at visible
      omega)
  refine ⟨after, ?_, parent, agrees, site⟩
  unfold DtbParser.openNode
  simp only [Inquiry.eval_bind, read, ok_bind]
  rw [eval_checkedAdd (by omega)]
  simp only [ok_bind, text, rounded]
  rw [eval_checkedAdd (by omega)]
  simp only [ok_bind, size]
  rw [Nat.add_assoc pointer 4, run]
  simp only [Bool.false_or, Nat.add_assoc]
  rfl

/-- The forest at a cursor is scanned completely. -/
def ForestScanned (memory : Memory) (search : Search) (forest : TokenForest) : Prop :=
  ∀ prop pointer steps lineage, memory.Holds .struct pointer forest.encode →
    forest.Named memory search.parser.stringStart →
    forest.forest.Accepted search.deviceName search.compatibleName lineage →
    Stands memory (some prop) lineage → pointer + forest.encode.length < 2 ^ 64 →
    forest.encode.length ≤ steps →
    ∃ nodes, memory.scanChildren search steps prop pointer =
        ⟨nodes, .ok (pointer + forest.encode.length)⟩ ∧
      List.Forall₂ (fun node => Stands memory (some node)) nodes
        (forest.forest.matching search.deviceName search.compatibleName lineage) ∧
      nodes.map SimpleDeviceNode.sites =
        forest.sites search.deviceName search.compatibleName pointer prop.sites

/-- A node whose children are scanned completely is scanned completely. -/
theorem scanNode_of_head {head : NodeToken} {children : TokenForest}
    {nodeInfo : Option SimpleDeviceNode} {ancestors : Lineage} {pointer steps : Nat}
    (scanned : ForestScanned memory search children.dropNops)
    (holds : memory.Holds .struct pointer (head.encode ++ children.encode))
    (headNamed : head.Named memory search.parser.stringStart)
    (named : children.Named memory search.parser.stringStart)
    (headAccepted : head.device.Accepted search.deviceName search.compatibleName ancestors)
    (accepted : children.forest.Accepted search.deviceName search.compatibleName
      (head.device :: ancestors))
    (stands : Stands memory nodeInfo ancestors)
    (below : pointer + (head.encode.length + children.encode.length) < 2 ^ 64)
    (longer : children.encode.length < steps) (enough : memory.stepBound ≤ search.fuel) :
    ∃ nodes, memory.scanNode search steps nodeInfo pointer =
        ⟨nodes, .ok (pointer + (head.encode.length + children.encode.length))⟩ ∧
      List.Forall₂ (fun node => Stands memory (some node)) nodes
        ((if head.device.isMatch search.deviceName search.compatibleName then
            [head.device :: ancestors] else []) ++
          children.forest.matching search.deviceName search.compatibleName
            (head.device :: ancestors)) ∧
      nodes.map SimpleDeviceNode.sites =
        (if head.device.isMatch search.deviceName search.compatibleName then
            [head.site pointer :: sitesAbove nodeInfo] else []) ++
          children.sites search.deviceName search.compatibleName (pointer + head.encode.length)
            (head.site pointer :: sitesAbove nodeInfo) := by
  obtain ⟨steps, rfl⟩ : ∃ rest, steps = rest + 1 := ⟨steps - 1, by omega⟩
  -- The property loop also takes the `FDT_NOP` tokens in front of the children.
  have size : (head.withNops children.nopCount).encode.length =
      head.encode.length + (nops children.nopCount).length := by
    rw [head.encode_withNops, List.length_append]
  have parts : children.encode.length =
      (nops children.nopCount).length + children.dropNops.encode.length := by
    rw [← List.length_append, ← children.encode_dropNops]
  rw [children.encode_dropNops, ← List.append_assoc, ← head.encode_withNops,
    Memory.holds_append] at holds
  obtain ⟨opening, rest⟩ := holds
  obtain ⟨node, opened, parent, level, site⟩ := openNode_of_head opening (headNamed.withNops _)
    (by rwa [head.device_withNops]) (children.atNode_dropNops rest) stands enough
  rw [head.device_withNops] at opened level
  rw [head.site_withNops] at site
  obtain ⟨nodes, scan, agree, sites⟩ := scanned node _ steps (head.device :: ancestors) rest
    named.dropNops (by rwa [children.forest_dropNops]) (.inner level (by rwa [parent]))
    (by omega) (by omega)
  rw [children.forest_dropNops] at agree
  have place : pointer + (head.withNops children.nopCount).encode.length +
      children.dropNops.encode.length = pointer + (head.encode.length + children.encode.length) := by
    omega
  rw [place] at scan
  rw [size, ← Nat.add_assoc, length_nops, children.sites_dropNops, node.sites_eq, parent, site] at sites
  unfold Memory.scanNode Memory.observe
  rw [opened, Emission.ofExcept_ok_bind]
  cases head.device.isMatch search.deviceName search.compatibleName with
  | false => exact ⟨nodes, scan, agree, sites⟩
  | true =>
      refine ⟨node :: nodes, ?_, .cons (.inner level (by rwa [parent])) agree, ?_⟩
      · have emitted : (Emission.emit node : Emission SimpleDeviceNode Failure Unit).ending = .ok () :=
          rfl
        simp only [↓reduceIte]
        rw [Emission.bind_of_ok emitted, scan]
        rfl
      · rw [List.map_cons, sites, node.sites_eq, parent, site]
        rfl

/-- Every forest is scanned completely, also without its first `FDT_NOP` tokens. -/
theorem forestScanned (enough : memory.stepBound ≤ search.fuel) (forest : TokenForest) :
    ForestScanned memory search forest ∧ ForestScanned memory search forest.dropNops := by
  induction forest with
  | nil =>
      have scanned : ForestScanned memory search .nil := by
        intro prop pointer steps lineage holds _ _ _ below longer
        obtain ⟨steps, rfl⟩ : ∃ rest, steps = rest + 1 :=
          ⟨steps - 1, by simp only [TokenForest.encode, DtbParser.fdtEndNode, List.length_cons,
            List.length_nil] at longer; omega⟩
        have read : (DtbParser.getTypes pointer).eval memory.answer = .ok .endNode :=
          (eval_getTypes_eq_ok (by decide)).mpr holds
        refine ⟨[], ?_, .nil, rfl⟩
        unfold Memory.scanChildren Memory.observe
        rw [read, Emission.ofExcept_ok_bind]
        have fits : pointer + 4 < 2 ^ 64 := below
        simp only
        rw [eval_checkedAdd fits]
        rfl
      exact ⟨scanned, scanned⟩
  | nop rest ih =>
      refine ⟨?_, ih.2⟩
      intro prop pointer steps lineage holds named accepted stands below longer
      rw [rest.length_encode_nop] at below longer ⊢
      obtain ⟨steps, rfl⟩ : ∃ rest, steps = rest + 1 := ⟨steps - 1, by omega⟩
      obtain ⟨first, later⟩ := Memory.holds_append.mp holds
      have read : (DtbParser.getTypes pointer).eval memory.answer = .ok .nop :=
        (eval_getTypes_eq_ok (by decide)).mpr first
      obtain ⟨nodes, scan, agree, sites⟩ := ih.1 prop (pointer + 4) steps lineage later named accepted
        stands (by omega) (by omega)
      refine ⟨nodes, ?_, agree, sites⟩
      unfold Memory.scanChildren Memory.observe
      rw [read, Emission.ofExcept_ok_bind]
      simp only
      rw [eval_checkedAdd (by omega), Emission.ofExcept_ok_bind, scan, Nat.add_assoc]
  | node head children rest childrenScanned restScanned =>
      have scanned : ForestScanned memory search (.node head children rest) := by
        intro prop pointer steps lineage holds named accepted stands below longer
        have size : (TokenForest.node head children rest).encode.length =
            head.encode.length + children.encode.length + rest.encode.length := by
          simp only [TokenForest.encode, List.length_append]
        have opening := head.length_encode
        rw [size] at below longer ⊢
        obtain ⟨steps, rfl⟩ : ∃ rest, steps = rest + 1 := ⟨steps - 1, by omega⟩
        obtain ⟨first, later⟩ := Memory.holds_append.mp holds
        rw [List.length_append] at later
        obtain ⟨headNamed, childrenNamed, restNamed⟩ := named
        obtain ⟨headAccepted, childrenAccepted, restAccepted⟩ := accepted
        have read := NodeToken.begins first
        obtain ⟨nodes, scan, agree, sites⟩ := @scanNode_of_head memory search head children (some prop)
          lineage pointer steps childrenScanned.2 first headNamed childrenNamed headAccepted
          childrenAccepted stands (by omega) (by omega) enough
        obtain ⟨others, scanRest, agreeRest, sitesRest⟩ := restScanned.1 prop _ steps lineage later
          restNamed restAccepted stands (by omega) (by omega)
        refine ⟨nodes ++ others, ?_, ?_, ?_⟩
        · unfold Memory.scanChildren
          simp only [Memory.observe, read, Emission.ofExcept_ok_bind]
          rw [scan, Emission.bind_of_ok rfl, scanRest]
          simp only [Nat.add_assoc]
        · exact List.rel_append agree agreeRest
        · rw [List.map_append, sites, sitesRest]
          rfl
      exact ⟨scanned, scanned⟩

end Scanning

section Blocks

variable {memory : Memory} {search : Search}

/-- A search for exactly one of the two names. -/
def OneName (deviceName compatibleName : Option String) : Prop :=
  deviceName.isSome ∧ compatibleName = none ∨ deviceName = none ∧ compatibleName.isSome

/-- Such a search passes the first check of `find_node`. -/
theorem OneName.no_clash {deviceName compatibleName : Option String}
    (one : OneName deviceName compatibleName) :
    ¬ (deviceName.isSome ∧ compatibleName.isSome ∨ deviceName.isNone ∧ compatibleName.isNone) := by
  rcases one with ⟨device, rfl⟩ | ⟨rfl, compatible⟩
  · simpa using Option.isSome_iff_ne_none.mp device
  · simpa using Option.isSome_iff_ne_none.mp compatible

/-- Any other search is refused. -/
theorem emission_of_clash (clash : ¬ OneName search.deviceName search.compatibleName) :
    memory.emission search = .ofExcept (.error (.stopped (.err
      "device name and compatible name cannot be searched for at the same time"))) := by
  apply if_pos
  unfold OneName at clash
  cases deviceName : search.deviceName <;> cases compatibleName : search.compatibleName <;>
    simp_all

/-- The emission of such a search: the scan with its reports, and the last check. -/
theorem emission_eq (one : OneName search.deviceName search.compatibleName) :
    memory.emission search = (memory.scan search).expand (memory.report search.fuel) >>=
      fun pointer => memory.observe (DtbParser.checkEnd pointer) :=
  if_neg one.no_clash

/-- The end of the structure block is computed if it is an address. -/
theorem eval_getStructEndAddress {parser : DtbParser} (addressable : parser.structEnd < 2 ^ 64) :
    parser.dtbHeader.getStructEndAddress.eval memory.answer = .ok parser.structEnd := by
  have total : parser.dtbHeader.address + parser.dtbHeader.header.offDtStruct +
      parser.dtbHeader.header.sizeDtStruct = parser.structEnd := rfl
  unfold Dtb.getStructEndAddress Dtb.getStructStartAddress
  rw [Inquiry.eval_bind, eval_checkedAdd (by omega), ok_bind, eval_checkedAdd (by omega), total]

/-- `skip_nop` skips the tokens in front of the root. -/
theorem skipNop_of_nops {parser : DtbParser} {count pointer steps : Nat} {token : Token}
    (holds : memory.Holds .struct pointer (nops count))
    (follows : (DtbParser.getTypes (pointer + 4 * count)).eval memory.answer = .ok token)
    (differs : token ≠ .nop) (covered : pointer + 4 * count < parser.structEnd + 4)
    (addressable : parser.structEnd < 2 ^ 64) (longer : count < steps) :
    (DtbParser.skipNop parser steps pointer).eval memory.answer = .ok (pointer + 4 * count) := by
  induction count generalizing pointer steps with
  | zero =>
      obtain ⟨steps, rfl⟩ : ∃ rest, steps = rest + 1 := ⟨steps - 1, by omega⟩
      unfold DtbParser.skipNop
      simp only [Inquiry.eval_bind, eval_getStructEndAddress addressable, ok_bind]
      split
      · have read : (DtbParser.getTypes pointer).eval memory.answer = .ok token := follows
        rw [Inquiry.eval_bind, read, ok_bind]
        cases token <;> first | exact absurd rfl differs | rfl
      · rfl
  | succ count ih =>
      obtain ⟨steps, rfl⟩ : ∃ rest, steps = rest + 1 := ⟨steps - 1, by omega⟩
      obtain ⟨first, rest⟩ := Memory.holds_append.mp holds
      have read : (DtbParser.getTypes pointer).eval memory.answer = .ok .nop :=
        (eval_getTypes_eq_ok (by decide)).mpr first
      have place : pointer + 4 * (count + 1) = pointer + 4 + 4 * count := by omega
      rw [place] at follows covered ⊢
      have limit := addressable_of_getTypes follows
      unfold DtbParser.skipNop
      simp only [Inquiry.eval_bind, eval_getStructEndAddress addressable, ok_bind]
      rw [if_pos (by omega), Inquiry.eval_bind, read, ok_bind]
      simp only [Inquiry.eval_bind]
      rw [eval_checkedAdd (by omega)]
      exact ih rest follows covered (by omega)

/-- The last check accepts `FDT_END`, and nothing in front of it. -/
theorem checkEnd_of_nops {pointer count : Nat}
    (holds : memory.Holds .struct pointer (nops count ++ DtbParser.fdtEnd)) :
    (DtbParser.checkEnd pointer).eval memory.answer =
      if count = 0 then .ok () else .error parseIncomplete := by
  unfold DtbParser.checkEnd
  rw [Inquiry.eval_bind]
  cases count with
  | zero =>
      have read : (DtbParser.getTypes pointer).eval memory.answer = .ok .fdtEnd :=
        (eval_getTypes_eq_ok (by decide)).mpr holds
      simp [read]
  | succ count =>
      rw [nops, List.append_assoc, Memory.holds_append] at holds
      have read : (DtbParser.getTypes pointer).eval memory.answer = .ok .nop :=
        (eval_getTypes_eq_ok (by decide)).mpr holds.1
      simp [read, parseIncomplete]

variable {block : StructBlock}

/-- A serialised tree is scanned completely, up to the end of its root. -/
theorem scan_of_block (serial : Serialises memory search.parser block)
    (accepted : block.tree.Accepted search.deviceName search.compatibleName)
    (enough : memory.stepBound ≤ search.fuel) :
    ∃ nodes stop, memory.scan search = ⟨nodes, .ok stop⟩ ∧
      List.Forall₂ (fun node => Stands memory (some node)) nodes
        (block.tree.matching search.deviceName search.compatibleName) ∧
      nodes.map SimpleDeviceNode.sites =
        block.sites search.deviceName search.compatibleName search.parser.structStart ∧
      (DtbParser.checkEnd stop).eval memory.answer =
        if block.trailing = 0 then .ok () else .error parseIncomplete := by
  obtain ⟨encoded, rootNamed, named, covered, addressable⟩ := serial
  unfold StructBlock.encode at encoded
  obtain ⟨front, ends⟩ := Memory.holds_append.mp encoded
  obtain ⟨leading, tree⟩ := Memory.holds_append.mp front
  have visible := memory.le_limit .struct
  have low := memory.base_le .struct
  have limit := memory.blob.addressable
  have endBound := ends.2.1
  have start := encoded.1
  unfold Blob.limit at visible
  unfold Memory.stepBound at enough
  simp only [List.length_append, length_nops, DtbParser.fdtEnd, List.length_cons,
    List.length_nil] at tree ends endBound
  obtain ⟨rootAccepted, childrenAccepted, -⟩ := accepted
  have begins := NodeToken.begins tree
  have skipped := @skipNop_of_nops memory search.parser block.leading _ search.fuel _ leading begins
    (by decide) covered addressable (by omega)
  obtain ⟨nodes, scan, agree, sites⟩ := @scanNode_of_head memory search block.root block.children none []
    _ search.fuel (forestScanned (by unfold Memory.stepBound; omega) block.children).2 tree rootNamed
    named rootAccepted childrenAccepted .root (by omega) (by omega)
    (by unfold Memory.stepBound; omega)
  refine ⟨nodes, _, ?_, ?_, ?_, checkEnd_of_nops ends⟩
  · have started : search.parser.dtbHeader.getStructStartAddress.eval memory.answer =
        .ok search.parser.structStart := by
      apply eval_checkedAdd_eq_ok.mpr ⟨?_, rfl⟩
      change search.parser.structStart < 2 ^ 64
      omega
    unfold Memory.scan
    simp only [Memory.observe, started, Emission.ofExcept_ok_bind, skipped, scan]
    rw [Nat.add_assoc]
  · have whole : block.tree.matching search.deviceName search.compatibleName =
        (if block.root.device.isMatch search.deviceName search.compatibleName then
          [[block.root.device]] else []) ++
        block.children.forest.matching search.deviceName search.compatibleName
          [block.root.device] := List.append_nil _
    rw [whole]
    exact agree
  · rw [sites]
    exact (List.append_nil _).symm

/-- All the calls of a search on a serialised tree are the reports of its matching
nodes, and it ends at `FDT_END` unless a `FDT_NOP` is in front of it. -/
theorem emission_of_block (serial : Serialises memory search.parser block)
    (accepted : block.tree.Accepted search.deviceName search.compatibleName)
    (enough : memory.stepBound ≤ search.fuel)
    (one : OneName search.deviceName search.compatibleName) :
    ∃ nodes, List.Forall₂ (fun node => Stands memory (some node)) nodes
        (block.tree.matching search.deviceName search.compatibleName) ∧
      nodes.map SimpleDeviceNode.sites =
        block.sites search.deviceName search.compatibleName search.parser.structStart ∧
      memory.emission search = Emission.each (memory.report search.fuel) nodes
        (.ofExcept (if block.trailing = 0 then .ok () else .error parseIncomplete)) := by
  obtain ⟨nodes, stop, scan, agree, sites, ending⟩ := scan_of_block serial accepted enough
  refine ⟨nodes, agree, sites, ?_⟩
  rw [emission_eq one, scan, Emission.expand, Emission.each_bind, Emission.ofExcept_ok_bind,
    Memory.observe, ending]

/-- Related lists are related at every place. -/
theorem exists_of_forall₂ {α β : Type} {related : α → β → Prop} {first : List α} {second : List β}
    (all : List.Forall₂ related first second) {index : Nat} {value : β}
    (found : second[index]? = some value) : ∃ one, first[index]? = some one ∧ related one value := by
  induction all generalizing index with
  | nil => simp at found
  | cons head _ ih =>
      cases index with
      | zero =>
          simp only [List.getElem?_cons_zero, Option.some.injEq] at found
          subst found
          exact ⟨_, rfl, head⟩
      | succ index => exact ih found

/-- The node scanned for one of the matching nodes of the tree. -/
theorem node_at (serial : Serialises memory search.parser block)
    (accepted : block.tree.Accepted search.deviceName search.compatibleName)
    (enough : memory.stepBound ≤ search.fuel) {index : Nat} {lineage : Lineage}
    (here : (block.tree.matching search.deviceName search.compatibleName)[index]? = some lineage) :
    ∃ node, (memory.scan search).output[index]? = some node ∧ Stands memory (some node) lineage ∧
      (block.sites search.deviceName search.compatibleName search.parser.structStart)[index]? =
        some node.sites := by
  obtain ⟨nodes, stop, scan, agree, same, -⟩ := scan_of_block serial accepted enough
  obtain ⟨node, found, stands⟩ := exists_of_forall₂ agree here
  refine ⟨node, by rw [scan, found], stands, ?_⟩
  rw [← same, List.getElem?_map, found, Option.map_some]

/-- The same for an image: the nodes found stand for the matching nodes of the tree, with
the addresses of their `ranges`. -/
theorem Image.emission_of_block {image : Image} {deviceName compatibleName : Option String}
    {fuel : Nat} (serial : Serialises image.blob.whole image.parser block)
    (accepted : block.tree.Accepted deviceName compatibleName)
    (enough : image.blob.whole.stepBound ≤ fuel) (one : OneName deviceName compatibleName) :
    ∃ nodes, List.Forall₂ (fun node => Stands image.blob.whole (some node)) nodes
        (block.tree.matching deviceName compatibleName) ∧
      (∀ (index : Nat) node, nodes[index]? = some node →
        (block.sites deviceName compatibleName image.parser.structStart)[index]? =
          some node.sites) ∧
      image.emission deviceName compatibleName fuel =
        Emission.each (image.blob.whole.report fuel) nodes
          (.ofExcept (if block.trailing = 0 then .ok () else .error parseIncomplete)) := by
  obtain ⟨nodes, agree, sites, emits⟩ := @DeviceTree.emission_of_block image.blob.whole
    (image.search deviceName compatibleName fuel) block serial accepted enough one
  refine ⟨nodes, agree, fun index node found => ?_, emits⟩
  have same : block.sites deviceName compatibleName image.parser.structStart =
      nodes.map SimpleDeviceNode.sites := sites.symm
  rw [same, List.getElem?_map, found, Option.map_some]

/-- Any other search is refused. -/
theorem Image.emission_of_no_name {image : Image} {deviceName compatibleName : Option String}
    {fuel : Nat} (clash : ¬ OneName deviceName compatibleName) :
    image.emission deviceName compatibleName fuel = .ofExcept (.error (.stopped (.err
      "device name and compatible name cannot be searched for at the same time"))) :=
  @emission_of_clash image.blob.whole (image.search deviceName compatibleName fuel) clash

end Blocks
end Rpi5.DeviceTree
