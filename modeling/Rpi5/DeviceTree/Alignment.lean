import Rpi5.DeviceTree.Termination
import Rpi5.Semantics.Contracts

/-!
# The grid of the structure block

The cursor is moved by lengths out of the blob, and the addresses of `reg` and `ranges`
are kept for later. Every such address is a whole number of words behind the start of
the structure block, whatever the memory holds: tokens, property headers and cells are
read only on this grid. The contract also says that the code up to the properties of a
node never unwraps the parent of a root.
-/

namespace Rpi5.DeviceTree

open Rpi5.Logical Rpi5.Semantics

/-- An address is a whole number of words behind a start. -/
def OnGrid (start address : Nat) : Prop := ∃ words, address = start + 4 * words

/-- The reads of a search. -/
def Image.asked (image : Image) (deviceName compatibleName : Option String) (callback : Callback)
    (fuel : Nat) : List Request :=
  (image.parser.findNode deviceName compatibleName fuel).asked image.blob.whole.answer callback []

/-- A token, a property header or a cell is read on the grid, and the header of the blob is
not read again. -/
def Request.OnGrid (start : Nat) : Request → Prop
  | .header _ => False
  | .token address => DeviceTree.OnGrid start address
  | .property address => DeviceTree.OnGrid start address
  | .word address => DeviceTree.OnGrid start address
  | .text _ _ => True

/-- What a node remembers stands on the grid, and only a child has a `reg`. -/
structure SimpleDeviceNode.Sited (start : Nat) (node : SimpleDeviceNode) : Prop where
  reg : ∀ place ∈ node.reg, OnGrid start place.1
  ranges : ∀ address ∈ node.ranges, OnGrid start address
  owner : node.reg.isSome → node.parent.isSome

/-- A node which has said nothing yet is sited. -/
theorem sited_new {start : Nat} (nodeInfo : Option SimpleDeviceNode) :
    (SimpleDeviceNode.new nodeInfo).Sited start where
  reg := by rintro place ⟨⟩
  ranges := by rintro address ⟨⟩
  owner := by rintro ⟨⟩

/-- So do a node, if any, and all its ancestors. -/
inductive Lined (start : Nat) : Option SimpleDeviceNode → Prop where
  | top : Lined start none
  | inner {node} (here : node.Sited start) (above : Lined start node.parent) : Lined start (some node)

/-- The code which parses: it reads on the grid and unwraps nothing. -/
def parsing (start : Nat) : Contract Request Stop := ⟨Request.OnGrid start, (· ≠ .unwrapNone)⟩

/-- All code of a search: it reads on the grid. -/
def walking (start : Nat) : Contract Request Stop := ⟨Request.OnGrid start, fun _ => True⟩

section Grid

variable {start first second : Nat}

/-- Whole words further on is on the grid again. -/
theorem OnGrid.add (here : OnGrid start first) (whole : 4 ∣ second) : OnGrid start (first + second) := by
  obtain ⟨words, rfl⟩ := here
  obtain ⟨more, rfl⟩ := whole
  exact ⟨words + more, by omega⟩

/-- On a grid which starts at a multiple of four are multiples of four only. -/
theorem OnGrid.aligned (here : OnGrid start first) (whole : 4 ∣ start) : 4 ∣ first := by
  obtain ⟨words, rfl⟩ := here
  exact Nat.dvd_add whole (Nat.dvd_mul_right 4 words)

end Grid

section Parsing

variable {start address length width first second : Nat} {node : SimpleDeviceNode} {search : Search}

/-- Reading code which keeps the contract of the parsing code. -/
abbrev Parses {α : Type} (start : Nat) (post : α → Prop) (reading : Reading α) : Prop :=
  Dialogue.Meets (parsing start) post reading

/-- Stopping with a message asks nothing. -/
theorem parses_err {α : Type} {post : α → Prop} (message : String) :
    Parses start post (err message) := .stop nofun

/-- A request on the grid is one. -/
theorem parses_ask {request : Request} (here : request.OnGrid start) :
    Parses start (fun _ => True) (ask request) := .ask here fun _ => .done trivial

/-- Checked arithmetic asks nothing. -/
theorem parses_checkedAdd : Parses start (· = first + second) (checkedAdd width first second) := by
  unfold checkedAdd
  split
  · exact .done rfl
  · exact .stop nofun

/-- So does a difference. -/
theorem parses_checkedSub :
    Parses start (fun left => left + second = first) (checkedSub first second) := by
  unfold checkedSub
  split
  case isTrue ordered => exact .done (Nat.sub_add_cancel ordered)
  case isFalse => exact .stop nofun

/-- So does a product. -/
theorem parses_checkedMul : Parses start (· = first * second) (checkedMul width first second) := by
  unfold checkedMul
  split
  · exact .done rfl
  · exact .stop nofun

/-- A length is rounded up to whole words. -/
theorem parses_nextMultipleOf : Parses start (4 ∣ ·) (nextMultipleOf width length 4) := by
  unfold nextMultipleOf
  split
  case isTrue whole => exact .done (Nat.dvd_of_mod_eq_zero whole)
  case isFalse =>
    refine parses_checkedAdd.mono (fun _ => id) (fun _ => id) ?_
    rintro _ rfl
    omega

/-- A cell is read on the grid if its address is there. -/
theorem parses_readU32FromPtr (here : OnGrid start address) :
    Parses start (fun _ => True) (Dtb.readU32FromPtr address) :=
  (@parses_ask start (.word address) here).bind fun _ _ => .done trivial

/-- Strings are bytes, which are everywhere. -/
theorem parses_readCharStr (block : Block) :
    Parses start (fun _ => True) (Dtb.readCharStr block address) := by
  refine (@parses_ask start (.text block address) trivial).bind fun bytes _ => ?_
  cases decodeUtf8 bytes with
  | none => exact parses_err _
  | some text => exact .done trivial

/-- The cells of a row follow one another on the grid. -/
theorem parses_readRegs {cells : Nat} (here : OnGrid start address) :
    Parses start (fun row => row.2 = 4 * cells) (Dtb.readRegs address cells) := by
  have loop : ∀ result consumed, 4 ∣ consumed →
      Parses start (fun row => row.2 = consumed + 4 * cells)
        (Dtb.readRegsLoop address cells result consumed) := by
    induction cells with
    | zero => exact fun _ _ _ => .done rfl
    | succ cells ih =>
        intro result consumed whole
        unfold Dtb.readRegsLoop
        refine parses_checkedAdd.bind fun place moved => ?_
        have there : OnGrid start place := by
          rw [moved]
          exact here.add whole
        refine (parses_readU32FromPtr there).bind fun _ _ => parses_checkedAdd.bind fun _ _ => ?_
        refine parses_checkedAdd.bind fun later moved => ?_
        refine (ih _ later (by omega)).mono (fun _ => id) (fun _ => id) fun row size => ?_
        omega
  have whole := loop 0 0 (Nat.dvd_zero 4)
  unfold Dtb.readRegs
  simpa only [Nat.zero_add] using whole

/-- So are the strings of a list. -/
theorem parses_next {iter : CharStringIter} : Parses start (fun _ => True) iter.next := by
  unfold CharStringIter.next CharStringIter.nextInternal
  split
  · exact .done trivial
  · have taken : Parses start (fun _ => True) iter.nextInternal := by
      refine (parses_readCharStr .struct).bind fun _ _ => parses_checkedAdd.bind fun _ _ => ?_
      split
      · exact parses_err _
      · split
        · exact parses_err _
        · exact .done trivial
    exact taken.bind fun _ _ => .done trivial

/-- And those of `compatible`. -/
theorem parses_compatibleLoop {name : String} {steps : Nat} {iter : CharStringIter} {result : Bool} :
    Parses start (fun _ => True) (SimpleDeviceNode.compatibleLoop name steps iter result) := by
  induction steps generalizing iter result with
  | zero => exact .stop nofun
  | succ steps ih =>
      refine parses_next.bind fun taken _ => ?_
      rcases taken with _ | ⟨text, later⟩
      · exact .done trivial
      · exact ih

/-- A property adds at most its own address to what the node remembers. -/
theorem parses_propArm {kind : PropName} (here : OnGrid start address) (sited : node.Sited start) :
    Parses start (fun found => found.2.1.Sited start ∧ found.2.1.parent = node.parent)
      (node.propArm search address length kind) := by
  obtain ⟨reg, ranges, owner⟩ := sited
  cases kind with
  | addressCells | sizeCells =>
      exact (parses_readU32FromPtr here).bind fun _ _ => .done ⟨⟨reg, ranges, owner⟩, rfl⟩
  | compatible =>
      unfold SimpleDeviceNode.propArm
      cases search.compatibleName with
      | none => exact .done ⟨⟨reg, ranges, owner⟩, rfl⟩
      | some name => exact parses_compatibleLoop.bind fun _ _ => .done ⟨⟨reg, ranges, owner⟩, rfl⟩
  | deviceName =>
      unfold SimpleDeviceNode.propArm
      cases search.deviceName with
      | none => exact .done ⟨⟨reg, ranges, owner⟩, rfl⟩
      | some name =>
          exact (parses_readCharStr .struct).bind fun _ _ => .done ⟨⟨reg, ranges, owner⟩, rfl⟩
  | reg =>
      unfold SimpleDeviceNode.propArm
      cases node.parent with
      | none => exact parses_err _
      | some parent =>
          refine parses_checkedAdd.bind fun _ _ => .done ⟨⟨?_, ranges, fun _ => rfl⟩, rfl⟩
          rintro place ⟨⟩
          exact here
  | ranges =>
      refine .done ⟨⟨reg, ?_, owner⟩, rfl⟩
      rintro place ⟨⟩
      exact here
  | other => exact .done ⟨⟨reg, ranges, owner⟩, rfl⟩

/-- After a property the cursor is on the grid again. -/
theorem parses_parseProp (here : OnGrid start address) (sited : node.Sited start) :
    Parses start (fun found => found.2.1.Sited start ∧ found.2.1.parent = node.parent ∧
      OnGrid start found.2.2) (node.parseProp search address) := by
  have checked : ∀ length required,
      Parses start (fun _ => True) (SimpleDeviceNode.checkLength length required) := by
    intro length required
    unfold SimpleDeviceNode.checkLength
    split
    · split
      · exact parses_err _
      · exact .done trivial
    · exact .done trivial
  unfold SimpleDeviceNode.parseProp
  refine parses_checkedAdd.bind fun token moved => ?_
  have header : OnGrid start token := by
    rw [moved]
    exact here.add (by decide)
  have property : Parses start (fun _ => True) (FdtProperty.read token) :=
    (@parses_ask start (.property token) header).bind fun _ _ => .done trivial
  refine property.bind fun found _ => parses_checkedAdd.bind fun value moved => ?_
  have there : OnGrid start value := by
    rw [moved]
    exact header.add (by decide)
  refine parses_checkedAdd.bind fun _ _ => parses_checkedAdd.bind fun _ _ => ?_
  refine (parses_readCharStr .strings).bind fun name _ => ?_
  refine (parses_propArm there sited).bind fun ⟨result, later, required⟩ kept => ?_
  refine (checked _ _).bind fun _ _ => parses_nextMultipleOf.bind fun padded whole => ?_
  refine parses_checkedAdd.bind fun next moved => .done ⟨kept.1, kept.2, ?_⟩
  rw [moved]
  exact there.add whole

/-- A token is read on the grid if the cursor is there. -/
theorem parses_getTypes (here : OnGrid start address) :
    Parses start (fun _ => True) (DtbParser.getTypes address) :=
  (@parses_ask start (.token address) here).bind fun _ _ => .done trivial

/-- Behind the properties of a node the cursor is on the grid, and the node is sited. -/
theorem parses_propLoop {steps : Nat} {found : Bool} (here : OnGrid start address)
    (sited : node.Sited start) :
    Parses start (fun opened => opened.1.Sited start ∧ opened.1.parent = node.parent ∧
      OnGrid start opened.2.2) (DtbParser.propLoop search steps node found address) := by
  induction steps generalizing node found address with
  | zero => exact .stop nofun
  | succ steps ih =>
      unfold DtbParser.propLoop
      refine (parses_getTypes here).bind fun token _ => ?_
      cases token with
      | nop =>
          refine parses_checkedAdd.bind fun next moved => ih ?_ sited
          rw [moved]
          exact here.add (by decide)
      | prop =>
          refine (parses_parseProp here sited).bind ?_
          rintro ⟨result, later, next⟩ ⟨sited, same, there⟩
          refine (ih there sited).mono (fun _ => id) (fun _ => id) fun opened kept => ?_
          exact ⟨kept.1, kept.2.1.trans same, kept.2.2⟩
      | beginNode | endNode => exact .done ⟨sited, rfl, here⟩
      | fdtEnd | unknown => exact parses_err _

/-- An opened node is sited below its parent, and the cursor is on the grid. -/
theorem parses_openNode {nodeInfo : Option SimpleDeviceNode} (here : OnGrid start address) :
    Parses start (fun opened => opened.1.Sited start ∧ opened.1.parent = nodeInfo ∧
      OnGrid start opened.2.2) (DtbParser.openNode search nodeInfo address) := by
  unfold DtbParser.openNode
  refine (parses_getTypes here).bind fun token _ => ?_
  cases token with
  | beginNode =>
      refine parses_checkedAdd.bind fun name moved => (parses_readCharStr .struct).bind fun _ _ => ?_
      refine parses_nextMultipleOf.bind fun padded whole => parses_checkedAdd.bind fun next after => ?_
      have there : OnGrid start next := by
        rw [after, moved]
        exact (here.add (by decide)).add whole
      exact @parses_propLoop start next (.new nodeInfo) search _ false there (sited_new nodeInfo)
  | _ => exact parses_err _

/-- So is the cursor behind the tokens in front of the root. -/
theorem parses_skipNop {parser : DtbParser} {steps : Nat} (here : OnGrid start address) :
    Parses start (OnGrid start) (DtbParser.skipNop parser steps address) := by
  induction steps generalizing address with
  | zero => exact .stop nofun
  | succ steps ih =>
      have limit : Parses start (fun _ => True) parser.dtbHeader.getStructEndAddress := by
        refine parses_checkedAdd.bind fun _ _ => ?_
        exact parses_checkedAdd.mono (fun _ => id) (fun _ => id) fun _ _ => trivial
      unfold DtbParser.skipNop
      refine limit.bind fun _ _ => ?_
      split
      · refine (parses_getTypes here).bind fun token _ => ?_
        cases token with
        | nop =>
            refine parses_checkedAdd.bind fun next moved => ih ?_
            rw [moved]
            exact here.add (by decide)
        | _ => exact .done here
      · exact .done here

/-- The last check reads one token. -/
theorem parses_checkEnd (here : OnGrid start address) :
    Parses start (fun _ => True) (DtbParser.checkEnd address) := by
  refine (parses_getTypes here).bind fun token _ => ?_
  cases token with
  | fdtEnd => exact .done trivial
  | _ => exact parses_err _

end Parsing

section Walking

variable {start : Nat} {node : SimpleDeviceNode} {window : Window} {search : Search}

/-- Code which keeps the contract of a search. -/
abbrev Walks {W B α : Type} (start : Nat) (post : α → Prop)
    (program : Dialogue Request Bytes W B Stop α) : Prop :=
  Dialogue.Meets (walking start) post program

/-- Parsing is a part of a walk. -/
theorem Parses.walks {α : Type} {post : α → Prop} {reading : Reading α}
    (parses : Parses start post reading) : Walks start post reading :=
  parses.mono (fun _ => id) (fun _ _ => trivial) fun _ => id

/-- A walk may stop at any time. -/
theorem walks_stop {α : Type} {post : α → Prop} (reason : Stop) :
    Walks start post (.stop reason : Reading α) := .stop trivial

/-- An iterator over the `reg` of a sited node, a whole number of words behind its start. -/
structure DeviceAddressIter.Sited (start : Nat) (iter : DeviceAddressIter) : Prop where
  node : Lined start (some iter.prop)
  whole : ∀ place ∈ iter.prop.reg, 4 ∣ place.2 - iter.remain.getD place.2

/-- A number of a `reg` or `ranges` value is read on the grid. -/
theorem walks_readRegInternal {offset : Nat} (sited : node.Sited start) (whole : 4 ∣ offset) :
    Walks start (fun _ => True) (node.readRegInternal offset) := by
  unfold SimpleDeviceNode.readRegInternal
  cases given : node.reg with
  | none => exact .done trivial
  | some place =>
      have here : OnGrid start place.1 := sited.reg place given
      cases node.parent with
      | none => exact walks_stop _
      | some parent =>
          dsimp only
          split
          · exact walks_stop _
          · refine parses_checkedAdd.walks.bind fun entry moved => ?_
            have there : OnGrid start entry := by
              rw [moved]
              exact here.add whole
            refine (parses_readRegs there).walks.bind fun address size => ?_
            refine parses_checkedAdd.walks.bind fun second moved => ?_
            have behind : OnGrid start second := by
              rw [moved, size]
              exact there.add (Nat.dvd_mul_right 4 _)
            exact (parses_readRegs behind).walks.bind fun _ _ => .done trivial

/-- The three numbers of an entry follow one another on the grid. -/
theorem walks_readRoundInternal (sited : node.Sited start) :
    Walks start (fun _ => True) node.readRoundInternal := by
  unfold SimpleDeviceNode.readRoundInternal
  cases given : node.ranges with
  | none => exact .done trivial
  | some place =>
      have here : OnGrid start place := sited.ranges place given
      refine (parses_readRegs here).walks.bind fun child size => ?_
      refine parses_checkedAdd.walks.bind fun second moved => ?_
      have there : OnGrid start second := by
        rw [moved, size]
        exact here.add (Nat.dvd_mul_right 4 _)
      cases node.parent with
      | none => exact walks_stop _
      | some parent =>
          refine (parses_readRegs there).walks.bind fun target size => ?_
          refine parses_checkedAdd.walks.bind fun third moved => ?_
          have behind : OnGrid start third := by
            rw [moved, size]
            exact there.add (Nat.dvd_mul_right 4 _)
          exact (parses_readRegs behind).walks.bind fun _ _ => .done trivial

/-- So are the entries of the ranges around a node. -/
theorem walks_addressChild (sited : node.Sited start) :
    Walks start (fun _ => True) (node.addressChild window) := by
  unfold SimpleDeviceNode.addressChild
  split
  · refine (walks_readRoundInternal sited).bind fun entry _ => ?_
    rcases entry with _ | ⟨child, parent, len⟩
    · exact walks_stop _
    · refine parses_checkedAdd.walks.bind fun _ _ => parses_checkedAdd.walks.bind fun _ _ => ?_
      split
      · exact walks_stop _
      · refine parses_checkedSub.walks.bind fun _ _ => parses_checkedAdd.walks.bind fun _ _ => ?_
        exact .done trivial
  · exact .done trivial

/-- The translation climbs to the root, all of whose way is sited. -/
theorem walks_calculateAddressInternal (lined : Lined start (some node)) :
    Walks start (fun _ => True) (node.calculateAddressInternal window) := by
  induction node, window using SimpleDeviceNode.calculateAddressInternal.induct with
  | case1 addressCells sizeCells reg ranges window =>
      cases lined with
      | inner here above => exact walks_addressChild here
  | case2 parent addressCells sizeCells reg ranges window ih =>
      cases lined with
      | inner here above =>
          rw [SimpleDeviceNode.calculateAddressInternal]
          exact (walks_addressChild here).bind fun _ _ => ih _ above

/-- One step leaves the iterator a whole number of words further. -/
theorem walks_nextInternal {iter : DeviceAddressIter} (sited : iter.Sited start) :
    Walks start (fun step => step.2.Sited start) iter.nextInternal := by
  obtain ⟨lined, whole⟩ := sited
  have here : iter.prop.Sited start := by
    cases lined with
    | inner here above => exact here
  unfold DeviceAddressIter.nextInternal
  cases given : iter.prop.reg with
  | none => exact walks_stop _
  | some place =>
      obtain ⟨first, size⟩ := place
      have words := whole (first, size) given
      dsimp only at words ⊢
      generalize iter.remain.getD size = remain at words ⊢
      have kept : ∀ left, 4 ∣ size - left →
          DeviceAddressIter.Sited start { iter with remain := some left } := by
        intro left divides
        refine ⟨lined, fun place same => ?_⟩
        cases given.symm.trans same
        exact divides
      split
      · exact .done (kept remain words)
      · refine parses_checkedSub.walks.bind fun offset taken => ?_
        have divides : 4 ∣ offset := by
          rw [← taken, Nat.add_sub_cancel] at words
          exact words
        refine (walks_readRegInternal here divides).bind fun entry _ => ?_
        cases entry with
        | none => exact walks_stop _
        | some window =>
            refine (walks_calculateAddressInternal lined).bind fun _ _ => ?_
            cases iter.prop.parent with
            | none => exact walks_stop _
            | some parent =>
                refine parses_checkedAdd.walks.bind fun cells _ => ?_
                refine parses_checkedMul.walks.bind fun stride long => ?_
                refine parses_checkedSub.walks.bind fun left taken' => .done (kept left ?_)
                omega

/-- And all addresses of a matching node. -/
theorem walks_addressLoop {steps : Nat} {iter : DeviceAddressIter} (sited : iter.Sited start) :
    Walks start (fun _ => True) (DtbParser.addressLoop steps iter) := by
  induction steps generalizing iter with
  | zero => exact .stop trivial
  | succ steps ih =>
      refine (walks_nextInternal sited).lift.bind ?_
      rintro ⟨_ | address, later⟩ kept
      · exact .done trivial
      · have called : Walks start (fun _ => True) (.call address .done : Walking ControlFlow) :=
          .call fun _ => .done trivial
        refine called.bind fun flow _ => ?_
        cases flow with
        | Break => exact .done trivial
        | Continue => exact ih kept

/-- Both mutual functions at once, by induction on the steps. -/
theorem walks_steps (search : Search) (steps : Nat) :
    (∀ nodeInfo pointer, Lined start nodeInfo → OnGrid start pointer →
      Walks start (fun result => OnGrid start result.2)
        (DtbParser.findNodeRecursive search steps nodeInfo pointer)) ∧
    ∀ prop pointer, Lined start (some prop) → OnGrid start pointer →
      Walks start (fun result => OnGrid start result.2)
        (DtbParser.childLoop search steps prop pointer) := by
  induction steps with
  | zero =>
      constructor
      · exact fun _ _ _ _ => .stop trivial
      · exact fun _ _ _ _ => .stop trivial
  | succ steps ih =>
      constructor
      · intro nodeInfo pointer lined here
        unfold DtbParser.findNodeRecursive
        refine (parses_openNode here).walks.lift.bind ?_
        rintro ⟨prop, found, next⟩ ⟨sited, below, there⟩
        have line : Lined start (some prop) := .inner sited (below ▸ lined)
        cases found with
        | false => exact ih.2 prop next line there
        | true =>
            have iter : (DeviceAddressIter.new prop).Sited start :=
              ⟨line, fun place _ => by simp [DeviceAddressIter.new]⟩
            refine (walks_addressLoop iter).bind fun flow _ => ?_
            cases flow with
            | Break => exact .done there
            | Continue => exact ih.2 prop next line there
      · intro prop pointer line here
        unfold DtbParser.childLoop
        refine (parses_getTypes here).walks.lift.bind fun token _ => ?_
        have moves : Parses start (OnGrid start) (checkedAdd 64 pointer 4) := by
          refine parses_checkedAdd.mono (fun _ => id) (fun _ => id) ?_
          rintro _ rfl
          exact here.add (by decide)
        cases token with
        | nop => exact moves.walks.lift.bind fun next there => ih.2 prop next line there
        | beginNode =>
            refine (ih.1 (some prop) pointer line here).bind ?_
            rintro ⟨flow, next⟩ there
            cases flow with
            | Break => exact .done there
            | Continue => exact ih.2 prop next line there
        | endNode => exact moves.walks.lift.bind fun next there => .done there
        | _ => exact (walks_stop _).lift

/-- A search reads on the grid which starts with the structure block. -/
theorem walks_findNode (parser : DtbParser) (deviceName compatibleName : Option String)
    (fuel : Nat) : Walks parser.structStart (fun _ => True)
      (parser.findNode deviceName compatibleName fuel) := by
  unfold DtbParser.findNode
  split
  · exact (walks_stop _).lift
  · have begins : OnGrid parser.structStart parser.structStart := ⟨0, rfl⟩
    have whole : Walks parser.structStart (fun result => OnGrid parser.structStart result.2)
        (DtbParser.walkStruct ⟨parser, deviceName, compatibleName, fuel⟩) := by
      unfold DtbParser.walkStruct Dtb.getStructStartAddress
      refine parses_checkedAdd.walks.lift.bind ?_
      rintro _ rfl
      refine (parses_skipNop begins).walks.lift.bind fun pointer here => ?_
      exact (walks_steps _ fuel).1 none pointer .top here
    exact whole.bind fun result here => (parses_checkEnd here).walks.lift

end Walking

/-- A typed reference is made only to an address which is a multiple of four. -/
def Request.Aligned : Request → Prop
  | .header address => 4 ∣ address
  | .token address => 4 ∣ address
  | .property address => 4 ∣ address
  | .word address => 4 ∣ address
  | .text _ _ => True

/-- A parser keeps the address it was made with. -/
theorem address_of_init {answer : Request → Option Bytes} {base : Nat} {parser : DtbParser}
    (loaded : (DtbParser.init base).eval answer = .ok parser) : parser.dtbHeader.address = base := by
  unfold DtbParser.init Dtb.new at loaded
  simp only [Inquiry.eval_bind, bind_eq_ok] at loaded
  obtain ⟨dtb, ⟨bytes, -, checked⟩, same⟩ := loaded
  cases same
  split at checked
  · cases checked
  · split at checked
    · cases checked
    · cases checked
      rfl

/-- In a blob at a multiple of four, with its structure block at a multiple of four, every
typed read of a search is aligned, whatever the blob and the memory around it answer. -/
theorem asked_aligned (image : Image) (deviceName compatibleName : Option String)
    (answer : Request → Option Bytes) (callback : Callback) (fuel : Nat)
    (base : 4 ∣ image.blob.base) (offset : 4 ∣ image.parser.dtbHeader.header.offDtStruct) :
    ∀ request ∈ (image.parser.findNode deviceName compatibleName fuel).asked answer callback [],
      request.OnGrid image.parser.structStart ∧ request.Aligned := by
  intro request member
  have here : request.OnGrid image.parser.structStart :=
    (walks_findNode image.parser deviceName compatibleName fuel).of_asked member
  have whole : 4 ∣ image.parser.structStart := by
    unfold DtbParser.structStart
    rw [address_of_init image.loaded]
    exact Nat.dvd_add base offset
  refine ⟨here, ?_⟩
  cases request with
  | header => exact here.elim
  | token | property | word => exact OnGrid.aligned here whole
  | text => trivial

/-- The reads of a search for the UART of a board. -/
theorem uartImage_aligned : 4 ∣ uartImage.parser.structStart ∧
    ∀ request ∈ uartImage.asked none (some "pl011") .always 20,
      request.OnGrid uartImage.parser.structStart ∧ request.Aligned :=
  ⟨by decide, asked_aligned uartImage none (some "pl011") uartImage.blob.whole.answer .always 20
    (by decide) (by decide)⟩

end Rpi5.DeviceTree
