import Rpi5.DeviceTree.BigEndian

/-!
# The parser

The module `dtb_parser` of the source. `findNode` walks the structure block with
a cursor, recursing into child nodes, and calls back for every entry of the
`reg` of a matching node, translated through the `ranges` of its ancestors.

A `&mut` parameter is an argument and a result here. What stays the same during
one walk is kept in `Search`. Loops and the recursion take their number of steps
from a bound; a run which needs more stops with `outOfFuel`.
-/

namespace Rpi5.DeviceTree

open Rpi5.Logical Rpi5.Semantics

/-- An address and a size, as passed to the callback. -/
abbrev Window := Nat × Nat

/-- The answer of the callback. -/
inductive ControlFlow where
  | Continue
  | Break
deriving DecidableEq, Repr

/-- Code which also calls back. -/
abbrev Walking (α : Type) := Dialogue Request Bytes Window ControlFlow Stop α

/-- A callback answers from the windows it was given before and the present one. -/
abbrev Callback := List Window → Window → ControlFlow

/-- `SimpleDeviceNode`: what the walk remembers of a node, and its parent. -/
structure SimpleDeviceNode where
  parent : Option SimpleDeviceNode
  addressCells : Nat
  sizeCells : Nat
  /-- Address and length of the value of `reg`. -/
  reg : Option (Nat × Nat)
  /-- Address of the value of `ranges`. -/
  ranges : Option Nat

/-- `DtbParser`. -/
structure DtbParser where
  dtbHeader : Dtb
deriving DecidableEq, Repr

/-- The arguments which one search passes on unchanged, and the bound on the
steps of each of its loops. -/
structure Search where
  parser : DtbParser
  deviceName : Option String
  compatibleName : Option String
  fuel : Nat

/-- The property names `parse_prop` distinguishes. -/
inductive PropName where
  | addressCells
  | sizeCells
  | compatible
  | deviceName
  | reg
  | ranges
  | other
deriving DecidableEq, Repr

namespace PropName

def ofName (name : String) : PropName :=
  if name = "#address-cells" then .addressCells
  else if name = "#size-cells" then .sizeCells
  else if name = "compatible" then .compatible
  else if name = "device_type" then .deviceName
  else if name = "reg" then .reg
  else if name = "ranges" then .ranges
  else .other

end PropName

namespace SimpleDeviceNode

/-- `SimpleDeviceNode::new`. -/
def new (parent : Option SimpleDeviceNode) : SimpleDeviceNode where
  parent := parent
  addressCells := 2
  sizeCells := 1
  reg := none
  ranges := none

/-- The loop over the strings of `compatible`. -/
def compatibleLoop (name : String) : Nat → CharStringIter → Bool → Reading Bool
  | 0, _, _ => .stop .outOfFuel
  | steps + 1, iter, result => do
      match ← iter.next with
      | none => return result
      | some (text, iter) => compatibleLoop name steps iter (result || name == text)

/-- The arms of `parse_prop`: whether the property matches the search, the node
after it, and the least length the property has to have. -/
def propArm (node : SimpleDeviceNode) (search : Search) (address propertyLen : Nat) :
    PropName → Reading (Bool × SimpleDeviceNode × Option Nat)
  | .addressCells => do
      let cells ← Dtb.readU32FromPtr address
      return (false, { node with addressCells := cells }, some 4)
  | .sizeCells => do
      let cells ← Dtb.readU32FromPtr address
      return (false, { node with sizeCells := cells }, some 4)
  | .compatible => do
      match search.compatibleName with
      | some name => return (← compatibleLoop name search.fuel ⟨address, propertyLen⟩ false, node, none)
      | none => return (false, node, none)
  | .deviceName => do
      match search.deviceName with
      | some name => return (name == (← Dtb.readCharStr .struct address), node, none)
      | none => return (false, node, none)
  | .reg => do
      match node.parent with
      | some parent =>
          let required ← checkedAdd 64 (parent.addressCells * 4) (parent.sizeCells * 4)
          return (false, { node with reg := some (address, propertyLen) }, some required)
      | none => err "'reg' property should not be located at the root node"
  | .ranges =>
      return (false, { node with ranges := some address }, if propertyLen ≠ 0 then none else some 0)
  | .other => return (false, node, none)

/-- The check of a property's length against the one its arm asks for. -/
def checkLength (propertyLen : Nat) : Option Nat → Reading Unit
  | some required => if required > propertyLen then err "invalid size" else return ()
  | none => return ()

/-- `parse_prop`, with the cursor at the `FDT_PROP` token. -/
def parseProp (node : SimpleDeviceNode) (search : Search) (address : Nat) :
    Reading (Bool × SimpleDeviceNode × Nat) := do
  let address ← checkedAdd 64 address 4
  let property ← FdtProperty.read address
  let address ← checkedAdd 64 address 8
  let strings ← search.parser.dtbHeader.getStringStartAddress
  let name ← Dtb.readCharStr .strings (← checkedAdd 64 strings property.nameOffset)
  let (result, node, required) ←
    node.propArm search address property.propertyLen (PropName.ofName name)
  checkLength property.propertyLen required
  let padded ← nextMultipleOf 32 property.propertyLen 4
  let address ← checkedAdd 64 address padded
  return (result, node, address)

/-- `read_reg_internal`: the entry of `reg` at an offset, in the parent's cells. -/
def readRegInternal (node : SimpleDeviceNode) (offset : Nat) : Reading (Option Window) := do
  match node.reg with
  | some (start, _) =>
      match node.parent with
      | none => .stop .unwrapNone
      | some parent =>
          if parent.addressCells > 2 ∨ parent.sizeCells > 2 then
            err "address or size cells overflow usize"
          else
            let entry ← checkedAdd 64 start offset
            let address ← Dtb.readRegs entry parent.addressCells
            let len ← Dtb.readRegs (← checkedAdd 64 entry address.2) parent.sizeCells
            return some (address.1, len.1)
  | none => return none

/-- `read_round_internal`: child address, parent address and length of the entry
at the start of `ranges`. -/
def readRoundInternal (node : SimpleDeviceNode) : Reading (Option (Nat × Nat × Nat)) := do
  match node.ranges with
  | some start =>
      let childAddress ← Dtb.readRegs start node.addressCells
      let second ← checkedAdd 64 start childAddress.2
      match node.parent with
      | none => .stop .unwrapNone
      | some parent =>
          let parentAddress ← Dtb.readRegs second parent.addressCells
          let third ← checkedAdd 64 second parentAddress.2
          let parentLen ← Dtb.readRegs third node.sizeCells
          return some (childAddress.1, parentAddress.1, parentLen.1)
  | none => return none

/-- The first half of `calculate_address_internal`: one node's own translation. -/
def addressChild (node : SimpleDeviceNode) (address : Window) : Reading Window := do
  if node.ranges.isSome then
    match ← node.readRoundInternal with
    | none => .stop .unwrapNone
    | some (child, parent, len) =>
        let childEnd ← checkedAdd 64 child len
        let addressEnd ← checkedAdd 64 address.1 address.2
        if childEnd < addressEnd then
          err "ranges size overflow"
        else
          let offset ← checkedSub address.1 child
          return (← checkedAdd 64 offset parent, address.2)
  else
    return address

/-- `calculate_address_internal`: the translations of a node and all its ancestors. -/
def calculateAddressInternal : SimpleDeviceNode → Window → Reading Window
  | ⟨none, addressCells, sizeCells, reg, ranges⟩, address =>
      addressChild ⟨none, addressCells, sizeCells, reg, ranges⟩ address
  | ⟨some parent, addressCells, sizeCells, reg, ranges⟩, address => do
      let child ← addressChild ⟨some parent, addressCells, sizeCells, reg, ranges⟩ address
      calculateAddressInternal parent child

end SimpleDeviceNode

/-- `DeviceAddressIter`. -/
structure DeviceAddressIter where
  prop : SimpleDeviceNode
  remain : Option Nat

namespace DeviceAddressIter

/-- `DeviceAddressIter::new`. -/
def new (prop : SimpleDeviceNode) : DeviceAddressIter := ⟨prop, none⟩

/-- `next_internal`. The stride of the iteration is taken from the parent's cells. -/
def nextInternal (iter : DeviceAddressIter) : Reading (Option Window × DeviceAddressIter) := do
  match iter.prop.reg with
  | none => err "reg property is none"
  | some (_, size) =>
      let remain := iter.remain.getD size
      if remain = 0 then
        return (none, { iter with remain := some remain })
      else
        match ← iter.prop.readRegInternal (← checkedSub size remain) with
        | none => err "reg property is none"
        | some window =>
            let result ← iter.prop.calculateAddressInternal window
            match iter.prop.parent with
            | none => .stop .unwrapNone
            | some parent =>
                let cells ← checkedAdd 32 parent.addressCells parent.sizeCells
                let stride ← checkedMul 32 cells 4
                let remain ← checkedSub remain stride
                return (some result, { iter with remain := some remain })

end DeviceAddressIter

/-- The tokens of the structure block, by their four bytes. -/
inductive Token where
  | beginNode
  | endNode
  | prop
  | nop
  | fdtEnd
  | unknown
deriving DecidableEq, Repr

namespace DtbParser

def fdtBeginNode : Bytes := [0x00, 0x00, 0x00, 0x01]
def fdtEndNode : Bytes := [0x00, 0x00, 0x00, 0x02]
def fdtProp : Bytes := [0x00, 0x00, 0x00, 0x03]
def fdtNop : Bytes := [0x00, 0x00, 0x00, 0x04]
def fdtEnd : Bytes := [0x00, 0x00, 0x00, 0x09]

end DtbParser

namespace Token

open DtbParser in
def ofBytes (bytes : Bytes) : Token :=
  if bytes = fdtBeginNode then .beginNode
  else if bytes = fdtEndNode then .endNode
  else if bytes = fdtProp then .prop
  else if bytes = fdtNop then .nop
  else if bytes = DtbParser.fdtEnd then .fdtEnd
  else .unknown

end Token

namespace DtbParser

/-- `DtbParser::init`. -/
def init (dtbAddress : Nat) : Reading DtbParser := do
  return ⟨← Dtb.new dtbAddress⟩

/-- `get_types`. -/
def getTypes (address : Nat) : Reading Token := do
  return Token.ofBytes (← ask (.token address))

/-- `skip_nop`, the only walk which looks at the end of the structure block. -/
def skipNop (parser : DtbParser) : Nat → Nat → Reading Nat
  | 0, _ => .stop .outOfFuel
  | steps + 1, address => do
      if address < (← parser.dtbHeader.getStructEndAddress) then
        match ← getTypes address with
        | .nop => skipNop parser steps (← checkedAdd 64 address 4)
        | _ => return address
      else
        return address

/-- The property loop of `find_node_recursive`. -/
def propLoop (search : Search) :
    Nat → SimpleDeviceNode → Bool → Nat → Reading (SimpleDeviceNode × Bool × Nat)
  | 0, _, _, _ => .stop .outOfFuel
  | steps + 1, prop, findInThisNode, pointer => do
      match ← getTypes pointer with
      | .nop => propLoop search steps prop findInThisNode (← checkedAdd 64 pointer 4)
      | .prop =>
          let (found, prop, pointer) ← prop.parseProp search pointer
          propLoop search steps prop (findInThisNode || found) pointer
      | .beginNode => return (prop, findInThisNode, pointer)
      | .endNode => return (prop, findInThisNode, pointer)
      | _ => err "Unexpected token inside node"

/-- `find_node_recursive` up to the end of its property loop: the node, whether
it matches, and the cursor after its properties. -/
def openNode (search : Search) (nodeInfo : Option SimpleDeviceNode) (pointer : Nat) :
    Reading (SimpleDeviceNode × Bool × Nat) := do
  match ← getTypes pointer with
  | .beginNode =>
      let pointer ← checkedAdd 64 pointer 4
      let nodeName ← Dtb.readCharStr .struct pointer
      let padded ← nextMultipleOf 64 (nodeName.utf8ByteSize + 1) 4
      let pointer ← checkedAdd 64 pointer padded
      propLoop search search.fuel (.new nodeInfo) false pointer
  | _ => err "pointer is not begin node"

/-- The loop of `find_node_recursive` over the addresses of a matching node. -/
def addressLoop : Nat → DeviceAddressIter → Walking ControlFlow
  | 0, _ => .stop .outOfFuel
  | steps + 1, iter => do
      match ← iter.nextInternal with
      | (none, _) => return .Continue
      | (some address, iter) =>
          match ← (Dialogue.call address .done : Walking ControlFlow) with
          | .Break => return .Break
          | .Continue => addressLoop steps iter

mutual

/-- `find_node_recursive`, returning the cursor beside the control flow. -/
def findNodeRecursive (search : Search) :
    Nat → Option SimpleDeviceNode → Nat → Walking (ControlFlow × Nat)
  | 0, _, _ => .stop .outOfFuel
  | steps + 1, nodeInfo, pointer => do
      let (prop, findInThisNode, pointer) ← openNode search nodeInfo pointer
      if findInThisNode then
        match ← addressLoop search.fuel (.new prop) with
        | .Break => return (.Break, pointer)
        | .Continue => childLoop search steps prop pointer
      else
        childLoop search steps prop pointer

/-- The loop of `find_node_recursive` over the children of a node. -/
def childLoop (search : Search) :
    Nat → SimpleDeviceNode → Nat → Walking (ControlFlow × Nat)
  | 0, _, _ => .stop .outOfFuel
  | steps + 1, prop, pointer => do
      match ← getTypes pointer with
      | .nop => childLoop search steps prop (← checkedAdd 64 pointer 4)
      | .beginNode =>
          match ← findNodeRecursive search steps (some prop) pointer with
          | (.Break, pointer) => return (.Break, pointer)
          | (.Continue, pointer) => childLoop search steps prop pointer
      | .endNode => return (.Continue, ← checkedAdd 64 pointer 4)
      | _ => Inquiry.lift (err "find an unknown or unexpected token while parsing the DTB")

end

/-- The walk of `find_node` over the structure block. -/
def walkStruct (search : Search) : Walking (ControlFlow × Nat) := do
  let start ← search.parser.dtbHeader.getStructStartAddress
  let pointer ← skipNop search.parser search.fuel start
  findNodeRecursive search search.fuel none pointer

/-- The check `find_node` makes after its walk. -/
def checkEnd (pointer : Nat) : Reading Unit := do
  match ← getTypes pointer with
  | .fdtEnd => return ()
  | _ => err "failed to parse all of the dtb node"

/-- `find_node`, with the bound on its steps. The control flow of the walk is
dropped, as in the source. -/
def findNode (parser : DtbParser) (deviceName compatibleName : Option String) (fuel : Nat) :
    Walking Unit := do
  if deviceName.isSome ∧ compatibleName.isSome ∨ deviceName.isNone ∧ compatibleName.isNone then
    Inquiry.lift
      (err "device name and compatible name cannot be searched for at the same time")
  else
    let (_, pointer) ← walkStruct ⟨parser, deviceName, compatibleName, fuel⟩
    checkEnd pointer

end DtbParser
end Rpi5.DeviceTree
