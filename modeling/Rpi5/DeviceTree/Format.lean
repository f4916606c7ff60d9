import Rpi5.DeviceTree.Scan
import Rpi5.DeviceTree.Tree

/-!
# The structure block

The concrete syntax of a structure block: properties and nodes with their
padding, and `FDT_NOP` tokens between them. `encode` gives the bytes, `tree` the
device tree they stand for. Padding has the right length and numbers fit their
fields by construction.

`Serialises` says that a memory holds a structure block where the header says,
with every property name at its offset in the strings.
-/

namespace Rpi5.DeviceTree

open Rpi5.Logical DtbParser

/-- A property in the structure block. -/
structure PropToken where
  property : Property
  nameOffset : Nat
  padding : Bytes
  nulFree : 0 ∉ utf8 property.name
  offset_lt : nameOffset < 2 ^ 32
  padded : padding.length = padLength property.value.length
  /-- The length and its padding fit in a `u32`. -/
  short : property.value.length + padding.length < 2 ^ 32

/-- What stands between the name of a node and its children. -/
inductive PropItem where
  | nop
  | prop (token : PropToken)

/-- A node in the structure block, up to its children. -/
structure NodeToken where
  name : String
  padding : Bytes
  items : List PropItem
  nulFree : 0 ∉ utf8 name
  padded : padding.length = padLength ((utf8 name).length + 1)

/-- What stands between the properties of a node and the end of it. -/
inductive TokenForest where
  | nil
  | nop (rest : TokenForest)
  | node (head : NodeToken) (children rest : TokenForest)

/-- A structure block. -/
structure StructBlock where
  leading : Nat
  root : NodeToken
  children : TokenForest
  trailing : Nat

/-- A sequence of `FDT_NOP` tokens. -/
def nops : Nat → Bytes
  | 0 => []
  | count + 1 => fdtNop ++ nops count

section Encoding

def PropToken.encode (token : PropToken) : Bytes :=
  fdtProp ++ (be32 token.property.value.length ++ be32 token.nameOffset) ++
    (token.property.value ++ token.padding)

def PropItem.encode : PropItem → Bytes
  | .nop => fdtNop
  | .prop token => token.encode

/-- Properties and the tokens between them. -/
def encodeItems : List PropItem → Bytes
  | [] => []
  | item :: items => item.encode ++ encodeItems items

def NodeToken.encode (head : NodeToken) : Bytes :=
  fdtBeginNode ++ ((utf8 head.name ++ [0]) ++ head.padding) ++ encodeItems head.items

/-- The children of a node and its `FDT_END_NODE`. -/
def TokenForest.encode : TokenForest → Bytes
  | .nil => fdtEndNode
  | .nop rest => fdtNop ++ rest.encode
  | .node head children rest => head.encode ++ children.encode ++ rest.encode

def StructBlock.encode (block : StructBlock) : Bytes :=
  nops block.leading ++ (block.root.encode ++ block.children.encode) ++
    (nops block.trailing ++ fdtEnd)

end Encoding

section Meaning

def PropItem.property? : PropItem → Option Property
  | .nop => none
  | .prop token => some token.property

def NodeToken.device (head : NodeToken) : Device where
  name := head.name
  properties := head.items.filterMap PropItem.property?

def TokenForest.forest : TokenForest → Forest
  | .nil => .nil
  | .nop rest => rest.forest
  | .node head children rest => .node head.device children.forest rest.forest

def StructBlock.tree (block : StructBlock) : Tree where
  root := block.root.device
  children := block.children.forest

end Meaning

section Sites

/-- The address of the value of the last `ranges` among items at an address, or what
was found before them. -/
def rangesSite : List PropItem → Nat → Option Nat → Option Nat
  | [], _, found => found
  | .nop :: items, address, found => rangesSite items (address + 4) found
  | .prop token :: items, address, found =>
      rangesSite items (address + token.encode.length)
        (if PropName.ofName token.property.name = .ranges then some (address + 12) else found)

/-- The address of the value of the `ranges` of a node at an address. -/
def NodeToken.site (head : NodeToken) (address : Nat) : Option Nat :=
  rangesSite head.items (address + (4 + ((utf8 head.name).length + 1 + head.padding.length))) none

variable (deviceName compatibleName : Option String)

/-- For the matching nodes of a forest at an address, with those of the nodes above,
the addresses of the values of `ranges` from the node itself up to the root. -/
def TokenForest.sites : Nat → List (Option Nat) → TokenForest → List (List (Option Nat))
  | _, _, .nil => []
  | address, above, .nop rest => rest.sites (address + 4) above
  | address, above, .node head children rest =>
      (if head.device.isMatch deviceName compatibleName then [head.site address :: above] else []) ++
        children.sites (address + head.encode.length) (head.site address :: above) ++
        rest.sites (address + (head.encode.length + children.encode.length)) above

/-- The same for a structure block at an address. -/
def StructBlock.sites (address : Nat) (block : StructBlock) : List (List (Option Nat)) :=
  TokenForest.sites deviceName compatibleName (address + 4 * block.leading) []
    (.node block.root block.children .nil)

/-- The address of the value of the `ranges` of one of the matching nodes, or of one
of its ancestors. -/
def StructBlock.siteAt (address index depth : Nat) (block : StructBlock) : Option Nat :=
  ((block.sites deviceName compatibleName address)[index]?.bind fun sites => sites[depth]?).join

end Sites

section Names

variable (memory : Memory) (strings : Nat)

/-- The name of a property stands at its offset. -/
def PropToken.Named (token : PropToken) : Prop :=
  memory.Holds .strings (strings + token.nameOffset) (utf8 token.property.name ++ [0])

/-- The names of all properties of a node. -/
def NodeToken.Named (head : NodeToken) : Prop :=
  ∀ token, .prop token ∈ head.items → token.Named memory strings

/-- The names of all properties below a node. -/
def TokenForest.Named : TokenForest → Prop
  | .nil => True
  | .nop rest => rest.Named
  | .node head children rest => head.Named memory strings ∧ children.Named ∧ rest.Named

end Names

namespace DtbParser

/-- The addresses of the two blocks, as the header gives them. -/
def structStart (parser : DtbParser) : Nat :=
  parser.dtbHeader.address + parser.dtbHeader.header.offDtStruct

def structEnd (parser : DtbParser) : Nat :=
  parser.structStart + parser.dtbHeader.header.sizeDtStruct

def stringStart (parser : DtbParser) : Nat :=
  parser.dtbHeader.address + parser.dtbHeader.header.offDtStrings

def stringEnd (parser : DtbParser) : Nat :=
  parser.stringStart + parser.dtbHeader.header.sizeDtStrings

end DtbParser

/-- A memory holds a structure block and its names where the header says. Each of
its leading `FDT_NOP` tokens starts inside the size the header gives. -/
structure Serialises (memory : Memory) (parser : DtbParser) (block : StructBlock) : Prop where
  encoded : memory.Holds .struct parser.structStart block.encode
  rootNamed : block.root.Named memory parser.stringStart
  named : block.children.Named memory parser.stringStart
  covered : parser.structStart + 4 * block.leading < parser.structEnd + 4
  addressable : parser.structEnd < 2 ^ 64

section Lengths

/-- Each `FDT_NOP` has four bytes. -/
@[simp] theorem length_nops (count : Nat) : (nops count).length = 4 * count := by
  induction count with
  | zero => rfl
  | succ count ih =>
      rw [nops, List.length_append, ih]
      simp only [fdtNop, List.length_cons, List.length_nil]
      omega

/-- A property has three words, its value and its padding. -/
theorem PropToken.length_encode (token : PropToken) :
    token.encode.length = 12 + (token.property.value.length + token.padding.length) := by
  simp only [encode, fdtProp, List.length_append, List.length_cons, List.length_nil, length_be32]

/-- The head of a node has its token, its padded name and its items. -/
theorem NodeToken.length_encode (head : NodeToken) :
    head.encode.length =
      4 + ((utf8 head.name).length + 1 + head.padding.length) + (encodeItems head.items).length := by
  simp only [encode, fdtBeginNode, List.length_append, List.length_cons, List.length_nil]

/-- An `FDT_NOP` is four bytes in front of the rest. -/
theorem TokenForest.length_encode_nop (rest : TokenForest) :
    (TokenForest.nop rest).encode.length = 4 + rest.encode.length := by
  simp only [encode, fdtNop, List.length_append, List.length_cons, List.length_nil]

end Lengths
end Rpi5.DeviceTree
