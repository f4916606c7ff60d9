import Rpi5.DeviceTree.Format

/-!
# Assembling a blob

A structure block and its strings behind a version-17 header make a blob which
`DtbParser::init` accepts (`Image.assemble`). The result serialises the structure
block as soon as the names of its properties stand at their offsets
(`assemble_serialises`), so every structure block is one the parser can meet.
-/

namespace Rpi5.DeviceTree

open Rpi5.Logical Rpi5.Semantics DtbParser

/-- The bytes of a header; the fields the parser does not look at are the size
of the blob, the reservation block, the version and the boot CPU. -/
def FtdHeader.encode (header : FtdHeader) (totalSize : Nat) : Bytes :=
  be32 header.magic ++ be32 totalSize ++ be32 header.offDtStruct ++ be32 header.offDtStrings ++
    be32 0 ++ be32 17 ++ be32 header.lastCompVersion ++ be32 0 ++ be32 header.sizeDtStrings ++
    be32 header.sizeDtStruct

/-- A header has 40 bytes. -/
@[simp] theorem FtdHeader.length_encode (header : FtdHeader) (totalSize : Nat) :
    (header.encode totalSize).length = 40 := rfl

/-- A header whose numbers fit their fields is read back. -/
theorem FtdHeader.ofBytes_encode {header : FtdHeader} (totalSize : Nat)
    (magic : header.magic < 2 ^ 32) (structs : header.offDtStruct < 2 ^ 32)
    (strings : header.offDtStrings < 2 ^ 32) (version : header.lastCompVersion < 2 ^ 32)
    (stringSize : header.sizeDtStrings < 2 ^ 32) (structSize : header.sizeDtStruct < 2 ^ 32) :
    FtdHeader.ofBytes (header.encode totalSize) = header := by
  have fields : FtdHeader.ofBytes (header.encode totalSize) =
      ⟨beNat (be32 header.magic), beNat (be32 header.offDtStruct),
        beNat (be32 header.offDtStrings), beNat (be32 header.lastCompVersion),
        beNat (be32 header.sizeDtStrings), beNat (be32 header.sizeDtStruct)⟩ := rfl
  rw [fields, beNat_be32 magic, beNat_be32 structs, beNat_be32 strings, beNat_be32 version,
    beNat_be32 stringSize, beNat_be32 structSize]

/-- A structure block of `structSize` bytes right after the header, and strings after it. -/
def headerFor (structSize stringSize : Nat) : FtdHeader where
  magic := Dtb.dtbHeaderMagic
  offDtStruct := 40
  offDtStrings := 40 + structSize
  lastCompVersion := 16
  sizeDtStrings := stringSize
  sizeDtStruct := structSize

/-- A header, a structure block and strings. -/
def assemble (structure' strings : Bytes) : Bytes :=
  (headerFor structure'.length strings.length).encode (40 + structure'.length + strings.length) ++
    (structure' ++ strings)

/-- A blob is its header, its structure block and its strings. -/
@[simp] theorem length_assemble (structure' strings : Bytes) :
    (assemble structure' strings).length = 40 + (structure'.length + strings.length) := by
  simp [assemble]

section

variable (base : Nat) (structure' strings : Bytes)
  (room : base + (40 + (structure'.length + strings.length)) ≤ 2 ^ 64)

/-- The assembled bytes at a base address. -/
def Blob.assemble : Blob where
  base := base
  bytes := DeviceTree.assemble structure' strings
  addressable := by
    rw [length_assemble]
    exact room

/-- Each of the three parts is where the header says. -/
theorem Blob.assemble_holds :
    (Blob.assemble base structure' strings room).whole.Holds .struct base
        ((headerFor structure'.length strings.length).encode
          (40 + structure'.length + strings.length)) ∧
      (Blob.assemble base structure' strings room).whole.Holds .struct (base + 40) structure' ∧
      (Blob.assemble base structure' strings room).whole.Holds .strings
        (base + 40 + structure'.length) strings := by
  have all : (Blob.assemble base structure' strings room).whole.Holds .struct base
      (DeviceTree.assemble structure' strings) := by
    refine ⟨Nat.le_refl _, Nat.le_refl _, ?_⟩
    simp [Blob.tail, Blob.assemble, Blob.whole]
  obtain ⟨header, rest⟩ := Memory.holds_append.mp all
  rw [FtdHeader.length_encode] at rest
  obtain ⟨structs, names⟩ := Memory.holds_append.mp rest
  exact ⟨header, structs, names⟩

/-- The assembled blob, loaded. -/
def Image.assemble (small : 40 + (structure'.length + strings.length) < 2 ^ 32) : Image where
  blob := .assemble base structure' strings room
  parser := ⟨⟨base, headerFor structure'.length strings.length⟩⟩
  loaded := by
    have present := (Blob.assemble_holds base structure' strings room).1
    have answered : (Blob.assemble base structure' strings room).whole.answer (.header base) =
        some ((headerFor structure'.length strings.length).encode
          (40 + structure'.length + strings.length)) :=
      Memory.read_eq_some.mpr ⟨present, FtdHeader.length_encode _ _⟩
    have parsed : FtdHeader.ofBytes ((headerFor structure'.length strings.length).encode
        (40 + structure'.length + strings.length)) =
        headerFor structure'.length strings.length := by
      apply FtdHeader.ofBytes_encode <;> simp only [headerFor, Dtb.dtbHeaderMagic] <;> omega
    have read : (Dtb.new base).eval (Blob.assemble base structure' strings room).whole.answer =
        .ok ⟨base, headerFor structure'.length strings.length⟩ := by
      unfold Dtb.new
      rw [Inquiry.eval_bind, eval_ask, answered]
      simp only [ok_bind, parsed]
      rfl
    rw [DtbParser.init, Inquiry.eval_bind]
    exact bind_eq_ok.mpr ⟨_, read, rfl⟩

/-- An assembled blob serialises its structure block once the names are in place. -/
theorem assemble_serialises (block : StructBlock)
    (room : base + (40 + (block.encode.length + strings.length)) ≤ 2 ^ 64)
    (small : 40 + (block.encode.length + strings.length) < 2 ^ 32)
    (addressable : base + 40 + block.encode.length < 2 ^ 64)
    (rootNamed : block.root.Named (Blob.assemble base block.encode strings room).whole
      (base + (40 + block.encode.length)))
    (named : block.children.Named (Blob.assemble base block.encode strings room).whole
      (base + (40 + block.encode.length))) :
    Serialises (Image.assemble base block.encode strings room small).blob.whole
      (Image.assemble base block.encode strings room small).parser block where
  encoded := (Blob.assemble_holds base block.encode strings room).2.1
  rootNamed := rootNamed
  named := named
  covered := by
    have leading : 4 * block.leading ≤ block.encode.length := by
      simp only [StructBlock.encode, List.length_append, length_nops]
      omega
    change base + 40 + 4 * block.leading < base + 40 + block.encode.length + 4
    omega
  addressable := addressable

end

section KnownNames

namespace PropName

/-- Where that name stands in `knownNames`. -/
def offset : PropName → Nat
  | .addressCells => 0
  | .sizeCells => 15
  | .compatible => 27
  | .deviceName => 38
  | .reg => 50
  | .ranges => 54
  | .other => 61

/-- No name of a property contains a NUL. -/
theorem text_nulFree (name : PropName) : 0 ∉ utf8 name.text := by
  cases name <;> decide

end PropName

/-- A strings block with one name of each kind. -/
def knownNames : Bytes :=
  utf8 "#address-cells" ++ [0] ++ utf8 "#size-cells" ++ [0] ++ utf8 "compatible" ++ [0] ++
    utf8 "device_type" ++ [0] ++ utf8 "reg" ++ [0] ++ utf8 "ranges" ++ [0] ++ utf8 "model" ++ [0]

/-- A property named from `knownNames`, padded with zeros. -/
def PropToken.known (name : PropName) (value : Bytes)
    (short : value.length + padLength value.length < 2 ^ 32) : PropToken where
  property := ⟨name.text, value⟩
  nameOffset := name.offset
  padding := List.replicate (padLength value.length) 0
  nulFree := name.text_nulFree
  offset_lt := by cases name <;> decide
  padded := List.length_replicate
  short := by rwa [List.length_replicate]

/-- The name of a property stands in `knownNames` at its offset. -/
def PropToken.IsKnown (token : PropToken) : Prop :=
  ∃ kind : PropName, token.property.name = kind.text ∧ token.nameOffset = kind.offset

def NodeToken.IsKnown (head : NodeToken) : Prop :=
  ∀ token, .prop token ∈ head.items → token.IsKnown

def TokenForest.IsKnown : TokenForest → Prop
  | .nil => True
  | .nop rest => rest.IsKnown
  | .node head children rest => head.IsKnown ∧ children.IsKnown ∧ rest.IsKnown

/-- A token of a known name is known. -/
theorem PropToken.isKnown_known (kind : PropName) (value : Bytes)
    (short : value.length + padLength value.length < 2 ^ 32) :
    (PropToken.known kind value short).IsKnown := ⟨kind, rfl, rfl⟩

variable {base : Nat} {structure' : Bytes}
  (room : base + (40 + (structure'.length + knownNames.length)) ≤ 2 ^ 64)

include room

/-- Such a property has its name in every blob assembled with these strings. -/
theorem PropToken.IsKnown.named {token : PropToken} (known : token.IsKnown) :
    token.Named (Blob.assemble base structure' knownNames room).whole
      (base + (40 + structure'.length)) := by
  obtain ⟨kind, name, offset⟩ := known
  have strings := (Blob.assemble_holds base structure' knownNames room).2.2
  have place : ∃ before after, knownNames = before ++ ((utf8 kind.text ++ [0]) ++ after) ∧
      before.length = kind.offset :=
    ⟨knownNames.take kind.offset, knownNames.drop (kind.offset + (utf8 kind.text ++ [0]).length),
      by cases kind <;> decide, by cases kind <;> decide⟩
  obtain ⟨before, after, split, length⟩ := place
  unfold Named
  rw [name, offset]
  generalize (Blob.assemble base structure' knownNames room).whole = memory at strings ⊢
  rw [split, Memory.holds_append, Memory.holds_append, length, Nat.add_assoc base] at strings
  exact strings.2.1

/-- Known tokens find their names in the strings block. -/
theorem TokenForest.IsKnown.named {forest : TokenForest} (known : forest.IsKnown) :
    forest.Named (Blob.assemble base structure' knownNames room).whole
      (base + (40 + structure'.length)) := by
  induction forest with
  | nil => trivial
  | nop rest ih => exact ih known
  | node head children rest childrenNamed restNamed =>
      exact ⟨fun token member => (known.1 token member).named room, childrenNamed known.2.1,
        restNamed known.2.2⟩

omit room

/-- An assembled blob serialises a structure block with these names. -/
theorem known_serialises (base : Nat) (block : StructBlock)
    (room : base + (40 + (block.encode.length + knownNames.length)) ≤ 2 ^ 64)
    (small : 40 + (block.encode.length + knownNames.length) < 2 ^ 32)
    (known : (TokenForest.node block.root block.children .nil).IsKnown) :
    Serialises (Image.assemble base block.encode knownNames room small).blob.whole
      (Image.assemble base block.encode knownNames room small).parser block := by
  have strings : 0 < knownNames.length := by decide
  exact assemble_serialises base knownNames block room small (by omega)
    (fun token member => (known.1 token member).named room) (known.2.1.named room)

end KnownNames

section OneUart

/-- The root of a board. -/
def rootNode (items : List PropItem) : NodeToken where
  name := ""
  padding := [0, 0, 0]
  nulFree := by decide
  padded := by decide
  items := items

/-- A UART. -/
def uartNode (items : List PropItem) : NodeToken where
  name := "uart"
  padding := [0, 0, 0]
  nulFree := by decide
  padded := by decide
  items := items

/-- Addresses are one cell. -/
def oneCell : PropItem := .prop (.known .addressCells (be32 1) (by decide))

/-- The device a search is for. -/
def pl011 : PropItem := .prop (.known .compatible (utf8 "pl011" ++ [0]) (by decide))

/-- Its registers. -/
def uartReg : PropItem := .prop (.known .reg (be32 0x1000 ++ be32 0x200) (by decide))

/-- A board with one UART. -/
def uartBoard : StructBlock where
  leading := 0
  root := rootNode [oneCell]
  children := .node (uartNode [pl011, uartReg]) .nil .nil
  trailing := 0

/-- The board at an address. -/
def uartImage : Image :=
  .assemble 0x80000 uartBoard.encode knownNames (by decide) (by decide)

/-- The image holds the board. -/
theorem uartImage_serialises : Serialises uartImage.blob.whole uartImage.parser uartBoard := by
  apply known_serialises
  simp [uartBoard, rootNode, uartNode, oneCell, pl011, uartReg, TokenForest.IsKnown,
    NodeToken.IsKnown, PropToken.isKnown_known]

end OneUart
end Rpi5.DeviceTree
