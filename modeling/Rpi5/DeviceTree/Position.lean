import Rpi5.DeviceTree.Pointers
import Rpi5.DeviceTree.Reports

/-!
# The place of a blob

The parser works with absolute addresses. Two blobs with the same bytes, each clear of the
end of the address space, are searched in the same way: every cursor of the one search
is at the same place as that of the other (`Corresponds`), or so little behind the end that no
sum overflows. The debug build also looks at the addresses themselves, but only at their
remainders by four, and at the base for a null pointer. `search_moved` is the result for bases
which agree in that: the same calls, and the same result.
-/

namespace Rpi5.DeviceTree

open Rpi5.Logical Rpi5.Semantics

/-- There is room behind a blob for the sums of two offsets of the header. -/
def Blob.Clear (blob : Blob) : Prop := blob.limit + 2 ^ 33 ≤ 2 ^ 64

instance (blob : Blob) : Decidable blob.Clear := inferInstanceAs (Decidable (_ ≤ _))

/-- The address which a request names. -/
def Request.address : Request → Nat
  | .header address => address
  | .token address => address
  | .property address => address
  | .word address => address
  | .text _ address => address

/-- A request for the same place in a blob which begins elsewhere. -/
def Request.moved (source target : Nat) : Request → Request
  | .header address => .header (target + (address - source))
  | .token address => .token (target + (address - source))
  | .property address => .property (target + (address - source))
  | .word address => .word (target + (address - source))
  | .text block address => .text block (target + (address - source))

/-- The same place in two blobs, at most so far behind their ends. -/
structure Corresponds (one other : Blob) (reach address address' : Nat) : Prop where
  base : one.base ≤ address
  reached : address ≤ one.limit + reach
  moved : address' = other.base + (address - one.base)

/-- The same request in two blobs, not below the first. -/
def Request.Matches (one other : Blob) (request request' : Request) : Prop :=
  one.base ≤ request.address ∧ request' = request.moved one.base other.base

/-- Two programs which do the same in two blobs. -/
abbrev Parallel {W B α β : Type} (one other : Blob) (post : α → β → Prop)
    (first : Dialogue Request Bytes W B Stop α) (second : Dialogue Request Bytes W B Stop β) :
    Prop :=
  Dialogue.Linked one.whole.answer other.whole.answer (Request.Matches one other) post first second

section Places

variable {one other : Blob} {reach further address address' length : Nat}

/-- Addresses which correspond do so with a longer reach. -/
theorem Corresponds.mono (place : Corresponds one other reach address address')
    (wider : reach ≤ further) : Corresponds one other further address address' :=
  ⟨place.base, place.reached.trans (Nat.add_le_add_left wider _), place.moved⟩

/-- The same distance further on they correspond again. -/
theorem Corresponds.add (place : Corresponds one other reach address address') (length : Nat) :
    Corresponds one other (reach + length) (address + length) (address' + length) := by
  obtain ⟨base, reached, moved⟩ := place
  exact ⟨by omega, by omega, by omega⟩

/-- What was read lies inside. -/
theorem Corresponds.inside (place : Corresponds one other reach address address')
    (below : address + length ≤ one.limit) :
    Corresponds one other 0 (address + length) (address' + length) := by
  obtain ⟨base, -, moved⟩ := place
  exact ⟨by omega, below, by omega⟩

/-- They are in the same order. -/
theorem Corresponds.lt_iff {limit limit' : Nat}
    (place : Corresponds one other reach address address')
    (there : Corresponds one other further limit limit') : address' < limit' ↔ address < limit := by
  obtain ⟨base, -, moved⟩ := place
  obtain ⟨base', -, moved'⟩ := there
  omega

variable (same : other.bytes = one.bytes)

include same

/-- Blobs of the same bytes have the same length. -/
theorem limit_of_same : other.limit + one.base = one.limit + other.base := by
  unfold Blob.limit
  rw [same]
  omega

/-- The same bytes are left from there. -/
theorem Corresponds.tail (place : Corresponds one other reach address address') :
    other.tail address' = one.tail address := by
  unfold Blob.tail
  rw [same, place.moved, Nat.add_sub_cancel_left]

/-- Both blobs can be read up to the same place. -/
theorem Corresponds.within_iff (place : Corresponds one other reach address address') :
    (other.base ≤ address' ∧ address' + length ≤ other.limit) ↔
      one.base ≤ address ∧ address + length ≤ one.limit := by
  have limits := limit_of_same same
  obtain ⟨base, -, moved⟩ := place
  omega

/-- So the same is read. -/
theorem Corresponds.read (place : Corresponds one other reach address address') (block : Block)
    (size : Nat) : other.whole.read block address' size = one.whole.read block address size := by
  change (if other.base ≤ address' ∧ address' + size ≤ other.limit then
    some ((other.tail address').take size) else none) = if one.base ≤ address ∧
      address + size ≤ one.limit then some ((one.tail address).take size) else none
  rw [place.tail same]
  exact if_congr (place.within_iff same) rfl rfl

/-- And the same text. -/
theorem Corresponds.readText (place : Corresponds one other reach address address') (block : Block) :
    other.whole.readText block address' = one.whole.readText block address := by
  unfold Memory.readText
  rw [show other.whole.blob.tail address' = one.whole.blob.tail address from place.tail same]
  cases cstring (one.whole.blob.tail address) with
  | none => rfl
  | some text => exact if_congr (place.within_iff same) rfl rfl

end Places

section Readers

variable {one other : Blob} {reach address address' : Nat}

/-- What is read of a fixed size is the same, and lies inside. -/
theorem parallel_ask {request : Nat → Request} {size : Nat} (same : other.bytes = one.bytes)
    (place : Corresponds one other reach address address')
    (reads : ∀ (memory : Memory) address, memory.answer (request address) =
      memory.read .struct address size)
    (moves : ∀ address, (request address).address = address ∧
      (request address).moved one.base other.base =
        request (other.base + (address - one.base))) :
    Parallel one other
      (fun bytes bytes' => bytes' = bytes ∧
        Corresponds one other 0 (address + size) (address' + size))
      (ask (request address)) (ask (request address')) := by
  refine .ask ⟨?_, ?_⟩ ?_ fun given found => .done ⟨rfl, ?_⟩
  · exact place.base.trans (Nat.le_of_eq (moves address).1.symm)
  · rw [(moves address).2, place.moved]
  · rw [reads, reads, place.read same]
  · rw [reads, Memory.read_eq_some] at found
    obtain ⟨holds, width⟩ := found
    exact place.inside (width ▸ holds.2.1)

/-- Both stop with the same message. -/
theorem parallel_err {α β : Type} {post : α → β → Prop} (message : String) :
    Parallel one other post (err message : Reading α) (err message) := .stop

/-- Sums of the same numbers are the same. -/
theorem parallel_checkedAdd {width first second : Nat} :
    Parallel one other (fun value value' => value' = value ∧ value = first + second)
      (checkedAdd width first second) (checkedAdd width first second) := by
  unfold checkedAdd
  split
  · exact .done ⟨rfl, rfl⟩
  · exact .stop

/-- So are products. -/
theorem parallel_checkedMul {width first second : Nat} :
    Parallel one other (fun value value' => value' = value)
      (checkedMul width first second) (checkedMul width first second) := by
  unfold checkedMul
  split
  · exact .done rfl
  · exact .stop

/-- And differences. -/
theorem parallel_checkedSub {first second : Nat} :
    Parallel one other (fun value value' => value' = value ∧ value ≤ first)
      (checkedSub first second) (checkedSub first second) := by
  unfold checkedSub
  split
  · exact .done ⟨rfl, Nat.sub_le _ _⟩
  · exact .stop

/-- Rounding up adds less than four, and stays in its width. -/
theorem parallel_nextMultipleOf {width length : Nat} (fits : length < 2 ^ width) :
    Parallel one other
      (fun padded padded' => padded' = padded ∧ padded < 2 ^ width ∧ padded ≤ length + 3)
      (nextMultipleOf width length 4) (nextMultipleOf width length 4) := by
  unfold nextMultipleOf checkedAdd
  split
  · exact .done ⟨rfl, fits, Nat.le_add_right _ _⟩
  · split
    case isTrue below => exact .done ⟨rfl, below, by omega⟩
    case isFalse => exact .stop

/-- A field of the header has 32 bits. -/
theorem field_lt (bytes : Bytes) (index : Nat) : FtdHeader.field bytes index < 2 ^ 32 := by
  have short : ((bytes.drop (4 * index)).take 4).length ≤ 4 := List.length_take_le _ _
  calc FtdHeader.field bytes index
      < 256 ^ ((bytes.drop (4 * index)).take 4).length := beNat_lt _
    _ ≤ 256 ^ 4 := Nat.pow_le_pow_right (by decide) short
    _ = 2 ^ 32 := by decide

variable (same : other.bytes = one.bytes)

include same

/-- Both see the same token. -/
theorem parallel_getTypes (place : Corresponds one other reach address address') :
    Parallel one other
      (fun token token' => token' = token ∧ Corresponds one other 0 (address + 4) (address' + 4))
      (DtbParser.getTypes address) (DtbParser.getTypes address') := by
  refine (parallel_ask same place (fun _ _ => rfl) fun _ => ⟨rfl, rfl⟩).bind fun bytes _ read => ?_
  obtain ⟨rfl, inside⟩ := read
  exact .done ⟨rfl, inside⟩

/-- And the same end. -/
theorem parallel_checkEnd (place : Corresponds one other reach address address') :
    Parallel one other (fun _ _ => True) (DtbParser.checkEnd address)
      (DtbParser.checkEnd address') := by
  unfold DtbParser.checkEnd
  refine (parallel_getTypes same place).bind ?_
  rintro _ token ⟨rfl, -⟩
  cases token with
  | fdtEnd => exact .done trivial
  | _ => exact parallel_err _

/-- Both read the same header of a property. -/
theorem parallel_readProperty (place : Corresponds one other reach address address') :
    Parallel one other
      (fun property property' => property' = property ∧ property.propertyLen < 2 ^ 32 ∧
        property.nameOffset < 2 ^ 32 ∧ Corresponds one other 0 (address + 8) (address' + 8))
      (FdtProperty.read address) (FdtProperty.read address') := by
  refine (parallel_ask same place (fun _ _ => rfl) fun _ => ⟨rfl, rfl⟩).bind fun bytes _ read => ?_
  obtain ⟨rfl, inside⟩ := read
  exact .done ⟨rfl, field_lt _ _, field_lt _ _, inside⟩

/-- And the same cell. -/
theorem parallel_readU32FromPtr (place : Corresponds one other reach address address') :
    Parallel one other
      (fun word word' => word' = word ∧ Corresponds one other 0 (address + 4) (address' + 4))
      (Dtb.readU32FromPtr address) (Dtb.readU32FromPtr address') := by
  refine (parallel_ask same place (fun _ _ => rfl) fun _ => ⟨rfl, rfl⟩).bind fun bytes _ read => ?_
  obtain ⟨rfl, inside⟩ := read
  exact .done ⟨rfl, inside⟩

/-- And the same string. -/
theorem parallel_readCharStr (block : Block) (place : Corresponds one other reach address address') :
    Parallel one other
      (fun text text' => text' = text ∧ Corresponds one other 0
        (address + (text.utf8ByteSize + 1)) (address' + (text.utf8ByteSize + 1)))
      (Dtb.readCharStr block address) (Dtb.readCharStr block address') := by
  have asked : Parallel one other (fun bytes bytes' => bytes' = bytes ∧ Corresponds one other 0
      (address + (bytes.length + 1)) (address' + (bytes.length + 1)))
      (ask (.text block address)) (ask (.text block address')) := by
    refine .ask ⟨place.base, ?_⟩ (place.readText same block) fun given found => .done ⟨rfl, ?_⟩
    · rw [Request.moved, place.moved]
    · obtain ⟨-, holds⟩ := Memory.readText_eq_some.mp found
      have below := holds.2.1
      rw [List.length_append, List.length_singleton] at below
      exact place.inside below
  refine asked.bind fun _ bytes read => ?_
  obtain ⟨rfl, inside⟩ := read
  cases decoded : decodeUtf8 bytes with
  | none => exact parallel_err _
  | some text =>
      have length : text.utf8ByteSize = bytes.length := by
        rw [← decodeUtf8_eq_some_iff.mp decoded]
        rfl
      rw [← length] at inside
      exact .done ⟨rfl, inside⟩

section Sums

variable (clear : one.Clear) (clear' : other.Clear)

include clear clear'

/-- A sum which stays near the end overflows in neither blob. -/
theorem parallel_moveOn {length : Nat} (near : reach < 2 ^ 33)
    (there : Corresponds one other reach (address + length) (address' + length)) :
    Parallel one other (fun next next' => next = address + length ∧ next' = address' + length)
      (checkedAdd 64 address length) (checkedAdd 64 address' length) := by
  have limits := limit_of_same same
  have room : one.limit + 2 ^ 33 ≤ 2 ^ 64 := clear
  have room' : other.limit + 2 ^ 33 ≤ 2 ^ 64 := clear'
  obtain ⟨base, reached, moved⟩ := there
  unfold checkedAdd
  rw [if_pos (by omega), if_pos (by omega)]
  exact .done ⟨rfl, rfl⟩

/-- Both cursors move on by the same length, and neither overflows. -/
theorem parallel_moveOn_bind {α β : Type} {post : α → β → Prop} {next : Nat → Reading α}
    {further : Nat → Reading β} {length : Nat} (near : reach < 2 ^ 33)
    (there : Corresponds one other reach (address + length) (address' + length))
    (rest : Parallel one other post (next (address + length)) (further (address' + length))) :
    Parallel one other post (checkedAdd 64 address length >>= next)
      (checkedAdd 64 address' length >>= further) := by
  refine (parallel_moveOn same clear clear' near there).bind ?_
  rintro _ _ ⟨rfl, rfl⟩
  exact rest

/-- Cells are read one after another, each inside. -/
theorem parallel_readRegsLoop {size result consumed : Nat} (near : reach < 2 ^ 33)
    (place : Corresponds one other reach (address + consumed) (address' + consumed)) :
    Parallel one other
      (fun cells cells' => cells' = cells ∧
        Corresponds one other reach (address + cells.2) (address' + cells.2))
      (Dtb.readRegsLoop address size result consumed)
      (Dtb.readRegsLoop address' size result consumed) := by
  induction size generalizing result consumed with
  | zero => exact .done ⟨rfl, place⟩
  | succ size ih =>
      unfold Dtb.readRegsLoop
      refine parallel_moveOn_bind same clear clear' near place ?_
      refine (parallel_readU32FromPtr same place).bind fun word _ read => ?_
      obtain ⟨rfl, inside⟩ := read
      refine parallel_checkedAdd.bind fun _ sum added => ?_
      obtain ⟨rfl, -⟩ := added
      refine parallel_checkedAdd.bind fun _ _ added => ?_
      obtain ⟨rfl, rfl⟩ := added
      rw [Nat.add_assoc, Nat.add_assoc] at inside
      exact ih (inside.mono (Nat.zero_le _))

/-- Both read the same cells. -/
theorem parallel_readRegs {size : Nat} (near : reach < 2 ^ 33)
    (place : Corresponds one other reach address address') :
    Parallel one other
      (fun cells cells' => cells' = cells ∧
        Corresponds one other reach (address + cells.2) (address' + cells.2))
      (Dtb.readRegs address size) (Dtb.readRegs address' size) :=
  parallel_readRegsLoop same clear clear' near place

/-- The strings of the same value. -/
structure SameIter (one other : Blob) (iter iter' : CharStringIter) : Prop where
  pointer : Corresponds one other 0 iter.pointer iter'.pointer
  remainSize : iter'.remainSize = iter.remainSize

/-- Both take the next string of their lists. -/
theorem parallel_nextInternal {iter iter' : CharStringIter} (alike : SameIter one other iter iter') :
    Parallel one other
      (fun step step' => step'.1 = step.1 ∧ SameIter one other step.2 step'.2)
      iter.nextInternal iter'.nextInternal := by
  unfold CharStringIter.nextInternal
  refine (parallel_readCharStr same .struct alike.pointer).bind fun text _ read => ?_
  obtain ⟨rfl, inside⟩ := read
  refine (parallel_moveOn same clear clear' (by decide) inside).bind fun pointer _ moved => ?_
  obtain ⟨rfl, rfl⟩ := moved
  rw [alike.remainSize]
  split
  · exact parallel_err _
  · split
    · exact parallel_err _
    · exact .done ⟨rfl, inside, rfl⟩

/-- So both find the name in `compatible` or neither does. -/
theorem parallel_compatibleLoop {name : String} {steps : Nat} {iter iter' : CharStringIter}
    {result : Bool} (alike : SameIter one other iter iter') :
    Parallel one other (fun result result' => result' = result)
      (SimpleDeviceNode.compatibleLoop name steps iter result)
      (SimpleDeviceNode.compatibleLoop name steps iter' result) := by
  induction steps generalizing iter iter' result with
  | zero => exact .stop
  | succ steps ih =>
      unfold SimpleDeviceNode.compatibleLoop CharStringIter.next
      rw [alike.remainSize]
      split
      · exact .done rfl
      · rw [bind_assoc, bind_assoc]
        refine (parallel_nextInternal same clear clear' alike).bind ?_
        rintro ⟨text, later⟩ ⟨_, later'⟩ ⟨rfl, alike⟩
        exact ih alike

end Sums
end Readers

section Nodes

/-- Related options are both absent, or both present with related values. -/
theorem rel_cases {α β : Type} {related : α → β → Prop} {first : Option α} {second : Option β}
    (rel : Option.Rel related first second) : first = none ∧ second = none ∨
      ∃ value value', first = some value ∧ second = some value' ∧ related value value' := by
  cases rel with
  | some holds => exact .inr ⟨_, _, rfl, rfl, holds⟩
  | none => exact .inl ⟨rfl, rfl⟩

variable {one other : Blob}

/-- What two nodes remember of the same properties. -/
structure SameFields (one other : Blob) (node node' : SimpleDeviceNode) : Prop where
  addressCells : node'.addressCells = node.addressCells
  sizeCells : node'.sizeCells = node.sizeCells
  reg : Option.Rel (fun reg reg' => Corresponds one other 0 reg.1 reg'.1 ∧ reg'.2 = reg.2 ∧
    reg.2 < 2 ^ 32) node.reg node'.reg
  ranges : Option.Rel (Corresponds one other 0) node.ranges node'.ranges

/-- The same node in two blobs, with the nodes around it. -/
inductive SameNode (one other : Blob) : SimpleDeviceNode → SimpleDeviceNode → Prop where
  | root {node node'} (top : node.parent = none) (top' : node'.parent = none)
      (fields : SameFields one other node node') : SameNode one other node node'
  | child {node node' parent parent'} (up : node.parent = some parent)
      (up' : node'.parent = some parent') (above : SameNode one other parent parent')
      (fields : SameFields one other node node') : SameNode one other node node'

/-- Nodes which are the same have the same fields. -/
theorem SameNode.fields {node node' : SimpleDeviceNode} (alike : SameNode one other node node') :
    SameFields one other node node' := by
  cases alike with
  | root _ _ fields => exact fields
  | child _ _ _ fields => exact fields

/-- And the same parents. -/
theorem SameNode.parent {node node' : SimpleDeviceNode} (alike : SameNode one other node node') :
    Option.Rel (SameNode one other) node.parent node'.parent := by
  cases alike with
  | root top top' =>
      rw [top, top']
      exact .none
  | child up up' above =>
      rw [up, up']
      exact .some above

/-- Fields and parents are all there is. -/
theorem SameNode.intro {node node' : SimpleDeviceNode}
    (parent : Option.Rel (SameNode one other) node.parent node'.parent)
    (fields : SameFields one other node node') : SameNode one other node node' := by
  rcases rel_cases parent with ⟨top, top'⟩ | ⟨_, _, up, up', above⟩
  · exact .root top top' fields
  · exact .child up up' above fields

/-- A new node is the same below the same parent. -/
theorem SameNode.new {parent parent' : Option SimpleDeviceNode}
    (alike : Option.Rel (SameNode one other) parent parent') :
    SameNode one other (.new parent) (.new parent') :=
  .intro alike ⟨rfl, rfl, .none, .none⟩

/-- Parsers of the same header. -/
structure SameParser (one other : Blob) (parser parser' : DtbParser) : Prop where
  address : Corresponds one other 0 parser.dtbHeader.address parser'.dtbHeader.address
  header : parser'.dtbHeader.header = parser.dtbHeader.header
  struct : parser.dtbHeader.header.offDtStruct < 2 ^ 32
  strings : parser.dtbHeader.header.offDtStrings < 2 ^ 32
  size : parser.dtbHeader.header.sizeDtStruct < 2 ^ 32

/-- Both parsers start with the same header. -/
theorem parallel_init (same : other.bytes = one.bytes) :
    Parallel one other (SameParser one other) (DtbParser.init one.base)
      (DtbParser.init other.base) := by
  have start : Corresponds one other 0 one.base other.base :=
    ⟨Nat.le_refl _, Nat.le_add_right _ _, by rw [Nat.sub_self]; rfl⟩
  unfold DtbParser.init Dtb.new
  rw [bind_assoc, bind_assoc]
  refine (parallel_ask same start (fun _ _ => rfl) fun _ => ⟨rfl, rfl⟩).bind ?_
  rintro _ bytes ⟨rfl, -⟩
  dsimp only
  split
  · exact parallel_err _
  · split
    · exact parallel_err _
    · exact .done ⟨start, rfl, field_lt _ _, field_lt _ _, field_lt _ _⟩

/-- Both accept the same lengths. -/
theorem parallel_checkLength {propertyLen : Nat} {required : Option Nat} :
    Parallel one other (fun _ _ => True) (SimpleDeviceNode.checkLength propertyLen required)
      (SimpleDeviceNode.checkLength propertyLen required) := by
  unfold SimpleDeviceNode.checkLength
  split
  · split
    · exact parallel_err _
    · exact .done trivial
  · exact .done trivial

variable (same : other.bytes = one.bytes) (clear : one.Clear) (clear' : other.Clear)

include same clear clear'

/-- Their structure blocks start at corresponding addresses. -/
theorem parallel_getStructStartAddress {parser parser' : DtbParser}
    (alike : SameParser one other parser parser') :
    Parallel one other (Corresponds one other (2 ^ 32))
      parser.dtbHeader.getStructStartAddress parser'.dtbHeader.getStructStartAddress := by
  have struct := alike.struct
  have start := (alike.address.add parser.dtbHeader.header.offDtStruct).mono
    (show _ ≤ 2 ^ 32 by omega)
  unfold Dtb.getStructStartAddress
  rw [alike.header]
  refine (parallel_moveOn same clear clear' (by decide) start).mono fun _ _ moved => ?_
  obtain ⟨rfl, rfl⟩ := moved
  exact start

/-- And end there. -/
theorem parallel_getStructEndAddress {parser parser' : DtbParser}
    (alike : SameParser one other parser parser') :
    Parallel one other (Corresponds one other (2 ^ 33 - 1))
      parser.dtbHeader.getStructEndAddress parser'.dtbHeader.getStructEndAddress := by
  have size := alike.size
  unfold Dtb.getStructEndAddress
  rw [alike.header]
  refine (parallel_getStructStartAddress same clear clear' alike).bind fun _ _ start => ?_
  have stop := (start.add parser.dtbHeader.header.sizeDtStruct).mono
    (show _ ≤ 2 ^ 33 - 1 by omega)
  refine (parallel_moveOn same clear clear' (by decide) stop).mono fun _ _ moved => ?_
  obtain ⟨rfl, rfl⟩ := moved
  exact stop

variable {search search' : Search} {reach address address' propertyLen : Nat}
  {node node' : SimpleDeviceNode}

/-- The same search in two blobs. -/
structure SameSearch (one other : Blob) (search search' : Search) : Prop where
  parser : SameParser one other search.parser search'.parser
  deviceName : search'.deviceName = search.deviceName
  compatibleName : search'.compatibleName = search.compatibleName
  fuel : search'.fuel = search.fuel

/-- Each arm of the property match does the same in both. -/
theorem parallel_propArm (searches : SameSearch one other search search')
    (nodes : SameNode one other node node') (value : Corresponds one other 0 address address')
    (short : propertyLen < 2 ^ 32) (kind : PropName) :
    Parallel one other
      (fun arm arm' => arm'.1 = arm.1 ∧ SameNode one other arm.2.1 arm'.2.1 ∧ arm'.2.2 = arm.2.2)
      (node.propArm search address propertyLen kind)
      (node'.propArm search' address' propertyLen kind) := by
  have fields := nodes.fields
  cases kind with
  | addressCells =>
      refine (parallel_readU32FromPtr same value).bind fun _ _ read => ?_
      exact .done ⟨rfl, .intro nodes.parent { fields with addressCells := read.1 }, rfl⟩
  | sizeCells =>
      refine (parallel_readU32FromPtr same value).bind fun _ _ read => ?_
      exact .done ⟨rfl, .intro nodes.parent { fields with sizeCells := read.1 }, rfl⟩
  | compatible =>
      unfold SimpleDeviceNode.propArm
      rw [searches.compatibleName, searches.fuel]
      cases search.compatibleName with
      | none => exact .done ⟨rfl, nodes, rfl⟩
      | some name =>
          have strings : SameIter one other ⟨address, propertyLen⟩ ⟨address', propertyLen⟩ :=
            ⟨value, rfl⟩
          refine (parallel_compatibleLoop same clear clear' strings).bind fun _ _ matched => ?_
          exact .done ⟨matched, nodes, rfl⟩
  | deviceName =>
      unfold SimpleDeviceNode.propArm
      rw [searches.deviceName]
      cases search.deviceName with
      | none => exact .done ⟨rfl, nodes, rfl⟩
      | some name =>
          refine (parallel_readCharStr same .struct value).bind fun _ _ read => ?_
          exact .done ⟨by rw [read.1], nodes, rfl⟩
  | reg =>
      cases nodes with
      | root top top' =>
          simp only [SimpleDeviceNode.propArm, top, top']
          exact parallel_err _
      | child up up' above =>
          simp only [SimpleDeviceNode.propArm, up, up', above.fields.addressCells,
            above.fields.sizeCells]
          refine parallel_checkedAdd.bind fun _ _ added => ?_
          obtain ⟨rfl, -⟩ := added
          exact .done
            ⟨rfl, .child rfl rfl above { fields with reg := .some ⟨value, rfl, short⟩ }, rfl⟩
  | ranges => exact .done ⟨rfl, .intro nodes.parent { fields with ranges := .some value }, rfl⟩
  | other => exact .done ⟨rfl, nodes, rfl⟩

/-- So both parse the same property. -/
theorem parallel_parseProp (searches : SameSearch one other search search')
    (nodes : SameNode one other node node')
    (token : Corresponds one other 0 (address + 4) (address' + 4)) :
    Parallel one other
      (fun parsed parsed' => parsed'.1 = parsed.1 ∧ SameNode one other parsed.2.1 parsed'.2.1 ∧
        Corresponds one other (2 ^ 32) parsed.2.2 parsed'.2.2)
      (node.parseProp search address) (node'.parseProp search' address') := by
  have parsers := searches.parser
  have small := parsers.strings
  have strings := (parsers.address.add search.parser.dtbHeader.header.offDtStrings).mono
    (show _ ≤ 2 ^ 32 by omega)
  unfold SimpleDeviceNode.parseProp Dtb.getStringStartAddress
  rw [parsers.header]
  refine parallel_moveOn_bind same clear clear' (by decide) token ?_
  refine (parallel_readProperty same token).bind fun _ property read => ?_
  obtain ⟨rfl, short, offset, value⟩ := read
  refine parallel_moveOn_bind same clear clear' (by decide) value ?_
  refine parallel_moveOn_bind same clear clear' (by decide) strings ?_
  have named := (strings.add property.nameOffset).mono (show _ ≤ 2 ^ 33 - 1 by omega)
  refine parallel_moveOn_bind same clear clear' (by decide) named ?_
  refine (parallel_readCharStr same .strings named).bind fun _ name read => ?_
  obtain ⟨rfl, -⟩ := read
  refine (parallel_propArm same clear clear' searches nodes value short _).bind ?_
  rintro ⟨result, after, required⟩ ⟨_, after', _⟩ ⟨rfl, nodes, rfl⟩
  refine parallel_checkLength.bind fun _ _ _ => ?_
  refine (parallel_nextMultipleOf short).bind fun _ padded rounded => ?_
  obtain ⟨rfl, fits, -⟩ := rounded
  have next := (value.add padded).mono (show _ ≤ 2 ^ 32 by omega)
  refine parallel_moveOn_bind same clear clear' (by decide) next ?_
  exact .done ⟨rfl, nodes, next⟩

/-- Both read the same window of a `reg`. -/
theorem parallel_readRegInternal (nodes : SameNode one other node node') {offset : Nat}
    (small : offset < 2 ^ 32) :
    Parallel one other (fun window window' => window' = window)
      (node.readRegInternal offset) (node'.readRegInternal offset) := by
  rcases rel_cases nodes.fields.reg with ⟨absent, absent'⟩ | ⟨reg, reg', some, some', start, -, -⟩
  · simp only [SimpleDeviceNode.readRegInternal, absent, absent']
    exact .done rfl
  · cases nodes with
    | root top top' =>
        simp only [SimpleDeviceNode.readRegInternal, some, some', top, top']
        exact .stop
    | child up up' above =>
        simp only [SimpleDeviceNode.readRegInternal, some, some', up, up',
          above.fields.addressCells, above.fields.sizeCells]
        split
        · exact parallel_err _
        · have entry := (start.add offset).mono (show _ ≤ 2 ^ 32 by omega)
          refine parallel_moveOn_bind same clear clear' (by decide) entry ?_
          refine (parallel_readRegs same clear clear' (by decide) entry).bind fun _ _ read => ?_
          obtain ⟨rfl, behind⟩ := read
          refine parallel_moveOn_bind same clear clear' (by decide) behind ?_
          refine (parallel_readRegs same clear clear' (by decide) behind).bind fun _ _ read => ?_
          obtain ⟨rfl, -⟩ := read
          exact .done rfl

/-- And the same entry of a `ranges`. -/
theorem parallel_readRoundInternal (nodes : SameNode one other node node') :
    Parallel one other (fun entry entry' => entry' = entry)
      node.readRoundInternal node'.readRoundInternal := by
  have fields := nodes.fields
  rcases rel_cases fields.ranges with ⟨absent, absent'⟩ | ⟨start, start', some, some', place⟩
  · simp only [SimpleDeviceNode.readRoundInternal, absent, absent']
    exact .done rfl
  · simp only [SimpleDeviceNode.readRoundInternal, some, some', fields.addressCells,
      fields.sizeCells]
    refine (parallel_readRegs same clear clear' (by decide) place).bind fun _ _ read => ?_
    obtain ⟨rfl, second⟩ := read
    refine parallel_moveOn_bind same clear clear' (by decide) second ?_
    cases nodes with
    | root top top' =>
        simp only [top, top']
        exact .stop
    | child up up' above =>
        simp only [up, up', above.fields.addressCells]
        refine (parallel_readRegs same clear clear' (by decide) second).bind fun _ _ read => ?_
        obtain ⟨rfl, third⟩ := read
        refine parallel_moveOn_bind same clear clear' (by decide) third ?_
        refine (parallel_readRegs same clear clear' (by decide) third).bind fun _ _ read => ?_
        obtain ⟨rfl, -⟩ := read
        exact .done rfl

/-- Both translate a window by the same entries. -/
theorem parallel_addressChild (nodes : SameNode one other node node') (window : Window) :
    Parallel one other (fun window window' => window' = window)
      (node.addressChild window) (node'.addressChild window) := by
  have present : node'.ranges.isSome = node.ranges.isSome := by
    rcases rel_cases nodes.fields.ranges with ⟨absent, absent'⟩ | ⟨_, _, some, some', -⟩
    · rw [absent, absent']
    · rw [some, some']
      rfl
  unfold SimpleDeviceNode.addressChild
  rw [present]
  split
  · refine (parallel_readRoundInternal same clear clear' nodes).bind fun _ entry read => ?_
    subst read
    rcases entry with _ | ⟨child, parent, len⟩
    · exact .stop
    · refine parallel_checkedAdd.bind fun _ _ added => ?_
      obtain ⟨rfl, -⟩ := added
      refine parallel_checkedAdd.bind fun _ _ added => ?_
      obtain ⟨rfl, -⟩ := added
      split
      · exact parallel_err _
      · refine parallel_checkedSub.bind fun _ _ offset => ?_
        obtain ⟨rfl, -⟩ := offset
        refine parallel_checkedAdd.bind fun _ _ added => ?_
        obtain ⟨rfl, -⟩ := added
        exact .done rfl
  · exact .done rfl

/-- So both translate it alike up to the root. -/
theorem parallel_calculateAddressInternal (nodes : SameNode one other node node')
    (window : Window) : Parallel one other (fun window window' => window' = window)
      (node.calculateAddressInternal window) (node'.calculateAddressInternal window) := by
  induction nodes generalizing window with
  | root top top' fields =>
      rw [calculateAddressInternal_eq, calculateAddressInternal_eq, top, top']
      refine (parallel_addressChild same clear clear' (.root top top' fields) window).bind ?_
      exact fun _ _ moved => .done moved
  | child up up' above fields ih =>
      rw [calculateAddressInternal_eq, calculateAddressInternal_eq, up, up']
      refine (parallel_addressChild same clear clear' (.child up up' above fields) window).bind ?_
      rintro _ window rfl
      exact ih window

/-- The windows of the same node, from the same entry on. -/
structure SameWindows (one other : Blob) (iter iter' : DeviceAddressIter) : Prop where
  prop : SameNode one other iter.prop iter'.prop
  remain : iter'.remain = iter.remain

/-- Both take the next window of their nodes. -/
theorem parallel_nextWindow {iter iter' : DeviceAddressIter}
    (alike : SameWindows one other iter iter') :
    Parallel one other (fun step step' => step'.1 = step.1 ∧ SameWindows one other step.2 step'.2)
      iter.nextInternal iter'.nextInternal := by
  have nodes := alike.prop
  rcases rel_cases nodes.fields.reg with
    ⟨absent, absent'⟩ | ⟨⟨_, size⟩, ⟨_, _⟩, some, some', -, length, short⟩
  · simp only [DeviceAddressIter.nextInternal, absent, absent']
    exact parallel_err _
  · dsimp only at length short
    subst length
    simp only [DeviceAddressIter.nextInternal, some, some', alike.remain]
    split
    · exact .done ⟨rfl, nodes, rfl⟩
    · refine parallel_checkedSub.bind fun offset _ subtracted => ?_
      obtain ⟨rfl, below⟩ := subtracted
      have inside := Nat.lt_of_le_of_lt below short
      refine (parallel_readRegInternal same clear clear' nodes inside).bind ?_
      rintro _ (_ | window) rfl
      · exact parallel_err _
      · refine (parallel_calculateAddressInternal same clear clear' nodes window).bind ?_
        rintro _ result rfl
        cases nodes with
        | root top top' =>
            simp only [top, top']
            exact .stop
        | child up up' above =>
            simp only [up, up', above.fields.addressCells, above.fields.sizeCells]
            refine parallel_checkedAdd.bind fun _ _ added => ?_
            obtain ⟨rfl, -⟩ := added
            refine parallel_checkedMul.bind fun _ _ multiplied => ?_
            subst multiplied
            refine parallel_checkedSub.bind fun _ _ subtracted => ?_
            obtain ⟨rfl, -⟩ := subtracted
            exact .done ⟨rfl, alike.prop, rfl⟩

end Nodes

section Walks

variable {one other : Blob} {search search' : Search} {node node' : SimpleDeviceNode}
  {reach pointer pointer' : Nat} (same : other.bytes = one.bytes) (clear : one.Clear)
  (clear' : other.Clear)

include same clear clear'

/-- Both skip the same tokens in front of the root. -/
theorem parallel_skipNop {parser parser' : DtbParser}
    (parsers : SameParser one other parser parser') {steps : Nat}
    (place : Corresponds one other (2 ^ 32) pointer pointer') :
    Parallel one other (Corresponds one other (2 ^ 32))
      (DtbParser.skipNop parser steps pointer) (DtbParser.skipNop parser' steps pointer') := by
  induction steps generalizing pointer pointer' with
  | zero => exact .stop
  | succ steps ih =>
      unfold DtbParser.skipNop
      refine (parallel_getStructEndAddress same clear clear' parsers).bind ?_
      intro limit limit' stop
      have before : pointer' < limit' ↔ pointer < limit := place.lt_iff stop
      simp only [before]
      split
      · refine (parallel_getTypes same place).bind ?_
        rintro _ token ⟨rfl, inside⟩
        cases token with
        | nop =>
            refine parallel_moveOn_bind same clear clear' (by decide) inside ?_
            exact ih (inside.mono (Nat.zero_le _))
        | _ => exact .done place
      · exact .done place

/-- What the property loop finds at the same node. -/
structure SameOpening (one other : Blob) (opened opened' : SimpleDeviceNode × Bool × Nat) :
    Prop where
  node : SameNode one other opened.1 opened'.1
  found : opened'.2.1 = opened.2.1
  pointer : Corresponds one other (2 ^ 32) opened.2.2 opened'.2.2

/-- Both read the same properties. -/
theorem parallel_propLoop (searches : SameSearch one other search search') {steps : Nat}
    {found : Bool} (nodes : SameNode one other node node')
    (place : Corresponds one other (2 ^ 32) pointer pointer') :
    Parallel one other (SameOpening one other)
      (DtbParser.propLoop search steps node found pointer)
      (DtbParser.propLoop search' steps node' found pointer') := by
  induction steps generalizing node node' found pointer pointer' with
  | zero => exact .stop
  | succ steps ih =>
      unfold DtbParser.propLoop
      refine (parallel_getTypes same place).bind ?_
      rintro _ token ⟨rfl, inside⟩
      cases token with
      | nop =>
          refine parallel_moveOn_bind same clear clear' (by decide) inside ?_
          exact ih nodes (inside.mono (Nat.zero_le _))
      | prop =>
          refine (parallel_parseProp same clear clear' searches nodes inside).bind ?_
          rintro ⟨_, after, next⟩ ⟨result, after', next'⟩ ⟨rfl, nodes, there⟩
          exact ih nodes there
      | beginNode | endNode => exact .done ⟨nodes, rfl, place⟩
      | fdtEnd | unknown => exact parallel_err _

/-- So both open the same node. -/
theorem parallel_openNode (searches : SameSearch one other search search')
    {parent parent' : Option SimpleDeviceNode}
    (parents : Option.Rel (SameNode one other) parent parent')
    (place : Corresponds one other (2 ^ 32) pointer pointer') :
    Parallel one other (SameOpening one other) (DtbParser.openNode search parent pointer)
      (DtbParser.openNode search' parent' pointer') := by
  unfold DtbParser.openNode
  refine (parallel_getTypes same place).bind ?_
  rintro _ token ⟨rfl, inside⟩
  cases token with
  | beginNode =>
      refine parallel_moveOn_bind same clear clear' (by decide) inside ?_
      refine (parallel_readCharStr same .struct inside).bind ?_
      rintro _ name ⟨rfl, behind⟩
      have short : name.utf8ByteSize + 1 < 2 ^ 64 := by
        have room : one.limit + 2 ^ 33 ≤ 2 ^ 64 := clear
        have below := behind.reached
        omega
      refine (parallel_nextMultipleOf short).bind ?_
      rintro _ padded ⟨rfl, -, close⟩
      have next : Corresponds one other (2 ^ 32) (pointer + 4 + padded) (pointer' + 4 + padded) := by
        obtain ⟨base, reached, moved⟩ := behind
        obtain ⟨base', -, moved'⟩ := inside
        exact ⟨by omega, by omega, by omega⟩
      refine parallel_moveOn_bind same clear clear' (by decide) next ?_
      rw [searches.fuel]
      exact parallel_propLoop same clear clear' searches (.new parents) next
  | _ => exact parallel_err _

/-- Both make the same calls for it. -/
theorem parallel_addressLoop {steps : Nat} {iter iter' : DeviceAddressIter}
    (alike : SameWindows one other iter iter') :
    Parallel one other (fun flow flow' => flow' = flow)
      (DtbParser.addressLoop steps iter) (DtbParser.addressLoop steps iter') := by
  induction steps generalizing iter iter' with
  | zero => exact .stop
  | succ steps ih =>
      unfold DtbParser.addressLoop
      refine (Inquiry.lift_linked (parallel_nextWindow same clear clear' alike)).bind ?_
      rintro ⟨_, later⟩ ⟨window, later'⟩ ⟨rfl, alike⟩
      cases window with
      | none => exact .done rfl
      | some window =>
          refine .call fun flow => ?_
          cases flow with
          | Break => exact .done rfl
          | Continue => exact ih alike

/-- Where the walk over the same node leaves the cursors. -/
structure SameEnd (one other : Blob) (walked walked' : ControlFlow × Nat) : Prop where
  flow : walked'.1 = walked.1
  pointer : Corresponds one other (2 ^ 32) walked.2 walked'.2

/-- Both mutual functions at once, by induction on the steps. -/
theorem parallel_walk (searches : SameSearch one other search search') (steps : Nat) :
    (∀ {parent parent' pointer pointer'}, Option.Rel (SameNode one other) parent parent' →
      Corresponds one other (2 ^ 32) pointer pointer' →
        Parallel one other (SameEnd one other)
          (DtbParser.findNodeRecursive search steps parent pointer)
          (DtbParser.findNodeRecursive search' steps parent' pointer')) ∧
    ∀ {node node' pointer pointer'}, SameNode one other node node' →
      Corresponds one other (2 ^ 32) pointer pointer' →
        Parallel one other (SameEnd one other) (DtbParser.childLoop search steps node pointer)
          (DtbParser.childLoop search' steps node' pointer') := by
  induction steps with
  | zero =>
      constructor
      · exact fun _ _ => .stop
      · exact fun _ _ => .stop
  | succ steps ih =>
      constructor
      · intro parent parent' pointer pointer' parents place
        unfold DtbParser.findNodeRecursive
        refine (Inquiry.lift_linked
          (parallel_openNode same clear clear' searches parents place)).bind ?_
        rintro ⟨node, _, next⟩ ⟨node', found, next'⟩ ⟨nodes, rfl, there⟩
        cases found with
        | false => exact ih.2 nodes there
        | true =>
            dsimp only
            rw [searches.fuel]
            refine (parallel_addressLoop same clear clear'
              (show SameWindows one other (.new node) (.new node') from ⟨nodes, rfl⟩)).bind ?_
            rintro _ flow rfl
            cases flow with
            | Break => exact .done ⟨rfl, there⟩
            | Continue => exact ih.2 nodes there
      · intro node node' pointer pointer' nodes place
        unfold DtbParser.childLoop
        refine (Inquiry.lift_linked (parallel_getTypes same place)).bind ?_
        rintro _ token ⟨rfl, inside⟩
        cases token with
        | nop =>
            refine (Inquiry.lift_linked
              (parallel_moveOn same clear clear' (by decide) inside)).bind fun _ _ moved => ?_
            obtain ⟨rfl, rfl⟩ := moved
            exact ih.2 nodes (inside.mono (Nat.zero_le _))
        | beginNode =>
            refine (ih.1 (.some nodes) place).bind ?_
            rintro ⟨_, later⟩ ⟨flow, later'⟩ ⟨rfl, there⟩
            cases flow with
            | Break => exact .done ⟨rfl, there⟩
            | Continue => exact ih.2 nodes there
        | endNode =>
            refine (Inquiry.lift_linked
              (parallel_moveOn same clear clear' (by decide) inside)).bind fun _ _ moved => ?_
            obtain ⟨rfl, rfl⟩ := moved
            exact .done ⟨rfl, inside.mono (Nat.zero_le _)⟩
        | _ => exact .stop

/-- So the two searches run in parallel. -/
theorem parallel_findNode {parser parser' : DtbParser}
    (parsers : SameParser one other parser parser') (deviceName compatibleName : Option String)
    (fuel : Nat) :
    Parallel one other (fun _ _ => True) (parser.findNode deviceName compatibleName fuel)
      (parser'.findNode deviceName compatibleName fuel) := by
  unfold DtbParser.findNode DtbParser.walkStruct
  split
  · exact .stop
  · have searches : SameSearch one other ⟨parser, deviceName, compatibleName, fuel⟩
        ⟨parser', deviceName, compatibleName, fuel⟩ := ⟨parsers, rfl, rfl, rfl⟩
    rw [bind_assoc, bind_assoc]
    refine (Inquiry.lift_linked
      (parallel_getStructStartAddress same clear clear' parsers)).bind fun _ _ start => ?_
    rw [bind_assoc, bind_assoc]
    refine (Inquiry.lift_linked (parallel_skipNop same clear clear' parsers start)).bind
      fun _ _ begins => ?_
    refine ((parallel_walk same clear clear' searches fuel).1 .none begins).bind ?_
    rintro ⟨_, pointer⟩ ⟨_, pointer'⟩ ⟨-, there⟩
    exact Inquiry.lift_linked (parallel_checkEnd same there)

end Walks

/-- What a caller does with a blob at an address of a memory, in the debug build: it loads the
blob, and searches it. -/
def Blob.searchAt (memory : Blob) (address : Nat) (deviceName compatibleName : Option String)
    (callback : Callback) (fuel : Nat) : Except Failure Unit × List Window :=
  Dialogue.exec memory.whole.answer callback (debug do
    let parser ← DtbParser.init address
    parser.findNode deviceName compatibleName fuel) []

/-- The same failure in a blob which begins elsewhere. -/
def Failure.moved (source target : Nat) : Failure → Failure
  | .stopped reason => .stopped reason
  | .unanswered request => .unanswered (request.moved source target)

/-- Endings which differ only in the place of the blob. -/
theorem eq_of_ended {one other : Blob} {ending ending' : Except Failure Unit}
    (ended : Ended (Request.Matches one other) (fun _ _ => True) ending ending') :
    ending' = ending.mapError (Failure.moved one.base other.base) := by
  cases ended with
  | value => rfl
  | stopped => rfl
  | unanswered linked =>
      rw [linked.2]
      rfl

/-- The checks of the debug build see no difference between the places of two blobs. -/
structure Blob.Congruent (one other : Blob) : Prop where
  null : other.base = 0 ↔ one.base = 0
  aligned : other.base % 4 = one.base % 4

instance (one other : Blob) : Decidable (one.Congruent other) :=
  decidable_of_iff ((other.base = 0 ↔ one.base = 0) ∧ other.base % 4 = one.base % 4)
    ⟨fun both => ⟨both.1, both.2⟩, fun congruent => ⟨congruent.null, congruent.aligned⟩⟩

/-- The pointer of the same request passes in both. -/
theorem Blob.Congruent.isValid {one other : Blob} (congruent : one.Congruent other)
    {request request' : Request} (linked : request.Matches one other request') :
    request'.isValid = request.isValid := by
  obtain ⟨above, rfl⟩ := linked
  obtain ⟨null, aligned⟩ := congruent
  have remainder : (other.base + (request.address - one.base)) % 4 = request.address % 4 := by
    omega
  cases request with
  | token | text => rfl
  | property | word => exact congrArg (fun rest => decide (rest = 0)) remainder
  | header address =>
      have start : other.base + (address - one.base) = 0 ↔ address = 0 := by
        dsimp only [Request.address] at above
        omega
      simp only [Request.isValid, Request.moved, ne_eq, start]
      dsimp only [Request.address] at remainder
      rw [remainder]

section Searches

variable {one other : Blob} (same : other.bytes = one.bytes) (congruent : one.Congruent other)
  (clear : one.Clear) (clear' : other.Clear) (deviceName compatibleName : Option String)
  (callback : Callback) (fuel : Nat)

include same congruent clear clear'

/-- Both searches make the same calls, and end at the same place. -/
theorem searchAt_ended :
    (other.searchAt other.base deviceName compatibleName callback fuel).2 =
        (one.searchAt one.base deviceName compatibleName callback fuel).2 ∧
      Ended (Request.Matches one other) (fun _ _ => True)
        (one.searchAt one.base deviceName compatibleName callback fuel).1
        (other.searchAt other.base deviceName compatibleName callback fuel).1 := by
  have linked := (Inquiry.lift_linked (parallel_init same)).bind fun _ _ parsers =>
    parallel_findNode same clear clear' parsers deviceName compatibleName fuel
  have alike : ∀ request request', Request.Matches one other request request' →
      request'.isValid = request.isValid := fun _ _ => congruent.isValid
  exact (linked.checked alike).exec callback []

/-- A search does not depend on where its blob is: at every address which is the same to the
checks of pointers it is loaded or refused in the same way, makes the same calls, and has the
same result. -/
theorem search_moved : other.searchAt other.base deviceName compatibleName callback fuel =
    ((one.searchAt one.base deviceName compatibleName callback fuel).1.mapError
        (Failure.moved one.base other.base),
      (one.searchAt one.base deviceName compatibleName callback fuel).2) := by
  obtain ⟨calls, ended⟩ :=
    searchAt_ended same congruent clear clear' deviceName compatibleName callback fuel
  exact Prod.ext (eq_of_ended ended) calls

end Searches

/-- The bytes of a board with a UART, where the firmware of a Pi might leave them. -/
def uartAbove : Blob where
  base := 0x2eff0000
  bytes := uartImage.blob.bytes
  addressable := by decide +kernel

/-- The UART of the board is found there too. -/
theorem uartAbove_found :
    uartImage.blob.searchAt uartImage.blob.base none (some "pl011") .always 20 =
        (.ok (), [(0x1000, 0x200)]) ∧
      uartAbove.searchAt uartAbove.base none (some "pl011") .always 20 =
        ((uartImage.blob.searchAt uartImage.blob.base none (some "pl011") .always 20).1.mapError
            (Failure.moved uartImage.blob.base uartAbove.base),
          (uartImage.blob.searchAt uartImage.blob.base none (some "pl011") .always 20).2) := by
  constructor
  · decide +kernel
  · exact @search_moved uartImage.blob uartAbove rfl (by decide) (by decide +kernel)
      (by decide +kernel) none (some "pl011") .always 20

end Rpi5.DeviceTree
