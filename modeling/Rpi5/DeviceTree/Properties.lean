import Rpi5.DeviceTree.Format

/-!
# Reading properties

One property in memory is read by `parse_prop` exactly if the search accepts it
(`parseProp_of_token`, `token_of_parseProp`), and a property loop reads all
properties of a node (`propLoop_of_items`, `items_of_propLoop`). The node the walk
builds agrees with the device the properties describe (`Level`), and its parents
with the ancestors of the device (`Stands`).
-/

namespace Rpi5.DeviceTree

open Rpi5.Logical Rpi5.Semantics

/-- A value stands at an address, and the address after it is one. -/
def Placed (memory : Memory) (start : Nat) (value : Bytes) : Prop :=
  memory.Holds .struct start value ∧ start + value.length < 2 ^ 64

/-- A node agrees with a device: the cells are the same, and the values of `reg`
and `ranges` stand where the node says. -/
structure Level (memory : Memory) (node : SimpleDeviceNode) (device : Device) : Prop where
  addressCells : node.addressCells = device.addressCells
  sizeCells : node.sizeCells = device.sizeCells
  reg : Option.Rel (fun value place => place.2 = value.length ∧ Placed memory place.1 value)
    (device.value? "reg") node.reg
  ranges : Option.Rel (fun value start => Placed memory start value)
    (device.value? "ranges") node.ranges

/-- A node and its parents agree with a device and its ancestors. -/
inductive Stands (memory : Memory) : Option SimpleDeviceNode → Lineage → Prop where
  | root : Stands memory none []
  | inner {node device ancestors} (level : Level memory node device)
      (above : Stands memory node.parent ancestors) :
      Stands memory (some node) (device :: ancestors)

/-- The first of a lineage agrees with the node itself. -/
theorem Stands.level {memory : Memory} {node : SimpleDeviceNode} {device : Device}
    {ancestors : Lineage} (stands : Stands memory (some node) (device :: ancestors)) :
    Level memory node device := by
  cases stands with
  | inner level above => exact level

/-- The others of a lineage agree with the parents of the node. -/
theorem Stands.above {memory : Memory} {node : SimpleDeviceNode} {device : Device}
    {ancestors : Lineage} (stands : Stands memory (some node) (device :: ancestors)) :
    Stands memory node.parent ancestors := by
  cases stands with
  | inner level above => exact above

/-- Where there is an ancestor there is a parent. -/
theorem Stands.exists_node {memory : Memory} {node : Option SimpleDeviceNode} {device : Device}
    {ancestors : Lineage} (stands : Stands memory node (device :: ancestors)) :
    ∃ parent, node = some parent ∧ Level memory parent device := by
  cases stands with
  | inner level above => exact ⟨_, rfl, level⟩

section Storing

variable {memory : Memory} {node : SimpleDeviceNode} {address : Nat} {value : Bytes}

/-- The node after a property whose value stands at an address. -/
def SimpleDeviceNode.store (node : SimpleDeviceNode) (address : Nat) (value : Bytes) :
    PropName → SimpleDeviceNode
  | .addressCells => { node with addressCells := beNat (value.take 4) }
  | .sizeCells => { node with sizeCells := beNat (value.take 4) }
  | .reg => { node with reg := some (address, value.length) }
  | .ranges => { node with ranges := some address }
  | .compatible => node
  | .deviceName => node
  | .other => node

/-- A property says nothing about the parent. -/
@[simp] theorem store_parent (kind : PropName) :
    (node.store address value kind).parent = node.parent := by
  cases kind <;> rfl

/-- Only `ranges` says where it is. -/
theorem store_ranges (kind : PropName) :
    (node.store address value kind).ranges = if kind = .ranges then some address else node.ranges := by
  cases kind <;> rfl

/-- The last property of a name counts. -/
theorem value?_append (name : String) (properties : List Property) (property : Property)
    {kind : PropName} (known : kind ≠ .other) :
    (⟨name, properties ++ [property]⟩ : Device).value? kind.text =
      if PropName.ofName property.name = kind then some property.value
      else (⟨name, properties⟩ : Device).value? kind.text := by
  simp [Device.value?, PropName.ofName_eq_iff known]

/-- A fresh node agrees with a device without properties. -/
theorem Level.fresh (name : String) (parent : Option SimpleDeviceNode) :
    Level memory (.new parent) ⟨name, []⟩ :=
  ⟨rfl, rfl, .none, .none⟩

/-- Storing a property keeps the agreement. -/
theorem Level.store {name : String} {properties : List Property} {property : Property}
    (level : Level memory node ⟨name, properties⟩)
    (placed : Placed memory address property.value) :
    Level memory (node.store address property.value (PropName.ofName property.name))
      ⟨name, properties ++ [property]⟩ := by
  have addressCells := @value?_append name properties property .addressCells (by decide)
  have sizeCells := @value?_append name properties property .sizeCells (by decide)
  have reg := @value?_append name properties property .reg (by decide)
  have ranges := @value?_append name properties property .ranges (by decide)
  obtain ⟨sameAddress, sameSize, sameReg, sameRanges⟩ := level
  simp only [PropName.text] at addressCells sizeCells reg ranges
  simp only [Device.addressCells, Device.sizeCells, Device.cellsOr] at sameAddress sameSize
  constructor <;>
    simp only [Device.addressCells, Device.sizeCells, Device.cellsOr, addressCells, sizeCells, reg,
      ranges] <;>
    cases kind : PropName.ofName property.name <;> simp_all [SimpleDeviceNode.store]

end Storing

section Strings

variable {memory : Memory} {address : Nat} {raw rest value : Bytes}

/-- The iterator takes a complete string off its value. -/
theorem eval_nextInternal (free : 0 ∉ raw)
    (holds : memory.Holds .struct address (raw ++ 0 :: rest))
    (below : address + (raw ++ 0 :: rest).length < 2 ^ 64)
    (short : (raw ++ 0 :: rest).length < 2 ^ 32) :
    (CharStringIter.nextInternal ⟨address, (raw ++ 0 :: rest).length⟩).eval memory.answer =
      match decodeUtf8 raw with
      | some text => .ok (text, ⟨address + (raw.length + 1), rest.length⟩)
      | none => .error (.stopped (.err "failed to convert &Cstr to &str")) := by
  have parts : memory.Holds .struct address ((raw ++ [0]) ++ rest) := by simpa using holds
  have found : memory.answer (.text .struct address) = some raw :=
    Memory.readText_eq_some.mpr ⟨free, (Memory.holds_append.mp parts).1⟩
  unfold CharStringIter.nextInternal Dtb.readCharStr
  simp only [Inquiry.eval_bind, eval_ask, found, ok_bind]
  cases decoded : decodeUtf8 raw with
  | none => simp
  | some text =>
      have size : text.utf8ByteSize = raw.length := by
        rw [← decodeUtf8_eq_some_iff.mp decoded]
        rfl
      simp only [List.length_append, List.length_cons] at below short ⊢
      simp only [Inquiry.eval_pure, ok_bind, size]
      rw [eval_checkedAdd (by omega), ok_bind, if_neg (by omega), if_neg (by omega)]
      simp only [Inquiry.eval_pure]
      congr 3
      omega

/-- A value without a NUL gives the iterator no string. -/
theorem eval_nextInternal_ne_ok (free : 0 ∉ value) (holds : memory.Holds .struct address value)
    (result : String × CharStringIter) :
    (CharStringIter.nextInternal ⟨address, value.length⟩).eval memory.answer ≠ .ok result := by
  intro taken
  unfold CharStringIter.nextInternal at taken
  simp only [Inquiry.eval_bind, bind_eq_ok, eval_readCharStr_eq_ok] at taken
  obtain ⟨text, ⟨-, present⟩, _, -, taken⟩ := taken
  split at taken
  · simp at taken
  · split at taken
    · simp at taken
    case isFalse fits =>
      have size : text.utf8ByteSize = (utf8 text).length := rfl
      obtain ⟨-, -, rest, left⟩ := present
      obtain ⟨-, -, rest', right⟩ := holds
      have inside : utf8 text ++ [0] <+: value := by
        apply List.prefix_of_prefix_length_le ⟨rest, left⟩ ⟨rest', right⟩
        simp only [List.length_append, List.length_singleton]
        omega
      exact free (inside.subset (by simp))

/-- The loop over `compatible` succeeds exactly on a list of complete strings in
UTF-8, and finds the name exactly if it is one of them. -/
theorem compatibleLoop_eq_ok {name : String} {steps : Nat} {before result : Bool}
    (holds : memory.Holds .struct address value) (below : address + value.length < 2 ^ 64)
    (short : value.length < 2 ^ 32) (enough : value.length < steps) :
    (SimpleDeviceNode.compatibleLoop name steps ⟨address, value.length⟩ before).eval
        memory.answer = .ok result ↔
      ((cstrings value).2 = [] ∧ ∀ text ∈ (cstrings value).1, (decodeUtf8 text).isSome) ∧
        result = (before || decide (utf8 name ∈ (cstrings value).1)) := by
  induction steps generalizing value address before with
  | zero => omega
  | succ steps ih =>
      unfold SimpleDeviceNode.compatibleLoop CharStringIter.next
      by_cases empty : value = []
      · subst empty
        simp only [List.length_nil, ↓reduceIte, pure_bind, Inquiry.eval_pure, Except.ok.injEq,
          cstrings, List.not_mem_nil, false_implies, implies_true, and_self, true_and,
          decide_false, Bool.or_false]
        exact eq_comm
      · have positive : value.length ≠ 0 := by simpa using empty
        simp only [positive, ↓reduceIte, bind_assoc, Inquiry.eval_bind]
        by_cases nul : 0 ∈ value
        · obtain ⟨raw, rest, rfl, free⟩ := List.eq_append_cons_of_mem nul
          have parts : memory.Holds .struct address ((raw ++ [0]) ++ rest) := by simpa using holds
          have later := (Memory.holds_append.mp parts).2
          rw [eval_nextInternal free holds below short, cstrings_append_nul free]
          rw [List.length_append, List.length_singleton] at later
          rw [List.length_append, List.length_cons] at below short enough
          cases decoded : decodeUtf8 raw with
          | none => simp [decoded]
          | some text =>
              have next := @ih _ _ (before || decide (utf8 name = raw)) later (by omega) (by omega)
                (by omega)
              have same : (name == text) = decide (utf8 name = raw) := by
                rw [← decodeUtf8_eq_some_iff.mp decoded, Bool.eq_iff_iff]
                simp [utf8_injective.eq_iff]
              simp only [ok_bind, Inquiry.eval_pure, next, List.mem_cons, forall_eq_or_imp, decoded,
                Option.isSome_some, true_and, same, Bool.or_assoc, Bool.decide_or]
        · have stuck := eval_nextInternal_ne_ok nul holds
          simp only [cstrings_of_notMem nul]
          rcases ok_or_error ((CharStringIter.nextInternal ⟨address, value.length⟩).eval
            memory.answer) with ⟨_, taken⟩ | ⟨reason, failed⟩
          · exact absurd taken (stuck _)
          · simp [failed, empty]

end Strings

section Arms

variable {memory : Memory} {search : Search} {node : SimpleDeviceNode} {ancestors : Lineage}
  {address : Nat} {value : Bytes} {kind : PropName}

/-- A cell property is a `u32`. -/
theorem Device.cellsOr_lt (device : Device) {name : String} {default : Nat} (small : default < 2 ^ 32) :
    device.cellsOr name default < 2 ^ 32 := by
  unfold cellsOr
  cases device.value? name with
  | none => exact small
  | some value =>
      have short : (256 : Nat) ^ (value.take 4).length ≤ 256 ^ 4 :=
        Nat.pow_le_pow_right (by decide) (by simp)
      exact Nat.lt_of_lt_of_le (beNat_lt (value.take 4)) short

/-- `#address-cells` has 32 bits. -/
theorem Device.addressCells_lt (device : Device) : device.addressCells < 2 ^ 32 :=
  device.cellsOr_lt (by decide)

/-- So has `#size-cells`. -/
theorem Device.sizeCells_lt (device : Device) : device.sizeCells < 2 ^ 32 :=
  device.cellsOr_lt (by decide)

/-- A length is accepted if it is at least what is required. -/
theorem eval_checkLength_eq_ok {length : Nat} {required : Option Nat} :
    (SimpleDeviceNode.checkLength length required).eval memory.answer = .ok () ↔
      ∀ least ∈ required, least ≤ length := by
  unfold SimpleDeviceNode.checkLength
  cases required with
  | none => simp
  | some least =>
      by_cases tooShort : least > length
      · simp [tooShort]
      · simp [tooShort, Nat.not_lt.mp tooShort]

/-- The first word of a value is read. -/
theorem eval_readU32FromPtr (holds : memory.Holds .struct address value)
    (long : 4 ≤ value.length) :
    (Dtb.readU32FromPtr address).eval memory.answer = .ok (beNat (value.take 4)) := by
  rw [← List.take_append_drop 4 value] at holds
  exact eval_readU32FromPtr_eq_ok.mpr
    ⟨value.take 4, (Memory.holds_append.mp holds).1, by simp [long], rfl⟩

/-- The first string of a value is read, if it is valid. -/
theorem exists_readCharStr_of_first {raw : Bytes} (holds : memory.Holds .struct address value)
    (first : raw ∈ (cstrings value).1.head?) (valid : (decodeUtf8 raw).isSome) :
    ∃ text, (Dtb.readCharStr .struct address).eval memory.answer = .ok text ∧ utf8 text = raw := by
  obtain ⟨text, decoded⟩ := Option.isSome_iff_exists.mp valid
  have encoded := decodeUtf8_eq_some_iff.mp decoded
  have nul : 0 ∈ value := by
    by_contra free
    simp [cstrings_of_notMem free] at first
  obtain ⟨before, rest, rfl, free⟩ := List.eq_append_cons_of_mem nul
  rw [cstrings_append_nul free] at first
  obtain rfl : before = raw := Option.some.inj first
  have parts : memory.Holds .struct address ((before ++ [0]) ++ rest) := by
    simpa using holds
  refine ⟨text, ?_, encoded⟩
  rw [eval_readCharStr_eq_ok, encoded]
  exact ⟨free, (Memory.holds_append.mp parts).1⟩

/-- The arms of `parse_prop` on an accepted value. -/
theorem propArm_of_accepts (holds : memory.Holds .struct address value)
    (below : address + value.length < 2 ^ 64) (short : value.length < 2 ^ 32)
    (enough : 2 ^ 32 ≤ search.fuel) (stands : Stands memory node.parent ancestors)
    (accepts : kind.Accepts search.deviceName search.compatibleName ancestors value) :
    ∃ required,
      (node.propArm search address value.length kind).eval memory.answer =
          .ok (kind.isMatch search.deviceName search.compatibleName value,
            node.store address value kind, required) ∧
        (SimpleDeviceNode.checkLength value.length required).eval memory.answer = .ok () := by
  simp only [eval_checkLength_eq_ok]
  cases kind with
  | addressCells =>
      have long : 4 ≤ value.length := accepts
      refine ⟨some 4, ?_, by simpa using long⟩
      simp [SimpleDeviceNode.propArm, eval_readU32FromPtr holds accepts, PropName.isMatch,
        SimpleDeviceNode.store]
  | sizeCells =>
      have long : 4 ≤ value.length := accepts
      refine ⟨some 4, ?_, by simpa using long⟩
      simp [SimpleDeviceNode.propArm, eval_readU32FromPtr holds accepts, PropName.isMatch,
        SimpleDeviceNode.store]
  | compatible =>
      refine ⟨none, ?_, by simp⟩
      cases wanted : search.compatibleName with
      | none => simp [SimpleDeviceNode.propArm, wanted, PropName.isMatch, SimpleDeviceNode.store]
      | some name =>
          have fine := accepts (by simp [wanted])
          have loop : (SimpleDeviceNode.compatibleLoop name search.fuel ⟨address, value.length⟩
              false).eval memory.answer = .ok (decide (utf8 name ∈ (cstrings value).1)) :=
            (compatibleLoop_eq_ok holds below short (by omega)).mpr ⟨fine, by simp⟩
          simp [SimpleDeviceNode.propArm, wanted, loop, PropName.isMatch, SimpleDeviceNode.store]
  | deviceName =>
      refine ⟨none, ?_, by simp⟩
      cases wanted : search.deviceName with
      | none => simp [SimpleDeviceNode.propArm, wanted, PropName.isMatch, SimpleDeviceNode.store]
      | some name =>
          obtain ⟨raw, first, valid⟩ := accepts (by simp [wanted])
          obtain ⟨text, read, rfl⟩ := exists_readCharStr_of_first holds first valid
          have same : (name == text) = decide (utf8 text = utf8 name) := by
            rw [Bool.eq_iff_iff]
            simp only [beq_iff_eq, decide_eq_true_eq, utf8_injective.eq_iff]
            exact eq_comm
          rw [Option.mem_def] at first
          unfold SimpleDeviceNode.propArm
          simp only [wanted, Inquiry.eval_bind, read, ok_bind, Inquiry.eval_pure, same]
          simp [PropName.isMatch, SimpleDeviceNode.store, first]
  | reg =>
      obtain ⟨device, nearest, long⟩ := accepts
      generalize owner : node.parent = parent at stands
      cases stands with
      | root => simp at nearest
      | @inner parent other above level parents =>
          simp only [List.head?_cons, Option.mem_def, Option.some.injEq] at nearest
          subst nearest
          have fewAddress := other.addressCells_lt
          have fewSize := other.sizeCells_lt
          unfold Device.stride at long
          refine ⟨some (other.addressCells * 4 + other.sizeCells * 4), ?_, ?_⟩
          · unfold SimpleDeviceNode.propArm
            simp only [owner, level.addressCells, level.sizeCells, Inquiry.eval_bind]
            rw [eval_checkedAdd (by omega)]
            simp [PropName.isMatch, SimpleDeviceNode.store, owner]
          · simp only [Option.mem_def, Option.some.injEq, forall_eq']
            omega
  | ranges =>
      refine ⟨if value.length ≠ 0 then none else some 0, ?_, ?_⟩
      · simp [SimpleDeviceNode.propArm, PropName.isMatch, SimpleDeviceNode.store]
      · split <;> simp
  | other =>
      refine ⟨none, ?_, by simp⟩
      simp [SimpleDeviceNode.propArm, PropName.isMatch, SimpleDeviceNode.store]

/-- Only accepted values pass the arms of `parse_prop` in a search without a
device name. (With a device name the string of `device_type` is read without
regard to the length of the value.) -/
theorem accepts_of_propArm {found : Bool} {after : SimpleDeviceNode} {required : Option Nat}
    (holds : memory.Holds .struct address value) (below : address + value.length < 2 ^ 64)
    (short : value.length < 2 ^ 32) (enough : 2 ^ 32 ≤ search.fuel)
    (stands : Stands memory node.parent ancestors) (unnamed : search.deviceName = none)
    (armed : (node.propArm search address value.length kind).eval memory.answer =
      .ok (found, after, required))
    (checked : (SimpleDeviceNode.checkLength value.length required).eval memory.answer = .ok ()) :
    kind.Accepts search.deviceName search.compatibleName ancestors value := by
  rw [eval_checkLength_eq_ok] at checked
  unfold SimpleDeviceNode.propArm at armed
  cases kind with
  | addressCells =>
      simp only [Inquiry.eval_bind, bind_eq_ok, Inquiry.eval_pure, Except.ok.injEq,
        Prod.mk.injEq] at armed
      obtain ⟨cells, -, -, -, rfl⟩ := armed
      exact checked 4 rfl
  | sizeCells =>
      simp only [Inquiry.eval_bind, bind_eq_ok, Inquiry.eval_pure, Except.ok.injEq,
        Prod.mk.injEq] at armed
      obtain ⟨cells, -, -, -, rfl⟩ := armed
      exact checked 4 rfl
  | compatible =>
      intro wanted
      obtain ⟨name, wanted⟩ := Option.isSome_iff_exists.mp wanted
      simp only [wanted, Inquiry.eval_bind, bind_eq_ok] at armed
      obtain ⟨matched, loop, -⟩ := armed
      exact ((compatibleLoop_eq_ok holds below short (by omega)).mp loop).1
  | deviceName => simp [PropName.Accepts, unnamed]
  | reg =>
      generalize owner : node.parent = parent at stands armed
      cases stands with
      | root => simp at armed
      | @inner parent other above level parents =>
          simp only [Inquiry.eval_bind, bind_eq_ok, eval_checkedAdd_eq_ok, Inquiry.eval_pure,
            Except.ok.injEq, Prod.mk.injEq] at armed
          obtain ⟨least, ⟨-, rfl⟩, -, -, rfl⟩ := armed
          have long := checked _ rfl
          refine ⟨other, rfl, ?_⟩
          rw [level.addressCells, level.sizeCells] at long
          unfold Device.stride
          omega
  | ranges => trivial
  | other => trivial

end Arms

section Tokens

variable {memory : Memory} {address : Nat}

/-- The bytes of a token. -/
def Token.encode : Token → Bytes
  | .beginNode => DtbParser.fdtBeginNode
  | .endNode => DtbParser.fdtEndNode
  | .prop => DtbParser.fdtProp
  | .nop => DtbParser.fdtNop
  | .fdtEnd => DtbParser.fdtEnd
  | .unknown => []

/-- A token is read exactly if it stands there. -/
theorem eval_getTypes_eq_ok {token : Token} (known : token ≠ .unknown) :
    (DtbParser.getTypes address).eval memory.answer = .ok token ↔
      memory.Holds .struct address token.encode := by
  unfold DtbParser.getTypes
  simp only [Inquiry.eval_bind, bind_eq_ok, eval_ask_eq_ok, Memory.answer, Memory.read_eq_some,
    Inquiry.eval_pure, Except.ok.injEq]
  constructor
  · rintro ⟨bytes, ⟨holds, -⟩, rfl⟩
    have same : bytes = (Token.ofBytes bytes).encode := by
      unfold Token.ofBytes at known ⊢
      repeat' split
      all_goals simp_all [Token.encode]
    rwa [← same]
  · intro holds
    refine ⟨token.encode, ⟨holds, ?_⟩, ?_⟩
    · cases token <;> first | rfl | exact absurd rfl known
    · cases token <;> rfl

/-- Where a token is read, its four bytes can be seen. -/
theorem inside_of_getTypes {token : Token}
    (read : (DtbParser.getTypes address).eval memory.answer = .ok token) :
    memory.low .struct ≤ address ∧ address + 4 ≤ memory.high .struct := by
  unfold DtbParser.getTypes at read
  simp only [Inquiry.eval_bind, bind_eq_ok, eval_ask_eq_ok, Memory.answer,
    Memory.read_eq_some] at read
  obtain ⟨bytes, ⟨⟨above, below, -⟩, four⟩, -⟩ := read
  omega

/-- A token which is read ends inside the address space. -/
theorem addressable_of_getTypes {token : Token}
    (read : (DtbParser.getTypes address).eval memory.answer = .ok token) :
    address + 4 ≤ 2 ^ 64 :=
  ((inside_of_getTypes read).2.trans (memory.le_limit _)).trans memory.blob.addressable

/-- The token of a node ends inside the address space. -/
theorem AtNode.addressable (atNode : AtNode memory address) : address + 4 ≤ 2 ^ 64 := by
  rcases atNode with read | read <;> exact addressable_of_getTypes read

/-- Every range of addresses which can be seen holds some bytes. -/
theorem Memory.exists_holds {block : Block} {size : Nat} (above : memory.low block ≤ address)
    (below : address + size ≤ memory.high block) :
    ∃ bytes : Bytes, bytes.length = size ∧ memory.Holds block address bytes := by
  have found : memory.read block address size = some ((memory.blob.tail address).take size) :=
    if_pos ⟨above, below⟩
  obtain ⟨holds, length⟩ := Memory.read_eq_some.mp found
  exact ⟨_, length, holds⟩

end Tokens

section ParseProp

variable {memory : Memory} {search : Search} {node : SimpleDeviceNode} {ancestors : Lineage}
  {address : Nat}

/-- The parts of a property in memory. -/
theorem PropToken.holds_encode {token : PropToken} :
    memory.Holds .struct address token.encode ↔
      (memory.Holds .struct address DtbParser.fdtProp ∧
        memory.Holds .struct (address + 4)
          (be32 token.property.value.length ++ be32 token.nameOffset)) ∧
      memory.Holds .struct (address + 12) (token.property.value ++ token.padding) := by
  unfold encode
  rw [Memory.holds_append, Memory.holds_append]
  rfl

/-- An accepted property is read, and the cursor is after it. -/
theorem parseProp_of_token {token : PropToken}
    (holds : memory.Holds .struct address token.encode)
    (named : token.Named memory search.parser.stringStart)
    (accepted : token.property.Accepted search.deviceName search.compatibleName ancestors)
    (stands : Stands memory node.parent ancestors)
    (below : address + token.encode.length < 2 ^ 64) (enough : 2 ^ 32 ≤ search.fuel) :
    (node.parseProp search address).eval memory.answer =
      .ok (token.property.isMatch search.deviceName search.compatibleName,
        node.store (address + 12) token.property.value (PropName.ofName token.property.name),
        address + token.encode.length) := by
  have short := token.short
  have padded := token.padded
  have offset := token.offset_lt
  rw [token.length_encode] at below ⊢
  obtain ⟨⟨-, header⟩, content⟩ := PropToken.holds_encode.mp holds
  have value := (Memory.holds_append.mp content).1
  have read : (FdtProperty.read (address + 4)).eval memory.answer =
      .ok ⟨token.property.value.length, token.nameOffset⟩ :=
    eval_readProperty_eq_ok.mpr ⟨header, by simp only; omega, offset⟩
  have name : (Dtb.readCharStr .strings (search.parser.stringStart + token.nameOffset)).eval
      memory.answer = .ok token.property.name :=
    eval_readCharStr_eq_ok.mpr ⟨token.nulFree, named⟩
  have stringsBound := named.addressable
  rw [List.length_append, List.length_singleton] at stringsBound
  obtain ⟨required, armed, checked⟩ :=
    propArm_of_accepts value (by omega) (by omega) enough stands accepted
  have rounded : (nextMultipleOf 32 token.property.value.length 4).eval memory.answer =
      .ok (token.property.value.length + token.padding.length) := by
    rw [eval_nextMultipleOf_eq_ok, ← padded]
    exact ⟨.inr short, rfl⟩
  have strings : search.parser.dtbHeader.getStringStartAddress.eval memory.answer =
      .ok search.parser.stringStart := by
    apply eval_checkedAdd_eq_ok.mpr ⟨?_, rfl⟩
    change search.parser.stringStart < 2 ^ 64
    omega
  unfold SimpleDeviceNode.parseProp
  simp only [Inquiry.eval_bind]
  rw [eval_checkedAdd (by omega)]
  simp only [ok_bind, read, strings]
  rw [eval_checkedAdd (by omega), ok_bind, eval_checkedAdd (by omega), ok_bind]
  simp only [name, ok_bind, armed, checked, rounded]
  rw [eval_checkedAdd (by omega)]
  simp only [ok_bind, Inquiry.eval_pure, Nat.add_assoc, Nat.reduceAdd]
  rfl

/-- A property which is read, with a token after it, stands there and is accepted. -/
theorem token_of_parseProp {found : Bool} {after : SimpleDeviceNode} {next : Nat} {token : Token}
    (begins : (DtbParser.getTypes address).eval memory.answer = .ok .prop)
    (parsed : (node.parseProp search address).eval memory.answer = .ok (found, after, next))
    (follows : (DtbParser.getTypes next).eval memory.answer = .ok token)
    (stands : Stands memory node.parent ancestors) (unnamed : search.deviceName = none)
    (enough : 2 ^ 32 ≤ search.fuel) :
    ∃ token : PropToken, memory.Holds .struct address token.encode ∧
      token.Named memory search.parser.stringStart ∧
      token.property.Accepted search.deviceName search.compatibleName ancestors ∧
      next = address + token.encode.length := by
  have whole := parsed
  unfold SimpleDeviceNode.parseProp at parsed
  simp only [Inquiry.eval_bind, bind_eq_ok, eval_checkedAdd_eq_ok, eval_readProperty_eq_ok,
    eval_readCharStr_eq_ok, eval_nextMultipleOf_eq_ok, Inquiry.eval_pure, Except.ok.injEq,
    Prod.mk.injEq] at parsed
  obtain ⟨_, ⟨-, rfl⟩, property, ⟨header, lenBound, offsetBound⟩, _, ⟨-, rfl⟩, strings, start, _,
    ⟨-, rfl⟩, name, ⟨free, named⟩, ⟨matched, stored, required⟩, armed, ⟨⟩, checked, _,
    ⟨fits, rfl⟩, _, ⟨below, rfl⟩, -, -, rfl⟩ := parsed
  have strings : search.parser.stringStart = strings :=
    (eval_checkedAdd_eq_ok.mp start).2
  subst strings
  have inside := inside_of_getTypes follows
  have above := inside_of_getTypes begins
  obtain ⟨content, length, content'⟩ : ∃ bytes : Bytes,
      bytes.length = property.propertyLen + padLength property.propertyLen ∧
        memory.Holds .struct (address + 4 + 8) bytes :=
    Memory.exists_holds (by omega) (by omega)
  have size : (content.take property.propertyLen).length = property.propertyLen := by
    rw [List.length_take]
    omega
  have rest : (content.drop property.propertyLen).length = padLength property.propertyLen := by
    rw [List.length_drop]
    omega
  have padding := padLength_lt property.propertyLen
  let token : PropToken :=
    { property := ⟨name, content.take property.propertyLen⟩
      nameOffset := property.nameOffset
      padding := content.drop property.propertyLen
      nulFree := free
      offset_lt := offsetBound
      padded := by rw [rest, size]
      short := by rw [rest, size]; omega }
  have value : memory.Holds .struct (address + 4 + 8) token.property.value :=
    (Memory.holds_append.mp ((List.take_append_drop property.propertyLen content).symm ▸ content')).1
  have length' : token.property.value.length = property.propertyLen := size
  refine ⟨token, ?_, named, ?_, ?_⟩
  · rw [PropToken.holds_encode, length']
    refine ⟨⟨(eval_getTypes_eq_ok (by decide)).mp begins, header⟩, ?_⟩
    simpa [token] using content'
  · rw [← length'] at armed checked
    exact accepts_of_propArm value (by omega) (by omega) enough stands unnamed armed checked
  · rw [token.length_encode, length']
    simp only [token, rest]
    omega

end ParseProp

section PropLoop

variable {memory : Memory} {search : Search} {ancestors : Lineage}

/-- The properties among items. -/
def propertiesOf (items : List PropItem) : List Property := items.filterMap PropItem.property?

/-- A property loop reads all items up to the token of a node. -/
theorem propLoop_of_items {items : List PropItem} {node : SimpleDeviceNode} {name : String}
    {properties : List Property} {found : Bool} {address steps : Nat}
    (holds : memory.Holds .struct address (encodeItems items))
    (named : ∀ token, .prop token ∈ items → token.Named memory search.parser.stringStart)
    (accepted : ∀ property ∈ propertiesOf items,
      property.Accepted search.deviceName search.compatibleName ancestors)
    (atNode : AtNode memory (address + (encodeItems items).length))
    (level : Level memory node ⟨name, properties⟩) (stands : Stands memory node.parent ancestors)
    (enough : 2 ^ 32 ≤ search.fuel) (longer : items.length < steps) :
    ∃ after, (DtbParser.propLoop search steps node found address).eval memory.answer =
        .ok (after, found || (propertiesOf items).any
            (Property.isMatch search.deviceName search.compatibleName),
          address + (encodeItems items).length) ∧
      after.parent = node.parent ∧ Level memory after ⟨name, properties ++ propertiesOf items⟩ ∧
      after.ranges = rangesSite items address node.ranges := by
  have limit := atNode.addressable
  induction items generalizing node properties found address steps with
  | nil =>
      obtain ⟨steps, rfl⟩ : ∃ rest, steps = rest + 1 := ⟨steps - 1, by omega⟩
      refine ⟨node, ?_, rfl, by simpa [propertiesOf] using level, rfl⟩
      unfold DtbParser.propLoop
      simp only [encodeItems, List.length_nil, Nat.add_zero] at atNode
      rcases atNode with read | read <;> simp [read, propertiesOf, encodeItems]
  | cons item items ih =>
      obtain ⟨steps, rfl⟩ : ∃ rest, steps = rest + 1 := ⟨steps - 1, by omega⟩
      simp only [encodeItems, Memory.holds_append, List.length_append] at holds atNode limit ⊢
      rw [← Nat.add_assoc] at atNode limit ⊢
      obtain ⟨first, rest⟩ := holds
      rw [List.length_cons] at longer
      unfold DtbParser.propLoop
      cases item with
      | nop =>
          have read : (DtbParser.getTypes address).eval memory.answer = .ok .nop :=
            (eval_getTypes_eq_ok (by decide)).mpr first
          have size : PropItem.nop.encode.length = 4 := rfl
          rw [size] at rest atNode limit ⊢
          simp only [Inquiry.eval_bind, read, ok_bind]
          rw [eval_checkedAdd (by omega), ok_bind]
          exact ih rest (fun token member => named token (by simp [member])) accepted atNode level
            stands (by omega) limit
      | prop token =>
          have same : (PropItem.prop token).encode = token.encode := rfl
          rw [same] at first rest atNode limit ⊢
          have present : propertiesOf (.prop token :: items) = token.property :: propertiesOf items :=
            rfl
          rw [present] at accepted ⊢
          obtain ⟨⟨begins, -⟩, content⟩ := PropToken.holds_encode.mp first
          have read : (DtbParser.getTypes address).eval memory.answer = .ok .prop :=
            (eval_getTypes_eq_ok (by decide)).mpr begins
          have value := (Memory.holds_append.mp content).1
          have parsed := parseProp_of_token first (named token (by simp))
            (accepted token.property (by simp)) stands (by omega) enough
          obtain ⟨after, run, parent, agrees, site⟩ := @ih
            (node.store (address + 12) token.property.value (PropName.ofName token.property.name))
            (properties ++ [token.property])
            (found || token.property.isMatch search.deviceName search.compatibleName)
            _ steps rest (fun token member => named token (by simp [member]))
            (fun property member => accepted property (by simp [member])) atNode
            (level.store ⟨value, by rw [token.length_encode] at limit; omega⟩) (by simpa using stands)
            (by omega) limit
          refine ⟨after, ?_, by simpa using parent, by simpa using agrees, ?_⟩
          · simp only [Inquiry.eval_bind, read, ok_bind, parsed, run, List.any_cons, Bool.or_assoc]
          · rw [site, store_ranges, rangesSite]

/-- A property loop which comes to an end has read a token first. -/
theorem getTypes_of_propLoop {node : SimpleDeviceNode} {found : Bool} {address steps : Nat}
    {result : SimpleDeviceNode × Bool × Nat}
    (run : (DtbParser.propLoop search steps node found address).eval memory.answer = .ok result) :
    ∃ token, (DtbParser.getTypes address).eval memory.answer = .ok token := by
  cases steps with
  | zero => simp [DtbParser.propLoop] at run
  | succ steps =>
      unfold DtbParser.propLoop at run
      rw [Inquiry.eval_bind, bind_eq_ok] at run
      obtain ⟨token, read, -⟩ := run
      exact ⟨token, read⟩

/-- What a property loop read stands there and is accepted. -/
theorem items_of_propLoop {node after : SimpleDeviceNode} {found matched : Bool}
    {address next steps : Nat}
    (run : (DtbParser.propLoop search steps node found address).eval memory.answer =
      .ok (after, matched, next))
    (stands : Stands memory node.parent ancestors) (unnamed : search.deviceName = none)
    (enough : 2 ^ 32 ≤ search.fuel) :
    ∃ items, memory.Holds .struct address (encodeItems items) ∧
      (∀ token, .prop token ∈ items → token.Named memory search.parser.stringStart) ∧
      (∀ property ∈ propertiesOf items,
        property.Accepted search.deviceName search.compatibleName ancestors) ∧
      next = address + (encodeItems items).length ∧ items.length < steps := by
  induction steps generalizing node found address with
  | zero => simp [DtbParser.propLoop] at run
  | succ steps ih =>
      unfold DtbParser.propLoop at run
      rw [Inquiry.eval_bind, bind_eq_ok] at run
      obtain ⟨token, read, rest⟩ := run
      have inside := inside_of_getTypes read
      have stop : ∀ {same : Nat}, same = next → same = address →
          ∃ items, memory.Holds .struct address (encodeItems items) ∧
            (∀ token, .prop token ∈ items → token.Named memory search.parser.stringStart) ∧
            (∀ property ∈ propertiesOf items,
              property.Accepted search.deviceName search.compatibleName ancestors) ∧
            next = address + (encodeItems items).length ∧ items.length < steps + 1 := by
        rintro _ rfl rfl
        refine ⟨[], ⟨inside.1, by simp only [encodeItems, List.length_nil]; omega, ?_⟩, by simp,
          by simp [propertiesOf], rfl, by simp⟩
        exact List.nil_prefix
      cases token with
      | beginNode =>
          simp only [Inquiry.eval_pure, Except.ok.injEq, Prod.mk.injEq] at rest
          exact stop rest.2.2 rfl
      | endNode =>
          simp only [Inquiry.eval_pure, Except.ok.injEq, Prod.mk.injEq] at rest
          exact stop rest.2.2 rfl
      | fdtEnd => simp at rest
      | unknown => simp at rest
      | nop =>
          simp only [Inquiry.eval_bind, bind_eq_ok, eval_checkedAdd_eq_ok] at rest
          obtain ⟨_, ⟨-, rfl⟩, rest⟩ := rest
          obtain ⟨items, holds, named, accepted, rfl, fewer⟩ := ih rest stands
          have first := (eval_getTypes_eq_ok (by decide)).mp read
          refine ⟨.nop :: items, ?_, by simpa using named, accepted, ?_, by simpa using fewer⟩
          · exact Memory.holds_append.mpr ⟨first, holds⟩
          · simp only [encodeItems, List.length_append, PropItem.encode, DtbParser.fdtNop,
              List.length_cons, List.length_nil]
            omega
      | prop =>
          simp only [Inquiry.eval_bind, bind_eq_ok] at rest
          obtain ⟨⟨match', stored, cursor⟩, parsed, rest⟩ := rest
          obtain ⟨_, follows⟩ := getTypes_of_propLoop rest
          obtain ⟨token, first, name, fine, rfl⟩ :=
            token_of_parseProp read parsed follows stands unnamed enough
          have limit := addressable_of_getTypes follows
          simp only at limit
          rw [parseProp_of_token first name fine stands (by omega) enough] at parsed
          simp only [Except.ok.injEq, Prod.mk.injEq] at parsed
          obtain ⟨rfl, rfl, -⟩ := parsed
          obtain ⟨items, holds, named, accepted, rfl, fewer⟩ := ih rest (by simpa using stands)
          refine ⟨.prop token :: items, ?_, ?_, ?_, ?_, by simpa using fewer⟩
          · exact Memory.holds_append.mpr ⟨first, holds⟩
          · intro other member
            rcases List.mem_cons.mp member with same | member
            · cases same
              exact name
            · exact named other member
          · intro property member
            rcases List.mem_cons.mp member with rfl | member
            · exact fine
            · exact accepted property member
          · simp only [encodeItems, List.length_append, PropItem.encode, Nat.add_assoc]

end PropLoop
end Rpi5.DeviceTree
