import Rpi5.DeviceTree.Stages
import Rpi5.DeviceTree.Pointers

/-!
# What a search reads

What a stage of a search reads depends on the token at the cursor, on the header of a
property and on the cells of the nodes around it. `Image.StageFits` spells this out as a
condition on the bytes of the blob: each token, name, header, string and cell which the stage
comes to is one that may be read. The rules for the parser's functions, from rows of cells
(`asks_readRegs`) to properties (`asks_parseProp`) and entries (`asks_nextInternal`), say that
they put only allowed requests exactly if that holds.

Everything here is about the debug build, which looks at a pointer before it reads.
-/

namespace Rpi5.DeviceTree

open Rpi5.Logical Rpi5.Semantics

/-- The cells taken from the start of a node's `ranges`. Of a root only the first number
of the entry is read. -/
def SimpleDeviceNode.entryCells (node : SimpleDeviceNode) : Nat :=
  match node.parent with
  | none => node.addressCells
  | some parent => node.addressCells + parent.addressCells + node.sizeCells

/-- A request is allowed, unless the debug build refuses its pointer. -/
def Request.Passes (allowed : Request → Prop) (request : Request) : Prop :=
  request.isValid → allowed request

namespace Image

/-- What reading code yields in the debug build. -/
def finds {α : Type} (image : Image) (reading : Reading α) : Except Failure α :=
  Inquiry.eval image.blob.whole.answer (debug reading)

/-- Reading code puts only allowed requests in the debug build. -/
def Asks {α : Type} (image : Image) (allowed : Request → Prop) (reading : Reading α) : Prop :=
  Inquiry.Asks allowed image.blob.whole.answer (debug reading)

variable (image : Image)

/-- The bytes of a request are in the blob. -/
def Serves (request : Request) : Prop := (image.blob.whole.answer request).isSome

/-- A property of a kind stands at a place, and its value has an address. -/
structure PropertyAt (place : Nat) (kind : PropName) (property : FdtProperty) : Prop where
  token : image.finds (DtbParser.getTypes place) = .ok .prop
  header : image.finds (FdtProperty.read (place + 4)) = .ok property
  room : place + 12 < 2 ^ 64
  name : ∃ name, PropName.ofName name = kind ∧ image.finds (Dtb.readCharStr .strings
    (image.parser.stringStart + property.nameOffset)) = .ok name

/-- The strings of a value are taken off one after another. -/
inductive TakesTo (first : CharStringIter) : CharStringIter → Prop where
  | first : TakesTo first first
  | next {iter later text} (earlier : TakesTo first iter)
      (taken : image.finds iter.next = .ok (some (text, later))) : TakesTo first later

section Fitting

variable (allowed : Request → Prop) (deviceName compatibleName : Option String)

/-- Every cell of a row may be read, as far as the row has addresses and is in the blob. -/
def RowFits (start cells : Nat) : Prop :=
  ∀ index < cells, start + 4 * index < 2 ^ 64 →
    (∀ earlier < index, image.Serves (.word (start + 4 * earlier))) →
      (Request.word (start + 4 * index)).Passes allowed

/-- What is read of a value may be read: a cell, the string of a `device_type`, and each
string which is taken off a `compatible`. -/
def ValueFits (address length : Nat) : PropName → Prop
  | .addressCells => (Request.word address).Passes allowed
  | .sizeCells => (Request.word address).Passes allowed
  | .compatible => compatibleName.isSome → ∀ iter, image.TakesTo ⟨address, length⟩ iter →
      iter.remainSize ≠ 0 → allowed (.text .struct iter.pointer)
  | .deviceName => deviceName.isSome → allowed (.text .struct address)
  | _ => True

/-- The header of a property may be read, its name, and what is read of its value. -/
structure PropertyFits (place : Nat) : Prop where
  header : place + 4 < 2 ^ 64 → (Request.property (place + 4)).Passes allowed
  name : ∀ property, image.finds (FdtProperty.read (place + 4)) = .ok property →
    place + 12 < 2 ^ 64 → image.parser.stringStart + property.nameOffset < 2 ^ 64 →
      allowed (.text .strings (image.parser.stringStart + property.nameOffset))
  value : ∀ kind property, image.PropertyAt place kind property →
    image.ValueFits allowed deviceName compatibleName (place + 12) property.propertyLen kind

/-- The entries may be read by which a node and its ancestors translate a window, up to one
which refuses it. -/
def ChainFits : SimpleDeviceNode → Window → Prop
  | ⟨none, addressCells, sizeCells, reg, ranges⟩, _ =>
      ∀ start ∈ ranges, image.RowFits allowed start
        (SimpleDeviceNode.entryCells ⟨none, addressCells, sizeCells, reg, ranges⟩)
  | ⟨some parent, addressCells, sizeCells, reg, ranges⟩, window =>
      (∀ start ∈ ranges, image.RowFits allowed start
        (SimpleDeviceNode.entryCells ⟨some parent, addressCells, sizeCells, reg, ranges⟩)) ∧
      ∀ child, image.finds (SimpleDeviceNode.addressChild
          ⟨some parent, addressCells, sizeCells, reg, ranges⟩ window) = .ok child →
        ChainFits parent child

/-- The next entry of `reg` may be read, if there is one which fits a `usize`, and the entries
it is translated by. -/
def EntryFits (iter : DeviceAddressIter) : Prop :=
  ∀ start size parent, iter.prop.reg = some (start, size) → iter.prop.parent = some parent →
    iter.remain.getD size ≠ 0 → iter.remain.getD size ≤ size →
      parent.addressCells ≤ 2 → parent.sizeCells ≤ 2 →
        image.RowFits allowed (start + (size - iter.remain.getD size))
          (parent.addressCells + parent.sizeCells) ∧
        ∀ window, image.finds (iter.prop.readRegInternal (size - iter.remain.getD size)) =
          .ok (some window) → image.ChainFits allowed iter.prop window

/-- Whatever a search reads at a stage may be read. -/
def StageFits : Stage → Prop
  | .starting => True
  | .leading place => image.parser.structEnd < 2 ^ 64 → place < image.parser.structEnd →
      allowed (.token place)
  | .opening _ place => allowed (.token place) ∧
      (image.finds (DtbParser.getTypes place) = .ok .beginNode → place + 4 < 2 ^ 64 →
        allowed (.text .struct (place + 4)))
  | .properties _ _ _ place => allowed (.token place) ∧
      (image.finds (DtbParser.getTypes place) = .ok .prop →
        image.PropertyFits allowed deviceName compatibleName place)
  | .reporting _ _ iter _ => image.EntryFits allowed iter
  | .children _ _ place => allowed (.token place)
  | .behind place => allowed (.token place)

variable {image allowed} {other : Request → Prop}
  (weaker : ∀ address, allowed (.word address) → other (.word address))

include weaker

/-- Cells may be read for a weaker reason. -/
theorem RowFits.mono {start cells : Nat} (fits : image.RowFits allowed start cells) :
    image.RowFits other start cells :=
  fun index below room before valid => weaker _ (fits index below room before valid)

/-- So may the entries of a chain. -/
theorem ChainFits.mono {node : SimpleDeviceNode} {window : Window}
    (fits : image.ChainFits allowed node window) : image.ChainFits other node window := by
  induction node, window using SimpleDeviceNode.calculateAddressInternal.induct with
  | case1 => exact fun start given => (fits start given).mono weaker
  | case2 _ _ _ _ _ _ ih =>
      exact ⟨fun start given => (fits.1 start given).mono weaker,
        fun child found => ih child (fits.2 child found)⟩

/-- And those of a report. -/
theorem EntryFits.mono {iter : DeviceAddressIter} (fits : image.EntryFits allowed iter) :
    image.EntryFits other iter := by
  intro start size parent given above more ordered few few'
  obtain ⟨row, chain⟩ := fits start size parent given above more ordered few few'
  exact ⟨row.mono weaker, fun window found => (chain window found).mono weaker⟩

end Fitting
end Image

section Rules

variable {image : Image} {allowed : Request → Prop} {α β : Type}

/-- What the debug build finds the blob holds. -/
theorem reads_of_finds {reading : Reading α} {value : α} (found : image.finds reading = .ok value) :
    Inquiry.eval image.blob.whole.answer reading = .ok value := by
  have run : (debug reading).exec image.blob.whole.answer Inquiry.nobody [] = (.ok value, []) := by
    rw [Inquiry.exec_nobody]
    exact Prod.ext found rfl
  have plain := (Dialogue.exec_checked_eq_ok.mp run).1
  rw [Inquiry.exec_nobody] at plain
  exact (Prod.mk.inj plain).1

/-- A sequence is run in sequence. -/
theorem finds_seq (first : Reading α) (next : α → Reading β) :
    image.finds (first >>= next) = image.finds first >>= fun value => image.finds (next value) := by
  simp only [Image.finds, Dialogue.checked_bind, Inquiry.eval_bind]

/-- What is found in sequence. -/
theorem finds_bind {first : Reading α} {next : α → Reading β} {value : β} :
    image.finds (first >>= next) = .ok value ↔
      ∃ between, image.finds first = .ok between ∧ image.finds (next between) = .ok value := by
  rw [finds_seq, bind_eq_ok]

/-- A read looks at its pointer first. -/
theorem finds_ask_eq (request : Request) : image.finds (ask request) =
    if request.isValid then Inquiry.eval image.blob.whole.answer (ask request)
    else .error (.stopped .invalidPointer) := by
  unfold Image.finds ask debug
  rw [Dialogue.checked_ask]
  split <;> rfl

/-- A read finds what is there, at a pointer which passes. -/
theorem finds_ask {request : Request} {bytes : Bytes} :
    image.finds (ask request) = .ok bytes ↔
      request.isValid ∧ image.blob.whole.answer request = some bytes := by
  rw [finds_ask_eq]
  split
  case isTrue valid => exact eval_ask_eq_ok.trans (iff_and_self.mpr fun _ => valid)
  case isFalse refused => exact ⟨nofun, fun both => absurd both.1 refused⟩

/-- Arithmetic needs no pointer. -/
@[simp] theorem finds_checkedAdd (width first second : Nat) :
    image.finds (checkedAdd width first second) =
      Inquiry.eval image.blob.whole.answer (checkedAdd width first second) := by
  unfold checkedAdd
  split <;> rfl

/-- A difference is found without a question. -/
@[simp] theorem finds_checkedSub (first second : Nat) :
    image.finds (checkedSub first second) =
      Inquiry.eval image.blob.whole.answer (checkedSub first second) := by
  unfold checkedSub
  split <;> rfl

/-- The questions of a sequence. -/
theorem asks_bind {first : Reading α} {next : α → Reading β} :
    image.Asks allowed (first >>= next) ↔ image.Asks allowed first ∧
      ∀ value, image.finds first = .ok value → image.Asks allowed (next value) := by
  unfold Image.Asks debug
  rw [Dialogue.checked_bind]
  exact Inquiry.asks_bind

/-- A read puts its request if the pointer passes. -/
theorem asks_ask {request : Request} :
    image.Asks allowed (ask request) ↔ request.Passes allowed := by
  unfold Image.Asks ask Request.Passes debug
  rw [Dialogue.checked_ask]
  by_cases valid : request.isValid = true
  · rw [if_pos valid, Inquiry.asks_ask]
    simp [valid]
  · rw [if_neg valid]
    simp [valid]

/-- A value needs no read. -/
@[simp] theorem asks_pure (value : α) : image.Asks allowed (pure value) ↔ True :=
  Inquiry.asks_done value

/-- Nor does a program which stops. -/
@[simp] theorem asks_stop (reason : Stop) :
    image.Asks allowed (.stop reason : Reading α) ↔ True :=
  Inquiry.asks_stop reason

/-- A message asks nothing. -/
@[simp] theorem asks_err (message : String) :
    image.Asks allowed (err message : Reading α) ↔ True :=
  Inquiry.asks_stop _

/-- Nor does arithmetic. -/
@[simp] theorem asks_checkedAdd (width first second : Nat) :
    image.Asks allowed (checkedAdd width first second) ↔ True := by
  unfold checkedAdd
  split
  · exact asks_pure _
  · exact asks_stop _

/-- Nor does a product. -/
@[simp] theorem asks_checkedMul (width first second : Nat) :
    image.Asks allowed (checkedMul width first second) ↔ True := by
  unfold checkedMul
  split
  · exact asks_pure _
  · exact asks_stop _

/-- Nor does a difference. -/
@[simp] theorem asks_checkedSub (first second : Nat) :
    image.Asks allowed (checkedSub first second) ↔ True := by
  unfold checkedSub
  split
  · exact asks_pure _
  · exact asks_stop _

/-- Nor does padding. -/
@[simp] theorem asks_nextMultipleOf (width value factor : Nat) :
    image.Asks allowed (nextMultipleOf width value factor) ↔ True := by
  unfold nextMultipleOf
  split
  · exact asks_pure _
  · exact asks_checkedAdd _ _ _

/-- A token is read at the cursor. -/
theorem asks_getTypes {place : Nat} :
    image.Asks allowed (DtbParser.getTypes place) ↔ allowed (.token place) := by
  unfold DtbParser.getTypes
  simp only [asks_bind, asks_ask, asks_pure, implies_true, and_true]
  exact ⟨fun passes => passes rfl, fun holds _ => holds⟩

/-- A property header is read. -/
theorem asks_readProperty {address : Nat} :
    image.Asks allowed (FdtProperty.read address) ↔ (Request.property address).Passes allowed := by
  unfold FdtProperty.read
  simp only [asks_bind, asks_ask, asks_pure, implies_true, and_true]

/-- A word is read. -/
theorem asks_readU32FromPtr {address : Nat} :
    image.Asks allowed (Dtb.readU32FromPtr address) ↔ (Request.word address).Passes allowed := by
  unfold Dtb.readU32FromPtr
  simp only [asks_bind, asks_ask, asks_pure, implies_true, and_true]

/-- A string is read. -/
theorem asks_readCharStr {block : Block} {address : Nat} :
    image.Asks allowed (Dtb.readCharStr block address) ↔ allowed (.text block address) := by
  unfold Dtb.readCharStr
  rw [asks_bind, asks_ask]
  refine ⟨fun all => all.1 rfl, fun holds => ⟨fun _ => holds, fun bytes _ => ?_⟩⟩
  cases decodeUtf8 bytes with
  | none => exact (asks_err _).mpr trivial
  | some text => exact (asks_pure _).mpr trivial

end Rules

section Rows

variable {image : Image} {allowed : Request → Prop} {start cells more : Nat}

/-- A word is found where the blob holds it, at a pointer which passes. -/
theorem finds_readU32FromPtr {address value : Nat} :
    image.finds (Dtb.readU32FromPtr address) = .ok value ↔
      (Request.word address).isValid ∧
        ∃ bytes, image.blob.whole.answer (.word address) = some bytes ∧ beNat bytes = value := by
  unfold Dtb.readU32FromPtr
  simp only [finds_bind, finds_ask, and_assoc]
  constructor
  · rintro ⟨bytes, valid, held, ⟨⟩⟩
    exact ⟨valid, bytes, held, rfl⟩
  · rintro ⟨valid, bytes, held, rfl⟩
    exact ⟨bytes, valid, held, rfl⟩

/-- The pointers to the cells of a row pass or fail together. -/
theorem isValid_word_add (start index : Nat) :
    (Request.word (start + 4 * index)).isValid = (Request.word start).isValid := by
  change decide ((start + 4 * index) % 4 = 0) = decide (start % 4 = 0)
  rw [Nat.add_mul_mod_self_left]

/-- A row whose pointers are refused asks for nothing. -/
theorem rowFits_of_refused (refused : (Request.word start).isValid = false) :
    image.RowFits allowed start cells := by
  intro index _ _ _ valid
  rw [isValid_word_add, refused] at valid
  cases valid

/-- A row is its first cell, and the others if the blob has that one. -/
theorem rowFits_succ : image.RowFits allowed start (cells + 1) ↔
    (start < 2 ^ 64 → (Request.word start).Passes allowed) ∧
      (image.Serves (.word start) → image.RowFits allowed (start + 4) cells) := by
  have place (index : Nat) : start + 4 + 4 * index = start + 4 * (index + 1) := by omega
  constructor
  · intro fits
    refine ⟨fun room => fits 0 (Nat.succ_pos _) room nofun, fun first index below room before => ?_⟩
    rw [place] at room ⊢
    refine fits (index + 1) (Nat.succ_lt_succ below) room fun earlier ahead => ?_
    cases earlier with
    | zero => exact first
    | succ earlier =>
        rw [← place]
        exact before earlier (Nat.lt_of_succ_lt_succ ahead)
  · rintro ⟨first, rest⟩ index below room before
    cases index with
    | zero => exact first room
    | succ index =>
        rw [← place] at room ⊢
        refine rest (before 0 (Nat.succ_pos _)) index (Nat.lt_of_succ_lt_succ below) room ?_
        intro earlier ahead
        rw [place]
        exact before (earlier + 1) (Nat.succ_lt_succ ahead)

/-- The loop over the cells of a row reads the row from where it stands. -/
theorem asks_readRegsLoop (start cells result consumed : Nat) :
    image.Asks allowed (Dtb.readRegsLoop start cells result consumed) ↔
      image.RowFits allowed (start + consumed) cells := by
  induction cells generalizing result consumed with
  | zero => exact iff_of_true ((asks_pure _).mpr trivial) nofun
  | succ cells ih =>
      unfold Dtb.readRegsLoop
      simp only [asks_bind, asks_checkedAdd, true_and, finds_checkedAdd, eval_checkedAdd_eq_ok,
        asks_readU32FromPtr, finds_readU32FromPtr, ih]
      rw [rowFits_succ]
      constructor
      · intro all
        refine ⟨fun room => (all _ ⟨room, rfl⟩).1, fun served => ?_⟩
        by_cases valid : (Request.word (start + consumed)).isValid
        case neg =>
          apply rowFits_of_refused
          rw [show start + consumed + 4 = start + consumed + 4 * 1 from rfl, isValid_word_add]
          exact Bool.eq_false_iff.mpr valid
        case pos =>
          intro index below room before
          obtain ⟨bytes, held⟩ := Option.isSome_iff_exists.mp served
          have small := beNat_lt bytes
          rw [(Memory.read_eq_some.mp held).2] at small
          have sum : result <<< 32 % 2 ^ 64 + beNat bytes < 2 ^ 64 := by
            rw [Nat.shiftLeft_eq]
            omega
          have rest := (all _ ⟨by omega, rfl⟩).2 _ ⟨valid, bytes, held, rfl⟩ _ ⟨sum, rfl⟩ _
            ⟨by omega, rfl⟩
          exact rest index below (by omega) before
      · rintro ⟨first, rest⟩ _ ⟨room, rfl⟩
        refine ⟨first room, ?_⟩
        rintro _ ⟨valid, bytes, held, rfl⟩ _ - _ ⟨-, rfl⟩
        exact rest (Option.isSome_of_eq_some held)

/-- So a row of cells is read. -/
theorem asks_readRegs : image.Asks allowed (Dtb.readRegs start cells) ↔
    image.RowFits allowed start cells :=
  asks_readRegsLoop start cells 0 0

/-- A row is found if the blob has all its cells. -/
theorem finds_readRegsLoop {result consumed : Nat} (valid : (Request.word (start + consumed)).isValid)
    (room : start + consumed + 4 * cells < 2 ^ 64)
    (served : ∀ index < cells, image.Serves (.word (start + consumed + 4 * index))) :
    ∃ value, image.finds (Dtb.readRegsLoop start cells result consumed) =
      .ok (value, consumed + 4 * cells) := by
  induction cells generalizing result consumed with
  | zero => exact ⟨result, rfl⟩
  | succ cells ih =>
      obtain ⟨bytes, held⟩ := Option.isSome_iff_exists.mp (served 0 (Nat.succ_pos _))
      have small := beNat_lt bytes
      rw [(Memory.read_eq_some.mp held).2] at small
      have sum : result <<< 32 % 2 ^ 64 + beNat bytes < 2 ^ 64 := by
        rw [Nat.shiftLeft_eq]
        omega
      obtain ⟨value, found⟩ := @ih (result <<< 32 % 2 ^ 64 + beNat bytes) (consumed + 4)
        (by rw [← Nat.add_assoc, show start + consumed + 4 = start + consumed + 4 * 1 from rfl,
              isValid_word_add]; exact valid)
        (by omega)
        (fun index below => by
          have here := served (index + 1) (Nat.succ_lt_succ below)
          rwa [show start + consumed + 4 * (index + 1) = start + (consumed + 4) + 4 * index by omega]
            at here)
      refine ⟨value, ?_⟩
      unfold Dtb.readRegsLoop
      simp only [finds_bind, finds_checkedAdd, eval_checkedAdd_eq_ok, finds_readU32FromPtr]
      refine ⟨_, ⟨by omega, rfl⟩, _, ⟨valid, bytes, held, rfl⟩, _, ⟨sum, rfl⟩, _,
        ⟨by omega, rfl⟩, ?_⟩
      rw [found]
      congr 2
      omega

/-- The cells of a row which was found are in the blob. -/
theorem served_of_readRegs {result : Nat × Nat}
    (found : image.finds (Dtb.readRegs start cells) = .ok result) :
    ∀ index < cells, image.Serves (.word (start + 4 * index)) := by
  intro index below
  obtain ⟨-, bytes, holds, length⟩ :=
    holds_of_readRegs (Nat.zero_lt_of_lt below) (reads_of_finds found)
  obtain ⟨above, inside, -⟩ := holds
  have range : image.blob.whole.low .struct ≤ start + 4 * index ∧
      start + 4 * index + 4 ≤ image.blob.whole.high .struct := by omega
  exact Option.isSome_of_eq_some (if_pos range)

/-- A row goes on behind another one if that is found. -/
theorem rowFits_add : image.RowFits allowed start (cells + more) ↔
    image.RowFits allowed start cells ∧
      ∀ value, image.finds (Dtb.readRegs start cells) = .ok (value, 4 * cells) →
        image.RowFits allowed (start + 4 * cells) more := by
  have place (index : Nat) : start + 4 * cells + 4 * index = start + 4 * (cells + index) := by omega
  constructor
  · intro fits
    refine ⟨fun index below => fits index (by omega), fun _ found index below room before => ?_⟩
    rw [place] at room ⊢
    refine fits (cells + index) (by omega) room fun earlier ahead => ?_
    by_cases first : earlier < cells
    · exact served_of_readRegs found earlier first
    · obtain ⟨later, rfl⟩ := Nat.exists_eq_add_of_le (Nat.not_lt.mp first)
      rw [← place]
      exact before later (by omega)
  · rintro ⟨first, rest⟩ index below room before valid
    by_cases inside : index < cells
    case pos => exact first index inside room before valid
    case neg =>
      obtain ⟨later, rfl⟩ := Nat.exists_eq_add_of_le (Nat.not_lt.mp inside)
      rw [isValid_word_add] at valid
      obtain ⟨value, found⟩ := @finds_readRegsLoop image start cells 0 0 valid (by omega)
        fun index below => before index (by omega)
      rw [Nat.zero_add] at found
      have passes := rest _ found later (by omega) (by rwa [place]) fun earlier ahead => by
        rw [place]
        exact before (cells + earlier) (by omega)
      rw [place] at passes
      exact passes (by rwa [isValid_word_add])

end Rows

section Values

variable {image : Image} {allowed : Request → Prop} {deviceName compatibleName : Option String}
  {node : SimpleDeviceNode} {place address length : Nat} {kind : PropName}

/-- A string is taken off a value if something is left of it. -/
theorem asks_next {iter : CharStringIter} : image.Asks allowed iter.next ↔
    (iter.remainSize ≠ 0 → allowed (.text .struct iter.pointer)) := by
  unfold CharStringIter.next CharStringIter.nextInternal
  split
  case isTrue empty => exact iff_of_true ((asks_pure _).mpr trivial) fun more => absurd empty more
  case isFalse more =>
    simp only [asks_bind, asks_readCharStr, asks_checkedAdd, asks_pure, implies_true, and_true,
      true_and]
    refine ⟨fun all _ => all.1, fun holds => ⟨holds more, fun text _ pointer _ => ?_⟩⟩
    split
    · exact (asks_err _).mpr trivial
    · split
      · exact (asks_err _).mpr trivial
      · exact (asks_pure _).mpr trivial

/-- The loop over a value takes its strings off one after another. -/
theorem asks_compatibleLoop {name : String} {first : CharStringIter} {result : Bool} :
    (∀ steps, image.Asks allowed (SimpleDeviceNode.compatibleLoop name steps first result)) ↔
      ∀ iter, image.TakesTo first iter → iter.remainSize ≠ 0 →
        allowed (.text .struct iter.pointer) := by
  constructor
  · intro all iter reached
    have loops : ∃ result, ∀ steps,
        image.Asks allowed (SimpleDeviceNode.compatibleLoop name steps iter result) := by
      induction reached with
      | first => exact ⟨result, all⟩
      | @next iter later text _ taken ih =>
          obtain ⟨result, loops⟩ := ih
          refine ⟨result || name == text, fun steps => ?_⟩
          exact (asks_bind.mp (loops (steps + 1))).2 _ taken
    obtain ⟨result, loops⟩ := loops
    exact asks_next.mp (asks_bind.mp (loops 1)).1
  · intro fits steps
    have loops : ∀ iter result, image.TakesTo first iter →
        image.Asks allowed (SimpleDeviceNode.compatibleLoop name steps iter result) := by
      induction steps with
      | zero => exact fun _ _ _ => (asks_stop _).mpr trivial
      | succ steps ih =>
          intro iter result reached
          refine asks_bind.mpr ⟨asks_next.mpr (fits iter reached), fun taken found => ?_⟩
          rcases taken with _ | ⟨text, later⟩
          · exact (asks_pure _).mpr trivial
          · exact ih later _ (reached.next found)
    exact loops first result .first

/-- An arm of `parse_prop` reads its value. -/
theorem asks_propArm (node : SimpleDeviceNode) : (∀ fuel, image.Asks allowed
      (node.propArm (image.search deviceName compatibleName fuel) address length kind)) ↔
    image.ValueFits allowed deviceName compatibleName address length kind := by
  unfold SimpleDeviceNode.propArm Image.search
  cases kind with
  | addressCells | sizeCells =>
      simp only [asks_bind, asks_readU32FromPtr, asks_pure, implies_true, and_true, forall_const]
      rfl
  | compatible =>
      cases compatibleName with
      | none => exact iff_of_true (fun _ => (asks_pure _).mpr trivial) nofun
      | some name =>
          simp only [asks_bind, asks_pure, implies_true, and_true, asks_compatibleLoop]
          exact ⟨fun fits _ => fits, fun fits => fits rfl⟩
  | deviceName =>
      cases deviceName with
      | none => exact iff_of_true (fun _ => (asks_pure _).mpr trivial) nofun
      | some name =>
          simp only [asks_bind, asks_readCharStr, asks_pure, implies_true, and_true, forall_const]
          exact ⟨fun fits _ => fits, fun fits => fits rfl⟩
  | reg =>
      refine iff_of_true (fun _ => ?_) trivial
      cases node.parent with
      | none => exact (asks_err _).mpr trivial
      | some parent => simp only [asks_bind, asks_checkedAdd, asks_pure, implies_true, and_true]
  | ranges | other => exact iff_of_true (fun _ => (asks_pure _).mpr trivial) trivial

/-- The check of a length reads nothing. -/
@[simp] theorem asks_checkLength (length : Nat) (required : Option Nat) :
    image.Asks allowed (SimpleDeviceNode.checkLength length required) ↔ True := by
  unfold SimpleDeviceNode.checkLength
  split
  · split
    · exact asks_err _
    · exact asks_pure _
  · exact asks_pure _

/-- Behind its token a property is read: its header, its name, and its value. -/
theorem asks_parseProp (token : image.finds (DtbParser.getTypes place) = .ok .prop) :
    (∀ fuel, image.Asks allowed
        (node.parseProp (image.search deviceName compatibleName fuel) place)) ↔
      image.PropertyFits allowed deviceName compatibleName place := by
  unfold SimpleDeviceNode.parseProp Dtb.getStringStartAddress
  simp only [asks_bind, asks_checkedAdd, asks_readProperty, asks_readCharStr, asks_checkLength,
    asks_nextMultipleOf, asks_pure, implies_true, and_true, true_and, finds_checkedAdd,
    eval_checkedAdd_eq_ok]
  constructor
  · intro all
    have addressed {property : FdtProperty}
        (found : image.finds (FdtProperty.read (place + 4)) = .ok property) :
        place + 4 < 2 ^ 64 := by
      have bound := (eval_readProperty_eq_ok.mp (reads_of_finds found)).1.addressable
      simp only [List.length_append, length_be32] at bound
      omega
    constructor
    · exact fun room => (all 0 _ ⟨room, rfl⟩).1
    · intro property found room named
      have strings : image.parser.dtbHeader.address + image.parser.dtbHeader.header.offDtStrings <
          2 ^ 64 := Nat.lt_of_le_of_lt (Nat.le_add_right _ _) named
      exact ((all 0 _ ⟨addressed found, rfl⟩).2 property found _ ⟨room, rfl⟩ _
        ⟨strings, rfl⟩ _ ⟨named, rfl⟩).1
    · rintro _ property ⟨-, found, room, name, rfl, named⟩
      have stored := (eval_readCharStr_eq_ok.mp (reads_of_finds named)).2.addressable
      rw [List.length_append, List.length_singleton] at stored
      have address : image.parser.stringStart + property.nameOffset < 2 ^ 64 := by omega
      have strings : image.parser.stringStart < 2 ^ 64 :=
        Nat.lt_of_le_of_lt (Nat.le_add_right _ _) address
      refine (asks_propArm node).mp fun fuel => ?_
      exact ((all fuel _ ⟨addressed found, rfl⟩).2 property found _ ⟨room, rfl⟩ _
        ⟨strings, rfl⟩ _ ⟨address, rfl⟩).2 name named
  · rintro fits fuel _ ⟨room, rfl⟩
    refine ⟨fits.header room, ?_⟩
    rintro property found _ ⟨room, rfl⟩ _ ⟨-, rfl⟩ _ ⟨strings, rfl⟩
    refine ⟨fits.name property found room strings, fun name named => ?_⟩
    exact (asks_propArm node).mpr (fits.value _ property ⟨token, found, room, name, rfl, named⟩) fuel

end Values

section Entries

variable {image : Image} {allowed : Request → Prop} {node parent : SimpleDeviceNode}
  {start size cells more offset : Nat}

/-- Behind the last address nothing is read. -/
theorem rowFits_of_far (far : 2 ^ 64 ≤ start) : image.RowFits allowed start cells :=
  fun _ _ room => absurd room (by omega)

/-- What is read behind a sum is read only if it is an address. -/
theorem asks_checkedAdd_bind {α : Type} {next : Nat → Reading α}
    (rest : image.Asks allowed (next (start + offset)) ↔
      image.RowFits allowed (start + offset) cells) :
    image.Asks allowed (checkedAdd 64 start offset >>= next) ↔
      image.RowFits allowed (start + offset) cells := by
  rw [asks_bind]
  simp only [asks_checkedAdd, true_and, finds_checkedAdd, eval_checkedAdd_eq_ok]
  constructor
  · intro all
    by_cases near : start + offset < 2 ^ 64
    · exact rest.mp (all _ ⟨near, rfl⟩)
    · exact rowFits_of_far (Nat.not_lt.mp near)
  · rintro fits _ ⟨-, rfl⟩
    exact rest.mpr fits

/-- Rows behind one another are one row. -/
theorem asks_row {α : Type} {next : Nat × Nat → Nat → Reading α}
    (rest : ∀ value, image.Asks allowed (next (value, 4 * cells) (start + 4 * cells)) ↔
      image.RowFits allowed (start + 4 * cells) more) :
    image.Asks allowed (Dtb.readRegs start cells >>= fun first =>
        checkedAdd 64 start first.2 >>= next first) ↔
      image.RowFits allowed start (cells + more) := by
  rw [asks_bind, asks_readRegs, rowFits_add]
  refine and_congr_right fun _ => ⟨fun all value found => ?_, fun all ⟨value, consumed⟩ found => ?_⟩
  · exact (asks_checkedAdd_bind (rest value)).mp (all _ found)
  · have whole : consumed = 4 * cells := consumed_of_readRegs (reads_of_finds found)
    subst whole
    exact (asks_checkedAdd_bind (rest value)).mpr (all value found)

/-- The last row is read for its number. -/
theorem asks_lastRow {α : Type} {next : Nat × Nat → Reading α}
    (rest : ∀ value, image.Asks allowed (next value)) :
    image.Asks allowed (Dtb.readRegs start cells >>= next) ↔ image.RowFits allowed start cells := by
  simp only [asks_bind, asks_readRegs, rest, implies_true, and_true]

/-- An entry of `reg` is a row, which is read if it fits a `usize`. -/
theorem asks_readRegInternal (given : node.reg = some (start, size))
    (above : node.parent = some parent) (few : parent.addressCells ≤ 2)
    (few' : parent.sizeCells ≤ 2) :
    image.Asks allowed (node.readRegInternal offset) ↔
      image.RowFits allowed (start + offset) (parent.addressCells + parent.sizeCells) := by
  have fits : ¬ (parent.addressCells > 2 ∨ parent.sizeCells > 2) := by omega
  unfold SimpleDeviceNode.readRegInternal
  simp only [given, above, fits, ↓reduceIte]
  exact asks_checkedAdd_bind (asks_row fun _ => asks_lastRow fun _ => (asks_pure _).mpr trivial)

/-- The entry at the start of `ranges` is a row. -/
theorem asks_readRoundInternal (ranged : node.ranges = some start) :
    image.Asks allowed node.readRoundInternal ↔ image.RowFits allowed start node.entryCells := by
  unfold SimpleDeviceNode.readRoundInternal SimpleDeviceNode.entryCells
  simp only [ranged]
  cases node.parent with
  | none =>
      refine asks_lastRow fun value => ?_
      simp only [asks_bind, asks_checkedAdd, asks_stop, implies_true, and_self]
  | some parent =>
      dsimp only
      rw [Nat.add_assoc]
      exact asks_row fun _ => asks_row fun _ => asks_lastRow fun _ => (asks_pure _).mpr trivial

/-- One node's translation reads its entry. -/
theorem asks_addressChild {window : Window} : image.Asks allowed (node.addressChild window) ↔
    ∀ start ∈ node.ranges, image.RowFits allowed start node.entryCells := by
  unfold SimpleDeviceNode.addressChild
  cases ranged : node.ranges with
  | none => exact iff_of_true ((asks_pure _).mpr trivial) nofun
  | some start =>
      simp only [Option.isSome_some, ↓reduceIte, Option.mem_def, Option.some.injEq, forall_eq']
      rw [asks_bind, asks_readRoundInternal ranged]
      refine and_iff_left fun entry _ => ?_
      rcases entry with _ | ⟨child, parent, len⟩
      · exact (asks_stop _).mpr trivial
      · simp only [asks_bind, asks_checkedAdd, true_and]
        intro childEnd _ addressEnd _
        split
        · exact (asks_err _).mpr trivial
        · simp only [asks_bind, asks_checkedSub, asks_checkedAdd, asks_pure, implies_true, and_self]

/-- The translation by a node and its ancestors reads their entries. -/
theorem asks_calculateAddressInternal (node : SimpleDeviceNode) (window : Window) :
    image.Asks allowed (node.calculateAddressInternal window) ↔
      image.ChainFits allowed node window := by
  induction node, window using SimpleDeviceNode.calculateAddressInternal.induct with
  | case1 addressCells sizeCells reg ranges window =>
      rw [SimpleDeviceNode.calculateAddressInternal]
      exact asks_addressChild
  | case2 parent addressCells sizeCells reg ranges window ih =>
      rw [SimpleDeviceNode.calculateAddressInternal, asks_bind, asks_addressChild]
      exact and_congr_right fun _ => forall₂_congr fun child _ => ih child

/-- Only an entry in some parent's cells, which fits a `usize`, is read. -/
theorem asks_readRegInternal_iff (given : node.reg = some (start, size)) :
    image.Asks allowed (node.readRegInternal offset) ↔
      ∀ parent ∈ node.parent, parent.addressCells ≤ 2 → parent.sizeCells ≤ 2 →
        image.RowFits allowed (start + offset) (parent.addressCells + parent.sizeCells) := by
  cases above : node.parent with
  | none =>
      refine iff_of_true ?_ nofun
      unfold SimpleDeviceNode.readRegInternal
      simp only [given, above]
      exact (asks_stop _).mpr trivial
  | some parent =>
      simp only [Option.mem_def, Option.some.injEq, forall_eq']
      by_cases few : parent.addressCells ≤ 2 ∧ parent.sizeCells ≤ 2
      · rw [asks_readRegInternal given above few.1 few.2]
        exact ⟨fun fits _ _ => fits, fun fits => fits few.1 few.2⟩
      · have many : parent.addressCells > 2 ∨ parent.sizeCells > 2 := by omega
        refine iff_of_true ?_ fun one two => absurd ⟨one, two⟩ few
        unfold SimpleDeviceNode.readRegInternal
        simp only [given, above, many, ↓reduceIte]
        exact (asks_err _).mpr trivial

/-- An entry is found only in the cells of a parent, and if it fits a `usize`. -/
theorem parent_of_readRegInternal {window : Window}
    (found : image.finds (node.readRegInternal offset) = .ok (some window)) :
    ∃ parent ∈ node.parent, parent.addressCells ≤ 2 ∧ parent.sizeCells ≤ 2 := by
  have read := reads_of_finds found
  unfold SimpleDeviceNode.readRegInternal at read
  cases given : node.reg with
  | none => simp [given] at read
  | some place =>
      cases above : node.parent with
      | none => simp [given, above] at read
      | some parent =>
          refine ⟨parent, rfl, ?_⟩
          by_contra many
          have many : parent.addressCells > 2 ∨ parent.sizeCells > 2 := by omega
          simp [given, above, many] at read

/-- One step of the iterator reads the next entry of `reg`, and those it is translated by. -/
theorem asks_nextInternal {iter : DeviceAddressIter} :
    image.Asks allowed iter.nextInternal ↔ image.EntryFits allowed iter := by
  unfold DeviceAddressIter.nextInternal Image.EntryFits
  cases given : iter.prop.reg with
  | none => exact iff_of_true ((asks_err _).mpr trivial) nofun
  | some place =>
      obtain ⟨start, size⟩ := place
      have translated (window : Window) : image.Asks allowed
          (iter.prop.calculateAddressInternal window >>= fun result =>
            match iter.prop.parent with
            | none => .stop .unwrapNone
            | some parent => do
                let cells ← checkedAdd 32 parent.addressCells parent.sizeCells
                let stride ← checkedMul 32 cells 4
                let remain ← checkedSub (iter.remain.getD size) stride
                return (some result, { iter with remain := some remain })) ↔
          image.ChainFits allowed iter.prop window := by
        rw [asks_bind, asks_calculateAddressInternal]
        refine and_iff_left fun result _ => ?_
        cases iter.prop.parent with
        | none => exact (asks_stop _).mpr trivial
        | some parent =>
            simp only [asks_bind, asks_checkedAdd, asks_checkedMul, asks_checkedSub, asks_pure,
              implies_true, and_self]
      by_cases empty : iter.remain.getD size = 0
      case pos =>
        simp only [empty, ↓reduceIte]
        refine iff_of_true ((asks_pure _).mpr trivial) fun _ _ _ same _ more => ?_
        cases same
        exact absurd empty more
      case neg =>
        simp only [empty, ↓reduceIte]
        rw [asks_bind]
        simp only [asks_checkedSub, true_and, finds_checkedSub, eval_checkedSub_eq_ok]
        constructor
        · intro all _ _ parent same above _ ordered few few'
          cases same
          obtain ⟨row, rest⟩ := asks_bind.mp (all _ ⟨ordered, rfl⟩)
          refine ⟨(asks_readRegInternal given above few few').mp row, fun window found => ?_⟩
          exact (translated window).mp (rest (some window) found)
        · rintro fits _ ⟨ordered, rfl⟩
          refine asks_bind.mpr ⟨(asks_readRegInternal_iff given).mpr ?_, fun entry found => ?_⟩
          · intro parent above few few'
            exact (fits start size parent rfl above empty ordered few few').1
          · rcases entry with _ | window
            · exact (asks_err _).mpr trivial
            · obtain ⟨parent, above, few, few'⟩ := parent_of_readRegInternal found
              have chain := (fits start size parent rfl above empty ordered few few').2
              exact (translated window).mpr (chain window found)

end Entries

end Rpi5.DeviceTree
