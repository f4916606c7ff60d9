import Rpi5.DeviceTree.Format
import Rpi5.Semantics.Twins

/-!
# Bytes which belong to something

The tokens of a structure block follow one another from its start (`Image.Place`). A byte
belongs to the header of the blob, to one of these tokens, or to a name, a property header
or a property value of one (`Image.Owned`). What is left over is padding and whatever no
token refers to. Images are `Alike` if they differ only in such bytes. A read which is kept
to the others is answered the same in both (`Alike.answer_eq`).
-/

namespace Rpi5.DeviceTree

open Rpi5.Logical Rpi5.Semantics

/-- An address is one of a number of addresses from a start on. -/
def Within (start size address : Nat) : Prop := start ≤ address ∧ address < start + size

instance {start size address : Nat} : Decidable (Within start size address) :=
  inferInstanceAs (Decidable (_ ∧ _))

namespace Blob

/-- The byte at an address of the blob. -/
def byteAt (blob : Blob) (address : Nat) : Option UInt8 := blob.bytes[address - blob.base]?

/-- An address is in the string which starts at another one, or is that of its NUL. -/
def TextAt (blob : Blob) (start address : Nat) : Prop :=
  start ≤ address ∧ address < blob.limit ∧ 0 ∉ (blob.tail start).take (address - start)

instance {blob : Blob} {start address : Nat} : Decidable (blob.TextAt start address) :=
  inferInstanceAs (Decidable (_ ∧ _ ∧ _))

/-- Two blobs are at the same place and have the same bytes where a predicate holds. -/
structure AgreeOn (owned : Nat → Prop) (blob other : Blob) : Prop where
  base : other.base = blob.base
  length : other.bytes.length = blob.bytes.length
  bytes : ∀ address, blob.base ≤ address → owned address → other.byteAt address = blob.byteAt address

section Reads

variable {owned : Nat → Prop} {blob other : Blob} {block : Block} {address size start place : Nat}

/-- The bytes from an address on are those at the addresses from there. -/
theorem getElem?_tail (inside : blob.base ≤ start) (index : Nat) :
    (blob.tail start)[index]? = blob.byteAt (start + index) := by
  unfold tail byteAt
  rw [List.getElem?_drop]
  congr 1
  omega

/-- Bytes which a blob holds are those at the addresses from there. -/
theorem byteAt_of_holds {bytes : Bytes} {index : Nat} (holds : blob.whole.Holds block start bytes)
    (inside : index < bytes.length) : blob.byteAt (start + index) = bytes[index]? := by
  obtain ⟨base, -, rest, split⟩ := holds
  have above : blob.base ≤ start := by
    cases block <;> exact base
  rw [← getElem?_tail above]
  change (blob.whole.blob.tail start)[index]? = _
  rw [← split, List.getElem?_append_left inside]

/-- Above a blob there are no bytes. -/
theorem byteAt_eq_none (above : blob.limit ≤ place) : blob.byteAt place = none := by
  unfold limit at above
  exact List.getElem?_eq_none (by omega)

/-- Blobs which agree end at the same address. -/
theorem AgreeOn.limit_eq (agree : AgreeOn owned blob other) : other.limit = blob.limit := by
  unfold limit
  rw [agree.base, agree.length]

/-- So there is the same number of bytes left. -/
theorem AgreeOn.length_tail (agree : AgreeOn owned blob other) :
    (other.tail start).length = (blob.tail start).length := by
  unfold tail
  rw [List.length_drop, List.length_drop, agree.base, agree.length]

/-- And the same addresses are inside. -/
theorem AgreeOn.inside_iff (agree : AgreeOn owned blob other) :
    (other.base ≤ address ∧ address + size ≤ other.limit) ↔
      (blob.base ≤ address ∧ address + size ≤ blob.limit) := by
  rw [agree.base, agree.limit_eq]

/-- A number of bytes can be read from one blob if they can be read from the other. -/
theorem AgreeOn.read_isSome (agree : AgreeOn owned blob other) :
    (other.whole.read block address size).isSome = (blob.whole.read block address size).isSome := by
  by_cases inside : blob.base ≤ address ∧ address + size ≤ blob.limit
  · rw [show other.whole.read block address size = _ from if_pos (agree.inside_iff.mpr inside),
      show blob.whole.read block address size = _ from if_pos inside]
    rfl
  · rw [show other.whole.read block address size = none from
        if_neg fun within => inside (agree.inside_iff.mp within),
      show blob.whole.read block address size = none from if_neg inside]

/-- Owned bytes are read alike. -/
theorem AgreeOn.read_eq (agree : AgreeOn owned blob other)
    (kept : ∀ place, Within address size place → owned place) :
    other.whole.read block address size = blob.whole.read block address size := by
  by_cases inside : blob.base ≤ address ∧ address + size ≤ blob.limit
  case neg => exact (if_neg fun within => inside (agree.inside_iff.mp within)).trans (if_neg inside).symm
  case pos =>
    have same : (other.tail address).take size = (blob.tail address).take size := by
      apply List.ext_getElem?
      intro index
      rw [List.getElem?_take, List.getElem?_take]
      split
      case isFalse => rfl
      case isTrue below =>
        rw [getElem?_tail (agree.base ▸ inside.1), getElem?_tail inside.1]
        exact agree.bytes _ (by omega) (kept _ ⟨by omega, by omega⟩)
    exact (if_pos (agree.inside_iff.mpr inside)).trans ((congrArg some same).trans (if_pos inside).symm)

/-- So are owned texts. -/
theorem AgreeOn.readText_eq (agree : AgreeOn owned blob other)
    (kept : ∀ place, blob.TextAt start place → owned place) :
    other.whole.readText block start = blob.whole.readText block start := by
  by_cases inside : blob.base ≤ start
  case neg =>
    have unread : ∀ memory : Memory, memory.low block = blob.base →
        memory.readText block start = none := by
      intro memory low
      unfold Memory.readText
      split
      · exact if_neg fun within => inside (low ▸ within.1)
      · rfl
    rw [unread other.whole agree.base, unread blob.whole rfl]
  case pos =>
    have same : cstring (other.tail start) = cstring (blob.tail start) := by
      refine cstring_congr agree.length_tail fun index below free => ?_
      have below' : start + index < blob.limit := by
        unfold tail at below
        unfold limit
        rw [List.length_drop] at below
        omega
      rw [getElem?_tail (agree.base ▸ inside), getElem?_tail inside]
      refine agree.bytes _ (by omega) (kept _ ⟨by omega, below', ?_⟩)
      rwa [Nat.add_sub_cancel_left]
    have bounds : ∀ text : Bytes, (if other.base ≤ start ∧ start + (text.length + 1) ≤ other.limit
        then some text else none) =
          if blob.base ≤ start ∧ start + (text.length + 1) ≤ blob.limit then some text else none := by
      intro text
      simp only [agree.base, agree.limit_eq]
    unfold Memory.readText
    rw [show cstring (other.whole.blob.tail start) = cstring (blob.whole.blob.tail start) from same]
    cases cstring (blob.whole.blob.tail start) with
    | none => rfl
    | some text => exact bounds text

/-- Blobs agree up to a byte which is written where the predicate does not hold. -/
theorem AgreeOn.of_set {index : Nat} {byte : UInt8} (base : other.base = blob.base)
    (written : other.bytes = blob.bytes.set index byte) (free : ¬ owned (blob.base + index)) :
    AgreeOn owned blob other where
  base := base
  length := by rw [written, List.length_set]
  bytes := by
    intro address above here
    have elsewhere : index ≠ address - blob.base := by
      rintro rfl
      rw [Nat.add_sub_cancel' above] at free
      exact free here
    unfold byteAt
    rw [written, base, List.getElem?_set_ne elsewhere]

end Reads
end Blob

namespace Image

/-- What reading code yields on the whole blob. -/
abbrev reads {α : Type} (image : Image) (reading : Reading α) : Except Failure α :=
  reading.eval image.blob.whole.answer

/-- The bytes of a token and of what comes with it, if another token may follow. -/
def tokenWidth (image : Image) (place : Nat) : Option Nat :=
  match image.reads (DtbParser.getTypes place) with
  | .ok .nop => some 4
  | .ok .endNode => some 4
  | .ok .beginNode =>
      (image.blob.whole.readText .struct (place + 4)).map fun name =>
        4 + (name.length + 1 + padLength (name.length + 1))
  | .ok .prop =>
      match image.reads (FdtProperty.read (place + 4)) with
      | .ok property => some (12 + (property.propertyLen + padLength property.propertyLen))
      | .error _ => none
  | _ => none

/-- Where the tokens of the structure block stand. -/
inductive Place (image : Image) : Nat → Prop where
  | start : Place image image.parser.structStart
  | after {place width} (earlier : Place image place) (token : image.tokenWidth place = some width) :
      Place image (place + width)

/-- The places of a number of tokens from a place on. -/
def places (image : Image) : Nat → Nat → List Nat
  | 0, _ => []
  | steps + 1, place =>
      place :: match image.tokenWidth place with
        | some width => places image steps (place + width)
        | none => []

/-- A byte belongs to a token: to itself, to the name of its node, or to the header, the
value or the name of its property. -/
def tokenOwns (image : Image) (place address : Nat) : Bool :=
  Within place 4 address ||
    match image.reads (DtbParser.getTypes place) with
    | .ok .beginNode => image.blob.TextAt (place + 4) address
    | .ok .prop =>
        Within (place + 4) 8 address ||
          match image.reads (FdtProperty.read (place + 4)) with
          | .ok property =>
              Within (place + 12) property.propertyLen address ||
                image.blob.TextAt (image.parser.stringStart + property.nameOffset) address
          | .error _ => false
    | _ => false

/-- A byte belongs to the header of the blob or to one of its tokens. -/
def Owned (image : Image) (address : Nat) : Prop :=
  Within image.blob.base 40 address ∨ ∃ place, image.Place place ∧ image.tokenOwns place address

/-- Two images differ only in bytes which belong to nothing. -/
def Alike (image other : Image) : Prop := Blob.AgreeOn image.Owned image.blob other.blob

/-- All bytes a request reads belong to something. -/
def Keeps (image : Image) : Request → Prop
  | .header address => ∀ place, Within address 40 place → image.Owned place
  | .token address => ∀ place, Within address 4 place → image.Owned place
  | .property address => ∀ place, Within address 8 place → image.Owned place
  | .word address => ∀ place, Within address 4 place → image.Owned place
  | .text _ address => ∀ place, image.blob.TextAt address place → image.Owned place

section Enumerating

variable {image : Image} {place start steps : Nat}

/-- Behind a place of a token there are further ones. -/
theorem place_of_mem_places (here : image.Place start) (member : place ∈ image.places steps start) :
    image.Place place := by
  induction steps generalizing start with
  | zero => cases member
  | succ steps ih =>
      rcases List.mem_cons.mp member with rfl | later
      · exact here
      · cases token : image.tokenWidth start with
        | none => simp [token] at later
        | some width =>
            rw [token] at later
            exact ih (here.after token) later

/-- All places are enumerated if the last of them is one behind which nothing follows. -/
theorem mem_places {last : Nat} (here : image.Place place)
    (ends : image.tokenWidth last = none)
    (enough : (image.places steps image.parser.structStart).getLast? = some last) :
    place ∈ image.places steps image.parser.structStart := by
  have closed : ∀ {steps start}, (image.places steps start).getLast? = some last →
      ∀ place ∈ image.places steps start, ∀ width ∈ image.tokenWidth place,
        place + width ∈ image.places steps start := by
    intro steps
    induction steps with
    | zero => nofun
    | succ steps ih =>
        intro start enough place member width token
        cases follows : image.tokenWidth start with
        | none =>
            simp only [places, follows, List.mem_singleton] at member
            rw [member, follows] at token
            cases token
        | some further =>
            simp only [places, follows, List.mem_cons] at enough member ⊢
            cases steps with
            | zero =>
                simp only [places, List.getLast?_singleton, Option.some.injEq] at enough
                rw [← enough, follows] at ends
                cases ends
            | succ steps =>
                rw [List.getLast?_cons_of_ne_nil (by simp [places])] at enough
                rcases member with rfl | later
                · rw [follows] at token
                  cases token
                  exact .inr (by simp [places])
                · exact .inr (ih enough place later width token)
  induction here with
  | start =>
      cases steps with
      | zero => cases enough
      | succ steps => exact List.mem_cons_self
  | after _ token ih => exact closed enough _ ih _ token

/-- A byte belongs to nothing if it belongs to none of the tokens enumerated. -/
theorem not_owned {last address : Nat} (ends : image.tokenWidth last = none)
    (enough : (image.places steps image.parser.structStart).getLast? = some last)
    (header : ¬ Within image.blob.base 40 address)
    (free : ∀ place ∈ image.places steps image.parser.structStart,
      image.tokenOwns place address = false) : ¬ image.Owned address := by
  rintro (inside | ⟨place, here, owns⟩)
  · exact header inside
  · rw [free place (mem_places here ends enough)] at owns
    cases owns

end Enumerating

section Keeping

variable {image : Image} {place : Nat} {property : FdtProperty}

/-- A token is kept at its place. -/
theorem keeps_token (here : image.Place place) : image.Keeps (.token place) :=
  fun address within => .inr ⟨place, here, by simp [tokenOwns, within]⟩

/-- So is the name of a node. -/
theorem keeps_nodeName (here : image.Place place)
    (token : image.reads (DtbParser.getTypes place) = .ok .beginNode) :
    image.Keeps (.text .struct (place + 4)) :=
  fun address within => .inr ⟨place, here, by simp [tokenOwns, token, within]⟩

/-- And the header of a property. -/
theorem keeps_property (here : image.Place place)
    (token : image.reads (DtbParser.getTypes place) = .ok .prop) :
    image.Keeps (.property (place + 4)) :=
  fun address within => .inr ⟨place, here, by simp [tokenOwns, token, within]⟩

/-- The bytes of its value are owned. -/
theorem owned_value (here : image.Place place)
    (token : image.reads (DtbParser.getTypes place) = .ok .prop)
    (header : image.reads (FdtProperty.read (place + 4)) = .ok property) {address : Nat}
    (within : Within (place + 12) property.propertyLen address) : image.Owned address :=
  .inr ⟨place, here, by simp [tokenOwns, token, header, within]⟩

/-- And its name is kept. -/
theorem keeps_propertyName (here : image.Place place)
    (token : image.reads (DtbParser.getTypes place) = .ok .prop)
    (header : image.reads (FdtProperty.read (place + 4)) = .ok property) :
    image.Keeps (.text .strings (image.parser.stringStart + property.nameOffset)) :=
  fun address within => .inr ⟨place, here, by simp [tokenOwns, token, header, within]⟩

/-- A string belongs to something if all bytes up to a NUL do. -/
theorem keeps_text {block : Block} {start nul : Nat} (inside : image.blob.base ≤ start)
    (ahead : start ≤ nul) (ends : image.blob.byteAt nul = some 0)
    (owned : ∀ address, start ≤ address → address ≤ nul → image.Owned address) :
    image.Keeps (.text block start) := by
  refine fun address within => owned address within.1 (Nat.le_of_not_lt fun behind => ?_)
  apply within.2.2
  refine @List.mem_of_getElem? _ _ (nul - start) _ ?_
  rw [List.getElem?_take, if_pos (by omega), Blob.getElem?_tail inside, ← ends]
  congr 1
  omega

end Keeping

/-- A blob which agrees with the one of an image is loaded in the same way. -/
theorem init_of_agreeOn {image : Image} {blob : Blob}
    (agree : Blob.AgreeOn image.Owned image.blob blob) :
    (DtbParser.init image.blob.base).eval blob.whole.answer =
      (DtbParser.init image.blob.base).eval image.blob.whole.answer := by
  have header : blob.whole.answer (.header image.blob.base) =
      image.blob.whole.answer (.header image.blob.base) := Blob.AgreeOn.read_eq agree fun _ => .inl
  unfold DtbParser.init Dtb.new
  simp only [Inquiry.eval_bind, eval_ask, header]
  cases image.blob.whole.answer (.header image.blob.base) with
  | none => rfl
  | some bytes =>
      simp only [ok_bind]
      split
      · rfl
      · split <;> rfl

namespace Alike

variable {image other : Image}

/-- Reads of bytes which belong to something do not tell alike images apart. -/
theorem answer_eq (alike : image.Alike other) {request : Request} (kept : image.Keeps request) :
    other.blob.whole.answer request = image.blob.whole.answer request := by
  cases request with
  | header | token | property | word => exact Blob.AgreeOn.read_eq alike kept
  | text => exact Blob.AgreeOn.readText_eq alike kept

/-- So alike images are loaded with the same parser. -/
theorem parser_eq (alike : image.Alike other) : other.parser = image.parser := by
  have loaded := other.loaded
  rw [show other.blob.base = image.blob.base from alike.base, init_of_agreeOn alike,
    image.loaded] at loaded
  exact (Except.ok.inj loaded).symm

/-- Every image is like itself. -/
theorem refl (image : Image) : image.Alike image := ⟨rfl, rfl, fun _ _ _ => rfl⟩

/-- Any byte in the blob which belongs to nothing may be another one. -/
theorem exists_other {address : Nat} (above : image.blob.base ≤ address)
    (below : address < image.blob.limit) (free : ¬ image.Owned address) (byte : UInt8) :
    ∃ other : Image, image.Alike other ∧ other.blob.byteAt address = some byte ∧
      ∀ place, image.blob.base ≤ place → place ≠ address →
        other.blob.byteAt place = image.blob.byteAt place := by
  have index : image.blob.base + (address - image.blob.base) = address := by omega
  let blob : Blob :=
    { base := image.blob.base
      bytes := image.blob.bytes.set (address - image.blob.base) byte
      addressable := by
        rw [List.length_set]
        exact image.blob.addressable }
  have agree : Blob.AgreeOn image.Owned image.blob blob := .of_set rfl rfl (by rwa [index])
  refine ⟨⟨blob, image.parser, (init_of_agreeOn agree).trans image.loaded⟩, agree, ?_, ?_⟩
  · refine List.getElem?_set_self ?_
    unfold Blob.limit at below
    omega
  · intro place inside elsewhere
    have apart : address - image.blob.base ≠ place - image.blob.base := by omega
    exact List.getElem?_set_ne apart

end Alike
end Image
end Rpi5.DeviceTree
