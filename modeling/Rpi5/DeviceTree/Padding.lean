import Rpi5.DeviceTree.AlikeReads
import Rpi5.DeviceTree.Courses
import Rpi5.Logical.Utf8

/-!
# Padding

A search reads the strings of a value to their NULs, and the cells of `reg` and `ranges`
where they ought to be, so it may read on into the padding behind a value. `compatible`
notices a string which is not inside its value and fails; `device_type` takes it
(`deviceName_decided_iff`). A search is `Settled` if no such read has an influence at a
stage it comes to. Then it finds the same nodes, makes the same calls and has the same result
on every image which differs only in padding (`ignoresPadding_of_settled`).
-/

namespace Rpi5.DeviceTree

open Rpi5.Logical Rpi5.Semantics

/-- No text begins with these bytes. -/
def NoTextBegins (value : Bytes) : Prop :=
  ∀ rest, value.length + rest.length < 2 ^ 64 → 0 ∉ rest → decodeUtf8 (value ++ rest) = none

/-- The window which an iterator yields next. -/
def DeviceAddressIter.window (iter : DeviceAddressIter) : Reading (Option Window) := do
  return (← iter.nextInternal).1

namespace Image

variable (image : Image)

/-- The kind of the property at a place and its header, if a property stands there. -/
def propertyAt (place : Nat) : Option (PropName × FdtProperty) :=
  match image.reads (DtbParser.getTypes place), image.reads (FdtProperty.read (place + 4)) with
  | .ok .prop, .ok property =>
      match image.reads (Dtb.readCharStr .strings
        (image.parser.stringStart + property.nameOffset)) with
      | .ok name => some (PropName.ofName name, property)
      | .error _ => none
  | _, _ => none

/-- It is found by evaluation. -/
theorem PropertyAt.found {place : Nat} {kind : PropName} {property : FdtProperty}
    (here : image.PropertyAt place kind property) :
    image.propertyAt place = some (kind, property) := by
  obtain ⟨token, header, -, name, rfl, named⟩ := here
  simp only [propertyAt, reads, reads_of_finds token, reads_of_finds header, reads_of_finds named]

variable (deviceName compatibleName : Option String) (callback : Callback)

/-- What a search looks for in a value is decided by bytes which belong to something: a
`device_type` is such bytes up to its NUL, or not UTF-8 whatever follows, and each string taken
off a `compatible` is decided. -/
def ValueSettled (address length : Nat) : PropName → Prop
  | .compatible => compatibleName.isSome → ∀ iter, image.TakesTo ⟨address, length⟩ iter →
      iter.remainSize ≠ 0 → image.Decides iter
  | .deviceName => deviceName.isSome → image.Keeps (.text .struct address) ∨
      image.AlwaysReads address (decodeUtf8 · = none)
  | _ => True

/-- So is the next window of an iterator: by the cells it is made from, or it is the same, or
refused, whatever the cells are which belong to nothing. -/
def WindowSettled (iter : DeviceAddressIter) : Prop :=
  image.EntryFits image.Keeps iter ∨
    ∀ other, image.Alike other → Twinned image other (fun _ => True) iter.window

/-- No step at a stage depends on padding: neither a match, nor a call. -/
def StageSettled : Stage → Prop
  | .properties _ _ _ place => ∀ kind property, image.PropertyAt place kind property →
      image.ValueSettled deviceName compatibleName (place + 12) property.propertyLen kind
  | .reporting _ _ iter _ => image.WindowSettled iter
  | _ => True

/-- No step of a search depends on padding. -/
def Settled : Prop := ∀ stage calls, image.ComesTo deviceName compatibleName callback stage calls →
  image.StageSettled deviceName compatibleName stage

/-- A search does the same on two images, up to the message of an `Err`: it comes to the same
stages, among them the reports of the nodes which match, and it makes the same calls and
returns the same. -/
structure SearchesAlike (other : Image) : Prop where
  stages : ∀ stage calls, image.ComesTo deviceName compatibleName callback stage calls ↔
    other.ComesTo deviceName compatibleName callback stage calls
  returns : ∀ result calls, image.DebugReturns deviceName compatibleName callback result calls →
    ∃ result', other.DebugReturns deviceName compatibleName callback result' calls ∧
      Twin IsErr (fun _ => True) result result'
  returned : ∀ result' calls, other.DebugReturns deviceName compatibleName callback result' calls →
    ∃ result, image.DebugReturns deviceName compatibleName callback result calls ∧
      Twin IsErr (fun _ => True) result result'

/-- A search does the same on every image which differs only in padding. -/
def IgnoresPadding : Prop := ∀ other, image.Alike other →
  image.SearchesAlike deviceName compatibleName callback other

end Image

/-- No text has the byte 0xff. -/
theorem decodeUtf8_eq_none_of_mem {bytes : Bytes} (strange : 0xff ∈ bytes) :
    decodeUtf8 bytes = none := by
  by_contra some
  obtain ⟨text, decoded⟩ := Option.ne_none_iff_exists'.mp some
  have small := utf8_lt text 0xff (by rwa [decodeUtf8_eq_some_iff.mp decoded])
  exact absurd small (by decide)

section Values

variable {node : SimpleDeviceNode} {search : Search} {name : String} {value : Bytes}

/-- What the search makes of a `device_type` whose string ends somewhere. -/
theorem eval_deviceName {memory : Memory} {address length : Nat} {text : Bytes}
    (named : search.deviceName = some name) (read : memory.readText .struct address = some text) :
    (node.propArm search address length .deviceName).eval memory.answer =
      match decodeUtf8 text with
      | some text => .ok (name == text, node, none)
      | none => .error (.stopped (.err "failed to convert &Cstr to &str")) := by
  have answered : memory.answer (.text .struct address) = some text := read
  unfold SimpleDeviceNode.propArm Dtb.readCharStr
  simp only [named, Inquiry.eval_bind, eval_ask, answered, ok_bind]
  cases decodeUtf8 text <;> rfl

/-- Bytes at the start of memory. -/
def Blob.ofBytes (bytes : Bytes) (short : bytes.length ≤ 2 ^ 64) : Blob := ⟨0, bytes, by omega⟩

/-- A text which fills a blob is read from it. -/
theorem readText_ofBytes {text : Bytes} (free : 0 ∉ text) (short : (text ++ [0]).length ≤ 2 ^ 64) :
    (Blob.ofBytes (text ++ [0]) short).whole.readText .struct 0 = some text :=
  Memory.readText_eq_some.mpr ⟨free, Nat.zero_le _, by simp [Blob.whole, Blob.limit, Blob.ofBytes],
    List.prefix_rfl⟩

/-- A string with its NUL inside a value is the first one of the value. -/
theorem cstring_of_readText {memory : Memory} {address : Nat} {text : Bytes}
    (holds : memory.Holds .struct address value) (nul : 0 ∈ value)
    (read : memory.readText .struct address = some text) : cstring value = some text := by
  obtain ⟨free, -, -, behind, split⟩ := Memory.readText_eq_some.mp read
  obtain ⟨-, -, rest, split'⟩ := holds
  obtain ⟨first, later, rfl, free'⟩ := List.eq_append_cons_of_mem nul
  have here : cstring (memory.blob.tail address) = some text :=
    cstring_eq_some_iff.mpr ⟨free, behind, by rw [← split, List.append_assoc]; rfl⟩
  have there : cstring (memory.blob.tail address) = some first :=
    cstring_eq_some_iff.mpr ⟨free', later ++ rest, by rw [← split', List.append_assoc]; rfl⟩
  rw [here] at there
  exact cstring_eq_some_iff.mpr ⟨free, later, by rw [Option.some.inj there]⟩

/-- A string which starts with a value without a NUL goes on behind it. -/
theorem append_of_readText {memory : Memory} {address : Nat} {text : Bytes}
    (holds : memory.Holds .struct address value) (free : 0 ∉ value)
    (read : memory.readText .struct address = some text) :
    ∃ rest, text = value ++ rest ∧ value.length + rest.length < 2 ^ 64 ∧ 0 ∉ rest := by
  obtain ⟨free', whole⟩ := Memory.readText_eq_some.mp read
  have room := whole.addressable
  have longer : value.length ≤ text.length := by
    by_contra shorter
    apply free
    have inside : text ++ [0] <+: value :=
      List.prefix_of_prefix_length_le whole.2.2 holds.2.2 (by
        rw [List.length_append, List.length_singleton]
        omega)
    exact inside.subset (by simp)
  have front : text <+: memory.blob.tail address := (List.prefix_append text [0]).trans whole.2.2
  obtain ⟨rest, rfl⟩ := List.prefix_of_prefix_length_le holds.2.2 front longer
  simp only [List.mem_append, not_or] at free'
  refine ⟨rest, rfl, ?_, free'.2⟩
  simp only [List.length_append, List.length_singleton] at room
  omega

/-- Whether a `device_type` matches is decided by its value alone exactly if there is a NUL
in it, or no text begins with it. -/
theorem deviceName_decided_iff (named : search.deviceName = some name)
    (short : value.length < 2 ^ 32) :
    (∀ (memory other : Memory) (address : Nat),
        memory.Holds .struct address value → other.Holds .struct address value →
          (memory.readText .struct address).isSome → (other.readText .struct address).isSome →
            (node.propArm search address value.length .deviceName).eval memory.answer =
              (node.propArm search address value.length .deviceName).eval other.answer) ↔
      0 ∈ value ∨ NoTextBegins value := by
  unfold NoTextBegins
  constructor
  · intro decided
    by_contra! open'
    obtain ⟨free, rest, fits, free', valid⟩ := open'
    -- The value goes on to a text in one memory, and to no text in the other.
    have holds : ∀ (bytes : Bytes) (short : bytes.length ≤ 2 ^ 64), value <+: bytes →
        (Blob.ofBytes bytes short).whole.Holds .struct 0 value := by
      intro bytes short whole
      refine ⟨Nat.zero_le _, ?_, whole⟩
      simpa [Blob.whole, Blob.limit, Blob.ofBytes] using whole.length_le
    have first := @readText_ofBytes (value ++ rest) (by simp [free, free']) (by simp; omega)
    have second := @readText_ofBytes (value ++ [0xff]) (by simp [free]) (by simp; omega)
    have same := decided _ _ 0 (holds _ _ (by simp)) (holds _ _ (by simp))
      (Option.isSome_of_eq_some first) (Option.isSome_of_eq_some second)
    have broken : decodeUtf8 (value ++ [0xff]) = none := decodeUtf8_eq_none_of_mem (by simp)
    obtain ⟨text, decoded⟩ := Option.ne_none_iff_exists'.mp valid
    rw [eval_deviceName named first, eval_deviceName named second, decoded, broken] at same
    cases same
  · intro closed memory other address holds holds' read read'
    obtain ⟨text, found⟩ := Option.isSome_iff_exists.mp read
    obtain ⟨text', found'⟩ := Option.isSome_iff_exists.mp read'
    rw [eval_deviceName named found, eval_deviceName named found']
    by_cases nul : 0 ∈ value
    · have same := cstring_of_readText holds nul found
      rw [cstring_of_readText holds' nul found', Option.some.injEq] at same
      rw [same]
    · have broken := closed.resolve_left nul
      obtain ⟨rest, rfl, fits, free⟩ := append_of_readText holds nul found
      obtain ⟨rest', rfl, fits', free'⟩ := append_of_readText holds' nul found'
      rw [broken rest fits free, broken rest' fits' free']

end Values

section Settling

variable {image other : Image} {deviceName compatibleName : Option String} {fuel place : Nat}
  {node : SimpleDeviceNode} {kind : PropName} {property : FdtProperty}

/-- The check of a length reads nothing. -/
theorem twinned_checkLength {length : Nat} {required : Option Nat} :
    Twinned image other (fun _ => True) (SimpleDeviceNode.checkLength length required) := by
  unfold SimpleDeviceNode.checkLength
  split
  · split
    · exact twinned_err _
    · exact twinned_pure trivial
  · exact twinned_pure trivial

/-- What is left of `reg` behind an entry does not depend on what is read. -/
theorem later_of_nextInternal {iter later later' : DeviceAddressIter}
    {window window' : Option Window} (one : image.finds iter.nextInternal = .ok (window, later))
    (two : other.finds iter.nextInternal = .ok (window', later')) : later' = later := by
  have read := reads_of_finds one
  have read' := reads_of_finds two
  unfold DeviceAddressIter.nextInternal at read read'
  cases given : iter.prop.reg with
  | none => simp [given] at read
  | some place =>
      simp only [given] at read read'
      split at read
      case isTrue empty =>
        rw [if_pos empty] at read'
        cases read
        cases read'
        rfl
      case isFalse more =>
        rw [if_neg more] at read'
        cases above : iter.prop.parent with
        | none =>
            simp only [above, Inquiry.eval_bind, bind_eq_ok] at read
            obtain ⟨_, -, found, -, read⟩ := read
            cases found <;> simp [bind_eq_ok] at read
        | some parent =>
            simp only [above, Inquiry.eval_bind, bind_eq_ok] at read read'
            obtain ⟨_, -, found, -, read⟩ := read
            obtain ⟨_, -, found', -, read'⟩ := read'
            cases found with
            | none => simp at read
            | some place =>
                cases found' with
                | none => simp at read'
                | some place' =>
                    simp only [Inquiry.eval_bind, bind_eq_ok, eval_checkedAdd_eq_ok,
                      eval_checkedMul_eq_ok, eval_checkedSub_eq_ok, Inquiry.eval_pure,
                      Except.ok.injEq, Prod.mk.injEq] at read read'
                    obtain ⟨_, -, _, ⟨-, rfl⟩, _, ⟨-, rfl⟩, _, ⟨-, rfl⟩, -, rfl⟩ := read
                    obtain ⟨_, -, _, ⟨-, rfl⟩, _, ⟨-, rfl⟩, _, ⟨-, rfl⟩, -, rfl⟩ := read'
                    rfl

/-- So the iterator does the same where its window is the same. -/
theorem twinned_nextInternal {iter : DeviceAddressIter}
    (same : Twinned image other (fun _ => True) iter.window) :
    Twinned image other (fun _ => True) iter.nextInternal := by
  unfold DeviceAddressIter.window Twinned at same
  rw [finds_seq, finds_seq] at same
  unfold Twinned
  rcases one : image.finds iter.nextInternal with reason | ⟨window, later⟩ <;>
    rcases two : other.finds iter.nextInternal with reason' | ⟨window', later'⟩ <;>
      rw [one, two] at same
  · cases same with
    | error => exact .error _
    | excused here there => exact .excused here there
  · cases same
  · cases same
  · obtain rfl := later_of_nextInternal one two
    cases same
    exact .value trivial

variable (alike : image.Alike other)

include alike

/-- A word, whatever it belongs to, is found on both images or on none. -/
theorem word_of_alike (address : Nat) :
    (∃ cells cells', image.finds (Dtb.readU32FromPtr address) = .ok cells ∧
        other.finds (Dtb.readU32FromPtr address) = .ok cells') ∨
      ∃ reason, image.finds (Dtb.readU32FromPtr address) = .error reason ∧
        other.finds (Dtb.readU32FromPtr address) = .error reason := by
  have range : (other.blob.whole.answer (.word address)).isSome =
      (image.blob.whole.answer (.word address)).isSome := Blob.AgreeOn.read_isSome alike
  unfold Dtb.readU32FromPtr
  rw [finds_seq, finds_seq, finds_ask_eq, finds_ask_eq, eval_ask, eval_ask]
  split
  case isFalse => exact .inr ⟨_, rfl, rfl⟩
  case isTrue =>
    cases first : image.blob.whole.answer (.word address) with
    | none =>
        rw [first, Option.isSome_none, Option.isSome_eq_false_iff, Option.isNone_iff_eq_none] at range
        rw [range]
        exact .inr ⟨_, rfl, rfl⟩
    | some bytes =>
        obtain ⟨bytes', second⟩ := Option.isSome_iff_exists.mp (range.trans (by rw [first]; rfl))
        rw [second]
        exact .inl ⟨_, _, rfl, rfl⟩

/-- A cell property which is too short is refused whatever is read for it. -/
theorem twinned_of_short {α : Type} {post : α → Prop}
    {next : Bool × SimpleDeviceNode × Option Nat → Reading α} {search : Search}
    {address length : Nat} (cells : kind = .addressCells ∨ kind = .sizeCells)
    (refuses : ∀ (one : Image) (found : Bool) (after : SimpleDeviceNode), ∃ failure,
      IsErr failure ∧ one.finds (next (found, after, some 4)) = .error failure) :
    Twinned image other post (node.propArm search address length kind >>= next) := by
  have both (after : Nat → SimpleDeviceNode) : Twinned image other post
      (Dtb.readU32FromPtr address >>= fun cells => next (false, after cells, some 4)) := by
    unfold Twinned
    rw [finds_seq, finds_seq]
    rcases word_of_alike alike address with ⟨cells, cells', found, found'⟩ | ⟨reason, failed, failed'⟩
    · obtain ⟨one, refused, first⟩ := refuses image false (after cells)
      obtain ⟨two, refused', second⟩ := refuses other false (after cells')
      rw [found, found', ok_bind, ok_bind, first, second]
      exact .excused refused refused'
    · rw [failed, failed']
      exact .error reason
  rcases cells with rfl | rfl
  · exact both fun cells => { node with addressCells := cells }
  · exact both fun cells => { node with sizeCells := cells }

/-- Every other arm of `parse_prop` does the same on both images. -/
theorem twinned_propArm (stands : image.Place place) (here : image.PropertyAt place kind property)
    (settled : image.ValueSettled deviceName compatibleName (place + 12) property.propertyLen kind)
    (long : kind = .addressCells ∨ kind = .sizeCells → 4 ≤ property.propertyLen) :
    Twinned image other (fun _ => True) (node.propArm
      (image.search deviceName compatibleName fuel) (place + 12) property.propertyLen kind) := by
  have owned : ∀ address, Within (place + 12) property.propertyLen address → image.Owned address :=
    fun _ => Image.owned_value stands (reads_of_finds here.token) (reads_of_finds here.header)
  have cells (long : 4 ≤ property.propertyLen) : Twinned image other (fun _ => True)
      (Dtb.readU32FromPtr (place + 12)) :=
    twinned_of_asks alike <| asks_readU32FromPtr.mpr fun _ address within =>
      owned address ⟨within.1, Nat.lt_of_lt_of_le within.2 (Nat.add_le_add_left long _)⟩
  unfold SimpleDeviceNode.propArm
  cases kind with
  | addressCells => exact twinned_bind (cells (long (.inl rfl))) fun _ _ _ => twinned_pure trivial
  | sizeCells => exact twinned_bind (cells (long (.inr rfl))) fun _ _ _ => twinned_pure trivial
  | compatible =>
      cases compatibleName with
      | none => exact twinned_pure trivial
      | some name =>
          have loop : Twinned image other (fun _ => True) (SimpleDeviceNode.compatibleLoop name fuel
              ⟨place + 12, property.propertyLen⟩ false) :=
            twinned_compatibleLoop alike (settled rfl) .first
          exact twinned_bind loop fun _ _ _ => twinned_pure trivial
  | deviceName =>
      cases deviceName with
      | none => exact twinned_pure trivial
      | some name =>
          exact twinned_bind (twinned_deviceType alike (settled rfl)) fun _ _ _ =>
            twinned_pure trivial
  | reg =>
      cases node.parent with
      | none => exact twinned_err _
      | some parent => exact twinned_bind twinned_checkedAdd fun _ _ _ => twinned_pure trivial
  | ranges | other => exact twinned_pure trivial

/-- A property is parsed in the same way, or refused on both images. -/
theorem twinned_parseProp (stands : image.Place place)
    (token : image.finds (DtbParser.getTypes place) = .ok .prop)
    (settled : ∀ kind property, image.PropertyAt place kind property →
      image.ValueSettled deviceName compatibleName (place + 12) property.propertyLen kind) :
    Twinned image other (fun _ => True)
      (node.parseProp (image.search deviceName compatibleName fuel) place) := by
  have read := reads_of_finds token
  unfold SimpleDeviceNode.parseProp
  refine twinned_bind twinned_checkedAdd fun header _ moved => ?_
  subst moved
  have kept := Image.keeps_property stands read
  refine twinned_bind (twinned_of_asks alike (asks_readProperty.mpr fun _ => kept))
    fun property found _ => ?_
  refine twinned_bind twinned_checkedAdd fun value summed moved => ?_
  subst moved
  refine twinned_bind twinned_checkedAdd fun strings _ moved => ?_
  refine twinned_bind twinned_checkedAdd fun address _ moved' => ?_
  have located : address = image.parser.stringStart + property.nameOffset := by
    rw [moved', moved]
    rfl
  subst located
  have kept' := Image.keeps_propertyName stands read (reads_of_finds found)
  refine twinned_bind (twinned_of_asks alike (asks_readCharStr.mpr kept')) fun name named _ => ?_
  rw [finds_checkedAdd, eval_checkedAdd_eq_ok] at summed
  have here : image.PropertyAt place (PropName.ofName name) property :=
    ⟨token, found, summed.1, name, rfl, named⟩
  by_cases short : (PropName.ofName name = .addressCells ∨ PropName.ofName name = .sizeCells) ∧
      property.propertyLen < 4
  · refine twinned_of_short alike short.1 fun one found after => ⟨_, ⟨"invalid size", rfl⟩, ?_⟩
    rw [finds_seq]
    simp only [SimpleDeviceNode.checkLength, gt_iff_lt, short.2, ↓reduceIte]
    rfl
  · have arm := @twinned_propArm image other deviceName compatibleName fuel place node
      (PropName.ofName name) property alike stands here (settled _ _ here)
      fun cells => Nat.not_lt.mp fun less => short ⟨cells, less⟩
    refine twinned_bind arm fun ⟨result, later, required⟩ _ _ => ?_
    refine twinned_bind twinned_checkLength fun _ _ _ => ?_
    refine twinned_bind twinned_nextMultipleOf fun padded _ _ => ?_
    exact twinned_bind twinned_checkedAdd fun _ _ _ => twinned_pure trivial

/-- A turn of the property loop is the same at a settled stage. -/
theorem twinned_read {outer : List SimpleDeviceNode} {found : Bool} (stands : image.Place place)
    (settled : image.StageSettled deviceName compatibleName (.properties outer node found place)) :
    Twinned image other (fun _ => True)
      (Stage.read (image.search deviceName compatibleName fuel) outer node found place) := by
  unfold Stage.read
  refine twinned_bind (twinned_getTypes alike stands) fun token seen _ => ?_
  cases token with
  | nop => exact twinned_bind twinned_checkedAdd fun _ _ _ => twinned_pure trivial
  | prop =>
      exact twinned_bind (twinned_parseProp alike stands seen settled) fun _ _ _ =>
        twinned_pure trivial
  | beginNode | endNode => exact twinned_pure trivial
  | fdtEnd | unknown => exact twinned_err _

omit alike in
/-- A report is the same if the iterator is. -/
theorem twins_report {callback : Callback} {outer : List SimpleDeviceNode}
    {iter : DeviceAddressIter} (same : Twinned image other (fun _ => True) iter.window)
    (calls : List Window) :
    Dialogue.TwinRuns image.blob.whole.answer other.blob.whole.answer callback IsErr
      (fun _ => True) (debug (Stage.report outer node iter place)) calls := by
  have checks : debug (liftM iter.nextInternal : Walking (Option Window × DeviceAddressIter)) =
      liftM (debug iter.nextInternal) := Inquiry.lift_checked _
  unfold Stage.report
  rw [debug, Dialogue.checked_bind, show Dialogue.checked _ _ _ = _ from checks]
  refine (Dialogue.TwinRuns.lift (twinned_nextInternal same) calls).bind ?_
  rintro ⟨_ | window, later⟩ made - -
  · exact .of_answers fun _ member => absurd member List.not_mem_nil
  · refine .of_answers fun question member => ?_
    simp only [Dialogue.checked_bind, Dialogue.checked_call, Dialogue.checked_done,
      Dialogue.call_bind, Dialogue.asked] at member
    cases flow : callback made window <;> rw [flow] at member <;> cases member

/-- Every step at a settled stage has twin runs. -/
theorem twins_step {callback : Callback} {stage : Stage} (stands : image.Place (image.cursor stage))
    (settled : image.StageSettled deviceName compatibleName stage) (calls : List Window) :
    Dialogue.TwinRuns image.blob.whole.answer other.blob.whole.answer callback IsErr
      (fun _ => True) (image.debugStep deviceName compatibleName fuel stage) calls := by
  have kept (fits : image.StageFits image.Keeps deviceName compatibleName stage) :
      Dialogue.TwinRuns image.blob.whole.answer other.blob.whole.answer callback IsErr
        (fun _ => True) (image.debugStep deviceName compatibleName fuel stage) calls :=
    .of_answers fun request member =>
      alike.answer_eq ((asks_step_iff stage).mpr fits fuel request member)
  cases stage with
  | starting => exact kept trivial
  | leading place => exact kept fun _ _ => Image.keeps_token stands
  | opening outer place =>
      exact kept ⟨Image.keeps_token stands, fun token _ =>
        Image.keeps_nodeName stands (reads_of_finds token)⟩
  | properties outer node found place =>
      have checks : image.debugStep deviceName compatibleName fuel
          (.properties outer node found place) = liftM (debug
            (Stage.read (image.search deviceName compatibleName fuel) outer node found place)) :=
        Inquiry.lift_checked _
      rw [checks]
      exact .lift (twinned_read alike stands settled) calls
  | reporting outer node iter place =>
      rcases settled with fits | same
      · exact kept fits
      · exact twins_report (same other alike) calls
  | children outer node place => exact kept (Image.keeps_token stands)
  | behind place => exact kept (Image.keeps_token stands)

end Settling

/-- Alike images are searched by the same steps. -/
theorem Image.Alike.debugStep_eq {image other : Image} {deviceName compatibleName : Option String}
    (alike : image.Alike other) :
    other.debugStep deviceName compatibleName = image.debugStep deviceName compatibleName := by
  unfold Image.debugStep Image.search
  rw [alike.parser_eq]

/-- Of twin runs both are cut or none. -/
theorem cut_iff_of_twin {first second : Except Failure Unit}
    (twin : Twin IsErr (fun _ => True) first second) : first = Image.cut ↔ second = Image.cut := by
  cases twin with
  | value => exact Iff.rfl
  | error reason => exact Iff.rfl
  | excused here there =>
      obtain ⟨_, rfl⟩ := here
      obtain ⟨_, rfl⟩ := there
      exact ⟨nofun, nofun⟩

/-- A search no step of which depends on padding does the same on every image which differs only
in padding. -/
theorem ignoresPadding_of_settled {image : Image} {deviceName compatibleName : Option String}
    {callback : Callback} (settled : image.Settled deviceName compatibleName callback) :
    image.IgnoresPadding deviceName compatibleName callback := by
  intro other alike
  have same := @Image.Alike.debugStep_eq image other deviceName compatibleName alike
  have twins (fuel : Nat) : ∀ stage calls, Dialogue.Reached image.blob.whole.answer callback
      (image.debugStep deviceName compatibleName fuel) .starting stage calls →
        Dialogue.TwinRuns image.blob.whole.answer other.blob.whole.answer callback IsErr
          (fun _ => True) (image.debugStep deviceName compatibleName fuel stage) calls :=
    fun stage calls reached =>
      twins_step alike (place_of_comesTo ⟨fuel, reached⟩) (settled stage calls ⟨fuel, reached⟩) calls
  have runs (fuel bound : Nat) : Dialogue.TwinRuns image.blob.whole.answer other.blob.whole.answer
      callback IsErr (fun _ => True) (Dialogue.iterate .outOfFuel
        (image.debugStep deviceName compatibleName fuel) bound .starting) [] :=
    Dialogue.twins_iterate (twins fuel) bound .start
  constructor
  · intro stage calls
    refine exists_congr fun fuel => ?_
    rw [same]
    exact Dialogue.reached_of_twins (twins fuel)
  · intro result calls returned
    obtain ⟨whole, fuel, bound, run⟩ := Image.debugReturns_iff_ends.mp returned
    obtain ⟨made, ending⟩ := runs fuel bound
    rw [run] at made ending
    refine ⟨_, Image.debugReturns_iff_ends.mpr ⟨?_, fuel, bound, ?_⟩, ending⟩
    · exact fun stopped => whole ((cut_iff_of_twin ending).mpr stopped)
    · rw [same]
      exact Prod.ext rfl made
  · intro result' calls returned
    obtain ⟨whole, fuel, bound, run⟩ := Image.debugReturns_iff_ends.mp returned
    obtain ⟨made, ending⟩ := runs fuel bound
    rw [same] at run
    rw [run] at made ending
    refine ⟨_, Image.debugReturns_iff_ends.mpr ⟨?_, fuel, bound, Prod.ext rfl made.symm⟩, ending⟩
    exact fun stopped => whole ((cut_iff_of_twin ending).mp stopped)

end Rpi5.DeviceTree
