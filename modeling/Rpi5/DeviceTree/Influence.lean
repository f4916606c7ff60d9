import Rpi5.DeviceTree.Assembly
import Rpi5.DeviceTree.Padding
import Rpi5.DeviceTree.Progress
import Rpi5.DeviceTree.RootRanges

/-!
# The influence of padding

A search which does the same whatever the padding is takes the same steps
(`SearchesAlike.twinRuns`), since its course goes only upwards. If it reads a string which
goes on into padding, the padding may be a NUL, or a byte which no text has; the steps are
the same only if the search fails with both, and then it fails whatever the padding is
(`alwaysReads_of_twins`). So a search ignores padding exactly if it is settled
(`ignoresPadding_iff`).
-/

namespace Rpi5.DeviceTree

open Rpi5.Logical Rpi5.Semantics

section Bounds

variable {α : Type} {image : Image} {deviceName compatibleName : Option String}
  {outer : List SimpleDeviceNode} {node : SimpleDeviceNode} {found : Bool} {place : Nat}

/-- Checks of pointers do not cut a run. -/
theorem uncut_finds {reading : Reading α}
    (uncut : Uncut (Inquiry.eval image.blob.whole.answer reading)) : Uncut (image.finds reading) := by
  rcases @Dialogue.exec_checked _ _ _ _ _ _ Request.isValid .invalidPointer
    image.blob.whole.answer Inquiry.nobody reading [] with ⟨-, same⟩ | ⟨-, stopped, -⟩
  · rw [Inquiry.exec_nobody, Inquiry.exec_nobody] at same
    unfold Uncut Image.finds debug
    rwa [(Prod.mk.inj same).1]
  · rw [Inquiry.exec_nobody] at stopped
    dsimp only at stopped
    unfold Uncut Image.finds debug
    rw [stopped]
    exact nofun

/-- A larger bound finds the same, unless the smaller one cuts. -/
theorem finds_of_reaches {first second : Reading α} (goes : Reaches first second)
    (uncut : Uncut (image.finds first)) : image.finds second = image.finds first := by
  have run : (debug first).exec image.blob.whole.answer Inquiry.nobody [] =
      (image.finds first, []) := Inquiry.exec_nobody _ _
  have same := goes.checked.exec_run run uncut
  rw [Inquiry.exec_nobody] at same
  exact (Prod.mk.inj same).1

/-- A turn of the property loop is not cut by a bound above the length of its value. -/
theorem uncut_read : Uncut (image.finds
    (Stage.read (image.search deviceName compatibleName (2 ^ 32)) outer node found place)) := by
  refine uncut_finds ?_
  unfold Stage.read
  rw [Inquiry.eval_bind]
  refine uncut_getTypes.bind fun token _ => ?_
  cases token with
  | nop =>
      simp only [Inquiry.eval_bind]
      exact (uncut_checkedAdd _ _ _).bind fun _ _ => uncut_ok _
  | prop =>
      simp only [Inquiry.eval_bind]
      exact (uncut_parseProp (Nat.le_refl _)).bind fun _ _ => uncut_ok _
  | beginNode | endNode => exact uncut_ok _
  | fdtEnd | unknown => exact nofun

end Bounds

section Strings

variable {image other : Image}

/-- A run ends with an `Err`. -/
def Fails {α : Type} (ending : Except Failure α) : Prop :=
  ∃ failure, IsErr failure ∧ ending = .error failure

/-- The ending of a run hangs on a string: it is an access outside without one, and an `Err` for
those of a certain kind. -/
structure HangsOn {α : Type} (kind : Bytes → Prop) (string : Option Bytes)
    (ending : Except Failure α) : Prop where
  lost : string = none → ∃ question, ending = .error (.unanswered question)
  read : ∀ text, string = some text →
    (∀ question, ending ≠ .error (.unanswered question)) ∧ (Fails ending ↔ kind text)

/-- A string which goes over a byte holds what is written there. -/
theorem mem_of_text {start address : Nat} {text : Bytes} {byte : UInt8} (nonzero : byte ≠ 0)
    (along : image.blob.TextAt start address) (above : image.blob.base ≤ start)
    (written : other.blob.byteAt address = some byte)
    (same : ∀ place, image.blob.base ≤ place → place ≠ address →
      other.blob.byteAt place = image.blob.byteAt place)
    (holds : other.blob.whole.Holds .struct start (text ++ [0])) : byte ∈ text := by
  obtain ⟨ahead, -, free⟩ := along
  have length : (text ++ [0]).length = text.length + 1 := by simp
  have bytes (index : Nat) (inside : index < text.length + 1) :
      other.blob.byteAt (start + index) = (text ++ [0])[index]? :=
    Blob.byteAt_of_holds holds (length ▸ inside)
  have goes : address < start + text.length := by
    by_contra ends
    have nul := bytes text.length (by omega)
    rw [List.getElem?_concat_length] at nul
    by_cases here : start + text.length = address
    · rw [here, written] at nul
      exact nonzero (Option.some.inj nul)
    · rw [same _ (by omega) here, ← Blob.getElem?_tail above] at nul
      refine free (List.mem_of_getElem? (i := text.length) ?_)
      rw [List.getElem?_take, if_pos (by omega), nul]
  have there := bytes (address - start) (by omega)
  rw [Nat.add_sub_cancel' ahead, written, List.getElem?_append_left (by omega)] at there
  exact List.mem_of_getElem? there.symm

/-- If runs which hang on a string that goes on into padding are twins whatever it is, the string
is always of the kind for which they fail. -/
theorem alwaysReads_of_twins {α : Type} {kind : Bytes → Prop} {address : Nat}
    {ending : Image → Except Failure α} (strange : ∀ text, 0xff ∈ text → kind text)
    (twins : ∀ other, image.Alike other →
      Twin IsErr (fun _ => True) (ending image) (ending other))
    (hangs : ∀ other, image.Alike other →
      HangsOn kind (other.blob.whole.readText .struct address) (ending other))
    (above : image.blob.base ≤ address) (lost : ¬ image.Keeps (.text .struct address)) :
    image.AlwaysReads address kind := by
  obtain ⟨place, along, free⟩ : ∃ place, image.blob.TextAt address place ∧ ¬ image.Owned place := by
    by_contra! all
    exact lost all
  have inside : image.blob.base ≤ place := above.trans along.1
  -- One padding ends the string, and with the other no text is left.
  obtain ⟨ended, alike, nul, -⟩ := Image.Alike.exists_other inside along.2.1 free 0
  obtain ⟨broken, alike', written, same⟩ := Image.Alike.exists_other inside along.2.1 free 0xff
  have above' : ended.blob.base ≤ address := alike.base ▸ above
  obtain ⟨text, read⟩ := exists_text above' along.1 nul
  have asked := ((hangs ended alike).read text read).1
  have fails : Fails (ending image) := by
    by_contra plain
    have first := (twins ended alike).eq_of_not_excused plain
    have second := (twins broken alike').eq_of_not_excused plain
    cases string : broken.blob.whole.readText .struct address with
    | none =>
        obtain ⟨question, unanswered⟩ := (hangs broken alike').lost string
        exact asked question ((first.trans second.symm).trans unanswered)
    | some text' =>
        obtain ⟨zeroFree, holds⟩ := Memory.readText_eq_some.mp string
        have member := mem_of_text (by decide) along above written same holds
        have refused := ((hangs broken alike').read text' string).2.mpr (strange text' member)
        exact plain ((twins broken alike').excused_iff.mpr refused)
  intro other alike
  have fails' := (twins other alike).excused_iff.mp fails
  cases string : other.blob.whole.readText .struct address with
  | none =>
      obtain ⟨question, unanswered⟩ := (hangs other alike).lost string
      obtain ⟨failure, ⟨message, rfl⟩, failed⟩ := fails'
      rw [unanswered] at failed
      cases failed
  | some text => exact ⟨text, rfl, ((hangs other alike).read text string).2.mp fails'⟩

end Strings

section Properties

variable {image other : Image} {search : Search} {outer : List SimpleDeviceNode}
  {node after : SimpleDeviceNode} {found matched : Bool} {place : Nat} {property : FdtProperty}
  {kind : PropName}

/-- Sums overflow if they do not fit. -/
theorem finds_checkedAdd_or (width first second : Nat) :
    (∃ sum, image.finds (checkedAdd width first second) = .ok sum) ∨
      image.finds (checkedAdd width first second) = .error (.stopped .overflow) := by
  rw [finds_checkedAdd]
  by_cases fits : first + second < 2 ^ width
  · exact .inl ⟨_, eval_checkedAdd fits⟩
  · exact .inr (eval_checkedAdd_overflow (Nat.not_lt.mp fits))

/-- A property is as long as 32 bits say. -/
theorem Image.PropertyAt.short (here : image.PropertyAt place kind property) :
    property.propertyLen < 2 ^ 32 :=
  (eval_readProperty_eq_ok.mp (reads_of_finds here.header)).2.1

/-- Its name is at an address. -/
theorem Image.PropertyAt.addressed (here : image.PropertyAt place kind property) :
    image.parser.stringStart + property.nameOffset < 2 ^ 64 := by
  obtain ⟨name, -, named⟩ := here.name
  have stored := (eval_readCharStr_eq_ok.mp (reads_of_finds named)).2.addressable
  rw [List.length_append, List.length_singleton] at stored
  omega

/-- What `parse_prop` does behind its arm. -/
def FdtProperty.close (property : FdtProperty) (value : Nat)
    (taken : Bool × SimpleDeviceNode × Option Nat) : Reading (Bool × SimpleDeviceNode × Nat) := do
  SimpleDeviceNode.checkLength property.propertyLen taken.2.2
  let padded ← nextMultipleOf 32 property.propertyLen 4
  let next ← checkedAdd 64 value padded
  return (taken.1, taken.2.1, next)

/-- A property is parsed by its arm. -/
theorem finds_parseProp (same : search.parser = image.parser)
    (here : image.PropertyAt place kind property) :
    image.finds (node.parseProp search place) =
      image.finds (node.propArm search (place + 12) property.propertyLen kind >>=
        property.close (place + 12)) := by
  have addressed := here.addressed
  obtain ⟨-, header, room, name, rfl, named⟩ := here
  unfold DtbParser.stringStart at addressed named
  unfold SimpleDeviceNode.parseProp Dtb.getStringStartAddress
  rw [finds_seq, finds_checkedAdd, eval_checkedAdd (by omega), ok_bind, finds_seq, header, ok_bind,
    finds_seq, finds_checkedAdd, eval_checkedAdd (by omega), ok_bind, finds_seq, finds_checkedAdd,
    same, eval_checkedAdd (by omega), ok_bind, finds_seq, finds_checkedAdd,
    eval_checkedAdd (by omega), ok_bind, finds_seq, named, ok_bind, Nat.add_assoc]
  rfl

/-- Behind an arm which asks for no length there may only be an overflow. -/
theorem finds_close (value : Nat) (matched : Bool) (after : SimpleDeviceNode) :
    (∃ parsed, image.finds (property.close value (matched, after, none)) = .ok parsed) ∨
      image.finds (property.close value (matched, after, none)) = .error (.stopped .overflow) := by
  have padded : (∃ padded, image.finds (nextMultipleOf 32 property.propertyLen 4) = .ok padded) ∨
      image.finds (nextMultipleOf 32 property.propertyLen 4) = .error (.stopped .overflow) := by
    unfold nextMultipleOf
    split
    · exact .inl ⟨_, rfl⟩
    · exact finds_checkedAdd_or _ _ _
  unfold FdtProperty.close
  rw [finds_seq, show image.finds (SimpleDeviceNode.checkLength _ none) = .ok () from rfl, ok_bind,
    finds_seq]
  rcases padded with ⟨padded, found⟩ | overflows
  · rw [found, ok_bind, finds_seq]
    rcases @finds_checkedAdd_or image 64 value padded with ⟨next, summed⟩ | overflows
    · rw [summed]
      exact .inl ⟨_, rfl⟩
    · rw [overflows]
      exact .inr rfl
  · rw [overflows]
    exact .inr rfl

/-- A turn of the property loop is its property. -/
theorem finds_read (same : search.parser = image.parser)
    (here : image.PropertyAt place kind property) :
    image.finds (Stage.read search outer node found place) =
      (image.finds (node.propArm search (place + 12) property.propertyLen kind) >>= fun taken =>
        image.finds (property.close (place + 12) taken)) >>= fun parsed =>
          .ok (.inl (.properties outer parsed.2.1 (found || parsed.1) parsed.2.2)) := by
  unfold Stage.read
  rw [finds_seq, here.token, ok_bind, finds_seq, finds_parseProp same here, finds_seq]
  rfl

variable {name : String} {iter : CharStringIter}

/-- Whether a `device_type` can be read hangs on its string. -/
theorem hangsOn_deviceType (same : search.parser = image.parser)
    (here : image.PropertyAt place .deviceName property) (sought : search.deviceName = some name) :
    HangsOn (decodeUtf8 · = none) (image.blob.whole.readText .struct (place + 12))
      (image.finds (Stage.read search outer node found place)) := by
  have arm : image.finds (node.propArm search (place + 12) property.propertyLen .deviceName) =
      image.finds (Dtb.readCharStr .struct (place + 12)) >>= fun text =>
        .ok (name == text, node, none) := by
    unfold SimpleDeviceNode.propArm
    simp only [sought]
    rw [finds_seq]
    rfl
  rw [finds_read same here, arm]
  constructor
  · intro lost
    rw [finds_readCharStr_of_none lost]
    exact ⟨_, rfl⟩
  · intro text read
    rw [finds_readCharStr_of_some read]
    cases decodeUtf8 text with
    | none => exact ⟨nofun, iff_of_true ⟨_, ⟨_, rfl⟩, rfl⟩ rfl⟩
    | some string =>
        rw [Option.elim_some, ok_bind, ok_bind]
        rcases @finds_close image property (place + 12) (name == string) node with
          ⟨parsed, taken⟩ | overflows
        · rw [taken]
          exact ⟨nofun, iff_of_false (by rintro ⟨_, -, ⟨⟩⟩) nofun⟩
        · rw [overflows]
          exact ⟨nofun, iff_of_false (by rintro ⟨_, ⟨_, rfl⟩, ⟨⟩⟩) nofun⟩

/-- The loop over a value comes to every iterator which the value does. -/
theorem loop_of_takesTo {first : CharStringIter} (result : Bool)
    (takes : image.TakesTo first iter) :
    ∃ before later, ∀ steps,
      image.finds (SimpleDeviceNode.compatibleLoop name (before + steps) first result) =
        image.finds (SimpleDeviceNode.compatibleLoop name steps iter later) := by
  induction takes with
  | first => exact ⟨0, result, fun steps => by rw [Nat.zero_add]⟩
  | @next iter later text _ taken ih =>
      obtain ⟨before, result, runs⟩ := ih
      refine ⟨before + 1, result || name == text, fun steps => ?_⟩
      rw [Nat.add_assoc, Nat.add_comm 1, runs, SimpleDeviceNode.compatibleLoop, finds_seq, taken]
      rfl

/-- So it fails where a string cannot be taken off. -/
theorem finds_compatibleLoop {first : CharStringIter} {steps : Nat} {reason : Failure}
    (takes : image.TakesTo first iter) (longer : first.remainSize < steps)
    (failed : image.finds iter.next = .error reason) (whole : reason ≠ .stopped .outOfFuel)
    (result : Bool) :
    image.finds (SimpleDeviceNode.compatibleLoop name steps first result) = .error reason := by
  obtain ⟨before, later, runs⟩ := @loop_of_takesTo image name iter first result takes
  have here : image.finds (SimpleDeviceNode.compatibleLoop name (before + 1) first result) =
      .error reason := by
    rw [runs, SimpleDeviceNode.compatibleLoop, finds_seq, failed]
    rfl
  have uncut : Uncut (image.finds
      (SimpleDeviceNode.compatibleLoop name (before + 1) first result)) := by
    rw [here]
    exact fun cut => whole (Except.error.inj cut)
  have uncut' : Uncut (image.finds (SimpleDeviceNode.compatibleLoop name steps first result)) :=
    uncut_finds (uncut_compatibleLoop name longer result)
  -- Both bounds are large enough.
  have one := finds_of_reaches (compatibleLoop_extends name
    (Nat.le_max_left (before + 1) steps) first result) uncut
  have two := finds_of_reaches (compatibleLoop_extends name
    (Nat.le_max_right (before + 1) steps) first result) uncut'
  rw [← two, one, here]

/-- Whether a `compatible` can be read hangs on each of its strings which does not end inside
the value. -/
theorem hangsOn_compatible (same : search.parser = image.parser)
    (here : image.PropertyAt place .compatible property)
    (sought : search.compatibleName = some name) (enough : property.propertyLen < search.fuel)
    (takes : image.TakesTo ⟨place + 12, property.propertyLen⟩ iter) (more : iter.remainSize ≠ 0)
    (long : ∀ text, image.blob.whole.readText .struct iter.pointer = some text →
      iter.remainSize ≤ text.length) :
    HangsOn iter.Refuses (image.blob.whole.readText .struct iter.pointer)
      (image.finds (Stage.read search outer node found place)) := by
  have fails {reason : Failure} (failed : image.finds iter.next = .error reason)
      (whole : reason ≠ .stopped .outOfFuel) :
      image.finds (Stage.read search outer node found place) = .error reason := by
    rw [finds_read same here]
    unfold SimpleDeviceNode.propArm
    simp only [sought]
    rw [finds_seq, finds_compatibleLoop takes enough failed whole]
    rfl
  constructor
  · exact fun lost => ⟨_, fails (finds_next_of_none more lost) nofun⟩
  · intro text read
    obtain ⟨_, failed, ⟨⟨message, rfl⟩, refuses⟩ | ⟨rfl, taken⟩⟩ :=
      finds_next_of_some more read (.inr (long text read))
    · rw [fails failed nofun]
      exact ⟨nofun, iff_of_true ⟨_, ⟨_, rfl⟩, rfl⟩ refuses⟩
    · rw [fails failed nofun]
      exact ⟨nofun, iff_of_false (by rintro ⟨_, ⟨_, rfl⟩, ⟨⟩⟩) taken⟩

end Properties

section Values

variable {image other : Image} {place : Nat} {property : FdtProperty} {kind : PropName}
  {iter : CharStringIter} {start length : Nat}

/-- A string which ends inside a value, all of which belongs to something, does so too. -/
theorem keeps_of_ends {nul : Nat} (above : image.blob.base ≤ start)
    (owned : ∀ place, Within start length place → image.Owned place)
    (ahead : start ≤ iter.pointer) (whole : iter.pointer + iter.remainSize = start + length)
    (behind : iter.pointer ≤ nul) (inside : nul < iter.pointer + iter.remainSize)
    (ends : image.blob.byteAt nul = some 0) : image.Keeps (.text .struct iter.pointer) :=
  Image.keeps_text (above.trans ahead) behind ends fun _ before below =>
    owned _ ⟨ahead.trans before, by omega⟩

variable (alike : image.Alike other)

include alike

/-- A property stands at the same place in every image which is alike. -/
theorem Image.PropertyAt.of_alike (stands : image.Place place)
    (here : image.PropertyAt place kind property) : other.PropertyAt place kind property := by
  have token := reads_of_finds here.token
  have header := reads_of_finds here.header
  obtain ⟨name, known, named⟩ := here.name
  have same := @finds_eq_of_asks image other
  constructor
  · rw [same alike (asks_getTypes.mpr (Image.keeps_token stands)), here.token]
  · rw [same alike (asks_readProperty.mpr fun _ => Image.keeps_property stands token), here.header]
  · exact here.room
  · refine ⟨name, known, ?_⟩
    rw [alike.parser_eq, same alike (asks_readCharStr.mpr
      (Image.keeps_propertyName stands token header)), named]

variable (above : image.blob.base ≤ start)
  (owned : ∀ place, Within start length place → image.Owned place)

include above owned

/-- The same strings are taken off its value. -/
theorem takesTo_of_alike (takes : image.TakesTo ⟨start, length⟩ iter) :
    other.TakesTo ⟨start, length⟩ iter := by
  induction takes with
  | first => exact .first
  | @next iter later text earlier taken ih =>
      obtain ⟨ahead, whole⟩ := within_of_takesTo earlier
      obtain ⟨holds, inside, -, -⟩ := ends_of_next taken
      have ends := @Blob.byteAt_of_holds _ _ _ _ (utf8 text).length holds (by simp)
      rw [List.getElem?_concat_length] at ends
      have kept := keeps_of_ends above owned ahead whole (Nat.le_add_right _ _) (by omega) ends
      refine @Image.TakesTo.next other _ iter later text ih ?_
      rw [finds_eq_of_asks alike (asks_next.mpr fun _ => kept), taken]

/-- A string which does not belong to something goes on behind the value, in every image which
is alike. -/
theorem long_of_not_keeps (takes : image.TakesTo ⟨start, length⟩ iter)
    (lost : ¬ image.Keeps (.text .struct iter.pointer)) {text : Bytes}
    (read : other.blob.whole.readText .struct iter.pointer = some text) :
    iter.remainSize ≤ text.length := by
  obtain ⟨ahead, whole⟩ := within_of_takesTo takes
  by_contra short
  have holds := (Memory.readText_eq_some.mp read).2
  have ends := @Blob.byteAt_of_holds _ _ _ _ text.length holds (by simp)
  rw [List.getElem?_concat_length, alike.bytes _ (by omega) (owned _ ⟨by omega, by omega⟩)] at ends
  exact lost (keeps_of_ends above owned ahead whole (Nat.le_add_right _ _) (by omega) ends)

end Values

section Necessity

variable {image other : Image} {deviceName compatibleName : Option String} {callback : Callback}
  {stage : Stage} {calls : List Window}

/-- A search which does the same on another image takes the same steps there. -/
theorem Image.SearchesAlike.twinRuns {fuel : Nat} (alike : image.Alike other)
    (same : image.SearchesAlike deviceName compatibleName callback other)
    (visited : image.ComesTo deviceName compatibleName callback stage calls)
    (uncut : Uncut ((image.debugStep deviceName compatibleName fuel stage).exec
      image.blob.whole.answer callback calls).1)
    (uncut' : Uncut ((image.debugStep deviceName compatibleName fuel stage).exec
      other.blob.whole.answer callback calls).1) :
    Dialogue.TwinRuns image.blob.whole.answer other.blob.whole.answer callback IsErr
      (fun _ => True) (image.debugStep deviceName compatibleName fuel stage) calls := by
  have steps := @Image.Alike.debugStep_eq image other deviceName compatibleName alike
  have rank : other.rank = image.rank := by
    unfold Image.rank Image.cursor
    rw [alike.parser_eq]
  have rises (now next : Stage × List Window) (goes : Dialogue.Goes other.blob.whole.answer callback
      (image.debugStep deviceName compatibleName) now next) : image.rank now < image.rank next := by
    rw [← rank]
    rw [← steps] at goes
    exact rank_lt_of_goes goes
  refine Dialogue.twinRuns_of_same_course Image.debugStep_extends (fun _ _ => rank_lt_of_goes) rises
    ?_ ?_ visited uncut uncut'
  · rintro ⟨stage, calls⟩
    have visits := same.stages stage calls
    unfold Image.ComesTo at visits
    rw [steps] at visits
    exact visits
  · intro result calls ended
    obtain ⟨result', returned, twin⟩ := same.returns result calls
      (Image.debugReturns_iff_ends.mpr ended)
    have ended' := Image.debugReturns_iff_ends.mp returned
    rw [steps] at ended'
    exact ⟨result', ended', twin⟩

variable (ignores : image.IgnoresPadding deviceName compatibleName callback)

include ignores

/-- So a turn of the property loop is the same. -/
theorem twin_read {outer : List SimpleDeviceNode} {node : SimpleDeviceNode} {found : Bool}
    {place : Nat} (alike : image.Alike other) (visited : image.ComesTo deviceName compatibleName
      callback (.properties outer node found place) calls) :
    Twinned image other (fun _ => True)
      (Stage.read (image.search deviceName compatibleName (2 ^ 32)) outer node found place) := by
  have search : other.search deviceName compatibleName (2 ^ 32) =
      image.search deviceName compatibleName (2 ^ 32) := by
    unfold Image.search
    rw [alike.parser_eq]
  have uncut : Uncut (other.finds (Stage.read (image.search deviceName compatibleName (2 ^ 32))
      outer node found place)) := by
    rw [← search]
    exact uncut_read
  have first : (image.debugStep deviceName compatibleName (2 ^ 32)
      (.properties outer node found place)).exec image.blob.whole.answer callback calls =
        (image.finds (Stage.read (image.search deviceName compatibleName (2 ^ 32)) outer node found
          place), calls) := exec_liftM _
  have second : (image.debugStep deviceName compatibleName (2 ^ 32)
      (.properties outer node found place)).exec other.blob.whole.answer callback calls =
        (other.finds (Stage.read (image.search deviceName compatibleName (2 ^ 32)) outer node found
          place), calls) := exec_liftM _
  have runs := (ignores other alike).twinRuns alike visited (by rw [first]; exact uncut_read)
    (by rw [second]; exact uncut)
  unfold Dialogue.TwinRuns at runs
  rw [first, second] at runs
  exact runs.2

/-- And a report: its window is the same, or refused on both images. -/
theorem twin_window {outer : List SimpleDeviceNode} {node : SimpleDeviceNode}
    {iter : DeviceAddressIter} {place : Nat} (alike : image.Alike other)
    (visited : image.ComesTo deviceName compatibleName callback (.reporting outer node iter place)
      calls) : Twinned image other (fun _ => True) iter.window := by
  have uncut (one : Image) : Uncut ((debug (Stage.report outer node iter place)).exec
      one.blob.whole.answer callback calls).1 := by
    have whole := @uncut_finds _ one iter.nextInternal (uncut_nextInternal iter)
    cases ending : one.finds iter.nextInternal with
    | error reason =>
        rw [exec_report_of_error ending]
        exact fun cut => whole (ending.trans (congrArg _ (Except.error.inj cut)))
    | ok taken =>
        rw [exec_report_of_ok ending]
        exact nofun
  have runs : Dialogue.TwinRuns image.blob.whole.answer other.blob.whole.answer callback IsErr
      (fun _ => True) (debug (Stage.report outer node iter place)) calls :=
    @Image.SearchesAlike.twinRuns _ _ _ _ _ _ _ 0 alike (ignores other alike) visited
      (uncut image) (uncut other)
  obtain ⟨made, twin⟩ := runs
  unfold Twinned DeviceAddressIter.window
  rw [finds_seq, finds_seq]
  cases one : image.finds iter.nextInternal with
  | error reason =>
      rw [exec_report_of_error one] at made twin
      cases two : other.finds iter.nextInternal with
      | error reason' =>
          rw [exec_report_of_error two] at twin
          cases twin with
          | error => exact .error _
          | excused here there => exact .excused here there
      | ok taken' =>
          rw [exec_report_of_ok two] at twin
          cases twin
  | ok taken =>
      rw [exec_report_of_ok one] at made twin
      cases two : other.finds iter.nextInternal with
      | error reason' =>
          rw [exec_report_of_error two] at twin
          cases twin
      | ok taken' =>
          rw [exec_report_of_ok two] at made
          have same : taken'.1 = taken.1 := by
            simpa using congrArg List.head? (List.append_cancel_left made)
          rw [ok_bind, ok_bind, same]
          exact .value trivial

/-- A search which does the same whatever the padding is depends on no padding at any stage. -/
theorem settled_of_ignoresPadding : image.Settled deviceName compatibleName callback := by
  intro stage calls visited
  cases stage with
  | properties outer node found place =>
      intro kind property here
      have stands : image.Place place := place_of_comesTo visited
      have above : image.blob.base ≤ place + 12 :=
        (base_le_of_place stands).trans (Nat.le_add_right place 12)
      have twins (other : Image) (alike : image.Alike other) := twin_read ignores alike visited
      have same (other : Image) (alike : image.Alike other) :
          (image.search deviceName compatibleName (2 ^ 32)).parser = other.parser :=
        (Image.Alike.parser_eq alike).symm
      cases kind with
      | deviceName =>
          intro sought
          obtain ⟨name, rfl⟩ := Option.isSome_iff_exists.mp sought
          refine or_iff_not_imp_left.mpr fun lost => ?_
          exact alwaysReads_of_twins (fun _ => decodeUtf8_eq_none_of_mem) twins
            (fun other alike => hangsOn_deviceType (same other alike) (here.of_alike alike stands) rfl)
            above lost
      | compatible =>
          intro sought iter takes more
          obtain ⟨name, rfl⟩ := Option.isSome_iff_exists.mp sought
          have owned (address : Nat) (within : Within (place + 12) property.propertyLen address) :
              image.Owned address :=
            Image.owned_value stands (reads_of_finds here.token) (reads_of_finds here.header) within
          refine or_iff_not_imp_left.mpr fun lost => ?_
          exact alwaysReads_of_twins (fun _ strange => .inl (decodeUtf8_eq_none_of_mem strange)) twins
            (fun other alike => hangsOn_compatible (same other alike) (here.of_alike alike stands) rfl
              here.short (takesTo_of_alike alike above owned takes) more fun _ =>
                long_of_not_keeps alike above owned takes lost)
            (above.trans (within_of_takesTo takes).1) lost
      | _ => trivial
  | reporting outer node iter place =>
      exact .inr fun other alike => twin_window ignores alike visited
  | _ => trivial

end Necessity

section Memories

/-- A `device_type` and its padding. -/
def deviceType (value padding : Bytes) (padded : padding.length = padLength value.length)
    (short : value.length + padding.length < 2 ^ 32) : PropItem :=
  .prop { PropToken.known .deviceName value (padded ▸ short) with padding, padded, short }

/-- A board with a memory. -/
def memoryBoard (kind : PropItem) : StructBlock where
  leading := 0
  root := rootNode [oneCell]
  children := .node
    { name := "memory", padding := [0], items := [kind, uartReg], nulFree := by decide,
      padded := by decide } .nil .nil
  trailing := 0

/-- The type of the memory has its NUL. -/
def typedBoard : StructBlock :=
  memoryBoard (deviceType (utf8 "memory" ++ [0]) [0] (by decide) (by decide))

/-- The same with other padding. -/
def repaddedTypedBoard : StructBlock :=
  memoryBoard (deviceType (utf8 "memory" ++ [0]) [0x78] (by decide) (by decide))

/-- The type of the memory is not terminated. -/
def untypedBoard : StructBlock :=
  memoryBoard (deviceType (utf8 "memory") [0, 0] (by decide) (by decide))

/-- The same with other padding. -/
def repaddedUntypedBoard : StructBlock :=
  memoryBoard (deviceType (utf8 "memory") [0x78, 0] (by decide) (by decide))

def typedImage : Image :=
  .assemble 0x80000 typedBoard.encode knownNames (by decide +kernel) (by decide +kernel)

def repaddedTypedImage : Image :=
  .assemble 0x80000 repaddedTypedBoard.encode knownNames (by decide +kernel) (by decide +kernel)

def untypedImage : Image :=
  .assemble 0x80000 untypedBoard.encode knownNames (by decide +kernel) (by decide +kernel)

def repaddedUntypedImage : Image :=
  .assemble 0x80000 repaddedUntypedBoard.encode knownNames (by decide +kernel) (by decide +kernel)

/-- The two images differ in padding only. -/
theorem typedImage_alike : typedImage.Alike repaddedTypedImage := by
  have written : repaddedTypedImage.blob.bytes = typedImage.blob.bytes.set 95 0x78 := by
    decide +kernel
  refine .of_set rfl written ?_
  exact @Image.not_owned typedImage 8 0x8007c _ (by decide +kernel) (by decide +kernel)
    (by decide +kernel) (by decide +kernel)

/-- So do these. -/
theorem untypedImage_alike : untypedImage.Alike repaddedUntypedImage := by
  have written : repaddedUntypedImage.blob.bytes = untypedImage.blob.bytes.set 94 0x78 := by
    decide +kernel
  refine .of_set rfl written ?_
  exact @Image.not_owned untypedImage 8 0x8007c _ (by decide +kernel) (by decide +kernel)
    (by decide +kernel) (by decide +kernel)

/-- The image holds the board, whatever its kind is. -/
theorem memoryBoard_serialises {kind : PropItem}
    (known : ∀ token, kind = .prop token → token.IsKnown)
    (room : 0x80000 + (40 + ((memoryBoard kind).encode.length + knownNames.length)) ≤ 2 ^ 64)
    (small : 40 + ((memoryBoard kind).encode.length + knownNames.length) < 2 ^ 32) :
    Serialises (Image.assemble 0x80000 (memoryBoard kind).encode knownNames room small).blob.whole
      (Image.assemble 0x80000 (memoryBoard kind).encode knownNames room small).parser
      (memoryBoard kind) := by
  apply known_serialises
  refine ⟨?_, ⟨?_, trivial, trivial⟩, trivial⟩
  · intro token member
    simp only [memoryBoard, rootNode, oneCell, List.mem_singleton, PropItem.prop.injEq] at member
    rw [member]
    exact PropToken.isKnown_known _ _ _
  · intro token member
    simp only [List.mem_cons, List.not_mem_nil, or_false, uartReg, PropItem.prop.injEq] at member
    rcases member with same | same
    · exact known token same.symm
    · rw [same]
      exact PropToken.isKnown_known _ _ _

/-- With its NUL the type is read from its value alone. -/
theorem typedImage_settled : typedImage.Settled (some "memory") none .always := by
  have places : ∀ {place}, typedImage.Place place →
      place ∈ typedImage.places 8 typedImage.parser.structStart := fun here =>
    Image.mem_places here (by decide +kernel : typedImage.tokenWidth 0x8007c = none)
      (by decide +kernel)
  have properties : ((typedImage.places 8 typedImage.parser.structStart).filterMap fun place =>
      (typedImage.propertyAt place).map fun found => (place, found.1, found.2.propertyLen)) =
        [(0x80030, .addressCells, 4), (0x8004c, .deviceName, 7), (0x80060, .reg, 8)] := by
    decide +kernel
  have owned {place : Nat} {property : FdtProperty} (stands : typedImage.Place place)
      (token : typedImage.reads (DtbParser.getTypes place) = .ok .prop)
      (header : typedImage.reads (FdtProperty.read (place + 4)) = .ok property) (address : Nat) :
      Within (place + 12) property.propertyLen address → typedImage.Owned address :=
    Image.owned_value stands token header
  intro stage calls visited
  cases stage with
  | properties outer node found place =>
      intro kind property here
      have stands : typedImage.Place place := place_of_comesTo visited
      have member : (place, kind, property.propertyLen) ∈
          [(0x80030, .addressCells, 4), (0x8004c, .deviceName, 7), (0x80060, .reg, 8)] := by
        rw [← properties]
        exact List.mem_filterMap.mpr ⟨place, places stands, by rw [here.found]; rfl⟩
      simp only [List.mem_cons, Prod.mk.injEq, List.not_mem_nil, or_false] at member
      rcases member with ⟨-, rfl, -⟩ | ⟨rfl, rfl, seven⟩ | ⟨-, rfl, -⟩
      · trivial
      · intro _
        have ends : typedImage.blob.byteAt 0x8005e = some 0 := by decide +kernel
        refine .inl <| Image.keeps_text (by decide) (by decide) ends fun address above below => ?_
        refine owned stands (reads_of_finds here.token) (reads_of_finds here.header) address
          ⟨above, ?_⟩
        omega
      · trivial
  | reporting outer node iter place =>
      -- The words of this search are those of `#address-cells` and of `reg`.
      have listed : (typedImage.debugAsked (some "memory") none .always 20).all (fun request =>
          match request with
          | .word address => Within 0x8003c 1 address ∨ Within 0x8006c 5 address
          | _ => true) = true := by decide +kernel
      have words : ∀ fuel, ∀ request ∈ typedImage.debugAsked (some "memory") none .always fuel,
          (match request with
            | .word address => decide (Within 0x8003c 1 address ∨ Within 0x8006c 5 address)
            | _ => true) = true := fun fuel request member =>
        List.all_eq_true.mp listed request (Image.mem_debugAsked (by decide +kernel) member)
      have fits := Image.asks_findNode_iff.mp words _ _ visited
      have cells (address : Nat) : Within 0x8003c 4 address → typedImage.Owned address :=
        @owned 0x80030 ⟨4, 0⟩ (@Image.place_of_mem_places typedImage 0x80030 _ 8 .start
          (by decide +kernel)) (by decide +kernel) (by decide +kernel) address
      have reg (address : Nat) : Within 0x8006c 8 address → typedImage.Owned address :=
        @owned 0x80060 ⟨8, 50⟩ (@Image.place_of_mem_places typedImage 0x80060 _ 8 .start
          (by decide +kernel)) (by decide +kernel) (by decide +kernel) address
      refine .inl <| Image.EntryFits.mono (fun address within place inside => ?_) fits
      unfold Within at inside
      rcases of_decide_eq_true within with ⟨above, below⟩ | ⟨above, below⟩
      · exact cells place ⟨by omega, by omega⟩
      · exact reg place ⟨by omega, by omega⟩
  | _ => trivial

end Memories
end Rpi5.DeviceTree
