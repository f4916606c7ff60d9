import Rpi5.DeviceTree.Demands
import Rpi5.DeviceTree.Places

/-!
# Reading alike images

Reading code has twin runs on alike images (`Twinned`) as long as it reads bytes which
belong to something; if it puts no other request, its runs are the same
(`finds_eq_of_asks`). The strings of a value are read to their NULs, wherever these are. A
string which does not end inside the value is refused, so that the loop over them has twin
runs too if one always is (`twinned_compatibleLoop`).
-/

namespace Rpi5.DeviceTree

open Rpi5.Logical Rpi5.Semantics

/-- The code returned `Err`. -/
def IsErr (failure : Failure) : Prop := ∃ message, failure = .stopped (.err message)

/-- Whatever the bytes are which belong to nothing, a string of a certain kind is read. -/
def Image.AlwaysReads (image : Image) (address : Nat) (kind : Bytes → Prop) : Prop :=
  ∀ other, image.Alike other →
    ∃ text, other.blob.whole.readText .struct address = some text ∧ kind text

/-- A string is refused if it is not UTF-8, or goes on behind what is left of the value. -/
def CharStringIter.Refuses (iter : CharStringIter) (text : Bytes) : Prop :=
  decodeUtf8 text = none ∨
    iter.remainSize ≤ text.length ∧ iter.pointer + (text.length + 1) < 2 ^ 64

/-- What is taken off a value next is decided by bytes which belong to something: they are the
string, or it is refused whatever the other bytes are. -/
def Image.Decides (image : Image) (iter : CharStringIter) : Prop :=
  image.Keeps (.text .struct iter.pointer) ∨ image.AlwaysReads iter.pointer iter.Refuses

section Reading

variable {image other : Image} {α β : Type} {post : α → Prop} {last : β → Prop}

/-- Reading code with twin runs on two images. -/
abbrev Twinned (image other : Image) {α : Type} (post : α → Prop) (reading : Reading α) : Prop :=
  Twin IsErr post (image.finds reading) (other.finds reading)

/-- The second part may use what the first one has found. -/
theorem twinned_bind {first : Reading α} {next : α → Reading β}
    (one : Twinned image other post first)
    (rest : ∀ value, image.finds first = .ok value → post value →
      Twinned image other last (next value)) : Twinned image other last (first >>= next) := by
  unfold Twinned Image.finds debug
  rw [Dialogue.checked_bind]
  exact Inquiry.twin_bind one rest

/-- An `Err` is returned on both images. -/
theorem twinned_err (message : String) : Twinned image other post (err message) := .error _

/-- So does a program which stops. -/
theorem twinned_stop (reason : Stop) : Twinned image other post (.stop reason) := .error _

/-- A value is the same. -/
theorem twinned_pure {value : α} (holds : post value) : Twinned image other post (pure value) :=
  .value holds

/-- So is a sum. -/
theorem twinned_checkedAdd {width first second : Nat} :
    Twinned image other (· = first + second) (checkedAdd width first second) := by
  unfold checkedAdd
  split
  · exact .value rfl
  · exact .error _

/-- And rounding up. -/
theorem twinned_nextMultipleOf {width length : Nat} :
    Twinned image other (fun _ => True) (nextMultipleOf width length 4) := by
  unfold nextMultipleOf
  split
  · exact .value trivial
  · exact twinned_checkedAdd.mono fun _ _ _ => trivial

variable (alike : image.Alike other)

include alike

/-- Code which reads only bytes that belong to something finds the same. -/
theorem finds_eq_of_asks {reading : Reading α} (kept : image.Asks image.Keeps reading) :
    other.finds reading = image.finds reading := by
  have runs := Dialogue.exec_eq_of_answers (debug reading) []
    fun request member => alike.answer_eq (kept request member)
  rw [Inquiry.exec_nobody, Inquiry.exec_nobody] at runs
  exact (Prod.mk.inj runs).1

/-- So it is twinned. -/
theorem twinned_of_asks {reading : Reading α} (kept : image.Asks image.Keeps reading) :
    Twinned image other (fun _ => True) reading :=
  .of_eq (finds_eq_of_asks alike kept) fun _ _ => trivial

/-- A token is the same. -/
theorem twinned_getTypes {place : Nat} (here : image.Place place) :
    Twinned image other (fun _ => True) (DtbParser.getTypes place) :=
  twinned_of_asks alike (asks_getTypes.mpr (Image.keeps_token here))

/-- A string which belongs to something is taken off the value in the same way. -/
theorem twinned_next_of_keeps {iter : CharStringIter}
    (kept : image.Keeps (.text .struct iter.pointer)) :
    Twinned image other (fun _ => True) iter.next :=
  twinned_of_asks alike (asks_next.mpr fun _ => kept)

end Reading

section Strings

variable {image other : Image}

/-- A string is read if a NUL follows. -/
theorem exists_text {pointer nul : Nat} (inside : image.blob.base ≤ pointer)
    (behind : pointer ≤ nul) (ends : image.blob.byteAt nul = some 0) :
    ∃ text, image.blob.whole.readText .struct pointer = some text := by
  have located : (image.blob.tail pointer)[nul - pointer]? = some 0 := by
    rw [Blob.getElem?_tail inside, ← ends]
    congr 1
    omega
  obtain ⟨text, terminated, -, stops⟩ := exists_cstring located
  rw [Blob.getElem?_tail inside] at stops
  have below : pointer + text.length < image.blob.limit := by
    by_contra above
    rw [Blob.byteAt_eq_none (by omega)] at stops
    cases stops
  refine ⟨text, ?_⟩
  unfold Memory.readText
  rw [show cstring (image.blob.whole.blob.tail pointer) = some text from terminated]
  exact if_pos ⟨inside, below⟩

/-- A string is not read if no NUL follows. -/
theorem finds_readCharStr_of_none {block : Block} {address : Nat}
    (lost : image.blob.whole.readText block address = none) :
    image.finds (Dtb.readCharStr block address) = .error (.unanswered (.text block address)) := by
  have valid : (Request.text block address).isValid = true := rfl
  have answered : image.blob.whole.answer (.text block address) = none := lost
  unfold Dtb.readCharStr
  rw [finds_seq, finds_ask_eq, if_pos valid, eval_ask, answered]
  rfl

/-- Otherwise it has to be UTF-8. -/
theorem finds_readCharStr_of_some {block : Block} {address : Nat} {text : Bytes}
    (read : image.blob.whole.readText block address = some text) :
    image.finds (Dtb.readCharStr block address) = (decodeUtf8 text).elim
      (.error (.stopped (.err "failed to convert &Cstr to &str"))) .ok := by
  have valid : (Request.text block address).isValid = true := rfl
  have answered : image.blob.whole.answer (.text block address) = some text := read
  unfold Dtb.readCharStr
  rw [finds_seq, finds_ask_eq, if_pos valid, eval_ask, answered]
  dsimp only [ok_bind]
  cases decodeUtf8 text <;> rfl

variable {iter : CharStringIter}

/-- No string is taken off a value if no NUL follows. -/
theorem finds_next_of_none (more : iter.remainSize ≠ 0)
    (lost : image.blob.whole.readText .struct iter.pointer = none) :
    image.finds iter.next = .error (.unanswered (.text .struct iter.pointer)) := by
  unfold CharStringIter.next CharStringIter.nextInternal
  rw [if_neg more, finds_seq, finds_seq, finds_readCharStr_of_none lost]
  rfl

/-- A string which goes on behind what is left of the value is not taken off it, and all that
makes this no `Err` is an overflow. -/
theorem finds_next_of_some {text : Bytes} (more : iter.remainSize ≠ 0)
    (read : image.blob.whole.readText .struct iter.pointer = some text)
    (long : decodeUtf8 text = none ∨ iter.remainSize ≤ text.length) :
    ∃ failure, image.finds iter.next = .error failure ∧
      (IsErr failure ∧ iter.Refuses text ∨ failure = .stopped .overflow ∧ ¬ iter.Refuses text) := by
  unfold CharStringIter.next CharStringIter.nextInternal CharStringIter.Refuses
  rw [if_neg more, finds_seq, finds_seq, finds_readCharStr_of_some read]
  cases decoded : decodeUtf8 text with
  | none => exact ⟨_, rfl, .inl ⟨⟨_, rfl⟩, .inl rfl⟩⟩
  | some name =>
      have behind : iter.remainSize ≤ text.length := long.resolve_left (by simp [decoded])
      have length : name.utf8ByteSize = text.length := by
        rw [← decodeUtf8_eq_some_iff.mp decoded]
        rfl
      rw [Option.elim_some, ok_bind, finds_seq, finds_checkedAdd, length]
      by_cases fits : iter.pointer + (text.length + 1) < 2 ^ 64
      · rw [eval_checkedAdd fits, ok_bind]
        split
        · exact ⟨_, rfl, .inl ⟨⟨_, rfl⟩, .inr ⟨behind, fits⟩⟩⟩
        · rw [if_pos (by omega)]
          exact ⟨_, rfl, .inl ⟨⟨_, rfl⟩, .inr ⟨behind, fits⟩⟩⟩
      · refine ⟨.stopped .overflow, ?_, .inr ⟨rfl, ?_⟩⟩
        · unfold checkedAdd
          rw [if_neg fits]
          rfl
        · exact not_or.mpr ⟨by simp, fun both => fits both.2⟩

/-- A string which is taken off a value ends inside it. -/
theorem ends_of_next {later : CharStringIter} {text : String}
    (taken : image.finds iter.next = .ok (some (text, later))) :
    image.blob.whole.Holds .struct iter.pointer (utf8 text ++ [0]) ∧
      (utf8 text).length + 1 ≤ iter.remainSize ∧
      later.pointer = iter.pointer + ((utf8 text).length + 1) ∧
      later.remainSize = iter.remainSize - ((utf8 text).length + 1) := by
  have read := reads_of_finds taken
  unfold CharStringIter.next CharStringIter.nextInternal at read
  by_cases empty : iter.remainSize = 0
  · simp [empty] at read
  · simp only [empty, ↓reduceIte, Inquiry.eval_bind, bind_eq_ok, eval_checkedAdd_eq_ok,
      Inquiry.eval_pure, Except.ok.injEq, Option.some.injEq] at read
    obtain ⟨_, ⟨name, named, _, ⟨-, rfl⟩, checked⟩, rfl⟩ := read
    split at checked
    · simp at checked
    · split at checked
      · simp at checked
      · simp only [Inquiry.eval_pure, Except.ok.injEq, Prod.mk.injEq] at checked
        obtain ⟨rfl, rfl⟩ := checked
        have length : name.utf8ByteSize = (utf8 name).length := rfl
        exact ⟨(eval_readCharStr_eq_ok.mp named).2, by omega, rfl, rfl⟩

/-- The strings taken off a value are inside it. -/
theorem within_of_takesTo {start length : Nat} (reached : image.TakesTo ⟨start, length⟩ iter) :
    start ≤ iter.pointer ∧ iter.pointer + iter.remainSize = start + length := by
  induction reached with
  | first => exact ⟨Nat.le_refl _, rfl⟩
  | next _ taken ih =>
      obtain ⟨-, inside, moved, left⟩ := ends_of_next taken
      omega

variable {start length : Nat} (alike : image.Alike other)

include alike

/-- Taking a string off a value looks at bytes which belong to nothing only to fail. -/
theorem twinned_next (decides : iter.remainSize ≠ 0 → image.Decides iter) :
    Twinned image other (fun _ => True) iter.next := by
  by_cases empty : iter.remainSize = 0
  case pos =>
    unfold CharStringIter.next
    rw [if_pos empty]
    exact twinned_pure trivial
  case neg =>
    have fails (one : Image) (same : image.Alike one)
        (refused : image.AlwaysReads iter.pointer iter.Refuses) :
        ∃ failure, IsErr failure ∧ one.finds iter.next = .error failure := by
      obtain ⟨text, read, refuses⟩ := refused one same
      obtain ⟨failure, failed, ⟨why, -⟩ | ⟨-, taken⟩⟩ :=
        finds_next_of_some empty read (refuses.imp_right And.left)
      · exact ⟨failure, why, failed⟩
      · exact absurd refuses taken
    rcases decides empty with kept | refused
    · exact twinned_next_of_keeps alike kept
    · obtain ⟨one, why, first⟩ := fails image (.refl image) refused
      obtain ⟨two, why', second⟩ := fails other alike refused
      unfold Twinned
      rw [first, second]
      exact .excused why why'

/-- So does the loop over a value. -/
theorem twinned_compatibleLoop {name : String} {steps : Nat} {result : Bool}
    (decides : ∀ iter, image.TakesTo ⟨start, length⟩ iter → iter.remainSize ≠ 0 →
      image.Decides iter)
    (reached : image.TakesTo ⟨start, length⟩ iter) :
    Twinned image other (fun _ => True)
      (SimpleDeviceNode.compatibleLoop name steps iter result) := by
  induction steps generalizing iter result with
  | zero => exact twinned_stop _
  | succ steps ih =>
      refine twinned_bind (twinned_next alike (decides iter reached)) fun step found _ => ?_
      rcases step with _ | ⟨text, later⟩
      · exact twinned_pure trivial
      · exact ih (reached.next found)

/-- The string of a `device_type` is the same on both images, or refused on both. -/
theorem twinned_deviceType {address : Nat}
    (settled : image.Keeps (.text .struct address) ∨
      image.AlwaysReads address (decodeUtf8 · = none)) :
    Twinned image other (fun _ => True) (Dtb.readCharStr .struct address) := by
  rcases settled with kept | refused
  · exact twinned_of_asks alike (asks_readCharStr.mpr kept)
  · obtain ⟨text, read, broken⟩ := refused image (.refl image)
    obtain ⟨text', read', broken'⟩ := refused other alike
    unfold Twinned
    rw [finds_readCharStr_of_some read, finds_readCharStr_of_some read', broken, broken']
    exact .error _

end Strings

end Rpi5.DeviceTree
