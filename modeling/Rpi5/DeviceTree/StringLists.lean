import Rpi5.DeviceTree.Properties
import Rpi5.Logical.Utf8

/-!
# The strings of a value

`CharStringIter` over a value yields its complete strings. Behind them comes `None` if
they are the whole value, and an `Err` if the value goes on without a NUL
(`items_of_strings`, `items_of_value`). Only the `remain_size` is kept on that `Err`; the
pointer has moved behind the foreign string, so a further call may yield a string from
outside the value.
-/

namespace Rpi5.DeviceTree

open Rpi5.Logical Rpi5.Semantics

/-- What one call of `next` on a `CharStringIter` yields. -/
abbrev StringItem := Option (Except String String)

namespace CharStringIter

/-- `next`, with the iterator it leaves behind also where the item is an `Err`. The
pointer is moved before the remaining size is checked. -/
def nextItem (iter : CharStringIter) : Reading (StringItem × CharStringIter) := do
  if iter.remainSize = 0 then
    return (none, iter)
  else
    match decodeUtf8 (← ask (.text .struct iter.pointer)) with
    | none => return (some (.error "failed to convert &Cstr to &str"), iter)
    | some text =>
        let size := text.utf8ByteSize + 1
        let pointer ← checkedAdd 64 iter.pointer size
        if size ≥ 2 ^ 32 then
          return (some (.error "over flow"), ⟨pointer, iter.remainSize⟩)
        else if iter.remainSize < size then
          return (some (.error "too small"), ⟨pointer, iter.remainSize⟩)
        else
          return (some (.ok text), ⟨pointer, iter.remainSize - size⟩)

/-- What a number of calls of `next` yield, one after another. -/
def items (iter : CharStringIter) : Nat → Reading (List StringItem)
  | 0 => return []
  | calls + 1 => do
      let (item, later) ← iter.nextItem
      return item :: (← items later calls)

/-- The first calls of `next` on an iterator yield these items. -/
def Yields (iter : CharStringIter) (memory : Memory) (yielded : List StringItem) : Prop :=
  (iter.items yielded.length).eval memory.answer = .ok yielded

instance {memory : Memory} {iter : CharStringIter} {yielded : List StringItem} :
    Decidable (iter.Yields memory yielded) :=
  inferInstanceAs (Decidable (_ = _))

end CharStringIter

/-- Strings as items. -/
def stringItems (texts : List String) : List StringItem := texts.map fun text => some (.ok text)

/-- The encoding of a list of strings: each is followed by a NUL. -/
def encodeStrings (texts : List String) : Bytes := texts.flatMap fun text => utf8 text ++ [0]

section Items

variable {memory : Memory} {address : Nat} {iter : CharStringIter} {text : String}
  {texts : List String} {rest value : Bytes}

/-- No texts have no bytes. -/
@[simp] theorem encodeStrings_nil : encodeStrings [] = [] := rfl

/-- Each text ends with a NUL. -/
theorem encodeStrings_cons :
    encodeStrings (text :: texts) = utf8 text ++ 0 :: encodeStrings texts := by
  unfold encodeStrings
  rw [List.flatMap_cons, List.append_assoc]
  rfl

/-- `next` stops at an `Err` item and is otherwise the same. -/
theorem next_eq (iter : CharStringIter) : iter.next = (iter.nextItem >>= fun step =>
    match step with
    | (none, _) => return none
    | (some (.ok text), later) => return some (text, later)
    | (some (.error message), _) => err message) := by
  unfold CharStringIter.next CharStringIter.nextInternal CharStringIter.nextItem Dtb.readCharStr
  by_cases finished : iter.remainSize = 0
  · simp only [finished, ↓reduceIte, pure_bind]
  · simp only [finished, ↓reduceIte, bind_assoc]
    congr 1
    funext bytes
    cases decodeUtf8 bytes with
    | none => rfl
    | some text =>
        simp only [pure_bind, bind_assoc]
        congr 1
        funext pointer
        split
        · rfl
        · split <;> rfl

/-- Where `next` yields a string, so does the call of the iterator. -/
theorem eval_nextItem_of_next {answer : Request → Option Bytes} {later : CharStringIter}
    (done : iter.next.eval answer = .ok (some (text, later))) :
    iter.nextItem.eval answer = .ok (some (.ok text), later) := by
  rw [next_eq, Inquiry.eval_bind, bind_eq_ok] at done
  obtain ⟨⟨_ | _ | _, after⟩, item, done⟩ := done
  · cases done
  · cases done
  · cases done
    exact item

/-- A complete string in front of a value is taken off. -/
theorem eval_nextItem_of_string (free : 0 ∉ utf8 text)
    (holds : memory.Holds .struct address (utf8 text ++ 0 :: rest))
    (below : address + (utf8 text ++ 0 :: rest).length < 2 ^ 64)
    (short : (utf8 text ++ 0 :: rest).length < 2 ^ 32) :
    (CharStringIter.nextItem ⟨address, (utf8 text ++ 0 :: rest).length⟩).eval memory.answer =
      .ok (some (.ok text), ⟨address + ((utf8 text).length + 1), rest.length⟩) := by
  have taken := eval_nextInternal free holds below short
  rw [decodeUtf8_utf8] at taken
  apply eval_nextItem_of_next
  unfold CharStringIter.next
  rw [if_neg (by simp), Inquiry.eval_bind, taken]
  rfl

/-- Behind the last string of a value there is no item. -/
theorem eval_items_of_empty (calls : Nat) :
    (CharStringIter.items ⟨address, 0⟩ calls).eval memory.answer = .ok (List.replicate calls none) := by
  induction calls with
  | zero => rfl
  | succ calls ih =>
      unfold CharStringIter.items CharStringIter.nextItem
      simp only [↓reduceIte, pure_bind, Inquiry.eval_bind, ih, ok_bind, Inquiry.eval_pure,
        List.replicate_succ]

/-- The items of the strings in front of a value come first, one after another. -/
theorem eval_items_append (free : ∀ text ∈ texts, 0 ∉ utf8 text)
    (holds : memory.Holds .struct address (encodeStrings texts ++ rest))
    (below : address + (encodeStrings texts ++ rest).length < 2 ^ 64)
    (short : (encodeStrings texts ++ rest).length < 2 ^ 32) (more : Nat) :
    (CharStringIter.items ⟨address, (encodeStrings texts ++ rest).length⟩
        (texts.length + more)).eval memory.answer =
      ((CharStringIter.items ⟨address + (encodeStrings texts).length, rest.length⟩ more).eval
        memory.answer).map (stringItems texts ++ ·) := by
  induction texts generalizing address with
  | nil =>
      simp only [encodeStrings_nil, List.nil_append, List.length_nil, Nat.zero_add, Nat.add_zero]
      cases (CharStringIter.items ⟨address, rest.length⟩ more).eval memory.answer <;> rfl
  | cons text texts ih =>
      have whole : encodeStrings (text :: texts) ++ rest =
          utf8 text ++ 0 :: (encodeStrings texts ++ rest) := by
        rw [encodeStrings_cons, List.append_assoc, List.cons_append]
      rw [whole] at holds below short ⊢
      have parts : memory.Holds .struct address
          ((utf8 text ++ [0]) ++ (encodeStrings texts ++ rest)) := by
        rw [List.append_assoc]
        exact holds
      have later := (Memory.holds_append.mp parts).2
      have first := eval_nextItem_of_string (free text List.mem_cons_self) holds below short
      rw [List.length_append, List.length_singleton] at later
      rw [List.length_append, List.length_cons] at below short
      have next := ih (fun other member => free other (List.mem_cons_of_mem text member)) later
        (by omega) (by omega)
      have size : address + (encodeStrings (text :: texts)).length =
          address + ((utf8 text).length + 1) + (encodeStrings texts).length := by
        rw [encodeStrings_cons, List.length_append, List.length_cons]
        omega
      rw [List.length_cons, Nat.add_right_comm, CharStringIter.items, Inquiry.eval_bind, first,
        ok_bind]
      simp only [Inquiry.eval_bind, next, size]
      cases (CharStringIter.items _ more).eval memory.answer <;> rfl

/-- A value without a NUL yields nothing but an `Err`. -/
theorem error_of_unterminated {item : StringItem} {later : CharStringIter} (free : 0 ∉ value)
    (filled : value ≠ []) (holds : memory.Holds .struct address value)
    (step : (CharStringIter.nextItem ⟨address, value.length⟩).eval memory.answer = .ok (item, later)) :
    ∃ message, item = some (.error message) := by
  have unfinished : value.length ≠ 0 := by simpa using filled
  have taken := congrArg (Inquiry.eval memory.answer) (next_eq ⟨address, value.length⟩)
  unfold CharStringIter.next at taken
  rw [if_neg unfinished] at taken
  simp only [Inquiry.eval_bind, step, ok_bind] at taken
  rcases item with _ | message | text
  · obtain ⟨result, -, other⟩ := bind_eq_ok.mp taken
    cases other
  · exact ⟨message, rfl⟩
  · obtain ⟨result, done, -⟩ := bind_eq_ok.mp taken
    exact absurd done (eval_nextInternal_ne_ok free holds result)

/-- If the read finds a NUL somewhere behind such a value, there is an item. -/
theorem exists_item_of_answer {following : Bytes} (filled : value ≠ [])
    (room : memory.blob.limit < 2 ^ 64)
    (found : memory.answer (.text .struct address) = some following) :
    ∃ step, (CharStringIter.nextItem ⟨address, value.length⟩).eval memory.answer = .ok step := by
  have unfinished : value.length ≠ 0 := by simpa using filled
  have inside : address + (following.length + 1) ≤ memory.blob.limit := by
    have text := (Memory.readText_eq_some.mp found).2.2.1
    rw [List.length_append, List.length_singleton] at text
    exact text.trans (memory.le_limit .struct)
  unfold CharStringIter.nextItem
  simp only [unfinished, ↓reduceIte, Inquiry.eval_bind, eval_ask, found, ok_bind]
  cases decoded : decodeUtf8 following with
  | none => exact ⟨_, rfl⟩
  | some text =>
      have size : text.utf8ByteSize = following.length := by
        rw [← decodeUtf8_eq_some_iff.mp decoded]
        rfl
      simp only [Inquiry.eval_bind, size]
      rw [eval_checkedAdd (by omega), ok_bind]
      split
      · exact ⟨_, rfl⟩
      · split
        · exact ⟨_, rfl⟩
        · exact ⟨_, rfl⟩

/-- A list of one item is what the first step yields. -/
theorem yields_singleton_iff {item : StringItem} :
    CharStringIter.Yields iter memory [item] ↔
      ∃ later, iter.nextItem.eval memory.answer = .ok (item, later) := by
  unfold CharStringIter.Yields CharStringIter.items CharStringIter.items
  rw [List.length_singleton, Inquiry.eval_bind, bind_eq_ok]
  constructor
  · rintro ⟨⟨found, later⟩, step, done⟩
    cases done
    exact ⟨later, step⟩
  · rintro ⟨later, step⟩
    exact ⟨(item, later), step, rfl⟩

/-- Behind the strings in front of a value come the items of the rest. -/
theorem yields_append_iff (free : ∀ text ∈ texts, 0 ∉ utf8 text)
    (holds : memory.Holds .struct address (encodeStrings texts ++ rest))
    (below : address + (encodeStrings texts ++ rest).length < 2 ^ 64)
    (short : (encodeStrings texts ++ rest).length < 2 ^ 32) (yielded : List StringItem) :
    CharStringIter.Yields ⟨address, (encodeStrings texts ++ rest).length⟩ memory
        (stringItems texts ++ yielded) ↔
      CharStringIter.Yields ⟨address + (encodeStrings texts).length, rest.length⟩ memory yielded := by
  have count : (stringItems texts ++ yielded).length = texts.length + yielded.length := by
    simp [stringItems]
  unfold CharStringIter.Yields
  rw [count, eval_items_append free holds below short]
  cases (CharStringIter.items ⟨address + (encodeStrings texts).length, rest.length⟩
    yielded.length).eval memory.answer with
  | error reason => exact ⟨nofun, nofun⟩
  | ok found => simp [Except.map]

/-- A value of valid UTF-8 is its complete strings and a rest without a NUL. -/
theorem strings_of_valid {value : Bytes} (valid : (decodeUtf8 value).isSome) :
    ∃ texts : List String, texts.map utf8 = (cstrings value).1 ∧ (∀ text ∈ texts, 0 ∉ utf8 text) ∧
      value = encodeStrings texts ++ (cstrings value).2 ∧ 0 ∉ (cstrings value).2 := by
  obtain ⟨⟨texts, same⟩, -⟩ := decodeUtf8_cstrings valid
  obtain ⟨split, free, last⟩ := cstrings_split value
  have encoded : ((cstrings value).1.flatMap fun text => text ++ [0]) = encodeStrings texts := by
    rw [← same, List.flatMap_map]
    rfl
  rw [encoded] at split
  refine ⟨texts, same, fun text member => free _ ?_, split, last⟩
  rw [← same]
  exact List.mem_map_of_mem member

/-- The items of a value up to its first `Err`, whatever follows the value. A value of
complete strings yields them in order, and then nothing more. A value of valid UTF-8 whose
last string lacks its NUL yields the complete strings, and then nothing but an `Err`; it
yields the `Err` if the read finds a NUL behind the value. -/
theorem items_of_value (memory : Memory) (address : Nat) (value : Bytes)
    (holds : memory.Holds .struct address value) (short : value.length < 2 ^ 32)
    (room : memory.blob.limit < 2 ^ 64) :
    (∀ texts, (∀ text ∈ texts, 0 ∉ utf8 text) → value = encodeStrings texts → ∀ more,
      CharStringIter.Yields ⟨address, value.length⟩ memory
        (stringItems texts ++ List.replicate more none)) ∧
      ((decodeUtf8 value).isSome → (cstrings value).2 ≠ [] →
        ∃ texts : List String, texts.map utf8 = (cstrings value).1 ∧
          CharStringIter.Yields ⟨address, value.length⟩ memory (stringItems texts) ∧
          (∀ item, CharStringIter.Yields ⟨address, value.length⟩ memory (stringItems texts ++ [item]) →
            ∃ message, item = some (.error message)) ∧
          ((memory.answer (.text .struct (address + (encodeStrings texts).length))).isSome →
            ∃ message, CharStringIter.Yields ⟨address, value.length⟩ memory
              (stringItems texts ++ [some (.error message)]))) := by
  have below : address + value.length < 2 ^ 64 :=
    (holds.2.1.trans (memory.le_limit .struct)).trans_lt room
  constructor
  · rintro texts free rfl more
    have whole := @yields_append_iff memory address texts [] free
    rw [List.append_nil] at whole
    refine (whole holds below short _).mpr ?_
    have empty := @eval_items_of_empty memory (address + (encodeStrings texts).length) more
    rwa [CharStringIter.Yields, List.length_replicate, List.length_nil]
  · intro valid tail
    obtain ⟨texts, same, free', split, last⟩ := strings_of_valid valid
    rw [split] at holds
    rw [congrArg List.length split] at below short ⊢
    have rest : memory.Holds .struct (address + (encodeStrings texts).length) (cstrings value).2 :=
      (Memory.holds_append.mp holds).2
    have behind := @yields_append_iff memory address texts _ free' holds below short
    have none : CharStringIter.Yields
        ⟨address + (encodeStrings texts).length, (cstrings value).2.length⟩ memory [] := rfl
    refine ⟨texts, same, ?_, fun item yields => ?_, fun answered => ?_⟩
    · have front := (behind []).mpr none
      rwa [List.append_nil] at front
    · obtain ⟨later, step⟩ := yields_singleton_iff.mp ((behind [item]).mp yields)
      exact error_of_unterminated last tail rest step
    · obtain ⟨following, found⟩ := Option.isSome_iff_exists.mp answered
      obtain ⟨⟨item, later⟩, step⟩ := exists_item_of_answer tail room found
      obtain ⟨message, rfl⟩ := error_of_unterminated last tail rest step
      exact ⟨message, (behind _).mpr (yields_singleton_iff.mpr ⟨later, step⟩)⟩

end Items

section Unterminated

/-- A value of two bytes without a NUL, and two strings behind it. -/
def tailBlob : Blob where
  base := 0x1000
  bytes := utf8 "ab" ++ (utf8 "c" ++ [0] ++ utf8 "d" ++ [0])
  addressable := by decide

/-- The second call of `next` on the value yields a string from outside, behind an `Err`. -/
theorem tailBlob_yields :
    tailBlob.whole.Holds .struct 0x1000 (utf8 "ab") ∧ (decodeUtf8 (utf8 "ab")).isSome ∧
      cstrings (utf8 "ab") = ([], utf8 "ab") ∧
      CharStringIter.Yields ⟨0x1000, (utf8 "ab").length⟩ tailBlob.whole
        [some (.error "too small"), some (.ok "d")] ∧
      ¬ ∀ yielded, CharStringIter.Yields ⟨0x1000, (utf8 "ab").length⟩ tailBlob.whole yielded →
        ∀ text, some (.ok text) ∈ yielded → utf8 text ∈ (cstrings (utf8 "ab")).1 := by
  have yields : CharStringIter.Yields ⟨0x1000, (utf8 "ab").length⟩ tailBlob.whole
      [some (.error "too small"), some (.ok "d")] := by decide +kernel
  refine ⟨⟨by decide, by decide, _, rfl⟩, by decide, by decide, yields, fun inside => ?_⟩
  have member := inside _ yields "d" (by decide)
  exact absurd member (by decide)

/-- The strings behind it as a value, with the last NUL and without it. -/
theorem tailBlob_items :
    CharStringIter.Yields ⟨0x1002, (encodeStrings ["c", "d"]).length⟩ tailBlob.whole
        (stringItems ["c", "d"] ++ List.replicate 1 none) ∧
      ∃ texts message, CharStringIter.Yields ⟨0x1002, (utf8 "c" ++ [0] ++ utf8 "d").length⟩
        tailBlob.whole (stringItems texts ++ [some (.error message)]) := by
  constructor
  · exact (items_of_value tailBlob.whole 0x1002 (encodeStrings ["c", "d"])
      ⟨by decide, by decide, _, rfl⟩ (by decide) (by decide)).1 ["c", "d"] (by decide) rfl 1
  · obtain ⟨texts, same, -, -, error⟩ :=
      (items_of_value tailBlob.whole 0x1002 (utf8 "c" ++ [0] ++ utf8 "d")
        ⟨by decide, by decide, _, rfl⟩ (by decide) (by decide)).2 (by decide) (by decide)
    have only : texts = ["c"] := by
      apply (List.map_inj_right fun _ _ equal => utf8_injective equal).mp
      rw [same]
      decide
    subst only
    obtain ⟨message, yields⟩ := error (by decide)
    exact ⟨_, message, yields⟩

end Unterminated
end Rpi5.DeviceTree
