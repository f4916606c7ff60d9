import Mathlib.Data.List.Pairwise
import Mathlib.Data.Nat.Bitwise
import Mathlib.Tactic.Tauto
import Rpi5.Semantics.Polling

/-!
# Registers

The drivers read and write registers of 32 bits, which stand in memory one word apart,
through the crate `tock_registers`. `TockRegisters` is what they rely on of it: which
bits of a word its operations look at and which they change. `tockRegisters` computes
with masks, as the crate does.

A driver is a program whose calls are its accesses. What a device answers may depend on
all accesses before; `Stored` is the device which only stores words.
-/

namespace Rpi5.Bootloader

open Rpi5.Semantics

abbrev Word := BitVec 32

/-- `OFFSET(offset) NUMBITS(numbits)` of `register_bitfields!`. -/
structure Field where
  offset : Nat
  numbits : Nat
deriving DecidableEq, Repr

/-- A field with a value for it. The high bits of the value may be too many. -/
structure FieldValue where
  field : Field
  value : Nat
deriving DecidableEq, Repr

namespace Field

/-- The bits of a field. -/
def Has (field : Field) (bit : Nat) : Prop :=
  field.offset ≤ bit ∧ bit < field.offset + field.numbits

instance (field : Field) (bit : Nat) : Decidable (field.Has bit) := inferInstanceAs (Decidable (_ ∧ _))

/-- No bit belongs to both fields. -/
def Apart (field other : Field) : Prop :=
  field.offset + field.numbits ≤ other.offset ∨ other.offset + other.numbits ≤ field.offset

instance : DecidableRel Apart := fun _ _ => inferInstanceAs (Decidable (_ ∨ _))

/-- Fields are apart from each other. -/
theorem Apart.symm {field other : Field} (apart : field.Apart other) : other.Apart field :=
  Or.symm apart

/-- No bit belongs to both. -/
theorem Apart.not_has {field other : Field} (apart : field.Apart other) {bit : Nat}
    (has : field.Has bit) : ¬ other.Has bit := by
  rintro ⟨low, high⟩
  rcases apart with before | after
  · have stop := has.2
    omega
  · have start := has.1
    omega

/-- The value of a field in a word. -/
def read (field : Field) (word : Word) : Nat := word.toNat >>> field.offset % 2 ^ field.numbits

def val (field : Field) (value : Nat) : FieldValue := ⟨field, value⟩

/-- `SET`: all bits of the field. -/
def set (field : Field) : FieldValue := ⟨field, 2 ^ field.numbits - 1⟩

/-- `CLEAR`. -/
def clear (field : Field) : FieldValue := ⟨field, 0⟩

/-- The bits of a field are those of the word at its offset. -/
theorem testBit_read (field : Field) (word : Word) (bit : Nat) :
    (field.read word).testBit bit =
      (decide (bit < field.numbits) && word.getLsbD (field.offset + bit)) := by
  unfold read
  rw [Nat.testBit_mod_two_pow, Nat.testBit_shiftRight, BitVec.testBit_toNat]

/-- The value of a field is given by the bits of the field. -/
theorem read_eq_iff {field : Field} {word : Word} {value : Nat} :
    field.read word = value % 2 ^ field.numbits ↔
      ∀ bit, field.Has bit → word.getLsbD bit = value.testBit (bit - field.offset) := by
  constructor
  · intro same bit has
    obtain ⟨low, high⟩ := has
    have here := congrArg (Nat.testBit · (bit - field.offset)) same
    simp only [testBit_read, Nat.testBit_mod_two_pow] at here
    rwa [decide_eq_true (by omega), Bool.true_and, Bool.true_and, Nat.add_sub_cancel' low] at here
  · intro bits
    apply Nat.eq_of_testBit_eq
    intro bit
    rw [testBit_read, Nat.testBit_mod_two_pow]
    by_cases within : bit < field.numbits
    · have here := bits (field.offset + bit) ⟨by omega, by omega⟩
      rw [here, Nat.add_sub_cancel_left]
    · rw [decide_eq_false within, Bool.false_and, Bool.false_and]

end Field

/-- Fields which can be written at once: apart from each other and inside the word. -/
structure WellPlaced (values : List FieldValue) : Prop where
  apart : values.Pairwise fun one other => one.field.Apart other.field
  inside : ∀ one ∈ values, one.field.offset + one.field.numbits ≤ 32

instance (values : List FieldValue) : Decidable (WellPlaced values) :=
  decidable_of_iff (values.Pairwise (fun one other => one.field.Apart other.field) ∧
      ∀ one ∈ values, one.field.offset + one.field.numbits ≤ 32)
    ⟨fun ⟨apart, inside⟩ => ⟨apart, inside⟩, fun placed => ⟨placed.apart, placed.inside⟩⟩

instance : Std.Symm fun one other : FieldValue => one.field.Apart other.field :=
  ⟨fun _ _ => Field.Apart.symm⟩

/-- `tock_registers`, as the drivers rely on it. A list of field values stands for their
sum. -/
structure TockRegisters where
  isSet : Field → Word → Bool
  matchesAll : List FieldValue → Word → Bool
  modify : List FieldValue → Word → Word
  isSet_iff : ∀ field word, isSet field word ↔ field.read word ≠ 0
  matchesAll_iff : ∀ values word, WellPlaced values → (matchesAll values word ↔
    ∀ one ∈ values, one.field.read word = one.value % 2 ^ one.field.numbits)
  read_modify : ∀ values word, WellPlaced values → ∀ one ∈ values,
    one.field.read (modify values word) = one.value % 2 ^ one.field.numbits
  modify_other : ∀ values word bit, (∀ one ∈ values, ¬ one.field.Has bit) →
    (modify values word).getLsbD bit = word.getLsbD bit

namespace TockRegisters

variable {tock : TockRegisters} {values : List FieldValue} {word : Word} {field : Field}

/-- Other fields keep their values. -/
theorem read_modify_other (apart : ∀ one ∈ values, one.field.Apart field) :
    field.read (tock.modify values word) = field.read word := by
  apply Nat.eq_of_testBit_eq
  intro bit
  rw [Field.testBit_read, Field.testBit_read]
  by_cases within : bit < field.numbits
  · have same := tock.modify_other values word (field.offset + bit)
      fun one member has => (apart one member).not_has has ⟨by omega, by omega⟩
    rw [same]
  · rw [decide_eq_false within, Bool.false_and, Bool.false_and]

/-- A part of a field gets its part of the value. -/
theorem read_modify_part (placed : WellPlaced values) {one : FieldValue} (member : one ∈ values)
    (low : one.field.offset ≤ field.offset)
    (high : field.offset + field.numbits ≤ one.field.offset + one.field.numbits) :
    field.read (tock.modify values word) =
      one.value >>> (field.offset - one.field.offset) % 2 ^ field.numbits := by
  have bits := Field.read_eq_iff.mp (tock.read_modify values word placed one member)
  apply Nat.eq_of_testBit_eq
  intro bit
  rw [Field.testBit_read, Nat.testBit_mod_two_pow, Nat.testBit_shiftRight]
  by_cases within : bit < field.numbits
  · have place : field.offset + bit - one.field.offset = field.offset - one.field.offset + bit := by omega
    rw [bits (field.offset + bit) ⟨by omega, by omega⟩, place]
  · rw [decide_eq_false within, Bool.false_and, Bool.false_and]

/-- Nothing changes exactly if the fields have their values already. -/
theorem modify_eq_iff (placed : WellPlaced values) : tock.modify values word = word ↔
    ∀ one ∈ values, one.field.read word = one.value % 2 ^ one.field.numbits := by
  constructor
  · intro same one member
    have written := tock.read_modify values word placed one member
    rwa [same] at written
  · intro already
    apply BitVec.eq_of_getLsbD_eq
    intro bit _
    by_cases named : ∃ one ∈ values, one.field.Has bit
    · obtain ⟨one, member, has⟩ := named
      have written := Field.read_eq_iff.mp (tock.read_modify values word placed one member) bit has
      have before := Field.read_eq_iff.mp (already one member) bit has
      rw [written, before]
    · exact tock.modify_other values word bit fun one member has => named ⟨one, member, has⟩

end TockRegisters

/-- Why a driver stops without returning. -/
inductive Fault where
  | overflow
  | divideByZero
  | assertion
  /-- Panic of `Option::unwrap` or `Option::expect` on `None`. -/
  | unwrapNone
  /-- The bound on the number of steps was too small. -/
  | outOfFuel
deriving DecidableEq, Repr

/-- Code which accesses the hardware, and panics. -/
abbrev Accessing (W B α : Type) := Dialogue Empty Empty W B Fault α

/-- How a run of such code ends. -/
abbrev Outcome (α : Type) := Except (Halt Empty Fault) α

namespace Accessing

variable {W B α β : Type}

/-- No questions are put. -/
def unasked : Empty → Option Empty := fun question => question.elim

/-- Run code from a history of accesses. -/
def run (device : List W → W → B) (program : Accessing W B α) (history : List W) :
    Outcome α × List W :=
  program.exec unasked device history

/-- The result of an operation which panics unless it fits so many bits. -/
def checked (bits value : Nat) : Accessing W B Nat :=
  if value < 2 ^ bits then .done value else .stop .overflow

/-- Division, which panics on zero. -/
def div (dividend divisor : Nat) : Accessing W B Nat :=
  if divisor = 0 then .stop .divideByZero else .done (dividend / divisor)

/-- `assert!`. -/
def assert (condition : Prop) [Decidable condition] : Accessing W B Unit :=
  if condition then .done () else .stop .assertion

section Runs

variable {device : List W → W → B} {history later : List W}

/-- What is done has made its accesses. -/
@[simp] theorem run_done (value : α) : run device (.done value) history = (.ok value, history) := rfl

/-- A fault is the end. -/
@[simp] theorem run_stop (reason : Fault) :
    run device (.stop reason : Accessing W B α) history = (.error (.stopped reason), history) := rfl

/-- The second part runs from where the first returned. -/
theorem run_bind_of_ok {program : Accessing W B α} {next : α → Accessing W B β} {value : α}
    (first : run device program history = (.ok value, later)) :
    run device (program >>= next) history = run device (next value) later := by
  unfold run at first ⊢
  rw [Dialogue.exec_bind, first]

/-- Nothing follows a fault. -/
theorem run_bind_of_error {program : Accessing W B α} {next : α → Accessing W B β}
    {halt : Halt Empty Fault} (first : run device program history = (.error halt, later)) :
    run device (program >>= next) history = (.error halt, later) := by
  unfold run at first ⊢
  rw [Dialogue.exec_bind, first]

/-- A value which fits passes. -/
theorem run_checked {bits value : Nat} (fits : value < 2 ^ bits) :
    run device (checked bits value) history = (.ok value, history) := by
  rw [checked, if_pos fits, run_done]

/-- A division by a positive number is one. -/
theorem run_div {dividend divisor : Nat} (positive : 0 < divisor) :
    run device (div dividend divisor) history = (.ok (dividend / divisor), history) := by
  rw [div, if_neg (Nat.ne_of_gt positive), run_done]

/-- An assertion which holds passes. -/
theorem run_assert {condition : Prop} [Decidable condition] (holds : condition) :
    run device (assert condition) history = (.ok (), history) := by
  rw [assert, if_pos holds, run_done]

end Runs
end Accessing

/-- An access to the register at an address. -/
inductive Access where
  | read (address : Nat)
  | write (address : Nat) (word : Word)
deriving DecidableEq, Repr

/-- Code which accesses registers. The reply to a write is not looked at. -/
abbrev Driver (α : Type) := Accessing Access Word α

/-- A device answers from the accesses before and the present one. -/
abbrev Device := List Access → Access → Word

namespace Driver

open Accessing

def get (address : Nat) : Driver Word := .call (.read address) .done

def set (address : Nat) (word : Word) : Driver Unit := .call (.write address word) fun _ => .done ()

/-- Wait as long as the word read is so. -/
def spinWhile (address : Nat) (busy : Word → Bool) (fuel : Nat) : Driver Unit :=
  Dialogue.poll (.read address) (fun word => .ok (busy word)) .outOfFuel fuel

section Operations

variable (tock : TockRegisters) (address : Nat) (values : List FieldValue)

/-- Rewrite the named fields and leave the others. -/
def modify : Driver Unit := do
  let word ← get address
  set address (tock.modify values word)

/-- Write the named fields and zeros elsewhere. -/
def write : Driver Unit := set address (tock.modify values 0)

end Operations

section Runs

variable {device : Device} {history : List Access}

/-- A busy wait runs out of fuel, or returns after a poll which finds the word otherwise. -/
theorem run_spinWhile_cases (device : Device) (address : Nat) (busy : Word → Bool) (fuel : Nat)
    (history : List Access) :
    (run device (spinWhile address busy fuel) history = (.error (.stopped .outOfFuel),
        history ++ List.replicate fuel (.read address))) ∨
      ∃ polls, busy (device (history ++ List.replicate polls (.read address)) (.read address)) = false ∧
        run device (spinWhile address busy fuel) history =
          (.ok (), history ++ List.replicate (polls + 1) (.read address)) := by
  rcases Dialogue.waits_or (.read address) (fun word => .ok (ε := Fault) (busy word)) device history
    fuel with waits | ⟨polls, within, waits, last⟩
  · exact .inl (Dialogue.exec_poll_of_waits waits)
  · have ready : busy (device (history ++ List.replicate polls (.read address)) (.read address)) =
        false := by
      simpa using last
    exact .inr ⟨polls, ready, waits.exec_done within (congrArg Except.ok ready)⟩

/-- A busy wait with enough fuel returns if a poll ever finds the word otherwise. -/
theorem run_spinWhile_of_free {address : Nat} {busy : Word → Bool} (free : ∃ polls,
      busy (device (history ++ List.replicate polls (.read address)) (.read address)) = false) :
    ∃ polls, ∀ fuel > polls, run device (spinWhile address busy fuel) history =
      (.ok (), history ++ List.replicate (polls + 1) (.read address)) := by
  obtain ⟨polls, ready⟩ := free
  exact Dialogue.exec_poll_of_free ⟨polls, congrArg Except.ok ready⟩ nofun

/-- A read is answered by the device. -/
@[simp] theorem run_get (address : Nat) :
    run device (get address) history = (.ok (device history (.read address)), history ++ [.read address]) :=
  rfl

/-- A store is recorded. -/
@[simp] theorem run_set (address : Nat) (word : Word) :
    run device (set address word) history = (.ok (), history ++ [.write address word]) := rfl

/-- Writing fields stores them beside zeros. -/
@[simp] theorem run_write (tock : TockRegisters) (address : Nat) (values : List FieldValue) :
    run device (write tock address values) history =
      (.ok (), history ++ [.write address (tock.modify values 0)]) := rfl

/-- Modifying fields stores them beside what was read. -/
@[simp] theorem run_modify (tock : TockRegisters) (address : Nat) (values : List FieldValue) :
    run device (modify tock address values) history =
      (.ok (), history ++ [.read address,
        .write address (tock.modify values (device history (.read address)))]) := by
  unfold modify
  rw [run_bind_of_ok (run_get address), run_set, List.append_assoc]
  rfl

end Runs
end Driver

/-- The words which have been written to an address. -/
def writes (address : Nat) (history : List Access) : List Word :=
  history.filterMap fun
    | .read _ => none
    | .write place word => if place = address then some word else none

/-- The words written in two histories stand one behind the other. -/
@[simp] theorem writes_append (address : Nat) (first second : List Access) :
    writes address (first ++ second) = writes address first ++ writes address second :=
  List.filterMap_append

/-- Reads write nothing. -/
@[simp] theorem writes_replicate_read (address place count : Nat) :
    writes address (List.replicate count (.read place)) = [] := by
  induction count with
  | zero => rfl
  | succ count ih => exact ih

/-- The words in memory after some accesses. -/
def contents (initial : Nat → Word) (history : List Access) : Nat → Word :=
  history.foldl (fun memory access => match access with
    | .read _ => memory
    | .write address word => Function.update memory address word) initial

/-- Memory as a device. -/
def stored (initial : Nat → Word) : Device := fun history access => match access with
  | .read address => contents initial history address
  | .write _ word => word

/-- In memory a program returns, and changes the words in this way. -/
def Changes (program : Driver Unit) (change : (Nat → Word) → Nat → Word) : Prop :=
  ∀ initial history, ∃ later, program.run (stored initial) history = (.ok (), later) ∧
    contents initial later = change (contents initial history)

/-- Changes are made one after the other. -/
theorem Changes.bind {first second : Driver Unit} {change more : (Nat → Word) → Nat → Word}
    (one : Changes first change) (two : Changes second more) :
    Changes (first >>= fun _ => second) (more ∘ change) := by
  intro initial history
  obtain ⟨middle, run, changed⟩ := one initial history
  obtain ⟨later, last, also⟩ := two initial middle
  exact ⟨later, (Accessing.run_bind_of_ok run).trans last, by rw [also, changed]; rfl⟩

/-- What is done changes nothing. -/
theorem Changes.done : Changes (.done ()) id := fun _ history => ⟨history, rfl, rfl⟩

/-- Rewriting fields of a register changes this word only. -/
theorem Changes.modify (tock : TockRegisters) (address : Nat) (values : List FieldValue) :
    Changes (Driver.modify tock address values) fun memory =>
      Function.update memory address (tock.modify values (memory address)) := by
  intro initial history
  refine ⟨_, Driver.run_modify _ _ _, ?_⟩
  unfold contents
  rw [List.foldl_append]
  rfl

section Masks

/-- The bits of a field. -/
def Field.mask (field : Field) : Word := .ofNat 32 ((2 ^ field.numbits - 1) <<< field.offset)

/-- The value in the place of the field. -/
def FieldValue.word (one : FieldValue) : Word :=
  .ofNat 32 ((one.value % 2 ^ one.field.numbits) <<< one.field.offset)

def sumMask (values : List FieldValue) : Word := values.foldr (fun one mask => one.field.mask ||| mask) 0

def sumWord (values : List FieldValue) : Word := values.foldr (fun one word => one.word ||| word) 0

/-- The bits of a mask are those of its field. -/
theorem Field.getLsbD_mask (field : Field) (bit : Nat) :
    field.mask.getLsbD bit = (decide (bit < 32) && decide (field.Has bit)) := by
  unfold mask
  rw [BitVec.getLsbD_ofNat, Nat.testBit_shiftLeft, Nat.testBit_two_pow_sub_one]
  congr 1
  rw [← Bool.decide_and, decide_eq_decide]
  unfold Has
  omega

/-- The bits of a placed value are those of the value, in its field. -/
theorem FieldValue.getLsbD_word (one : FieldValue) (bit : Nat) :
    one.word.getLsbD bit = (decide (bit < 32) && (decide (one.field.Has bit) &&
      one.value.testBit (bit - one.field.offset))) := by
  unfold word
  rw [BitVec.getLsbD_ofNat, Nat.testBit_shiftLeft, Nat.testBit_mod_two_pow,
    ← Bool.and_assoc (decide (bit ≥ one.field.offset)), ← Bool.decide_and]
  congr 3
  unfold Field.Has
  rw [eq_iff_iff]
  omega

variable {values : List FieldValue}

/-- A bit of the summed masks is one of some field. -/
theorem getLsbD_sumMask (values : List FieldValue) (bit : Nat) :
    (sumMask values).getLsbD bit = true ↔ bit < 32 ∧ ∃ one ∈ values, one.field.Has bit := by
  induction values with
  | nil => simp [sumMask]
  | cons one rest ih =>
      have step : sumMask (one :: rest) = one.field.mask ||| sumMask rest := rfl
      rw [step, BitVec.getLsbD_or, Bool.or_eq_true, ih, Field.getLsbD_mask]
      simp only [Bool.and_eq_true, decide_eq_true_eq, List.mem_cons, exists_eq_or_imp]
      tauto

/-- A bit of the summed values is one of some value. -/
theorem getLsbD_sumWord_iff (values : List FieldValue) (bit : Nat) :
    (sumWord values).getLsbD bit = true ↔ bit < 32 ∧
      ∃ one ∈ values, one.field.Has bit ∧ one.value.testBit (bit - one.field.offset) := by
  induction values with
  | nil => simp [sumWord]
  | cons one rest ih =>
      have step : sumWord (one :: rest) = one.word ||| sumWord rest := rfl
      rw [step, BitVec.getLsbD_or, Bool.or_eq_true, ih, FieldValue.getLsbD_word]
      simp only [Bool.and_eq_true, decide_eq_true_eq, List.mem_cons, exists_eq_or_imp]
      tauto

/-- A bit of one of the fields has the value given for it. -/
theorem getLsbD_sumWord (placed : WellPlaced values) {one : FieldValue} (member : one ∈ values)
    {bit : Nat} (has : one.field.Has bit) :
    (sumWord values).getLsbD bit = one.value.testBit (bit - one.field.offset) := by
  have narrow : bit < 32 := Nat.lt_of_lt_of_le has.2 (placed.inside one member)
  rw [Bool.eq_iff_iff, getLsbD_sumWord_iff]
  constructor
  · rintro ⟨-, other, within, covers, on⟩
    by_cases same : other = one
    · rwa [same] at on
    · have apart : other.field.Apart one.field := placed.apart.forall within member same
      exact absurd has (apart.not_has covers)
  · intro on
    exact ⟨narrow, one, member, has, on⟩

/-- A bit of no field is not in the masks. -/
theorem getLsbD_sumMask_of_other {bit : Nat} (others : ∀ one ∈ values, ¬ one.field.Has bit) :
    (sumMask values).getLsbD bit = false := by
  rw [← Bool.not_eq_true, getLsbD_sumMask]
  rintro ⟨-, one, member, has⟩
  exact others one member has

/-- Nor in the values. -/
theorem getLsbD_sumWord_of_other {bit : Nat} (others : ∀ one ∈ values, ¬ one.field.Has bit) :
    (sumWord values).getLsbD bit = false := by
  rw [← Bool.not_eq_true, getLsbD_sumWord_iff]
  rintro ⟨-, one, member, has, -⟩
  exact others one member has

/-- No bit of a field is set exactly if its value is zero. -/
theorem masked_eq_zero_iff (field : Field) (word : Word) :
    word &&& field.mask = 0 ↔ field.read word = 0 := by
  have zero : field.read word = 0 ↔ field.read word = 0 % 2 ^ field.numbits := by
    rw [Nat.zero_mod]
  rw [zero, Field.read_eq_iff]
  constructor
  · intro none bit has
    have high : word.getLsbD bit = true → 32 ≤ bit := by
      have here := congrArg (BitVec.getLsbD · bit) none
      simpa [Field.getLsbD_mask, has] using here
    rw [Nat.zero_testBit, ← Bool.not_eq_true]
    exact fun on => absurd (BitVec.lt_of_getLsbD on) (Nat.not_lt.mpr (high on))
  · intro off
    apply BitVec.eq_of_getLsbD_eq
    intro bit narrow
    rw [BitVec.getLsbD_and, Field.getLsbD_mask]
    by_cases has : field.Has bit
    · rw [off bit has, Nat.zero_testBit, Bool.false_and]
      exact BitVec.getLsbD_zero.symm
    · rw [decide_eq_false has, Bool.and_false, Bool.and_false]
      exact BitVec.getLsbD_zero.symm

/-- A word holds the values in their fields exactly if its masked part is their sum. -/
theorem masked_eq_iff (placed : WellPlaced values) (word : Word) :
    word &&& sumMask values = sumWord values ↔
      ∀ one ∈ values, one.field.read word = one.value % 2 ^ one.field.numbits := by
  constructor
  · intro same one member
    rw [Field.read_eq_iff]
    intro bit has
    have narrow : bit < 32 := Nat.lt_of_lt_of_le has.2 (placed.inside one member)
    have masked : (sumMask values).getLsbD bit = true :=
      (getLsbD_sumMask values bit).mpr ⟨narrow, one, member, has⟩
    rw [← getLsbD_sumWord placed member has, ← same, BitVec.getLsbD_and, masked, Bool.and_true]
  · intro already
    apply BitVec.eq_of_getLsbD_eq
    intro bit narrow
    rw [BitVec.getLsbD_and]
    by_cases named : ∃ one ∈ values, one.field.Has bit
    · have masked : (sumMask values).getLsbD bit = true :=
        (getLsbD_sumMask values bit).mpr ⟨narrow, named⟩
      obtain ⟨one, member, has⟩ := named
      rw [masked, Bool.and_true, getLsbD_sumWord placed member has]
      exact Field.read_eq_iff.mp (already one member) bit has
    · rw [getLsbD_sumMask_of_other fun one member has => named ⟨one, member, has⟩,
        getLsbD_sumWord_of_other fun one member has => named ⟨one, member, has⟩, Bool.and_false]

end Masks

/-- The crate's computations with masks. -/
def tockRegisters : TockRegisters where
  isSet field word := word &&& field.mask != 0
  matchesAll values word := word &&& sumMask values == sumWord values
  modify values word := word &&& ~~~ sumMask values ||| sumWord values
  isSet_iff := by
    intro field word
    rw [bne_iff_ne, ne_eq, masked_eq_zero_iff]
  matchesAll_iff := by
    intro values word placed
    rw [beq_iff_eq, masked_eq_iff placed]
  read_modify := by
    intro values word placed one member
    rw [Field.read_eq_iff]
    intro bit has
    have narrow : bit < 32 := Nat.lt_of_lt_of_le has.2 (placed.inside one member)
    have masked : (sumMask values).getLsbD bit = true :=
      (getLsbD_sumMask values bit).mpr ⟨narrow, one, member, has⟩
    rw [BitVec.getLsbD_or, BitVec.getLsbD_and, BitVec.getLsbD_not, masked,
      getLsbD_sumWord placed member has]
    simp
  modify_other := by
    intro values word bit others
    rw [BitVec.getLsbD_or, BitVec.getLsbD_and, BitVec.getLsbD_not,
      getLsbD_sumMask_of_other others, getLsbD_sumWord_of_other others, Bool.or_false]
    cases on : word.getLsbD bit with
    | false => rfl
    | true => simp [BitVec.lt_of_getLsbD on]

end Rpi5.Bootloader
