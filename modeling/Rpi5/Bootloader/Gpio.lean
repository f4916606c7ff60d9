import Mathlib.Data.List.Induction
import Rpi5.Bootloader.Rp1

/-!
# The registers of a pin

An operation on a pin should touch the control register of this pin in `IoBank0` and its
pad in `PadsBank0` only. `new` takes the address of the pads for both banks, so the
control register of a pin is a word among the pads instead.
-/

namespace Rpi5.Bootloader

open Rpi5.Semantics

/-- A call of the driver for one of the 28 pins. -/
inductive Operation where
  | setFunc (pin : Fin 28) (function : UInt32)
  | enableOutput (pin : Fin 28)
  | gpioEnable (pin : Fin 28)
  | gpioDisable (pin : Fin 28)
deriving DecidableEq, Repr

namespace Operation

def pin : Operation → Fin 28
  | .setFunc pin _ => pin
  | .enableOutput pin => pin
  | .gpioEnable pin => pin
  | .gpioDisable pin => pin

/-- The call of the driver. -/
def perform (tock : TockRegisters) (gpio : Rp1Gpio) : Operation → Driver Unit
  | .setFunc pin function => gpio.setFunc tock pin function
  | .enableOutput pin => gpio.enableOutput tock pin
  | .gpioEnable pin => gpio.gpioEnable tock pin
  | .gpioDisable pin => gpio.gpioDisable tock pin

/-- What an operation asks for in the control register. -/
def ctrlValues : Operation → List FieldValue
  | .setFunc _ function => [GpioCtrl.funcsel.val function.toNat]
  | .enableOutput _ => [GpioCtrl.outover.val 0, GpioCtrl.oeover.val 0]
  | .gpioEnable _ => [GpioCtrl.oeover.val 3]
  | .gpioDisable _ => [GpioCtrl.oeover.val 2]

/-- What an operation asks for in the pad. -/
def padValues : Operation → List FieldValue
  | .enableOutput _ => [Gpio.od.clear, Gpio.pde.clear, Gpio.pue.clear]
  | _ => []

/-- The value an operation asks for in a field of the control register of a pin. -/
def asks (pin : Fin 28) (field : Field) (operation : Operation) : Option Nat :=
  if operation.pin = pin then (operation.ctrlValues.find? (·.field = field)).map (·.value) else none

/-- The values of an operation fit into their fields, which are apart. -/
theorem ctrlValues_placed (operation : Operation) : WellPlaced operation.ctrlValues := by
  cases operation with
  | setFunc pin function =>
      refine ⟨List.pairwise_singleton _ _, fun one member => ?_⟩
      rw [List.mem_singleton.mp member]
      exact (by decide : 5 ≤ 32)
  | enableOutput => exact (by decide : WellPlaced [GpioCtrl.outover.val 0, GpioCtrl.oeover.val 0])
  | gpioEnable => exact (by decide : WellPlaced [GpioCtrl.oeover.val 3])
  | gpioDisable => exact (by decide : WellPlaced [GpioCtrl.oeover.val 2])

/-- So do those for the pad. -/
theorem padValues_placed (operation : Operation) : WellPlaced operation.padValues := by
  cases operation with
  | enableOutput =>
      exact (by decide : WellPlaced [Gpio.od.clear, Gpio.pde.clear, Gpio.pue.clear])
  | _ => exact ⟨.nil, nofun⟩

/-- What an operation asks of a pin is one of its values for it. -/
theorem asks_eq_some {operation : Operation} {pin : Fin 28} {field : Field} {value : Nat}
    (asked : operation.asks pin field = some value) :
    operation.pin = pin ∧ ⟨field, value⟩ ∈ operation.ctrlValues := by
  unfold asks at asked
  split at asked
  · obtain ⟨one, found, rfl⟩ := Option.map_eq_some_iff.mp asked
    have same : one.field = field := by simpa using List.find?_some found
    exact ⟨‹_›, same ▸ List.mem_of_find?_eq_some found⟩
  · cases asked

/-- Three fields of the control register are written at all. -/
theorem mem_ctrlValues {operation : Operation} {one : FieldValue} (member : one ∈ operation.ctrlValues) :
    one.field ∈ [GpioCtrl.funcsel, GpioCtrl.outover, GpioCtrl.oeover] := by
  cases operation <;> simp only [ctrlValues, List.mem_cons, List.not_mem_nil, or_false] at member <;>
    rcases member with rfl | rfl <;> simp [Field.val]

/-- What an operation asks for, but for the override of the output, can be looked up. -/
theorem asks_of_mem {operation : Operation} {one : FieldValue} (member : one ∈ operation.ctrlValues)
    (looked : one.field ≠ GpioCtrl.outover) :
    one.field ∈ [GpioCtrl.funcsel, GpioCtrl.oeover] ∧
      operation.asks operation.pin one.field = some one.value := by
  have among : one.field ∈ [GpioCtrl.funcsel, GpioCtrl.oeover] := by
    have three := mem_ctrlValues member
    simp only [List.mem_cons, List.not_mem_nil, or_false] at three ⊢
    tauto
  refine ⟨among, ?_⟩
  unfold asks
  rw [if_pos rfl]
  cases operation <;> simp only [ctrlValues, List.mem_cons, List.not_mem_nil, or_false] at member
  case enableOutput =>
    rcases member with rfl | rfl
    · exact absurd rfl looked
    · rfl
  all_goals
    subst member
    rfl

/-- A field for which an operation asks nothing is apart from those for which it does. -/
theorem apart_of_asks {operation : Operation} {field : Field}
    (looked : field ∈ [GpioCtrl.funcsel, GpioCtrl.oeover])
    (unasked : operation.asks operation.pin field = none) :
    ∀ one ∈ operation.ctrlValues, one.field.Apart field := by
  have apart : ∀ one ∈ [GpioCtrl.funcsel, GpioCtrl.outover, GpioCtrl.oeover],
      ∀ other ∈ [GpioCtrl.funcsel, GpioCtrl.oeover], one ≠ other → one.Apart other := by decide
  intro one member
  apply apart one.field (mem_ctrlValues member) field looked
  rintro rfl
  have other : one.field ≠ GpioCtrl.outover := by
    revert looked
    generalize one.field = field
    revert field
    decide
  rw [(asks_of_mem member other).2] at unasked
  cases unasked

end Operation

namespace Rp1Gpio

/-- The blocks in which the registers of the pins really are. -/
def own : Rp1Gpio where
  ioBank0 := (getBlockAddress .IoBank0).address
  padsBank0 := (getBlockAddress .PadsBank0).address

variable (tock : TockRegisters) (gpio : Rp1Gpio)

def ctrl (pin : Fin 28) : Nat := ctrlAddress gpio.ioBank0 pin

def pad (pin : Fin 28) : Nat := padAddress gpio.padsBank0 pin

/-- Some operations after each other. -/
def performAll : List Operation → Driver Unit
  | [] => return ()
  | operation :: operations => do
      operation.perform tock gpio
      performAll operations

/-- What an operation does to the words in memory. -/
def effect (operation : Operation) (memory : Nat → Word) : Nat → Word :=
  let ctrl := gpio.ctrl operation.pin
  let pad := gpio.pad operation.pin
  let memory := Function.update memory ctrl (tock.modify operation.ctrlValues (memory ctrl))
  Function.update memory pad (tock.modify operation.padValues (memory pad))

/-- The words in memory after some operations. -/
def memoryAfter (initial : Nat → Word) (operations : List Operation) : Nat → Word :=
  contents initial ((gpio.performAll tock operations).run (stored initial) []).2

section Runs

variable {tock gpio} {operation : Operation} {operations : List Operation} {initial : Nat → Word}

/-- A pin of the bank has its own number. -/
theorem unwrapPin_pin (pin : Fin 28) : unwrapPin pin = .done pin.val := if_pos pin.isLt

/-- One control register is changed. -/
theorem modifyCtrl_changes (pin : Fin 28) (values : List FieldValue) :
    Changes (gpio.modifyCtrl tock pin values) fun memory =>
      Function.update memory (gpio.ctrl pin) (tock.modify values (memory (gpio.ctrl pin))) := by
  unfold modifyCtrl
  rw [unwrapPin_pin]
  exact .modify tock (gpio.ctrl pin) values

/-- Asking for nothing changes nothing. -/
theorem modify_nil (word : Word) : tock.modify [] word = word :=
  (TockRegisters.modify_eq_iff ⟨.nil, nofun⟩).mpr nofun

/-- An operation changes memory as `effect` says. -/
theorem perform_changes (operation : Operation) :
    Changes (operation.perform tock gpio) (gpio.effect tock operation) := by
  have ctrlOnly : operation.padValues = [] → gpio.effect tock operation = fun memory =>
      Function.update memory (gpio.ctrl operation.pin)
        (tock.modify operation.ctrlValues (memory (gpio.ctrl operation.pin))) := by
    intro none
    funext memory
    unfold effect
    simp only [none, modify_nil, Function.update_eq_self]
  cases operation with
  | setFunc pin function =>
      rw [ctrlOnly rfl]
      exact modifyCtrl_changes pin _
  | enableOutput pin =>
      have padOnly : Changes (unwrapPin pin >>= fun place => Driver.modify tock
          (padAddress gpio.padsBank0 place) (Operation.enableOutput pin).padValues) fun memory =>
            Function.update memory (gpio.pad pin)
              (tock.modify (Operation.enableOutput pin).padValues (memory (gpio.pad pin))) := by
        rw [unwrapPin_pin]
        exact .modify tock (gpio.pad pin) _
      exact (modifyCtrl_changes pin _).bind padOnly
  | gpioEnable pin =>
      rw [ctrlOnly rfl]
      exact modifyCtrl_changes pin _
  | gpioDisable pin =>
      rw [ctrlOnly rfl]
      exact modifyCtrl_changes pin _

/-- A list of operations changes it one after the other. -/
theorem performAll_changes (tock : TockRegisters) (gpio : Rp1Gpio) (operations : List Operation) :
    Changes (gpio.performAll tock operations)
      fun memory => operations.foldl (fun memory operation => gpio.effect tock operation memory) memory := by
  induction operations with
  | nil => exact .done
  | cons operation operations ih => exact (perform_changes operation).bind ih

/-- So the memory behind a list is computed from the effects. -/
theorem memoryAfter_eq (initial : Nat → Word) (operations : List Operation) :
    gpio.memoryAfter tock initial operations =
      operations.foldl (fun memory operation => gpio.effect tock operation memory) initial := by
  obtain ⟨later, run, changed⟩ := performAll_changes tock gpio operations initial []
  unfold memoryAfter
  rw [run, changed]
  rfl

/-- A last operation has its effect on what the others have left. -/
theorem memoryAfter_append (initial : Nat → Word) (operations : List Operation) (operation : Operation) :
    gpio.memoryAfter tock initial (operations ++ [operation]) =
      gpio.effect tock operation (gpio.memoryAfter tock initial operations) := by
  rw [memoryAfter_eq, memoryAfter_eq, List.foldl_append]
  rfl

end Runs

/-- The value last asked for in a field of the control register of a pin. -/
def lastAsked (operations : List Operation) (pin : Fin 28) (field : Field) : Option Nat :=
  (operations.filterMap (·.asks pin field)).getLast?

/-- Memory is as the operations asked for: the functions and the output enables which were
asked for last, and pads without pulls for all pins which were given an output. -/
structure Conforms (operations : List Operation) (memory : Nat → Word) : Prop where
  ctrl : ∀ pin, ∀ field ∈ [GpioCtrl.funcsel, GpioCtrl.oeover], ∀ value,
    lastAsked operations pin field = some value →
      field.read (memory (own.ctrl pin)) = value % 2 ^ field.numbits
  pad : ∀ pin, .enableOutput pin ∈ operations → ∀ field ∈ [Gpio.od, Gpio.pde, Gpio.pue],
    field.read (memory (own.pad pin)) = 0

/-- An operation changes no words but the two of its pin. -/
def Frame (operation : Operation) (before after : Nat → Word) : Prop :=
  ∀ address, address ≠ own.ctrl operation.pin → address ≠ own.pad operation.pin →
    after address = before address

/-- Some operations return, each changes only the words of its pin, and memory is always
as they asked for. -/
structure Lawful (tock : TockRegisters) (gpio : Rp1Gpio) (initial : Nat → Word)
    (operations : List Operation) : Prop where
  returns : ((gpio.performAll tock operations).run (stored initial) []).1 = .ok ()
  frame : ∀ before operation rest, operations = before ++ operation :: rest →
    Frame operation (gpio.memoryAfter tock initial before)
      (gpio.memoryAfter tock initial (before ++ [operation]))
  conforms : ∀ before operation rest, operations = before ++ operation :: rest →
    Conforms (before ++ [operation]) (gpio.memoryAfter tock initial (before ++ [operation]))

section Steps

variable {tock : TockRegisters} {gpio : Rp1Gpio} {operation : Operation} {memory : Nat → Word}
  {asked : List Operation} {pin other : Fin 28} {address : Nat}

/-- Without operations nothing is asked. -/
theorem conforms_nil (memory : Nat → Word) : Conforms [] memory := ⟨nofun, nofun⟩

/-- The last operation counts first. -/
theorem lastAsked_append (field : Field) : lastAsked (asked ++ [operation]) pin field =
    (operation.asks pin field).or (lastAsked asked pin field) := by
  have last : ([operation].filterMap (·.asks pin field)).getLast? = operation.asks pin field := by
    rw [List.filterMap_cons]
    cases operation.asks pin field <;> rfl
  unfold lastAsked
  rw [List.filterMap_append, List.getLast?_append, last]

/-- Other registers stay as they are. -/
theorem effect_other (ctrl : address ≠ gpio.ctrl operation.pin) (pad : address ≠ gpio.pad operation.pin) :
    gpio.effect tock operation memory address = memory address := by
  unfold effect
  rw [Function.update_of_ne pad, Function.update_of_ne ctrl]

/-- The control register of the pin gets the values for it. -/
theorem effect_ctrl (tock : TockRegisters) (memory : Nat → Word)
    (apart : gpio.ctrl operation.pin ≠ gpio.pad operation.pin) :
    gpio.effect tock operation memory (gpio.ctrl operation.pin) =
      tock.modify operation.ctrlValues (memory (gpio.ctrl operation.pin)) := by
  unfold effect
  rw [Function.update_of_ne apart, Function.update_self]

/-- So does the pad. -/
theorem effect_pad (tock : TockRegisters) (memory : Nat → Word)
    (apart : gpio.ctrl operation.pin ≠ gpio.pad operation.pin) :
    gpio.effect tock operation memory (gpio.pad operation.pin) =
      tock.modify operation.padValues (memory (gpio.pad operation.pin)) := by
  unfold effect
  rw [Function.update_self, Function.update_of_ne apart.symm]

/-- Both registers of the pin are one word. -/
theorem effect_same (tock : TockRegisters) (memory : Nat → Word)
    (same : gpio.ctrl operation.pin = gpio.pad operation.pin) :
    gpio.effect tock operation memory (gpio.pad operation.pin) =
      tock.modify operation.padValues
        (tock.modify operation.ctrlValues (memory (gpio.pad operation.pin))) := by
  unfold effect
  rw [Function.update_self, same, Function.update_self]

/-- The pad is written last. -/
theorem effect_at_pad (tock : TockRegisters) (gpio : Rp1Gpio) (operation : Operation)
    (memory : Nat → Word) : ∃ word, gpio.effect tock operation memory (gpio.pad operation.pin) =
    tock.modify operation.padValues word := by
  unfold effect
  exact ⟨_, Function.update_self _ _ _⟩

section Addresses

/-- With its own addresses no control register is a pad. -/
theorem own_ctrl_ne_pad : own.ctrl pin ≠ own.pad other := by
  have one := pin.isLt
  have two := other.isLt
  simp only [ctrl, pad, ctrlAddress, padAddress, own, getBlockAddress]
  omega

/-- Each pin has a control register of its own. -/
theorem own_ctrl_inj (same : own.ctrl pin = own.ctrl other) : pin = other := by
  simp only [ctrl, ctrlAddress] at same
  exact Fin.ext (by omega)

/-- And a pad. -/
theorem own_pad_inj (same : own.pad pin = own.pad other) : pin = other := by
  simp only [pad, padAddress] at same
  exact Fin.ext (by omega)

/-- The control registers are never reached. -/
theorem own_ctrl_ne_new : own.ctrl pin ≠ new.ctrl other := by
  have one := pin.isLt
  have two := other.isLt
  simp only [ctrl, ctrlAddress, own, new, getBlockAddress]
  omega

/-- The pads of `new` are in the right place. -/
theorem new_pad : new.pad pin = own.pad pin := rfl

/-- The misplaced control register of the first pin is its pad, those of the others are not. -/
theorem new_ctrl_eq_pad : new.ctrl pin = new.pad pin ↔ pin = 0 := by
  simp only [ctrl, pad, ctrlAddress, padAddress, new]
  constructor
  · intro same
    exact Fin.ext (by simp only [Fin.val_zero]; omega)
  · rintro rfl
    rfl

end Addresses

/-- A step which stays in its frame has to be right about its own pin only. -/
theorem Conforms.append {after : Nat → Word} (conforms : Conforms asked memory)
    (frame : Frame operation memory after)
    (ctrl : ∀ field ∈ [GpioCtrl.funcsel, GpioCtrl.oeover], ∀ value,
      operation.asks operation.pin field = some value →
        field.read (after (own.ctrl operation.pin)) = value % 2 ^ field.numbits)
    (kept : ∀ field ∈ [GpioCtrl.funcsel, GpioCtrl.oeover], operation.asks operation.pin field = none →
      field.read (after (own.ctrl operation.pin)) = field.read (memory (own.ctrl operation.pin)))
    (pads : .enableOutput operation.pin ∈ asked ++ [operation] →
      ∀ field ∈ [Gpio.od, Gpio.pde, Gpio.pue], field.read (after (own.pad operation.pin)) = 0) :
    Conforms (asked ++ [operation]) after where
  ctrl pin field looked value last := by
    rw [lastAsked_append] at last
    by_cases same : operation.pin = pin
    · subst same
      cases asks : operation.asks operation.pin field with
      | some now =>
          rw [asks] at last
          cases last
          exact ctrl field looked value asks
      | none =>
          rw [asks] at last
          rw [kept field looked asks]
          exact conforms.ctrl _ field looked value last
    · have unasked : operation.asks pin field = none := if_neg same
      rw [unasked] at last
      rw [frame _ (fun equal => same (own_ctrl_inj equal).symm) own_ctrl_ne_pad]
      exact conforms.ctrl pin field looked value last
  pad pin given field looked := by
    by_cases same : operation.pin = pin
    · subst same
      exact pads given field looked
    · have before : .enableOutput pin ∈ asked := by
        rcases List.mem_append.mp given with before | now
        · exact before
        · rw [← List.mem_singleton.mp now] at same
          exact absurd rfl same
      rw [frame _ own_ctrl_ne_pad.symm fun equal => same (own_pad_inj equal).symm]
      exact conforms.pad pin before field looked

/-- Giving a pin an output clears its pad, whatever it held. -/
theorem read_padValues (word : Word) : ∀ field ∈ [Gpio.od, Gpio.pde, Gpio.pue],
    field.read (tock.modify (Operation.enableOutput pin).padValues word) = 0 := by
  intro field looked
  have cleared := tock.read_modify _ word (Operation.padValues_placed (.enableOutput pin)) field.clear
    (List.mem_map_of_mem (f := Field.clear) looked)
  rwa [Field.clear, Nat.zero_mod] at cleared

/-- Only enabling the output writes to the pad. -/
theorem padValues_eq_nil (other : operation ≠ .enableOutput operation.pin) :
    operation.padValues = [] := by
  cases operation with
  | enableOutput => exact absurd rfl other
  | _ => rfl

/-- An output which this operation does not give was given before. -/
theorem given_before (given : .enableOutput operation.pin ∈ asked ++ [operation])
    (other : operation ≠ .enableOutput operation.pin) : .enableOutput operation.pin ∈ asked := by
  rcases List.mem_append.mp given with before | now
  · exact before
  · exact absurd (List.mem_singleton.mp now).symm other

/-- Whatever holds of memory at first, and is kept by a step, holds all along. -/
theorem conforms_of_steps {initial : Nat → Word} {operations : List Operation}
    (steps : ∀ before operation rest, operations = before ++ operation :: rest →
      Conforms before (gpio.memoryAfter tock initial before) →
        Conforms (before ++ [operation])
          (gpio.memoryAfter tock initial (before ++ [operation])))
    (before rest : List Operation) (split : operations = before ++ rest) :
    Conforms before (gpio.memoryAfter tock initial before) := by
  induction before using List.reverseRecOn generalizing rest with
  | nil => exact conforms_nil _
  | append_singleton before operation ih =>
      rw [List.append_assoc] at split
      exact steps before operation rest split (ih ([operation] ++ rest) split)

/-- A list of operations returns. -/
theorem performAll_returns (operations : List Operation) (initial : Nat → Word) :
    ((gpio.performAll tock operations).run (stored initial) []).1 = .ok () := by
  obtain ⟨later, run, -⟩ := performAll_changes tock gpio operations initial []
  rw [run]

end Steps

section Own

variable {tock : TockRegisters} {operation : Operation} {memory : Nat → Word} {asked : List Operation}

/-- A driver with both banks in their blocks stays in the frame of each operation. -/
theorem own_frame : Frame operation memory (own.effect tock operation memory) :=
  fun _ ctrl pad => effect_other ctrl pad

/-- With its own addresses each operation does what it asks. -/
theorem own_conforms (conforms : Conforms asked memory) :
    Conforms (asked ++ [operation]) (own.effect tock operation memory) := by
  have apart : own.ctrl operation.pin ≠ own.pad operation.pin := own_ctrl_ne_pad
  have ctrl := effect_ctrl tock memory apart
  have pad := effect_pad tock memory apart
  refine conforms.append own_frame (fun field looked value asks => ?_) (fun field looked asks => ?_)
    (fun given field looked => ?_)
  · rw [ctrl]
    exact tock.read_modify _ _ operation.ctrlValues_placed _ (Operation.asks_eq_some asks).2
  · rw [ctrl]
    exact TockRegisters.read_modify_other (Operation.apart_of_asks looked asks)
  · rw [pad]
    by_cases now : operation = .enableOutput operation.pin
    · rw [now]
      exact read_padValues _ field looked
    · rw [padValues_eq_nil now, modify_nil]
      exact conforms.pad _ (given_before given now) field looked

/-- So the one address in `new` is all that is wrong. -/
theorem own_lawful (tock : TockRegisters) (initial : Nat → Word) (operations : List Operation) :
    Lawful tock own initial operations := by
  have step : ∀ before operation rest, operations = before ++ operation :: rest →
      Conforms before (own.memoryAfter tock initial before) →
        Conforms (before ++ [operation]) (own.memoryAfter tock initial (before ++ [operation])) := by
    intro before operation rest _ conforms
    rw [memoryAfter_append]
    exact own_conforms conforms
  refine ⟨performAll_returns operations initial, fun before operation rest _ => ?_,
    fun before operation rest split => ?_⟩
  · rw [memoryAfter_append]
    exact own_frame
  · exact step before operation rest split (conforms_of_steps step before (operation :: rest) split)

end Own

/-- What an operation asks for is there already, in the control register which it does not
reach; it changes nothing in the word it takes for this register; and it sets no pull in
the pad of the first pin, which is that word for this pin, once this is an output. -/
structure Harmless (asked : List Operation) (memory : Nat → Word) (operation : Operation) : Prop where
  held : ∀ one ∈ operation.ctrlValues, one.field ≠ GpioCtrl.outover →
    one.field.read (memory (own.ctrl operation.pin)) = one.value % 2 ^ one.field.numbits
  spared : operation.pin ≠ 0 → ∀ one ∈ operation.ctrlValues,
    one.field.read (memory (new.ctrl operation.pin)) = one.value % 2 ^ one.field.numbits
  unpulled : ∀ function, operation = .setFunc 0 function → .enableOutput 0 ∈ asked →
    ∀ field ∈ [Gpio.pde, Gpio.pue], field.read function.toBitVec = 0

section New

variable {tock : TockRegisters} {operation : Operation} {memory : Nat → Word} {asked : List Operation}

/-- The control register of the pin does not change, where `new` looks elsewhere. -/
theorem new_ctrl_unchanged (tock : TockRegisters) (operation : Operation) (memory : Nat → Word) :
    new.effect tock operation memory (own.ctrl operation.pin) =
    memory (own.ctrl operation.pin) :=
  effect_other own_ctrl_ne_new own_ctrl_ne_pad

/-- Off the first pin the misplaced word is no register of the pin. -/
theorem new_spared_iff (later : operation.pin ≠ 0) :
    Frame operation memory (new.effect tock operation memory) ↔
      ∀ one ∈ operation.ctrlValues,
        one.field.read (memory (new.ctrl operation.pin)) = one.value % 2 ^ one.field.numbits := by
  have apart : new.ctrl operation.pin ≠ new.pad operation.pin := fun same => later (new_ctrl_eq_pad.mp same)
  have changed := effect_ctrl tock memory apart
  rw [← tock.modify_eq_iff operation.ctrlValues_placed, ← changed]
  constructor
  · intro frame
    exact frame _ own_ctrl_ne_new.symm apart
  · intro same address _ pad
    by_cases here : address = new.ctrl operation.pin
    · rw [here, same]
    · exact effect_other here pad

/-- On the first pin it is the pad. -/
theorem new_frame_zero (first : operation.pin = 0) :
    Frame operation memory (new.effect tock operation memory) := by
  have same : new.ctrl operation.pin = new.pad operation.pin := new_ctrl_eq_pad.mpr first
  exact fun address _ pad => effect_other (same ▸ pad) pad

/-- The pulls a function sets in the pad of the first pin are bits of the function. -/
theorem read_pull (pin : Fin 28) (function : UInt32) (word : Word) : ∀ field ∈ [Gpio.pde, Gpio.pue],
    field.read (tock.modify (Operation.setFunc pin function).ctrlValues word) =
      field.read function.toBitVec := by
  have inside : ∀ field ∈ [Gpio.pde, Gpio.pue], field.offset + field.numbits ≤ 5 := by decide
  intro field looked
  exact TockRegisters.read_modify_part (Operation.ctrlValues_placed (.setFunc pin function))
    List.mem_cons_self (Nat.zero_le _) ((inside field looked).trans (Nat.le_refl 5))

/-- An operation leaves the bits which its fields do not reach. -/
theorem read_ctrlValues_apart (operation : Operation) {field : Field} {word : Word}
    (apart : ∀ one ∈ operation.ctrlValues.map (·.field), one.Apart field) :
    field.read (tock.modify operation.ctrlValues word) = field.read word :=
  TockRegisters.read_modify_other fun one member => apart one.field (List.mem_map_of_mem member)

/-- An output enable reaches no bits which a pad has. -/
theorem oeover_apart : ∀ field ∈ [Gpio.od, Gpio.pde, Gpio.pue],
    ∀ one ∈ [GpioCtrl.oeover], one.Apart field := by
  decide

/-- The pad of a pin with an output stays without pulls. -/
theorem new_pad_clear (conforms : Conforms asked memory) (harmless : Harmless asked memory operation)
    (given : .enableOutput operation.pin ∈ asked ++ [operation]) :
    ∀ field ∈ [Gpio.od, Gpio.pde, Gpio.pue],
      field.read (new.effect tock operation memory (own.pad operation.pin)) = 0 := by
  rw [← new_pad]
  intro field looked
  by_cases now : operation = .enableOutput operation.pin
  · obtain ⟨word, written⟩ := effect_at_pad tock new operation memory
    rw [written, now]
    exact read_padValues word field looked
  · have before := conforms.pad _ (given_before given now) field looked
    by_cases first : operation.pin = 0
    · rw [effect_same tock memory (new_ctrl_eq_pad.mpr first), padValues_eq_nil now, modify_nil]
      -- A function reaches the pulls, an output enable only bits which a pad does not have.
      cases operation with
      | enableOutput => exact absurd rfl now
      | setFunc pin function =>
          rcases List.mem_cons.mp looked with rfl | pull
          · have apart : ∀ one ∈ [GpioCtrl.funcsel], one.Apart Gpio.od := by decide
            rw [read_ctrlValues_apart (.setFunc pin function) apart]
            exact before
          · obtain rfl : pin = 0 := first
            rw [read_pull _ function _ field pull]
            exact harmless.unpulled function rfl (given_before given now) field pull
      | gpioEnable pin =>
          rw [read_ctrlValues_apart (.gpioEnable pin) (oeover_apart field looked)]
          exact before
      | gpioDisable pin =>
          rw [read_ctrlValues_apart (.gpioDisable pin) (oeover_apart field looked)]
          exact before
    · have apart : new.ctrl operation.pin ≠ new.pad operation.pin :=
        fun same => first (new_ctrl_eq_pad.mp same)
      rw [effect_pad tock memory apart, padValues_eq_nil now, modify_nil]
      exact before

/-- The other two fields are not the override of the output. -/
theorem not_outover : ∀ field ∈ [GpioCtrl.funcsel, GpioCtrl.oeover], field ≠ GpioCtrl.outover := by
  decide

/-- One step keeps memory as asked, in its frame, exactly if it is harmless. -/
theorem new_step_iff (conforms : Conforms asked memory) :
    Frame operation memory (new.effect tock operation memory) ∧
        Conforms (asked ++ [operation]) (new.effect tock operation memory) ↔
      Harmless asked memory operation := by
  constructor
  · rintro ⟨frame, later⟩
    refine ⟨fun one member looked => ?_, fun off => (new_spared_iff off).mp frame,
      fun function same given field pull => ?_⟩
    · obtain ⟨among, asks⟩ := Operation.asks_of_mem member looked
      rw [← new_ctrl_unchanged tock operation memory]
      exact later.ctrl _ _ among _ (by rw [lastAsked_append, asks]; rfl)
    · subst same
      have clear := later.pad 0 (List.mem_append_left _ given) field (List.mem_cons_of_mem _ pull)
      have first : new.ctrl (Operation.setFunc 0 function).pin = new.pad (Operation.setFunc 0 function).pin :=
        new_ctrl_eq_pad.mpr rfl
      have written := effect_same tock memory first
      have nothing : (Operation.setFunc 0 function).padValues = [] := rfl
      rw [nothing, modify_nil] at written
      rw [← read_pull _ function _ field pull, ← written]
      exact clear
  · intro harmless
    have frame : Frame operation memory (new.effect tock operation memory) := by
      by_cases first : operation.pin = 0
      · exact new_frame_zero first
      · exact (new_spared_iff first).mpr (harmless.spared first)
    refine ⟨frame, conforms.append frame (fun field looked value asks => ?_) (fun field _ _ => ?_)
      (new_pad_clear conforms harmless)⟩
    · rw [new_ctrl_unchanged]
      exact harmless.held _ (Operation.asks_eq_some asks).2 (not_outover field looked)
    · rw [new_ctrl_unchanged]

/-- A run of the driver is lawful exactly if all its steps are harmless. -/
theorem new_lawful_iff (tock : TockRegisters) (initial : Nat → Word) (operations : List Operation) :
    Lawful tock new initial operations ↔
      ∀ before operation rest, operations = before ++ operation :: rest →
        Harmless before (new.memoryAfter tock initial before) operation := by
  constructor
  · intro lawful before operation rest split
    have conforms := conforms_of_steps (fun before operation rest split _ =>
      lawful.conforms before operation rest split) before (operation :: rest) split
    have frame := lawful.frame before operation rest split
    have later := lawful.conforms before operation rest split
    rw [memoryAfter_append] at frame later
    exact (new_step_iff conforms).mp ⟨frame, later⟩
  · intro harmless
    have step : ∀ before operation rest, operations = before ++ operation :: rest →
        Conforms before (new.memoryAfter tock initial before) →
          Frame operation (new.memoryAfter tock initial before)
              (new.memoryAfter tock initial (before ++ [operation])) ∧
            Conforms (before ++ [operation]) (new.memoryAfter tock initial (before ++ [operation])) := by
      intro before operation rest split conforms
      rw [memoryAfter_append]
      exact (new_step_iff conforms).mpr (harmless before operation rest split)
    have conforms := fun before operation rest split =>
      conforms_of_steps (fun before operation rest split conforms =>
        (step before operation rest split conforms).2) before (operation :: rest) split
    exact ⟨performAll_returns operations initial,
      fun before operation rest split => (step before operation rest split
        (conforms before operation rest split)).1,
      fun before operation rest split => (step before operation rest split
        (conforms before operation rest split)).2⟩

/-- The function of a pin is not set, but a pull in the pad of another. -/
theorem setFunc_misses :
    let memory := new.memoryAfter tockRegisters (fun _ => 0) [.setFunc 14 4, .setFunc 7 4]
    GpioCtrl.funcsel.read (memory (own.ctrl 14)) = 0 ∧ GpioCtrl.funcsel.read (memory (own.ctrl 7)) = 0 ∧
      Gpio.pde.read (memory (own.pad 14)) = 1 := by
  decide +kernel

end New
end Rp1Gpio
end Rpi5.Bootloader
