import Rpi5.Bootloader.Footprint

/-!
# What the board shows

Seen from outside a run of the program is what it stores to the data register of the UART of
the RP1, and what it asks of the pin 18. Whatever the hardware answers this is the beginning
of one endless sequence; a wait which takes too long, or a panic, only cuts it.
-/

namespace Rpi5.Bootloader

open Rpi5.Logical Rpi5.Semantics Rpi5.DeviceTree

/-- The register which `main` takes for the control register of the pin 18. -/
def pinRegister : Nat := Rp1Gpio.ctrlAddress Rp1Gpio.new.ioBank0 18

/-- What can be seen: a word for the UART, and the output override of the pin. -/
inductive Output where
  | sent (word : Word)
  | pin (oeover : Nat)
deriving DecidableEq, Repr

/-- What an access shows. -/
def shown : Contact → List Output
  | .register (.write address word) =>
      if address = rp1Uart.data then [.sent word]
      else if address = pinRegister then [.pin (GpioCtrl.oeover.read word)]
      else []
  | _ => []

/-- The words of a text. -/
def sentText (text : String) : List Output :=
  text.toList.map fun char => .sent (.ofNat 32 char.toNat)

/-- One turn of the last loop: the pin is driven high, and then low. -/
def turn : List Output :=
  .pin 3 :: sentText "Hello from RP1\r\n" ++ .pin 2 :: sentText "Hello from RP1\r\n"

/-- A whole run with so many turns. -/
def performance (turns : Nat) : List Output :=
  .pin 0 :: sentText "rp1 uart starting...\r\n" ++ (List.replicate turns turn).flatten

/-- None of these registers shows anything. -/
def Hidden (registers : List Nat) : Prop :=
  ∀ register ∈ registers, register ≠ rp1Uart.data ∧ register ≠ pinRegister

instance (registers : List Nat) : Decidable (Hidden registers) :=
  inferInstanceAs (Decidable (∀ register ∈ registers, _ ∧ _))

section Drivers

variable {tock : TockRegisters} {fuel : Nat}

/-- An access to a hidden register shows nothing. -/
theorem shown_of_hidden {registers : List Nat} (hidden : Hidden registers) (access : Access)
    (member : access.address ∈ registers) : shown (.register access) = [] := by
  cases access with
  | read address => rfl
  | write address word =>
      obtain ⟨data, pin⟩ := hidden address member
      rw [shown, if_neg data, if_neg pin]

/-- A driver of hidden registers shows nothing. -/
theorem driver_silent {α : Type} {program : Driver α} {registers : List Nat}
    (touches : Driver.Touches registers program) (hidden : Hidden registers) :
    Dialogue.Emits shown [] (driver program) :=
  (driver_within touches (shown_of_hidden hidden)).emits

/-- Nor does the timer. -/
theorem timing_silent {α : Type} (program : Timing α) :
    Dialogue.Emits shown [] (timing program) := by
  have within : Dialogue.Within (fun _ => False) (fun contact => shown contact = [])
      (fun _ => True) (timing program) :=
    Dialogue.Within.embed (.trivial program) (fun _ _ => rfl) fun _ _ => trivial
  exact within.emits

/-- What a driver shows. -/
abbrev Shows {α : Type} (output : List Output) (program : Driver α) : Prop :=
  Dialogue.Emits (fun access => shown (.register access)) output program

/-- A store shows what its word shows. -/
theorem set_shows (address : Nat) (word : Word) :
    Shows (shown (.register (.write address word))) (Driver.set address word) :=
  Dialogue.emits_call _ _

/-- As a part of a driver too. -/
theorem silent_shows {α : Type} {program : Driver α} {registers : List Nat}
    (touches : Driver.Touches registers program) (hidden : Hidden registers) : Shows [] program :=
  (Dialogue.Within.mono touches (shown_of_hidden hidden) fun _ ended => ended).emits

/-- Modifying a register shows what its new word shows. -/
theorem modify_shows (tock : TockRegisters) (address : Nat) (values : List FieldValue)
    {output : List Output}
    (written : ∀ word, shown (.register (.write address (tock.modify values word))) = output) :
    Shows output (Driver.modify tock address values) := by
  have read : Shows (shown (.register (.read address))) (Driver.get address) :=
    Dialogue.emits_call _ id
  exact read.silent_bind fun word => written word ▸ set_shows address (tock.modify values word)

/-- A change of the register of the pin shows the value for its output override. -/
theorem modifyPin_shows {values : List FieldValue} (placed : WellPlaced values) (oeover : Nat)
    (member : GpioCtrl.oeover.val oeover ∈ values) :
    Shows [.pin (oeover % 4)] (Rp1Gpio.new.modifyCtrl tock 18 values) := by
  apply modify_shows
  intro word
  have value := tock.read_modify values word placed _ member
  have here : Rp1Gpio.ctrlAddress Rp1Gpio.new.ioBank0 18 = pinRegister := rfl
  rw [shown, if_neg (by decide), if_pos here]
  exact congrArg (fun read => [Output.pin read]) value

/-- Setting up the pins shows the pin going low. -/
theorem setupPins_shows : Shows [.pin 0] (setupPins tock) := by
  have silent (operation : Operation) (hidden : Hidden
      [Rp1Gpio.new.ctrl operation.pin, Rp1Gpio.new.pad operation.pin]) :
      Shows [] (operation.perform tock Rp1Gpio.new) :=
    silent_shows (Rp1Gpio.perform_touches tock Rp1Gpio.new operation) hidden
  have led : Shows [.pin 0] (Rp1Gpio.new.enableOutput tock 18) := by
    have pad : Shows [] (Driver.modify tock (Rp1Gpio.padAddress Rp1Gpio.new.padsBank0 18)
        [Gpio.od.clear, Gpio.pde.clear, Gpio.pue.clear]) :=
      modify_shows tock _ _ fun _ => rfl
    have ctrl : Shows [.pin 0] (Rp1Gpio.new.modifyCtrl tock 18
        [GpioCtrl.outover.val 0, GpioCtrl.oeover.val 0]) :=
      modifyPin_shows (by decide) 0 (by decide)
    exact ctrl.bind_silent fun _ => pad
  exact (silent (.setFunc 14 4) (by decide)).silent_bind fun _ =>
    (silent (.setFunc 15 4) (by decide)).silent_bind fun _ =>
      (silent (.enableOutput 14) (by decide)).silent_bind fun _ =>
        (silent (.enableOutput 15) (by decide)).silent_bind fun _ => led

/-- A text is stored character by character. -/
theorem write_shows (text : String) : Shows (sentText text) (rp1Uart.write tock fuel text) := by
  unfold Pl011Uart.write sentText
  induction text.toList with
  | nil => exact .done
  | cons char chars ih =>
      have waited : Shows [] (Driver.spinWhile rp1Uart.flags (tock.isSet UARTFR.txff) fuel) :=
        silent_shows (Driver.touches_spinWhile (List.mem_singleton_self _) _ fuel) (by decide)
      have stored : Shows [.sent (.ofNat 32 char.toNat)]
          (Driver.set rp1Uart.data (.ofNat 32 char.toNat)) := set_shows rp1Uart.data _
      exact (waited.silent_bind fun _ => stored).bind fun _ => ih

/-- Starting the RP1 UART shows its greeting. -/
theorem startRp1Uart_shows :
    Shows (sentText "rp1 uart starting...\r\n") (startRp1Uart tock fuel) := by
  have silent : Shows [] (rp1Uart.init tock (.Rp1 0) 115200 fuel) :=
    silent_shows (Pl011Uart.init_touches tock rp1Uart fuel (.Rp1 0) (by decide)) (by decide)
  exact silent.silent_bind fun _ => write_shows _

end Drivers

section System

variable (tock : TockRegisters) (fuel : Nat)

/-- Starting another one shows nothing there. -/
theorem startDebugUart_shows {address : Nat}
    (hidden : Hidden ((⟨address⟩ : Pl011Uart).configuration ++ (⟨address⟩ : Pl011Uart).transmission)) :
    Dialogue.Emits shown [] (startDebugUart tock fuel ⟨address⟩) := by
  have configuration : Hidden (⟨address⟩ : Pl011Uart).configuration :=
    fun register member => hidden register (List.mem_append_left _ member)
  have transmission : Hidden (⟨address⟩ : Pl011Uart).transmission :=
    fun register member => hidden register (List.mem_append_right _ member)
  have written (text : String) := driver_silent
    (Pl011Uart.writeLoop_touches tock ⟨address⟩ fuel text.toList) transmission
  refine (driver_silent (Pl011Uart.init_touches tock _ fuel .Debug (by decide)) configuration).silent_bind
    fun _ => (written _).silent_bind fun _ =>
      (driver_silent (Driver.touches_get (List.mem_singleton_self _)) (by decide)).silent_bind
        fun chipId => ?_
  split
  · exact written _
  · exact written _

/-- Nor does starting the timer. -/
theorem initTimer_shows : Dialogue.Emits shown [] (initTimer tock fuel) := by
  refine (timing_silent _).silent_bind fun frequency =>
    (driver_silent (Pl011Uart.writeFmt_touches tock pl011Uart fuel _) (by decide)).silent_bind
      fun _ => ?_
  split
  · exact .done
  · exact .stop

/-- One half of a turn. -/
theorem blinkHalf_shows (timer : SystemTimer) {pin : Driver Unit} {output : List Output}
    (asked : Shows output pin) :
    Dialogue.Emits shown (output ++ sentText "Hello from RP1\r\n")
      (blinkHalf tock fuel timer pin) := by
  have hello : Dialogue.Emits shown (sentText "Hello from RP1\r\n")
      (driver (rp1Uart.write tock fuel "Hello from RP1\r\n")) := (write_shows _).embed
  exact (Dialogue.Emits.embed asked).bind fun _ => hello.bind_silent fun _ => timing_silent _

/-- One turn, before what comes after it. -/
theorem turn_shows (timer : SystemTimer) {rest : Running Unit} {later : List Output}
    (shows : Dialogue.Emits shown later rest) :
    Dialogue.Emits shown (turn ++ later) (do
      blinkHalf tock fuel timer (Rp1Gpio.new.gpioEnable tock 18)
      blinkHalf tock fuel timer (Rp1Gpio.new.gpioDisable tock 18)
      rest) := by
  have high : Shows [.pin 3] (Rp1Gpio.new.gpioEnable tock 18) :=
    modifyPin_shows (by decide) 3 (by decide)
  have low : Shows [.pin 2] (Rp1Gpio.new.gpioDisable tock 18) :=
    modifyPin_shows (by decide) 2 (by decide)
  have whole := (blinkHalf_shows tock fuel timer high).bind fun _ =>
    (blinkHalf_shows tock fuel timer low).bind fun _ => shows
  rw [← List.append_assoc] at whole
  exact whole

/-- Each turn of the loop shows the same. -/
theorem blink_shows (timer : SystemTimer) (turns : Nat) :
    Dialogue.Emits shown (List.replicate turns turn).flatten (blink tock fuel timer turns) := by
  induction turns with
  | zero => exact .stop
  | succ turns ih => exact turn_shows tock fuel timer ih

/-- What a run of `start` shows, from a UART whose registers show nothing. -/
theorem start_shows {address : Nat}
    (hidden : Hidden ((⟨address⟩ : Pl011Uart).configuration ++ (⟨address⟩ : Pl011Uart).transmission)) :
    Dialogue.Emits shown (performance fuel) (start tock fuel address) := by
  have pins : Dialogue.Emits shown [.pin 0] (driver (setupPins tock)) := setupPins_shows.embed
  have uart : Dialogue.Emits shown (sentText "rp1 uart starting...\r\n")
      (driver (startRp1Uart tock fuel)) := startRp1Uart_shows.embed
  have whole := (startDebugUart_shows tock fuel hidden).silent_bind fun _ => pins.bind fun _ =>
    uart.bind fun _ => (initTimer_shows tock fuel).silent_bind fun timer =>
      blink_shows tock fuel timer fuel
  rw [← List.append_assoc] at whole
  exact whole

/-- The panic handler shows nothing on the RP1 UART. -/
theorem panicHandler_shows : Dialogue.Emits shown [] (panicHandler tock fuel) :=
  (driver_silent (Pl011Uart.init_touches tock pl011Uart fuel .Debug (by decide)) (by decide)).silent_bind
    fun _ => driver_silent (Pl011Uart.writeLoop_touches tock pl011Uart fuel _) (by decide)

/-- A panic shows nothing more. -/
theorem onAbort_shows (why : Abort) : Dialogue.Emits shown [] (onAbort tock fuel why) := by
  cases why with
  | panic => exact panicHandler_shows tock fuel
  | limit => exact .stop

/-- Whatever the hardware answers, all that a run shows is the beginning of the performance,
unless the debug UART is where the performance takes place. -/
theorem system_performs (answer : Request → Option Bytes)
    (respond : List Contact → Contact → BitVec 64)
    (hidden : ∀ address, located fuel answer = .ok address →
      Hidden ((⟨address⟩ : Pl011Uart).configuration ++ (⟨address⟩ : Pl011Uart).transmission)) :
    ((system tock fuel).exec answer respond []).2.flatMap shown <+: performance fuel := by
  have aborted (why : Abort) (calls : List Contact) :
      ((onAbort tock fuel why).exec answer respond calls).2.flatMap shown = calls.flatMap shown := by
    obtain ⟨added, later, begins, -⟩ := (onAbort_shows tock fuel why).of_exec answer respond calls
    rw [later, List.flatMap_append, List.prefix_nil.mp begins, List.append_nil]
  unfold system
  rw [Dialogue.exec_rescue, exec_main]
  cases found : located fuel answer with
  | error halt =>
      cases halt with
      | stopped why => exact aborted why [] ▸ List.nil_prefix
      | unanswered question => exact List.nil_prefix
  | ok address =>
      obtain ⟨added, later, begins, -⟩ := (start_shows tock fuel (hidden address found)).of_exec
        answer respond []
      rw [List.nil_append] at later
      subst later
      dsimp only
      rcases run : (start tock fuel address).exec answer respond [] with ⟨halt | value, calls⟩
      · rw [run] at begins
        cases halt with
        | stopped why => exact aborted why calls ▸ begins
        | unanswered question => exact begins
      · rw [run] at begins
        exact begins

/-- On the board of the example nothing else shows. -/
theorem piImage_performs :
    ((system tockRegisters 30).exec piImage.blob.whole.answer (fun _ _ => 0) []).2.flatMap shown <+:
      performance 30 := by
  apply system_performs
  intro address found
  rw [piImage_located] at found
  cases found
  decide

end System
end Rpi5.Bootloader
