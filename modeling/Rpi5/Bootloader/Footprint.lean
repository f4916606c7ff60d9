import Rpi5.Bootloader.Baud
import Rpi5.Bootloader.Boot
import Rpi5.Bootloader.Gpio

/-!
# The registers of a run

Which registers a driver accesses does not depend on what it reads. `Touches` collects them
driver by driver, together with the only reason for which one stops: a wait which takes too
long. From this every run of the whole program keeps to one UART of the device tree and to
a fixed list of registers.
-/

namespace Rpi5.Bootloader

open Rpi5.Logical Rpi5.Semantics Rpi5.DeviceTree

/-- The register an access is to. -/
def Access.address : Access → Nat
  | .read address => address
  | .write address _ => address

namespace Driver

/-- A driver with accesses to some registers only, which never panics. -/
abbrev Touches {α : Type} (registers : List Nat) (program : Driver α) : Prop :=
  Dialogue.Within (fun _ => False) (fun access : Access => access.address ∈ registers)
    (· = .outOfFuel) program

variable {registers more : List Nat} {address : Nat}

/-- A driver of some registers touches no others of a larger list. -/
theorem Touches.mono {α : Type} {program : Driver α} (touches : Touches registers program)
    (subset : registers ⊆ more) : Touches more program :=
  Dialogue.Within.mono touches (fun _ member => subset member) fun _ ended => ended

/-- A read touches its register. -/
theorem touches_get (member : address ∈ registers) : Touches registers (get address) :=
  .call member fun _ => .done

/-- So does a store. -/
theorem touches_set (member : address ∈ registers) (word : Word) :
    Touches registers (set address word) :=
  .call member fun _ => .done

/-- And both together. -/
theorem touches_modify (tock : TockRegisters) (member : address ∈ registers)
    (values : List FieldValue) : Touches registers (modify tock address values) :=
  (touches_get member).bind fun _ => touches_set member _

/-- A store of fields is a store. -/
theorem touches_write (tock : TockRegisters) (member : address ∈ registers)
    (values : List FieldValue) : Touches registers (write tock address values) :=
  touches_set member _

/-- Spinning reads the register it waits for. -/
theorem touches_spinWhile (member : address ∈ registers) (busy : Word → Bool) (fuel : Nat) :
    Touches registers (spinWhile address busy fuel) := by
  unfold spinWhile
  apply Dialogue.Within.poll
  · exact member
  · rfl
  · intro given why same
    cases same

end Driver

namespace Pl011Uart

section Touches

variable (tock : TockRegisters) (uart : Pl011Uart) (fuel : Nat)

/-- The registers which the initialisation accesses. -/
def configuration : List Nat :=
  [uart.flags, uart.integerBaudRate, uart.fractionalBaudRate, uart.lineControl, uart.control,
    uart.interrputClear]

/-- The registers which `write` accesses. -/
def transmission : List Nat := [uart.flags, uart.data]

/-- The divisor is computed without a panic. -/
theorem clockDivisor_eq {clk baudrate : Nat} (small : clk * 8 + 1 < 2 ^ 32)
    (positive : 0 < baudrate) : clockDivisor clk baudrate =
      .done (clk / baudrate / 16, (clk * 8 / baudrate + 1) / 2 &&& 0b111111) := by
  have eighths : clk * 8 < 2 ^ 32 := by omega
  have halves : clk * 8 / baudrate + 1 < 2 ^ 32 := by
    have below : clk * 8 / baudrate ≤ clk * 8 := Nat.div_le_self _ _
    omega
  have divided (dividend : Nat) : (Accessing.div dividend baudrate : Driver Nat) =
      .done (dividend / baudrate) := if_neg (Nat.ne_of_gt positive)
  have first : (Accessing.checked 32 (clk * 8) : Driver Nat) = .done (clk * 8) := if_pos eighths
  have second : (Accessing.checked 32 (clk * 8 / baudrate + 1) : Driver Nat) =
      .done (clk * 8 / baudrate + 1) := if_pos halves
  have step {α β : Type} (value : α) (next : α → Driver β) :
      (.done value : Driver α) >>= next = next value := rfl
  simp only [clockDivisor, divided, first, second, step]
  rfl

/-- Disabling a UART touches its configuration only. -/
theorem disabled_touches : Driver.Touches uart.configuration (uart.disabled tock) := by
  refine (Driver.touches_modify tock ?_ _).bind fun _ =>
    (Driver.touches_write tock ?_ _).bind fun _ => Driver.touches_modify tock ?_ _
  all_goals simp [configuration]

/-- So does setting it up. -/
theorem setup_touches (kind : UartNum) {baudrate : UInt32} (positive : 0 < baudrate.toNat) :
    Driver.Touches uart.configuration (uart.setup tock kind baudrate) := by
  obtain ⟨small, fast⟩ := uartClk_bounds kind
  have asserted : (Accessing.assert (uartClk kind > 3686400) : Driver Unit) = .done () := if_pos fast
  unfold setup
  rw [asserted, clockDivisor_eq small positive]
  refine (Driver.touches_set ?_ _).bind fun _ => (Driver.touches_set ?_ _).bind fun _ =>
    (Driver.touches_write tock ?_ _).bind fun _ => Driver.touches_write tock ?_ _
  all_goals simp [configuration]

/-- The initialisation leaves the data register alone, and never panics. -/
theorem init_touches (kind : UartNum) {baudrate : UInt32} (positive : 0 < baudrate.toNat) :
    Driver.Touches uart.configuration (uart.init tock kind baudrate fuel) := by
  have flushed : Driver.Touches uart.configuration (uart.flush tock fuel) :=
    Driver.touches_spinWhile (by simp [configuration]) _ fuel
  exact flushed.bind fun _ => (uart.disabled_touches tock).bind fun _ =>
    uart.setup_touches tock kind positive

/-- Sending characters touches the registers of transmission. -/
theorem writeLoop_touches (chars : List Char) :
    Driver.Touches uart.transmission (uart.writeLoop tock fuel chars) := by
  induction chars with
  | nil => exact .done
  | cons char chars ih =>
      have one : Driver.Touches uart.transmission (uart.writeChar tock fuel char) :=
        (Driver.touches_spinWhile (by simp [transmission]) _ fuel).bind fun _ =>
          Driver.touches_set (by simp [transmission]) _
      exact one.bind fun _ => ih

/-- So does a formatted text. -/
theorem writeFmt_touches (pieces : List String) :
    Driver.Touches uart.transmission (uart.writeFmt tock fuel pieces) := by
  rw [writeFmt_eq_writeLoop]
  exact uart.writeLoop_touches tock fuel (chars pieces)

end Touches
end Pl011Uart

namespace Rp1Gpio

/-- An operation accesses two registers, those it takes for the ones of its pin. -/
theorem perform_touches (tock : TockRegisters) (gpio : Rp1Gpio) (operation : Operation) :
    Driver.Touches [gpio.ctrl operation.pin, gpio.pad operation.pin]
      (operation.perform tock gpio) := by
  have ctrl (pin : Fin 28) (values : List FieldValue) :
      Driver.Touches [gpio.ctrl pin, gpio.pad pin] (gpio.modifyCtrl tock pin values) := by
    unfold modifyCtrl
    rw [unwrapPin_pin]
    exact Driver.touches_modify tock (by simp [Rp1Gpio.ctrl]) values
  cases operation with
  | setFunc pin function => exact ctrl pin _
  | enableOutput pin =>
      refine (ctrl pin _).bind fun _ => ?_
      rw [unwrapPin_pin]
      exact Driver.touches_modify tock (by simp [Rp1Gpio.pad]) _
  | gpioEnable pin => exact ctrl pin _
  | gpioDisable pin => exact ctrl pin _

end Rp1Gpio

section System

variable (tock : TockRegisters) (fuel : Nat) {answer : Request → Option Bytes}
  {respond : List Contact → Contact → BitVec 64}

/-- The registers of the pins of `main`. -/
def pinRegisters : List Nat :=
  ([14, 15, 18] : List (Fin 28)).flatMap fun pin => [Rp1Gpio.new.ctrl pin, Rp1Gpio.new.pad pin]

/-- The registers which do not depend on the device tree. -/
def fixedRegisters : List Nat :=
  pl011Uart.configuration ++ pl011Uart.transmission ++ rp1Uart.configuration ++
    rp1Uart.transmission ++ pinRegisters

/-- Drivers run one after the other. -/
theorem driver_bind {α β : Type} (first : Driver α) (next : α → Driver β) :
    driver (first >>= next) = driver first >>= fun value => driver (next value) :=
  Dialogue.embed_bind first next

/-- A driver keeps its registers and its only reason to stop inside a wider program. -/
theorem driver_within {α : Type} {program : Driver α} {registers : List Nat}
    (touches : Driver.Touches registers program) {allowed : Contact → Prop}
    (wider : ∀ access : Access, access.address ∈ registers → allowed (.register access)) :
    Dialogue.Within (fun _ => False) allowed (· = .limit) (driver program) := by
  apply Dialogue.Within.embed touches wider
  rintro why rfl
  rfl

/-- The registers of the debug UART are among the fixed ones. -/
theorem pl011Uart_subset :
    pl011Uart.configuration ++ pl011Uart.transmission ⊆ fixedRegisters := by
  intro address member
  simp only [fixedRegisters, List.mem_append] at member ⊢
  tauto

/-- So are those of the RP1 UART. -/
theorem rp1Uart_subset : rp1Uart.configuration ++ rp1Uart.transmission ⊆ fixedRegisters := by
  intro address member
  simp only [fixedRegisters, List.mem_append] at member ⊢
  tauto

/-- And those of the pins. -/
theorem pinRegisters_subset : pinRegisters ⊆ fixedRegisters := List.subset_append_right _ _

/-- Accesses to some registers, and to all system registers. -/
def Contact.To (registers : List Nat) : Contact → Prop
  | .register access => access.address ∈ registers
  | .system _ => True

/-- A program of `main` which accesses some registers, and stops for any reason. -/
abbrev Reaching {α : Type} (registers : List Nat) (program : Running α) : Prop :=
  Dialogue.Within (fun _ => False) (Contact.To registers) (fun _ => True) program

/-- A driver reaches no more than the registers it touches. -/
theorem driver_reaching {α : Type} {program : Driver α} {registers more : List Nat}
    (touches : Driver.Touches registers program) (subset : registers ⊆ more) :
    Reaching more (driver program) :=
  (driver_within touches fun _ member => subset member).mono (fun _ kept => kept) fun _ _ => trivial

/-- The timer reaches no register of memory. -/
theorem timing_reaching {α : Type} (program : Timing α) (registers : List Nat) :
    Reaching registers (timing program) :=
  Dialogue.Within.embed (.trivial program) (fun _ _ => trivial) fun _ _ => trivial

/-- The registers of a run of `start`. -/
def startRegisters (address : Nat) : List Nat :=
  (⟨address⟩ : Pl011Uart).configuration ++ (⟨address⟩ : Pl011Uart).transmission ++ fixedRegisters

/-- Starting the UART at an address reaches its registers. -/
theorem startDebugUart_reaching (address : Nat) :
    Reaching (startRegisters address) (startDebugUart tock fuel ⟨address⟩) := by
  have written (text : String) : Reaching (startRegisters address)
      (driver ((⟨address⟩ : Pl011Uart).write tock fuel text)) :=
    driver_reaching (Pl011Uart.writeLoop_touches tock _ fuel _) (by simp [startRegisters])
  refine (driver_reaching (Pl011Uart.init_touches tock _ fuel .Debug (by decide)) ?_).bind fun _ =>
    (written _).bind fun _ => (driver_reaching (Driver.touches_get ?_) (List.Subset.refl _)).bind
      fun chipId => ?_
  · simp [startRegisters]
  · simp [startRegisters, fixedRegisters, Pl011Uart.transmission, pl011Uart, Pl011Uart.data]
  · split
    · exact written _
    · exact written _

/-- An operation on one of the three pins touches their registers. -/
theorem perform_new_touches (operation : Operation)
    (among : operation.pin ∈ ([14, 15, 18] : List (Fin 28))) :
    Driver.Touches pinRegisters (operation.perform tock Rp1Gpio.new) := by
  apply (Rp1Gpio.perform_touches tock Rp1Gpio.new operation).mono
  intro address member
  exact List.mem_flatMap.mpr ⟨operation.pin, among, member⟩

/-- So does setting them up. -/
theorem setupPins_touches : Driver.Touches pinRegisters (setupPins tock) :=
  (perform_new_touches tock (.setFunc 14 4) (by decide)).bind fun _ =>
    (perform_new_touches tock (.setFunc 15 4) (by decide)).bind fun _ =>
      (perform_new_touches tock (.enableOutput 14) (by decide)).bind fun _ =>
        (perform_new_touches tock (.enableOutput 15) (by decide)).bind fun _ =>
          perform_new_touches tock (.enableOutput 18) (by decide)

/-- Starting the RP1 UART touches its registers. -/
theorem startRp1Uart_touches :
    Driver.Touches (rp1Uart.configuration ++ rp1Uart.transmission) (startRp1Uart tock fuel) :=
  ((Pl011Uart.init_touches tock _ fuel (.Rp1 0) (by decide)).mono (by simp)).bind fun _ =>
    (Pl011Uart.writeLoop_touches tock _ fuel _).mono (by simp)

/-- Starting the timer reaches no others. -/
theorem initTimer_reaching : Reaching fixedRegisters (initTimer tock fuel) := by
  refine (timing_reaching _ _).bind fun frequency =>
    (driver_reaching (Pl011Uart.writeFmt_touches tock _ fuel _) (by simp [fixedRegisters])).bind
      fun _ => ?_
  split
  · exact .done
  · exact .stop trivial

/-- Nor does half a turn of the loop. -/
theorem blinkHalf_reaching (timer : SystemTimer) {pin : Driver Unit}
    (touches : Driver.Touches pinRegisters pin) :
    Reaching fixedRegisters (blinkHalf tock fuel timer pin) :=
  (driver_reaching touches pinRegisters_subset).bind fun _ =>
    (driver_reaching (Pl011Uart.writeLoop_touches tock _ fuel _)
      (List.Subset.trans (List.subset_append_right _ _) rp1Uart_subset)).bind fun _ => timing_reaching _ _

/-- So the loop keeps to the fixed registers. -/
theorem blink_reaching (timer : SystemTimer) (turns : Nat) :
    Reaching fixedRegisters (blink tock fuel timer turns) := by
  induction turns with
  | zero => exact .stop trivial
  | succ turns ih =>
      exact (blinkHalf_reaching tock fuel timer
        (perform_new_touches tock (.gpioEnable 18) (by decide))).bind fun _ =>
          (blinkHalf_reaching tock fuel timer
            (perform_new_touches tock (.gpioDisable 18) (by decide))).bind fun _ => ih

/-- What reaches some registers reaches no others of a larger list. -/
theorem Reaching.mono {α : Type} {program : Running α} {registers more : List Nat}
    (reaching : Reaching registers program) (subset : registers ⊆ more) : Reaching more program := by
  apply Dialogue.Within.mono reaching _ fun _ _ => trivial
  intro contact kept
  cases contact with
  | register access => exact subset kept
  | system register => trivial

/-- All of the start keeps to the fixed registers and those of the found UART. -/
theorem start_reaching (address : Nat) : Reaching (startRegisters address) (start tock fuel address) := by
  have fixed : fixedRegisters ⊆ startRegisters address := by simp [startRegisters]
  exact (startDebugUart_reaching tock fuel address).bind fun _ =>
    (driver_reaching (setupPins_touches tock) (List.Subset.trans pinRegisters_subset fixed)).bind fun _ =>
      (driver_reaching (startRp1Uart_touches tock fuel) (List.Subset.trans rp1Uart_subset fixed)).bind fun _ =>
        ((initTimer_reaching tock fuel).mono fixed).bind fun timer =>
          (blink_reaching tock fuel timer fuel).mono fixed

/-- And the panic handler to the fixed ones. -/
theorem panicHandler_reaching : Reaching fixedRegisters (panicHandler tock fuel) :=
  (driver_reaching (Pl011Uart.init_touches tock _ fuel .Debug (by decide))
    (List.Subset.trans (List.subset_append_left _ _) pl011Uart_subset)).bind fun _ =>
      driver_reaching (Pl011Uart.writeLoop_touches tock _ fuel _)
        (List.Subset.trans (List.subset_append_right _ _) pl011Uart_subset)

/-- Whatever the hardware answers, the program accesses the UART the search has found, and
besides it a fixed list of registers only. -/
theorem system_footprint (answer : Request → Option Bytes)
    (respond : List Contact → Contact → BitVec 64) {access : Access}
    (made : .register access ∈ ((system tock fuel).exec answer respond []).2) :
    access.address ∈ fixedRegisters ∨ ∃ address, located fuel answer = .ok address ∧
      access.address ∈ (⟨address⟩ : Pl011Uart).configuration ++ (⟨address⟩ : Pl011Uart).transmission := by
  have handled (why : Abort) : Reaching fixedRegisters (onAbort tock fuel why) := by
    cases why with
    | panic => exact panicHandler_reaching tock fuel
    | limit => exact .stop trivial
  have register {registers : List Nat} {program : Running Unit} {calls : List Contact}
      (reaching : Reaching registers program) (made : .register access ∈ calls)
      (run : (program.exec answer respond []).2 = calls) : access.address ∈ registers := by
    obtain ⟨more, later, all, -⟩ := reaching.of_exec answer respond []
    rw [run, List.nil_append] at later
    exact all _ (later ▸ made)
  unfold system at made
  rw [Dialogue.exec_rescue, exec_main] at made
  cases found : located fuel answer with
  | error halt =>
      rw [found] at made
      cases halt with
      | stopped why => exact .inl (register (handled why) made rfl)
      | unanswered question => cases made
  | ok address =>
      rw [found] at made
      have whole : Reaching (startRegisters address)
          ((start tock fuel address).rescue (onAbort tock fuel)) :=
        (start_reaching tock fuel address).rescue fun why _ =>
          (handled why).mono (by simp [startRegisters])
      have member := register whole made (by rw [Dialogue.exec_rescue])
      rcases List.mem_append.mp member with own | fixed
      · exact .inr ⟨address, rfl, own⟩
      · exact .inl fixed

/-- No device tree at all: the panic handler polls its UART. -/
theorem panic_footprint :
    pl011Uart.flags ∈ fixedRegisters ∨
      ∃ address, located 1 (fun _ => some (List.replicate 40 0)) = .ok address ∧
        pl011Uart.flags ∈ (⟨address⟩ : Pl011Uart).configuration ++
          (⟨address⟩ : Pl011Uart).transmission := by
  have made : .register (.read pl011Uart.flags) ∈
      ((system tockRegisters 1).exec (fun _ => some (List.replicate 40 0)) (fun _ _ => 0) []).2 := by
    decide +kernel
  exact system_footprint tockRegisters 1 _ _ made

end System
end Rpi5.Bootloader
