import Rpi5.Bootloader.Print
import Rpi5.Bootloader.Rp1
import Rpi5.Bootloader.SystemTimer
import Rpi5.DeviceTree.Pointers
import Rpi5.Semantics.Embedding

/-!
# The main program

`main` and the panic handler of the source. The parser, the drivers and the timer run after
each other as one program, whose calls are the register accesses of all of them; the
callback of the search fills a cell of `main` and never comes to the outside.

Every loop takes its number of steps from one bound. The last loop never ends, so that a
run of `main` always stops, at the bound or in a panic.
-/

namespace Rpi5.Bootloader

open Rpi5.Logical Rpi5.Semantics Rpi5.DeviceTree

/-- What the program does to the hardware. -/
inductive Contact where
  | register (access : Access)
  | system (register : SystemRegister)
deriving DecidableEq, Repr

/-- Why a run stops. -/
inductive Abort where
  | panic
  /-- The bound on the number of steps was too small. -/
  | limit
deriving DecidableEq, Repr

namespace Abort

/-- `unwrap` panics on an `Err` of the parser, which may also panic by itself. -/
def ofStop : Stop → Abort
  | .outOfFuel => .limit
  | _ => .panic

def ofFault : Fault → Abort
  | .outOfFuel => .limit
  | _ => .panic

end Abort

/-- Code which reads the device tree and accesses the hardware. -/
abbrev Running (α : Type) := Dialogue Request Bytes Contact (BitVec 64) Abort α

/-- A driver accesses registers of 32 bits. -/
def driver {α : Type} (program : Driver α) : Running α :=
  program.embed .register (·.setWidth 32) .ofFault

/-- The timer reads registers of 64 bits. -/
def timing {α : Type} (program : Timing α) : Running α :=
  program.embed .system UInt64.ofBitVec .ofFault

/-- `Option::unwrap`. -/
def unwrap {α : Type} : Option α → Running α
  | some value => .done value
  | none => .stop .panic

/-- The closure of `main`: `OnceCell::set` fills an empty cell only, and the search goes on. -/
def setOnce (cell : Option Nat) (window : Window) : ControlFlow × Option Nat :=
  (.Continue, cell.or (some window.1))

/-- A parser in the debug build with the closure of `main`, from an empty cell. -/
def parsing {α : Type} (program : Walking α) : Running (α × Option Nat) :=
  (debug program).absorb setOnce .ofStop none

/-- The debug build makes a reference to registers out of a pointer which is neither null nor
misaligned. -/
def ValidRegisters (address : Nat) : Prop := address ≠ 0 ∧ 4 ∣ address

instance (address : Nat) : Decidable (ValidRegisters address) :=
  inferInstanceAs (Decidable (_ ∧ _))

/-- `Pl011Uart::new`. -/
def Pl011Uart.new (baseAddress : Nat) : Running Pl011Uart :=
  if ValidRegisters baseAddress then .done ⟨baseAddress⟩ else .stop .panic

/-- Where the firmware leaves the device tree. -/
def dtbAddress : Nat := 0x20000000

/-- `RP1_OFFSET_ADDR`. -/
def rp1OffsetAddr : Nat := 0x1f00000000

/-- `RP1_BASE_ADDR`. -/
def rp1BaseAddr : Nat := 0x40000000

/-- `RP1_UART0_ADDR`. -/
def rp1Uart0Addr : Nat := (getBlockAddress .Uart0).address

/-- `UART0_ADDR`. -/
def uart0Addr : Nat := rp1OffsetAddr + (rp1Uart0Addr - rp1BaseAddr)

def rp1Uart : Pl011Uart := ⟨uart0Addr⟩

/-- `PL011_UART_ADDR` as a UART, which `println!` and the panic handler use. -/
def pl011Uart : Pl011Uart := ⟨pl011UartAddr⟩

/-- Both constant addresses pass the check of `Pl011Uart::new`. -/
theorem new_constant :
    Pl011Uart.new uart0Addr = .done rp1Uart ∧ Pl011Uart.new pl011UartAddr = .done pl011Uart :=
  ⟨if_pos (by decide), if_pos (by decide)⟩

/-- `Duration::from_secs(1)`. -/
def oneSecond : Duration := ⟨1, 0, by decide⟩

/-- The address of the debug UART: the first one that the search reports, if it can be the
address of registers. -/
def findDebugUart (fuel : Nat) : Running Nat := do
  let (dtb, _) ← parsing (liftM (DtbParser.init dtbAddress))
  let (_, cell) ← parsing (dtb.findNode none (some "arm,pl011") fuel)
  let debugUart ← Pl011Uart.new (← unwrap cell)
  return debugUart.registers

variable (tock : TockRegisters) (fuel : Nat)

/-- `println!` before `RP1_UART0` has a UART. Its locks are free, as only one core runs. -/
def println (args : Arguments) : Running Unit := driver (pl011Uart.writeFmt tock fuel args)

def startDebugUart (debugUart : Pl011Uart) : Running Unit := do
  driver (debugUart.init tock .Debug 115200 fuel)
  driver (debugUart.write tock fuel "debug uart starting...\r\n")
  let chipId ← driver (Driver.get pl011UartAddr)
  if chipId = 0x20001927 then
    driver (debugUart.write tock fuel "PL011_OFFSET_ADDR is correct\r\n")
  else
    driver (debugUart.write tock fuel "PL011_OFFSET_ADDR is incorrect\r\n")

def setupPins : Driver Unit := do
  Rp1Gpio.new.setFunc tock 14 4
  Rp1Gpio.new.setFunc tock 15 4
  Rp1Gpio.new.enableOutput tock 14
  Rp1Gpio.new.enableOutput tock 15
  Rp1Gpio.new.enableOutput tock 18

def startRp1Uart : Driver Unit := do
  rp1Uart.init tock (.Rp1 0) 115200 fuel
  rp1Uart.write tock fuel "rp1 uart starting...\r\n"

/-- `SystemTimer::init`, with the message of `get_timer_frequency`. -/
def initTimer : Running SystemTimer := do
  let frequency ← timing SystemTimer.getTimerFrequency
  println tock fuel ["system counter frequency: ", toString frequency.toNat, "Hz\n"]
  if nonZero : frequency ≠ 0 then return ⟨some ⟨frequency, nonZero⟩⟩ else .stop .panic

/-- Half a turn of the last loop. -/
def blinkHalf (timer : SystemTimer) (pin : Driver Unit) : Running Unit := do
  driver pin
  driver (rp1Uart.write tock fuel "Hello from RP1\r\n")
  timing (timer.wait oneSecond fuel)

/-- The last loop, for so many turns. -/
def blink (timer : SystemTimer) : Nat → Running Unit
  | 0 => .stop .limit
  | turns + 1 => do
      blinkHalf tock fuel timer (Rp1Gpio.new.gpioEnable tock 18)
      blinkHalf tock fuel timer (Rp1Gpio.new.gpioDisable tock 18)
      blink timer turns

/-- `main` once it has found the debug UART. -/
def start (address : Nat) : Running Unit := do
  startDebugUart tock fuel ⟨address⟩
  driver (setupPins tock)
  driver (startRp1Uart tock fuel)
  let timer ← initTimer tock fuel
  blink tock fuel timer fuel

def main : Running Unit := do
  let address ← findDebugUart fuel
  start tock fuel address

/-- The panic handler, up to its loop around `wfi`. -/
def panicHandler : Running Unit := do
  driver (pl011Uart.init tock .Debug 115200 fuel)
  driver (pl011Uart.write tock fuel "core 0 panicked!!!\r\n")

/-- A panic of `main` runs the panic handler. -/
def onAbort : Abort → Running Unit
  | .panic => panicHandler tock fuel
  | .limit => .stop .limit

/-- `main`, and the panic handler if it panics. -/
def system : Running Unit := (main tock fuel).rescue (onAbort tock fuel)

/-- The hardware `main` runs on: a steady counter, and registers which answer as they like. -/
structure Board where
  frequency : UInt64
  counter : Counter
  device : List Contact → Access → Word

/-- The readings of the counter so far. -/
def readings (history : List Contact) : Nat := history.count (.system .counter)

/-- The answers of the hardware. -/
def Board.respond (board : Board) (history : List Contact) : Contact → BitVec 64
  | .register access => (board.device history access).setWidth 64
  | .system .frequency => board.frequency.toBitVec
  | .system .counter => (board.counter.reading (readings history)).toBitVec

end Rpi5.Bootloader
