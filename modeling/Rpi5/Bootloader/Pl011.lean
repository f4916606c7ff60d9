import Rpi5.Bootloader.Registers

/-!
# The UART driver

The module `pl011` of the source. Both busy waits take their number of polls from a
bound; a run which needs more stops with `outOfFuel`.
-/

namespace Rpi5.Bootloader

open Rpi5.Semantics

/-- `UartNum`: which of the UARTs is initialised. -/
inductive UartNum where
  | Debug
  | Rp1 (deviceNum : UInt8)
deriving DecidableEq, Repr

namespace UARTFR

/-- The UART is sending. -/
def busy : Field := ⟨3, 1⟩

/-- The transmit FIFO is full. -/
def txff : Field := ⟨5, 1⟩

end UARTFR

namespace UARTLCR

def fen : Field := ⟨4, 1⟩
def wlen : Field := ⟨5, 2⟩

/-- `WLEN::BIT8`. -/
def bit8 : FieldValue := wlen.val 0b11

end UARTLCR

namespace UARTCR

def uarten : Field := ⟨0, 1⟩
def txe : Field := ⟨8, 1⟩
def rxe : Field := ⟨9, 1⟩

end UARTCR

/-- `UARTICR::ALL`. -/
def UARTICR.all : Field := ⟨0, 11⟩

/-- `Pl011Uart`: the address of its registers. -/
structure Pl011Uart where
  registers : Nat
deriving DecidableEq, Repr

namespace Pl011Uart

section Registers

variable (uart : Pl011Uart)

def data : Nat := uart.registers
def flags : Nat := uart.registers + 0x18
def integerBaudRate : Nat := uart.registers + 0x24
def fractionalBaudRate : Nat := uart.registers + 0x28
def lineControl : Nat := uart.registers + 0x2c
def control : Nat := uart.registers + 0x30
def interrputClear : Nat := uart.registers + 0x44

end Registers

/-- The clock of a UART, as `init` assumes it. -/
def uartClk (uartKind : UartNum) : Nat := if uartKind = .Debug then 44000000 else 48000000

/-- The two parts of the clock divisor, as `init` computes them in `u32`. -/
def clockDivisor (uartClk baudrate : Nat) : Driver (Nat × Nat) := do
  let sixteenths ← Accessing.div uartClk baudrate
  let eighths ← Accessing.checked 32 (uartClk * 8)
  let halves ← Accessing.checked 32 ((← Accessing.div eighths baudrate) + 1)
  return (sixteenths / 16, halves / 2 &&& 0b111111)

variable (tock : TockRegisters) (uart : Pl011Uart)

def flush (fuel : Nat) : Driver Unit :=
  Driver.spinWhile uart.flags (tock.matchesAll [UARTFR.busy.set]) fuel

def disabled : Driver Unit := do
  Driver.modify tock uart.control [UARTCR.uarten.clear]
  Driver.write tock uart.interrputClear [UARTICR.all.set]
  Driver.modify tock uart.lineControl [UARTLCR.fen.clear]

/-- What `init` does once the UART is disabled. -/
def setup (uartKind : UartNum) (baudrate : UInt32) : Driver Unit := do
  Accessing.assert (uartClk uartKind > 3686400)
  let (divisorI, divisorF) ← clockDivisor (uartClk uartKind) baudrate.toNat
  Driver.set uart.integerBaudRate (.ofNat 32 divisorI)
  Driver.set uart.fractionalBaudRate (.ofNat 32 divisorF)
  Driver.write tock uart.lineControl [UARTLCR.bit8, UARTLCR.fen.set]
  Driver.write tock uart.control [UARTCR.uarten.set, UARTCR.txe.set, UARTCR.rxe.set]

def init (uartKind : UartNum) (baudrate : UInt32) (fuel : Nat) : Driver Unit := do
  uart.flush tock fuel
  uart.disabled tock
  uart.setup tock uartKind baudrate

/-- Wait for room in the FIFO, then store the character. -/
def writeChar (fuel : Nat) (char : Char) : Driver Unit := do
  Driver.spinWhile uart.flags (tock.isSet UARTFR.txff) fuel
  Driver.set uart.data (.ofNat 32 char.toNat)

/-- The loop of `write` over the characters. -/
def writeLoop (fuel : Nat) : List Char → Driver Unit
  | [] => return ()
  | char :: chars => do
      uart.writeChar tock fuel char
      writeLoop fuel chars

/-- `write`, and so `write_str`. -/
def write (fuel : Nat) (text : String) : Driver Unit := uart.writeLoop tock fuel text.toList

/-- `write_fmt`: the calls of `write_str` which `fmt::write` makes, one for each piece. -/
def writeFmt (fuel : Nat) : List String → Driver Unit
  | [] => return ()
  | piece :: pieces => do
      uart.write tock fuel piece
      writeFmt fuel pieces

end Pl011Uart
end Rpi5.Bootloader
