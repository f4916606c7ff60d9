import Rpi5.Bootloader.Output
import Rpi5.Mutex.SpinLock

/-!
# Printing

The module `print` of the source, as the steps of any number of threads. A call of `_print`
locks `DEBUG_UART`, puts the UART there if it is the first, and writes its arguments. Still
under this lock it locks `RP1_UART0`, and writes the arguments once more if there is a UART.

The UARTs take bytes into their FIFOs and drain at any time. The order in which the calls
obtain `DEBUG_UART` is kept beside the state.
-/

namespace Rpi5.Bootloader

open Rpi5.Logical Rpi5.Semantics Rpi5.Mutex

/-- `PL011_UART_ADDR`. -/
def pl011UartAddr : Nat := 0x107d001000

/-- `fmt::Arguments`: the pieces which `fmt::write` passes on. -/
abbrev Arguments := List String

/-- The two statics, each a lock with an optional UART in it. -/
inductive Static where
  | debugUart
  | rp1Uart0
deriving DecidableEq, Repr

/-- What the threads share. -/
structure Console (ι : Type) where
  locked : Static → Bool
  cell : Static → Option Pl011Uart
  line : Pl011Uart → Fifo UInt8
  order : List (ι × Arguments)

/-- Where a thread is in `_print`. -/
inductive Printing where
  | outside
  | locking (place : Static) (args : Arguments)
  /-- With the guard, before the look at the UART. -/
  | opening (place : Static) (args : Arguments)
  /-- In `write_fmt`, with the characters left. A poll may have found room for the next. -/
  | writing (place : Static) (uart : Pl011Uart) (args : Arguments) (left : List Char) (ready : Bool)
  | dropping (place : Static)

/-- A thread with the calls it has not begun. -/
structure Printer (ι : Type) where
  name : ι
  stage : Printing
  program : List Arguments

/-- The choices of a thread, and of the UARTs. -/
inductive Print where
  | call
  | lock (action : Spin)
  | look
  | poll
  | store
  | close
  | drop
  | drain (uart : Pl011Uart) (count : Nat)

/-- The characters which `fmt::write` writes. -/
def chars (args : Arguments) : List Char := args.flatMap String.toList

/-- The bytes which are sent for them. -/
def codeBytes (args : Arguments) : List UInt8 := (chars args).map Pl011Uart.codeByte

/-- `write_fmt` writes one character after the other, whatever the pieces. -/
theorem writeFmt_eq_writeLoop (tock : TockRegisters) (uart : Pl011Uart) (fuel : Nat)
    (args : Arguments) : uart.writeFmt tock fuel args = uart.writeLoop tock fuel (chars args) := by
  have split : ∀ first second : List Char, uart.writeLoop tock fuel (first ++ second) =
      (uart.writeLoop tock fuel first >>= fun _ => uart.writeLoop tock fuel second) := by
    intro first second
    induction first with
    | nil => rfl
    | cons char rest ih =>
        rw [List.cons_append, Pl011Uart.writeLoop, Pl011Uart.writeLoop, bind_assoc]
        simp only [ih]
  induction args with
  | nil => rfl
  | cons piece pieces ih =>
      have whole : chars (piece :: pieces) = piece.toList ++ chars pieces := rfl
      rw [Pl011Uart.writeFmt, whole, split, ih]
      rfl

section Steps

variable {ι : Type}

/-- A thread gets a guard. -/
def Console.entered (console : Console ι) (place : Static) (call : ι × Arguments) : Console ι :=
  { console with
    locked := Function.update console.locked place true
    order := if place = .debugUart then console.order ++ [call] else console.order }

/-- A store offers the low byte of a character. -/
def Console.stored (console : Console ι) (capacity : Pl011Uart → Nat) (uart : Pl011Uart)
    (char : Char) : Console ι :=
  { console with
    line := Function.update console.line uart
      ((console.line uart).offered (capacity uart) (Pl011Uart.codeByte char)) }

/-- Some bytes leave a FIFO. -/
def Console.drained (console : Console ι) (uart : Pl011Uart) (count : Nat) : Console ι :=
  { console with line := Function.update console.line uart ((console.line uart).drained count) }

/-- A character stored into a UART is offered to its FIFO. -/
theorem Console.line_stored (console : Console ι) (capacity : Pl011Uart → Nat) (uart : Pl011Uart)
    (char : Char) : (console.stored capacity uart char).line uart =
      (console.line uart).offered (capacity uart) (Pl011Uart.codeByte char) :=
  Function.update_self _ _ _

/-- The others are not touched. -/
theorem Console.line_stored_of_ne {uart other : Pl011Uart} (differ : other ≠ uart)
    (console : Console ι) (capacity : Pl011Uart → Nat) (char : Char) :
    (console.stored capacity uart char).line other = console.line other :=
  Function.update_of_ne differ _ _

/-- Draining changes nothing in what has gone through a UART. -/
@[simp] theorem Console.through_drained (console : Console ι) (uart other : Pl011Uart) (count : Nat) :
    ((console.drained other count).line uart).through = (console.line uart).through := by
  unfold drained
  by_cases same : uart = other
  · subst same
    simp
  · simp [Function.update_of_ne same]

/-- Draining one makes none longer. -/
theorem Console.held_drained (console : Console ι) (uart other : Pl011Uart) (count : Nat) :
    ((console.drained other count).line uart).held.length ≤ (console.line uart).held.length := by
  unfold drained
  by_cases same : uart = other
  · subst same
    simp [Fifo.length_drained]
  · simp [Function.update_of_ne same]

/-- `get_or_insert_with` for `DEBUG_UART`, `as_mut` for `RP1_UART0`. -/
def Console.look (console : Console ι) : Static → Option Pl011Uart × Console ι
  | .debugUart =>
      let uart := (console.cell .debugUart).getD ⟨pl011UartAddr⟩
      (some uart, { console with cell := Function.update console.cell .debugUart (some uart) })
  | .rp1Uart0 => (console.cell .rp1Uart0, console)

/-- The steps of a thread in `_print`, and of the UARTs. -/
def printing (capacity : Pl011Uart → Nat) : Acting (Console ι) (Printer ι) Print :=
  fun console printer print => match print, printer.stage with
  | .drain uart count, _ => some (console.drained uart count, printer)
  | .call, .outside =>
      match printer.program with
      | [] => none
      | args :: rest =>
          some (console, { printer with stage := .locking .debugUart args, program := rest })
  | .lock action, .locking place args =>
      (spin (console.locked place) ⟨true, 0⟩ action).map fun (_, own) =>
        if own = ⟨false, 1⟩ then
          (console.entered place (printer.name, args), { printer with stage := .opening place args })
        else (console, printer)
  | .look, .opening place args =>
      match console.look place with
      | (some uart, console) =>
          some (console, { printer with stage := .writing place uart args (chars args) false })
      | (none, console) => some (console, { printer with stage := .dropping place })
  | .poll, .writing place uart args (char :: left) false =>
      let room := decide ((console.line uart).held.length < capacity uart)
      some (console, { printer with stage := .writing place uart args (char :: left) room })
  | .store, .writing place uart args (char :: left) true =>
      some (console.stored capacity uart char,
        { printer with stage := .writing place uart args left false })
  | .close, .writing .debugUart _ args [] _ =>
      some (console, { printer with stage := .locking .rp1Uart0 args })
  | .close, .writing .rp1Uart0 _ _ [] _ =>
      some (console, { printer with stage := .dropping .rp1Uart0 })
  | .drop, .dropping .rp1Uart0 =>
      some ({ console with locked := Function.update console.locked .rp1Uart0 false },
        { printer with stage := .dropping .debugUart })
  | .drop, .dropping .debugUart =>
      some ({ console with locked := Function.update console.locked .debugUart false },
        { printer with stage := .outside })
  | _, _ => none

/-- What a step does. -/
inductive Printed (capacity : Pl011Uart → Nat) (console : Console ι) (printer : Printer ι) :
    Console ι → Printer ι → Prop where
  | drain (uart count) : Printed capacity console printer (console.drained uart count) printer
  | call {args rest} (here : printer.stage = .outside) (program : printer.program = args :: rest) :
      Printed capacity console printer console
        { printer with stage := .locking .debugUart args, program := rest }
  | spin {place args} (here : printer.stage = .locking place args) :
      Printed capacity console printer console printer
  | enter {place args} (here : printer.stage = .locking place args)
      (free : console.locked place = false) :
      Printed capacity console printer (console.entered place (printer.name, args))
        { printer with stage := .opening place args }
  | found {place args uart} (here : printer.stage = .opening place args)
      (there : (console.look place).1 = some uart) :
      Printed capacity console printer (console.look place).2
        { printer with stage := .writing place uart args (chars args) false }
  | absent {args} (here : printer.stage = .opening .rp1Uart0 args)
      (missing : console.cell .rp1Uart0 = none) :
      Printed capacity console printer console { printer with stage := .dropping .rp1Uart0 }
  | poll {place uart args char left}
      (here : printer.stage = .writing place uart args (char :: left) false) :
      Printed capacity console printer console
        { printer with
          stage := .writing place uart args (char :: left)
            (decide ((console.line uart).held.length < capacity uart)) }
  | store {place uart args char left}
      (here : printer.stage = .writing place uart args (char :: left) true) :
      Printed capacity console printer (console.stored capacity uart char)
        { printer with stage := .writing place uart args left false }
  | next {uart args ready} (here : printer.stage = .writing .debugUart uart args [] ready) :
      Printed capacity console printer console { printer with stage := .locking .rp1Uart0 args }
  | finish {uart args ready} (here : printer.stage = .writing .rp1Uart0 uart args [] ready) :
      Printed capacity console printer console { printer with stage := .dropping .rp1Uart0 }
  | release (here : printer.stage = .dropping .rp1Uart0) :
      Printed capacity console printer
        { console with locked := Function.update console.locked .rp1Uart0 false }
        { printer with stage := .dropping .debugUart }
  | leave (here : printer.stage = .dropping .debugUart) :
      Printed capacity console printer
        { console with locked := Function.update console.locked .debugUart false }
        { printer with stage := .outside }

variable {capacity : Pl011Uart → Nat} {console after : Console ι} {printer next : Printer ι}

/-- The lock is entered only where it is free, and waited for otherwise. -/
theorem printed_of_lock {action : Spin} {place : Static} {args : Arguments}
    (here : printer.stage = .locking place args)
    (taken : printing capacity console printer (.lock action) = some (after, next)) :
    Printed capacity console printer after next := by
  simp only [printing, here, Option.map_eq_some_iff, Prod.exists] at taken
  obtain ⟨locked, own, spun, same⟩ := taken
  cases SpinLock.spun_of_spin spun with
  | @quiet spinning =>
      have outside : (⟨spinning, 0⟩ : Spinner) ≠ ⟨false, 1⟩ := by simp
      rw [if_neg outside] at same
      obtain ⟨rfl, rfl⟩ := Prod.mk.inj same
      exact .spin here
  | enter free =>
      rw [if_pos rfl] at same
      obtain ⟨rfl, rfl⟩ := Prod.mk.inj same
      exact .enter here free
  | leave held => cases held

/-- Every step is one of these. -/
theorem printed_of_printing {print : Print}
    (taken : printing capacity console printer print = some (after, next)) :
    Printed capacity console printer after next := by
  cases print with
  | drain uart count =>
      obtain ⟨rfl, rfl⟩ := Prod.mk.inj (Option.some.inj taken)
      exact .drain uart count
  | call =>
      cases here : printer.stage with
      | outside =>
          cases program : printer.program with
          | nil => simp [printing, here, program] at taken
          | cons args rest =>
              simp only [printing, here, program, Option.some.injEq, Prod.mk.injEq] at taken
              obtain ⟨rfl, rfl⟩ := taken
              exact .call here program
      | _ => simp [printing, here] at taken
  | lock action =>
      cases here : printer.stage with
      | locking place args => exact printed_of_lock here taken
      | _ => simp [printing, here] at taken
  | look =>
      cases here : printer.stage with
      | opening place args =>
          cases place with
          | debugUart =>
              simp only [printing, here, Console.look, Option.some.injEq, Prod.mk.injEq] at taken
              obtain ⟨rfl, rfl⟩ := taken
              exact .found here rfl
          | rp1Uart0 =>
              cases there : console.cell .rp1Uart0 with
              | none =>
                  simp only [printing, here, Console.look, there, Option.some.injEq,
                    Prod.mk.injEq] at taken
                  obtain ⟨rfl, rfl⟩ := taken
                  exact .absent here there
              | some uart =>
                  simp only [printing, here, Console.look, there, Option.some.injEq,
                    Prod.mk.injEq] at taken
                  obtain ⟨rfl, rfl⟩ := taken
                  exact .found here there
      | _ => simp [printing, here] at taken
  | poll =>
      cases here : printer.stage with
      | writing place uart args left ready =>
          cases left with
          | nil => simp [printing, here] at taken
          | cons char left =>
              cases ready with
              | true => simp [printing, here] at taken
              | false =>
                  simp only [printing, here, Option.some.injEq, Prod.mk.injEq] at taken
                  obtain ⟨rfl, rfl⟩ := taken
                  exact .poll here
      | _ => simp [printing, here] at taken
  | store =>
      cases here : printer.stage with
      | writing place uart args left ready =>
          cases left with
          | nil => simp [printing, here] at taken
          | cons char left =>
              cases ready with
              | false => simp [printing, here] at taken
              | true =>
                  simp only [printing, here, Option.some.injEq, Prod.mk.injEq] at taken
                  obtain ⟨rfl, rfl⟩ := taken
                  exact .store here
      | _ => simp [printing, here] at taken
  | close =>
      cases here : printer.stage with
      | writing place uart args left ready =>
          cases left with
          | cons char left => simp [printing, here] at taken
          | nil =>
              cases place with
              | debugUart =>
                  simp only [printing, here, Option.some.injEq, Prod.mk.injEq] at taken
                  obtain ⟨rfl, rfl⟩ := taken
                  exact .next here
              | rp1Uart0 =>
                  simp only [printing, here, Option.some.injEq, Prod.mk.injEq] at taken
                  obtain ⟨rfl, rfl⟩ := taken
                  exact .finish here
      | _ => simp [printing, here] at taken
  | drop =>
      cases here : printer.stage with
      | dropping place =>
          cases place with
          | debugUart =>
              simp only [printing, here, Option.some.injEq, Prod.mk.injEq] at taken
              obtain ⟨rfl, rfl⟩ := taken
              exact .leave here
          | rp1Uart0 =>
              simp only [printing, here, Option.some.injEq, Prod.mk.injEq] at taken
              obtain ⟨rfl, rfl⟩ := taken
              exact .release here
      | _ => simp [printing, here] at taken

end Steps
end Rpi5.Bootloader
