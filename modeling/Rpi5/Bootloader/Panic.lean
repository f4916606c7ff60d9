import Rpi5.Bootloader.Turns

/-!
# Panics

A panic of `main` runs the panic handler, which prints its message on the UART at
`PL011_UART_ADDR` and ends the program. On a board whose UARTs are free in time this is what
happens if the search for the debug UART fails, finds nothing, or finds an address which no
reference to registers can be made from, or if the frequency of the counter is zero;
otherwise the program never ends.
-/

namespace Rpi5.Bootloader

open Rpi5.Logical Rpi5.Semantics Rpi5.DeviceTree

/-- The words which an access stores to the data register of a UART. -/
def printed (uart : Pl011Uart) : Contact → List Word
  | .register (.write address word) => if address = uart.data then [word] else []
  | _ => []

/-- The words of the message of the panic handler. -/
def panicMessage : List Word :=
  "core 0 panicked!!!\r\n".toList.map fun char => .ofNat 32 char.toNat

section Printing

variable {tock : TockRegisters} {fuel : Nat} {uart : Pl011Uart}

/-- Accesses to other registers print nothing. -/
theorem silent_prints {α : Type} {program : Driver α} {registers : List Nat}
    (touches : Driver.Touches registers program) (apart : uart.data ∉ registers) :
    Dialogue.Emits (fun access => printed uart (.register access)) [] program := by
  apply Dialogue.Within.emits
  apply Dialogue.Within.mono touches _ fun _ ended => ended
  intro access member
  cases access with
  | read address => rfl
  | write address word =>
      refine if_neg fun same => apart ?_
      rwa [← same]

/-- A text is printed character by character. -/
theorem writeLoop_prints (chars : List Char) :
    Dialogue.Emits (fun access => printed uart (.register access))
      (chars.map fun char => .ofNat 32 char.toNat) (uart.writeLoop tock fuel chars) := by
  induction chars with
  | nil => exact .done
  | cons char chars ih =>
      have apart : uart.data ∉ [uart.flags] := by
        simp [Pl011Uart.data, Pl011Uart.flags]
      have waited := silent_prints (Driver.touches_spinWhile (List.mem_singleton_self uart.flags)
        (tock.isSet UARTFR.txff) fuel) apart
      have stored : Dialogue.Emits (fun access => printed uart (.register access))
          (printed uart (.register (.write uart.data (.ofNat 32 char.toNat))))
          (Driver.set uart.data (.ofNat 32 char.toNat)) := Dialogue.emits_call _ _
      rw [printed, if_pos rfl] at stored
      exact (waited.silent_bind fun _ => stored).bind fun _ => ih

/-- The panic handler prints its message. -/
theorem panicHandler_prints :
    Dialogue.Emits (printed pl011Uart) panicMessage (panicHandler tock fuel) := by
  have silent : Dialogue.Emits (fun access => printed pl011Uart (.register access)) []
      (pl011Uart.init tock .Debug 115200 fuel) :=
    silent_prints (Pl011Uart.init_touches tock pl011Uart fuel .Debug (by decide)) (by decide)
  exact (Dialogue.Emits.embed silent).silent_bind fun _ => (writeLoop_prints _).embed

end Printing

section Completion

variable {tock : TockRegisters} {fuel polls address : Nat} {board : Board}
  {answer : Request → Option Bytes}

/-- What takes no reading returns whatever happened before. -/
theorem completes_of_spends {α : Type} {program : Running α}
    (silent : ∀ limit, Spends board answer limit 0 program) :
    Dialogue.Completes answer board.respond (fun _ => True) program fun _ _ => True := by
  intro history _
  have kept : Dialogue.Completes answer board.respond (fun calls => calls = history) program
      fun _ _ => True := by
    refine ((silent (readings history)).keeps_room 0).mono ?_ (fun _ _ _ => trivial)
      fun _ _ never => never
    rintro _ rfl
    exact Nat.le_refl _
  exact kept history rfl

/-- It completes if the UART frees up. -/
theorem panicHandler_completes (console : board.Frees polls pl011Uart) (enough : polls ≤ fuel) :
    Dialogue.Completes answer board.respond (fun _ => True) (panicHandler tock fuel)
      fun _ _ => True :=
  completes_of_spends fun _ => Spends.silent_bind (init_returning console enough .Debug (by decide))
    fun _ => writeLoop_returning console enough _

/-- The panic handler returns behind its message. -/
theorem panicHandler_reports (console : board.Frees polls pl011Uart) (enough : polls ≤ fuel)
    (history : List Contact) : ∃ later,
      (panicHandler tock fuel).exec answer board.respond history = (.ok (), later) ∧
        panicMessage <:+ later.flatMap (printed pl011Uart) := by
  have prints : Dialogue.Emits (printed pl011Uart) panicMessage (panicHandler tock fuel) :=
    panicHandler_prints
  obtain ⟨value, returned⟩ : ∃ value, ((panicHandler tock fuel).exec answer board.respond
      history).1 = .ok value := (panicHandler_completes console enough).returns trivial
  obtain ⟨added, later, -, whole⟩ := prints.of_exec answer board.respond history
  refine ⟨history ++ added, Prod.ext returned later, ?_⟩
  rw [List.flatMap_append, whole value returned]
  exact List.suffix_append _ _

/-- Without a frequency the timer panics behind its message. -/
theorem initTimer_panics (console : board.Frees polls pl011Uart) (enough : polls ≤ fuel)
    (zero : board.frequency = 0) :
    Dialogue.Keeps answer board.respond (fun _ => True) (initTimer tock fuel) (fun _ _ => False)
      fun why _ => why = .panic := by
  have read : Dialogue.Keeps answer board.respond (fun _ => True)
      (timing SystemTimer.getTimerFrequency) (fun frequency _ => frequency = 0 ∧ True)
      fun why _ => why = .panic := by
    apply Dialogue.keeps_call
    intro history _
    exact Dialogue.keeps_done fun _ _ => ⟨zero, trivial⟩
  refine read.bind fun frequency => Dialogue.keeps_of_fact ?_
  rintro rfl
  have told : Dialogue.Completes answer board.respond (fun _ => True)
      (println tock fuel ["system counter frequency: ", toString (0 : UInt64).toNat, "Hz\n"])
      fun _ _ => True := by
    refine completes_of_spends fun _ => ?_
    unfold println
    rw [writeFmt_eq_writeLoop]
    exact writeLoop_returning console enough _
  refine told.keeps.bind fun _ => ?_
  rw [dif_neg (not_not.mpr rfl)]
  exact Dialogue.keeps_stop fun _ _ => rfl

/-- So `start` always comes to this panic. -/
theorem start_panics (debug : board.Frees polls ⟨address⟩) (rp1 : board.Frees polls rp1Uart)
    (console : board.Frees polls pl011Uart) (enough : polls ≤ fuel) (zero : board.frequency = 0) :
    Dialogue.Keeps answer board.respond (fun _ => True) (start tock fuel address)
      (fun _ _ => False) fun why _ => why = .panic := by
  have uart : Dialogue.Completes answer board.respond (fun _ => True)
      (startDebugUart tock fuel ⟨address⟩) fun _ _ => True :=
    completes_of_spends fun _ => startDebugUart_returning debug enough
  have pins : Dialogue.Completes answer board.respond (fun _ => True) (driver (setupPins tock))
      fun _ _ => True := completes_of_spends fun _ => (setupPins_prompt tock).returning
  have second : Dialogue.Completes answer board.respond (fun _ => True)
      (driver (startRp1Uart tock fuel)) fun _ _ => True :=
    completes_of_spends fun _ => (init_returning rp1 enough (.Rp1 0) (by decide)).bind fun _ =>
      writeLoop_returning rp1 enough _
  exact uart.keeps.bind fun _ => pins.keeps.bind fun _ => second.keeps.bind fun _ =>
    (initTimer_panics console enough zero).bind fun _ => fun _ never => never.elim

end Completion

section Reports

variable (tock : TockRegisters) {fuel polls : Nat} {board : Board} {image : Image}
  {answer : Request → Option Bytes}

/-- A panic at any time ends the program behind the message. -/
theorem system_reports (console : board.Frees polls pl011Uart) (enough : polls ≤ fuel)
    {history : List Contact} (panicked : (main tock fuel).exec answer board.respond [] =
      (.error (.stopped .panic), history)) : ∃ later,
    (system tock fuel).exec answer board.respond [] = (.ok (), later) ∧
      panicMessage <:+ later.flatMap (printed pl011Uart) := by
  unfold system
  rw [Dialogue.exec_rescue, panicked]
  exact panicHandler_reports console enough history

variable (placed : image.blob.base = dtbAddress) {result : Except Failure Unit}
  {calls : List Window}

include placed

/-- `main` panics after a search which leaves it without a debug UART, and without a frequency. -/
theorem main_panics (run : image.debugRun none (some "arm,pl011") .always fuel = (result, calls))
    (whole : result ≠ Image.cut) (rp1 : board.Frees polls rp1Uart)
    (console : board.Frees polls pl011Uart)
    (debug : ∀ window ∈ calls.head?, board.Frees polls ⟨window.1⟩) (enough : polls ≤ fuel)
    (fails : NoDebugUart result calls ∨ result = .ok () ∧ board.frequency = 0) :
    ∃ history, (main tock fuel).exec image.blob.whole.answer board.respond [] =
      (.error (.stopped .panic), history) := by
  by_cases missing : NoDebugUart result calls
  case pos =>
    exact ⟨[], exec_main_of_error (located_of_noDebugUart placed run whole missing)⟩
  case neg =>
    obtain ⟨rfl, zero⟩ := fails.resolve_left missing
    obtain ⟨first, others, rfl, -, found⟩ := located_of_found placed run missing
    have panics : Dialogue.Keeps image.blob.whole.answer board.respond (fun _ => True)
        (start tock fuel first.1) (fun _ _ => False) fun why _ => why = .panic :=
      start_panics (debug first rfl) rp1 console enough zero
    have ends := panics [] trivial
    rw [exec_main_of_ok found]
    rcases ended : (start tock fuel first.1).exec image.blob.whole.answer board.respond [] with
      ⟨halt | value, history⟩
    · rw [ended] at ends
      cases halt with
      | stopped why =>
          subst ends
          exact ⟨history, rfl⟩
      | unanswered request => exact ends.elim
    · rw [ended] at ends
      exact ends.elim

/-- Otherwise the program does not end by itself. -/
theorem system_goes_on
    (returned : image.DebugReturns none (some "arm,pl011") .always result calls)
    (fine : ¬ (NoDebugUart result calls ∨ result = .ok () ∧ board.frequency = 0)) (fuel : Nat)
    (history : List Contact) :
    (system tock fuel).exec image.blob.whole.answer board.respond [] ≠ (.ok (), history) := by
  have found := @located_image image fuel placed
  unfold system
  rw [Dialogue.exec_rescue]
  rcases returned.or_cut fuel with run | short
  · rcases result with (reason | request) | ⟨⟨⟩⟩
    · exact absurd (.inl (.inl ⟨reason, rfl⟩)) fine
    · rw [run] at found
      rw [exec_main_of_error found]
      nofun
    · have running : board.frequency ≠ 0 := fun zero => fine (.inr ⟨rfl, zero⟩)
      obtain ⟨first, others, -, -, here⟩ :=
        located_of_found placed run fun missing => fine (.inl missing)
      obtain ⟨later, calm⟩ := main_calm tock here running
      rw [calm]
      nofun
  · -- A search which was cut cuts `main` as well.
    rcases run : image.debugRun none (some "arm,pl011") .always fuel with ⟨ending, calls⟩
    rw [run] at found short
    subst short
    rw [exec_main_of_error found]
    nofun

/-- On a board whose UARTs are free in time, and a device tree on which the search for the
debug UART ends, the program ends behind its panic message exactly if the search leaves it
without a debug UART, or the frequency is zero. Otherwise it does not end by itself. -/
theorem system_reports_iff
    (returned : image.DebugReturns none (some "arm,pl011") .always result calls)
    (rp1 : board.Frees polls rp1Uart) (console : board.Frees polls pl011Uart)
    (debug : ∀ window ∈ calls.head?, board.Frees polls ⟨window.1⟩) :
    ((∃ enough, ∀ fuel ≥ enough, ∃ history,
        (system tock fuel).exec image.blob.whole.answer board.respond [] = (.ok (), history) ∧
          panicMessage <:+ history.flatMap (printed pl011Uart)) ↔
      NoDebugUart result calls ∨ result = .ok () ∧ board.frequency = 0) ∧
    (¬ (NoDebugUart result calls ∨ result = .ok () ∧ board.frequency = 0) →
      ∀ fuel history,
        (system tock fuel).exec image.blob.whole.answer board.respond [] ≠ (.ok (), history)) := by
  obtain ⟨first, runs⟩ := returned.eventually
  have goes := @system_goes_on tock board image placed result calls returned
  refine ⟨⟨?_, fun fails => ?_⟩, goes⟩
  · rintro ⟨enough, ends⟩
    by_contra fine
    obtain ⟨history, ended, -⟩ := ends enough (Nat.le_refl _)
    exact goes fine enough history ended
  · refine ⟨max polls first, fun fuel large => ?_⟩
    have enough : polls ≤ fuel := (Nat.le_max_left _ _).trans large
    have run := runs fuel ((Nat.le_max_right _ _).trans large)
    obtain ⟨history, panicked⟩ :=
      main_panics tock placed run returned.1 rp1 console debug enough fails
    exact system_reports tock console enough panicked

end Reports

/-- A board which has no UART of the right kind says so. -/
theorem otherImage_reports : ∃ enough, ∀ fuel ≥ enough, ∃ history,
    (system tockRegisters fuel).exec otherImage.blob.whole.answer secondsBoard.respond [] =
        (.ok (), history) ∧ panicMessage <:+ history.flatMap (printed pl011Uart) := by
  have nothing : otherImage.DebugReturns none (some "arm,pl011") .always (.ok ()) [] :=
    ⟨by decide, 20, by decide +kernel⟩
  exact (system_reports_iff tockRegisters rfl nothing (secondsBoard_frees _) (secondsBoard_frees _)
    nofun).1.mpr (.inl (.inr ⟨rfl, nofun⟩))

end Rpi5.Bootloader
