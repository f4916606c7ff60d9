import Rpi5.Bootloader.Messages

/-!
# Printing never blocks

From every state the threads can reach in `_print`, some of their steps bring all of them
to the end of all their calls, as long as the UARTs drain. The thread with `DEBUG_UART` can
always go on, since `RP1_UART0` is only ever held under it; and where nobody has it, every
other thread can obtain it.
-/

namespace Rpi5.Bootloader

open Rpi5.Logical Rpi5.Semantics Rpi5.Mutex

/-- A bound on the steps a thread needs to leave `_print`. -/
def Printing.work : Printing → Nat
  | .outside => 0
  | .dropping .debugUart => 1
  | .dropping .rp1Uart0 => 2
  | .writing .rp1Uart0 _ _ left ready => 4 + 2 * left.length - ready.toNat
  | .opening .rp1Uart0 args => 5 + 2 * (chars args).length
  | .locking .rp1Uart0 args => 6 + 2 * (chars args).length
  | .writing .debugUart _ args left ready => 8 + 2 * (chars args).length + 2 * left.length - ready.toNat
  | .opening .debugUart args => 9 + 4 * (chars args).length
  | .locking .debugUart args => 10 + 4 * (chars args).length

/-- The same for all its calls. -/
def Printer.work {ι : Type} (printer : Printer ι) : Nat :=
  printer.stage.work + (printer.program.map fun args => 11 + 4 * (chars args).length).sum

section Steps

variable {ι : Type} {capacity : Pl011Uart → Nat} {console : Console ι} {printer : Printer ι}

/-- A thread comes nearer to the end by steps of its own, once its FIFO drains. -/
def Advances (capacity : Pl011Uart → Nat) (console : Console ι) (printer : Printer ι) : Prop :=
  ∃ prints after next, alone (printing capacity) console printer prints = some (after, next) ∧
    next.work < printer.work

/-- One step suffices. -/
theorem advances_of_step (print : Print) {after : Console ι} {next : Printer ι}
    (taken : printing capacity console printer print = some (after, next))
    (less : next.work < printer.work) : Advances capacity console printer := by
  refine ⟨[print], after, next, ?_, less⟩
  rw [alone, taken]
  rfl

variable {name : ι} {program : List Arguments}

/-- The next character is stored once there is room. -/
theorem advances_of_writing (positive : ∀ uart, 0 < capacity uart) (place : Static) (uart : Pl011Uart)
    (args : Arguments) (char : Char) (left : List Char) (ready : Bool) :
    Advances capacity console ⟨name, .writing place uart args (char :: left) ready, program⟩ := by
  cases ready with
  | true =>
      refine advances_of_step .store rfl ?_
      cases place <;> simp [Printer.work, Printing.work] <;> omega
  | false =>
      let dry := console.drained uart (console.line uart).held.length
      have room : (dry.line uart).held.length < capacity uart := by
        have empty : (dry.line uart).held = [] := by simp [dry, Console.drained, Fifo.drained]
        rw [empty]
        exact positive uart
      have polled : printing capacity dry ⟨name, .writing place uart args (char :: left) false, program⟩
          .poll = some (dry, ⟨name, .writing place uart args (char :: left) true, program⟩) := by
        simp [printing, room]
      have drained : printing capacity console
          ⟨name, .writing place uart args (char :: left) false, program⟩
          (.drain uart (console.line uart).held.length) =
            some (dry, ⟨name, .writing place uart args (char :: left) false, program⟩) := rfl
      refine ⟨[.drain uart (console.line uart).held.length, .poll], dry,
        ⟨name, .writing place uart args (char :: left) true, program⟩, ?_, ?_⟩
      · rw [alone, drained, Option.bind_some, alone, polled]
        rfl
      · cases place <;> simp [Printer.work, Printing.work]

/-- A look finds a UART to write to, or none. -/
theorem advances_of_opening (place : Static) (args : Arguments) :
    Advances capacity console ⟨name, .opening place args, program⟩ := by
  cases place with
  | debugUart =>
      refine advances_of_step .look rfl ?_
      simp [Printer.work, Printing.work]
      omega
  | rp1Uart0 =>
      cases cell : console.cell .rp1Uart0 with
      | none =>
          have looked : printing capacity console ⟨name, .opening .rp1Uart0 args, program⟩ .look =
              some (console, ⟨name, .dropping .rp1Uart0, program⟩) := by
            simp [printing, Console.look, cell]
          refine advances_of_step .look looked ?_
          simp [Printer.work, Printing.work]
          omega
      | some uart =>
          have looked : printing capacity console ⟨name, .opening .rp1Uart0 args, program⟩ .look =
              some (console, ⟨name, .writing .rp1Uart0 uart args (chars args) false, program⟩) := by
            simp [printing, Console.look, cell]
          refine advances_of_step .look looked ?_
          simp [Printer.work, Printing.work]

/-- A thread which has not finished, and waits for no lock which is held, advances. -/
theorem advances_of_unfinished (positive : ∀ uart, 0 < capacity uart)
    (unfinished : ¬ (printer.stage = .outside ∧ printer.program = []))
    (free : ∀ place args, printer.stage = .locking place args → console.locked place = false) :
    Advances capacity console printer := by
  obtain ⟨name, stage, program⟩ := printer
  cases stage with
  | outside =>
      cases program with
      | nil => exact absurd ⟨rfl, rfl⟩ unfinished
      | cons args rest =>
          refine advances_of_step .call rfl ?_
          simp only [Printer.work, Printing.work, List.map_cons, List.sum_cons]
          omega
  | locking place args =>
      have entered : printing capacity console ⟨name, .locking place args, program⟩ (.lock .exchange) =
          some (console.entered place (name, args), ⟨name, .opening place args, program⟩) := by
        simp [printing, spin, free place args rfl]
      refine advances_of_step _ entered ?_
      cases place <;> simp [Printer.work, Printing.work]
  | opening place args => exact advances_of_opening place args
  | writing place uart args left ready =>
      cases left with
      | cons char left => exact advances_of_writing positive place uart args char left ready
      | nil =>
          have cut := Bool.toNat_le ready
          cases place with
          | debugUart =>
              refine advances_of_step .close rfl ?_
              simp only [Printer.work, Printing.work, List.length_nil]
              omega
          | rp1Uart0 =>
              refine advances_of_step .close rfl ?_
              simp only [Printer.work, Printing.work, List.length_nil]
              omega
  | dropping place =>
      cases place with
      | debugUart =>
          refine advances_of_step .drop rfl ?_
          simp [Printer.work, Printing.work]
      | rp1Uart0 =>
          refine advances_of_step .drop rfl ?_
          simp [Printer.work, Printing.work]

end Steps

section Runs

variable {ι : Type} [Fintype ι] [DecidableEq ι] {capacity : Pl011Uart → Nat} {rp1 : Option Pl011Uart}
  {line : Pl011Uart → Fifo UInt8} {programs : ι → List Arguments}
  {config : Config ι (Console ι) (Printer ι)}

/-- A lock without guards is free. -/
theorem Accounted.unlocked (accounted : Accounted rp1 programs config) {place : Static}
    (none : ∀ thread, ((config.threads thread).stage.spinner place).guards = 0) :
    config.shared.locked place = false := by
  have empty : (lockOf place config).guards = 0 := (total_eq_zero Spinner.guards).mpr none
  have flag := (accounted.flagged place).flag
  rw [empty] at flag
  cases locked : config.shared.locked place with
  | false => rfl
  | true => exact absurd (flag.mp locked) Nat.zero_ne_one

/-- Some thread which has not finished can go on. -/
theorem Accounted.advances (accounted : Accounted rp1 programs config)
    (positive : ∀ uart, 0 < capacity uart) (unfinished : ¬ Finished config) :
    ∃ thread, Advances capacity config.shared (config.threads thread) := by
  by_cases busy : ∃ thread, (config.threads thread).stage.Holds
  · obtain ⟨thread, holds⟩ := busy
    refine ⟨thread, advances_of_unfinished positive ?_ fun place args here => ?_⟩
    · rintro ⟨outside, -⟩
      rw [outside] at holds
      cases holds
    · rw [here] at holds
      cases place with
      | debugUart => cases holds
      | rp1Uart0 =>
          refine accounted.unlocked fun other => ?_
          by_cases mine : other = thread
          · rw [mine, here]
            rfl
          · apply guards_rp1_of_not_holds
            intro both
            rw [← here] at holds
            exact mine (accounted.alone both holds)
  · have idle : ∀ thread, ¬ (config.threads thread).stage.Holds := fun thread holds => busy ⟨thread, holds⟩
    obtain ⟨thread, rest⟩ := not_forall.mp unfinished
    refine ⟨thread, advances_of_unfinished positive rest fun place args here => ?_⟩
    cases place with
    | debugUart => exact accounted.unlocked fun other => guards_of_not_holds (idle other)
    | rp1Uart0 =>
        have holds : (config.threads thread).stage.Holds := by rw [here]; rfl
        exact absurd holds (idle thread)

/-- The account is kept in a whole run. -/
theorem Accounted.of_runs {start : Config ι (Console ι) (Printer ι)} {events : List (ι × Print)}
    (accounted : Accounted rp1 programs start)
    (runs : Runs (printing capacity) (fun _ => True) start events config) :
    Accounted rp1 programs config :=
  runs.invariant accounted fun _ _ _ _ accounted taken _ => accounted.step taken

/-- While some thread has not finished, the work which is left can be lowered. -/
theorem Accounted.lowers (positive : ∀ uart, 0 < capacity uart) (accounted : Accounted rp1 programs config)
    (unfinished : ¬ Finished config) : ∃ events next,
      Runs (printing capacity) (fun _ => True) config events next ∧ Accounted rp1 programs next ∧
        total Printer.work next.threads < total Printer.work config.threads := by
  obtain ⟨thread, prints, after, next, taken, less⟩ := accounted.advances positive unfinished
  have further := Runs.refl.alone taken
  refine ⟨_, _, further, accounted.of_runs further, ?_⟩
  change total Printer.work (Function.update config.threads thread next) < _
  have counted : total Printer.work (Function.update config.threads thread next) +
      (config.threads thread).work = total Printer.work config.threads +
        (Function.update config.threads thread next thread).work :=
    total_of_others Printer.work fun other differs => Function.update_of_ne differs _ _
  rw [Function.update_self] at counted
  omega

/-- When all threads have finished both locks are free. -/
theorem Accounted.unlocked_of_finished (accounted : Accounted rp1 programs config) (done : Finished config)
    (place : Static) : config.shared.locked place = false := by
  refine accounted.unlocked fun thread => ?_
  rw [(done thread).1]
  cases place <;> rfl

/-- Whatever state the threads have reached, they can all finish, and leave both locks free. -/
theorem finishes_of_runs (positive : ∀ uart, 0 < capacity uart) {events : List (ι × Print)}
    (runs : Runs (printing capacity) (fun _ => True) (silent rp1 line programs) events config) :
    ∃ more last, Runs (printing capacity) (fun _ => True) config more last ∧ Finished last ∧
      ∀ place, last.shared.locked place = false := by
  obtain ⟨more, last, rest, accounted, done⟩ := exists_run_of_measure
    (fun config : Config ι (Console ι) (Printer ι) => total Printer.work config.threads)
    (fun _ accounted unfinished => Accounted.lowers positive accounted unfinished)
    ((accounted_silent rp1 line programs).of_runs runs)
  exact ⟨more, last, rest, done, accounted.unlocked_of_finished done⟩

/-- A thread waits for the lock which another one has: both can finish. -/
theorem greeting_finishes : ∃ config more last,
    (config : Config (Fin 2) (Console (Fin 2)) (Printer (Fin 2))).shared.locked .debugUart = true ∧
      Runs (printing fun _ => 1) (fun _ => True) config more last ∧ Finished last ∧
        ∀ place, last.shared.locked place = false := by
  obtain ⟨config, run, held⟩ : ∃ config, Runs (printing fun _ => 1) (fun _ => True)
      (silent none (fun _ => ⟨[], []⟩) greeting) (greetingMoves.take 4) config ∧
        config.shared.locked .debugUart = true :=
    exists_run_of_exec (by decide +kernel)
  obtain ⟨more, last, rest, done⟩ := finishes_of_runs (fun _ => Nat.one_pos) run
  exact ⟨config, more, last, held, rest, done⟩

end Runs
end Rpi5.Bootloader
