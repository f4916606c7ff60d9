import Rpi5.Bootloader.Print

/-!
# What one step of printing does

Facts about a single step in `_print`: how each lock sees it, when a call comes into the
order, what is sent and what is left to send.
-/

namespace Rpi5.Bootloader

open Rpi5.Logical Rpi5.Semantics Rpi5.Mutex

/-- A thread in `_print`, as one of the locks sees it. -/
def Printing.spinner : Static → Printing → Spinner
  | .debugUart, .outside => ⟨false, 0⟩
  | .debugUart, .locking .debugUart _ => ⟨true, 0⟩
  | .debugUart, _ => ⟨false, 1⟩
  | .rp1Uart0, .locking .rp1Uart0 _ => ⟨true, 0⟩
  | .rp1Uart0, .opening .rp1Uart0 _ => ⟨false, 1⟩
  | .rp1Uart0, .writing .rp1Uart0 _ _ _ _ => ⟨false, 1⟩
  | .rp1Uart0, .dropping .rp1Uart0 => ⟨false, 1⟩
  | .rp1Uart0, _ => ⟨false, 0⟩

/-- The thread holds `DEBUG_UART`. -/
def Printing.Holds (stage : Printing) : Prop := stage.spinner .debugUart = ⟨false, 1⟩

/-- The bytes a thread with `DEBUG_UART` has still to send to one of the UARTs. -/
def Printing.unsent : Static → Printing → List UInt8
  | .debugUart, .opening .debugUart args => codeBytes args
  | .debugUart, .writing .debugUart _ _ left _ => left.map Pl011Uart.codeByte
  | .rp1Uart0, .opening _ args => codeBytes args
  | .rp1Uart0, .writing .debugUart _ args _ _ => codeBytes args
  | .rp1Uart0, .locking .rp1Uart0 args => codeBytes args
  | .rp1Uart0, .writing .rp1Uart0 _ _ left _ => left.map Pl011Uart.codeByte
  | _, _ => []

/-- The call a thread has begun, before it obtains `DEBUG_UART`. -/
def Printing.due : Printing → List Arguments
  | .locking .debugUart args => [args]
  | _ => []

/-- The call of a thread with `DEBUG_UART`, as long as it may write. -/
def Printing.current : Printing → Option Arguments
  | .locking .rp1Uart0 args => some args
  | .opening _ args => some args
  | .writing _ _ args _ _ => some args
  | _ => none

/-- The texts of some calls. -/
def texts {ι : Type} (order : List (ι × Arguments)) : List UInt8 :=
  order.flatMap fun call => codeBytes call.2

/-- The calls of one thread. -/
def callsBy {ι : Type} [DecidableEq ι] (thread : ι) (order : List (ι × Arguments)) : List Arguments :=
  (order.filter fun call => call.1 = thread).map Prod.snd

/-- The UARTs which are written to. -/
def target (rp1 : Option Pl011Uart) : Static → Option Pl011Uart
  | .debugUart => some ⟨pl011UartAddr⟩
  | .rp1Uart0 => rp1

section Locks

variable {ι : Type} {capacity : Pl011Uart → Nat}

/-- A step in `_print` is one of each of the two locks, or leaves it as it is. -/
theorem step_spin_of_printed {console after : Console ι} {printer next : Printer ι}
    (printed : Printed capacity console printer after next) (place : Static) :
    (after.locked place = console.locked place ∧
        next.stage.spinner place = printer.stage.spinner place) ∨
      ∃ lower, spin (console.locked place) (printer.stage.spinner place) lower =
        some (after.locked place, next.stage.spinner place) := by
  cases printed with
  | drain | spin => exact .inl ⟨rfl, rfl⟩
  | call here =>
      rw [here]
      cases place with
      | debugUart => exact .inr ⟨.lock, rfl⟩
      | rp1Uart0 => exact .inl ⟨rfl, rfl⟩
  | @enter entering args here free =>
      rw [here]
      by_cases same : place = entering
      · subst same
        refine .inr ⟨.exchange, ?_⟩
        cases place <;> simp [Printing.spinner, spin, free, Console.entered]
      · refine .inl ⟨Function.update_of_ne same _ _, ?_⟩
        cases place <;> cases entering <;> first | rfl | exact absurd rfl same
  | @found opening args uart here =>
      rw [here]
      refine .inl ⟨by cases opening <;> rfl, ?_⟩
      cases place <;> cases opening <;> rfl
  | absent here =>
      rw [here]
      exact .inl ⟨rfl, by cases place <;> rfl⟩
  | @poll writing _ _ _ _ here =>
      rw [here]
      exact .inl ⟨rfl, by cases place <;> cases writing <;> rfl⟩
  | @store writing _ _ _ _ here =>
      rw [here]
      exact .inl ⟨rfl, by cases place <;> cases writing <;> rfl⟩
  | next here =>
      rw [here]
      cases place with
      | debugUart => exact .inl ⟨rfl, rfl⟩
      | rp1Uart0 => exact .inr ⟨.lock, rfl⟩
  | finish here =>
      rw [here]
      exact .inl ⟨rfl, by cases place <;> rfl⟩
  | release here =>
      rw [here]
      cases place with
      | debugUart => exact .inl ⟨rfl, rfl⟩
      | rp1Uart0 => exact .inr ⟨.drop, rfl⟩
  | leave here =>
      rw [here]
      cases place with
      | debugUart => exact .inr ⟨.drop, rfl⟩
      | rp1Uart0 => exact .inl ⟨rfl, rfl⟩

/-- Each of the two locks is a spin lock. -/
theorem printing_refines (capacity : Pl011Uart → Nat) (place : Static) :
    Refines (fun console : Console ι => console.locked place)
      (fun printer : Printer ι => printer.stage.spinner place) (printing capacity) spin :=
  fun _ _ _ _ _ taken => step_spin_of_printed (printed_of_printing taken) place

end Locks

section Stages

variable {stage : Printing}

/-- Without the lock nothing is left to be sent. -/
theorem unsent_of_not_holds (free : ¬ stage.Holds) (place : Static) : stage.unsent place = [] := by
  cases stage with
  | outside => cases place <;> rfl
  | locking at' args =>
      cases at' with
      | debugUart => cases place <;> rfl
      | rp1Uart0 => exact absurd rfl free
  | opening | writing | dropping => exact absurd rfl free

/-- A guard of `RP1_UART0` is held only under `DEBUG_UART`. -/
theorem guards_rp1_of_not_holds (free : ¬ stage.Holds) : (stage.spinner .rp1Uart0).guards = 0 := by
  cases stage with
  | outside => rfl
  | locking at' args => cases at' <;> rfl
  | opening | writing | dropping => exact absurd rfl free

/-- To hold the lock is to have its guard. -/
theorem guards_of_holds (holds : stage.Holds) : (stage.spinner .debugUart).guards = 1 := by
  rw [holds]

/-- Not to hold it is to have none. -/
theorem guards_of_not_holds (free : ¬ stage.Holds) : (stage.spinner .debugUart).guards = 0 := by
  cases stage with
  | outside => rfl
  | locking at' args =>
      cases at' with
      | debugUart => rfl
      | rp1Uart0 => exact absurd rfl free
  | opening | writing | dropping => exact absurd rfl free

/-- A thread which may write holds `DEBUG_UART`. -/
theorem holds_of_current {args : Arguments} (current : stage.current = some args) : stage.Holds := by
  cases stage with
  | outside => cases current
  | locking at' args =>
      cases at' with
      | debugUart => cases current
      | rp1Uart0 => rfl
  | dropping => cases current
  | opening | writing => rfl

end Stages

section Facts

variable {ι : Type} {capacity : Pl011Uart → Nat} {console after : Console ι} {printer next : Printer ι}

/-- A thread keeps its name. -/
theorem name_of_printed (printed : Printed capacity console printer after next) :
    next.name = printer.name := by
  cases printed <;> rfl

/-- Only a thread which enters `DEBUG_UART`, where it is free, comes into the order. -/
theorem order_of_printed (printed : Printed capacity console printer after next) :
    after.order = console.order ∨ ∃ args, printer.stage = .locking .debugUart args ∧
      console.locked .debugUart = false ∧ next.stage = .opening .debugUart args ∧
        after.order = console.order ++ [(printer.name, args)] := by
  cases printed with
  | @enter place args here free =>
      cases place with
      | debugUart => exact .inr ⟨args, here, free, rfl, rfl⟩
      | rp1Uart0 => exact .inl rfl
  | @found place args uart here there =>
      cases place <;> exact .inl rfl
  | _ => exact .inl rfl

/-- A call is in the program, then due, then in the order. -/
theorem calls_of_printed [DecidableEq ι] (printed : Printed capacity console printer after next) :
    callsBy printer.name after.order ++ (next.stage.due ++ next.program) =
      callsBy printer.name console.order ++ (printer.stage.due ++ printer.program) := by
  cases printed with
  | drain | spin => rfl
  | call here program =>
      rw [here, program]
      rfl
  | @enter place args here free =>
      cases place with
      | debugUart =>
          have entered : callsBy printer.name (console.order ++ [(printer.name, args)]) =
              callsBy printer.name console.order ++ [args] := by
            simp [callsBy]
          rw [here]
          change callsBy printer.name (console.order ++ [(printer.name, args)]) ++ _ = _
          rw [entered, List.append_assoc]
          rfl
      | rp1Uart0 =>
          rw [here]
          rfl
  | @found place args uart here there =>
      rw [here]
      cases place <;> rfl
  | absent here | poll here | store here | next here | finish here | release here | leave here =>
      rw [here]
      rfl

/-- Only the first look changes a cell. -/
theorem cells_of_printed (printed : Printed capacity console printer after next) :
    after.cell .rp1Uart0 = console.cell .rp1Uart0 ∧
      (after.cell .debugUart = console.cell .debugUart ∨
        after.cell .debugUart = some ((console.cell .debugUart).getD ⟨pl011UartAddr⟩)) := by
  cases printed with
  | @found place args uart here there =>
      cases place with
      | debugUart =>
          refine ⟨?_, .inr ?_⟩ <;> simp [Console.look]
      | rp1Uart0 => exact ⟨rfl, .inl rfl⟩
  | _ => exact ⟨rfl, .inl rfl⟩

/-- A thread goes on writing with the rest of its characters, or begins with all of them. -/
theorem writes_of_printed (printed : Printed capacity console printer after next) {place : Static}
    {uart : Pl011Uart} {args : Arguments} {left : List Char} {ready : Bool}
    (writes : next.stage = .writing place uart args left ready) :
    (console.look place).1 = some uart ∧ left = chars args ∨
      ∃ longer before, printer.stage = .writing place uart args longer before ∧ left <:+ longer := by
  cases printed with
  | drain | spin => exact .inr ⟨left, ready, writes, List.suffix_rfl⟩
  | found here there =>
      cases writes
      exact .inl ⟨there, rfl⟩
  | poll here =>
      cases writes
      exact .inr ⟨_, _, here, List.suffix_rfl⟩
  | store here =>
      cases writes
      exact .inr ⟨_, _, here, List.suffix_cons _ _⟩
  | _ => cases writes

/-- A thread writes the call with which it obtained `DEBUG_UART`. -/
theorem current_of_printed (printed : Printed capacity console printer after next) {args : Arguments}
    (current : next.stage.current = some args) :
    printer.stage.current = some args ∨ printer.stage = .locking .debugUart args ∧
      after.order = console.order ++ [(printer.name, args)] := by
  cases printed with
  | drain | spin => exact .inl current
  | @enter place _ here free =>
      cases current
      rw [here]
      cases place with
      | debugUart => exact .inr ⟨rfl, rfl⟩
      | rp1Uart0 => exact .inl rfl
  | found here | poll here | store here | next here =>
      rw [here]
      exact .inl current
  | _ => cases current

/-- `DEBUG_UART` is obtained only where it is free. -/
theorem free_of_printed (printed : Printed capacity console printer after next)
    (outside : ¬ printer.stage.Holds) (inside : next.stage.Holds) :
    console.locked .debugUart = false := by
  cases printed with
  | drain | spin => exact absurd inside outside
  | call => cases inside
  | @enter place args here free =>
      cases place with
      | debugUart => exact free
      | rp1Uart0 =>
          rw [here] at outside
          exact absurd rfl outside
  | leave => cases inside
  | found here | absent here | poll here | store here | next here | finish here | release here =>
      rw [here] at outside
      exact absurd rfl outside

/-- Only a store adds to what a FIFO holds. -/
theorem held_of_printed (printed : Printed capacity console printer after next) (uart : Pl011Uart) :
    (after.line uart).held.length ≤ (console.line uart).held.length ∨
      ∃ place args char left, printer.stage = .writing place uart args (char :: left) true ∧
        next.stage = .writing place uart args left false := by
  cases printed with
  | drain other count => exact .inl (console.held_drained uart other count)
  | @store place other args char left here =>
      by_cases same : uart = other
      · subst same
        exact .inr ⟨place, args, char, left, here, rfl⟩
      · left
        rw [Console.line_stored_of_ne same]
  | @found place args other here there => cases place <;> exact .inl (Nat.le_refl _)
  | _ => exact .inl (Nat.le_refl _)

/-- Room for the next character was found by a poll. -/
theorem ready_of_printed (printed : Printed capacity console printer after next) {place : Static}
    {uart : Pl011Uart} {args : Arguments} {char : Char} {left : List Char}
    (ready : next.stage = .writing place uart args (char :: left) true) :
    printer.stage = .writing place uart args (char :: left) true ∨
      (after.line uart).held.length < capacity uart := by
  cases printed with
  | drain | spin => exact .inl ready
  | poll here =>
      right
      simp only [Printing.writing.injEq, decide_eq_true_eq] at ready
      obtain ⟨-, rfl, -, -, room⟩ := ready
      exact room
  | found | store => simp at ready
  | _ => cases ready

/-- Nothing is sent to other UARTs. -/
theorem idle_of_printed {rp1 : Option Pl011Uart} (printed : Printed capacity console printer after next)
    (writes : ∀ place uart args left ready, printer.stage = .writing place uart args left ready →
      target rp1 place = some uart)
    {uart : Pl011Uart} (elsewhere : ∀ place, target rp1 place ≠ some uart) :
    (after.line uart).through = (console.line uart).through := by
  cases printed with
  | drain other count => exact console.through_drained uart other count
  | @store place other args char left here =>
      have apart : uart ≠ other := by
        rintro rfl
        exact elsewhere place (writes _ _ _ _ _ here)
      rw [Console.line_stored_of_ne apart]
  | @found place args other here there => cases place <;> rfl
  | _ => rfl

/-- What has gone through a UART and what its thread has to send grow by the texts of the
calls which come into the order. -/
theorem sent_of_printed {rp1 : Option Pl011Uart} (distinct : rp1 ≠ some ⟨pl011UartAddr⟩)
    (printed : Printed capacity console printer after next) (cell : console.cell .rp1Uart0 = rp1)
    (writes : ∀ place uart args left ready, printer.stage = .writing place uart args left ready →
      target rp1 place = some uart)
    (room : ∀ place uart args char left, printer.stage = .writing place uart args (char :: left) true →
      (console.line uart).held.length < capacity uart)
    {place : Static} {uart : Pl011Uart} (there : target rp1 place = some uart) :
    ∃ added, texts after.order = texts console.order ++ added ∧
      (after.line uart).through ++ next.stage.unsent place =
        (console.line uart).through ++ printer.stage.unsent place ++ added := by
  cases printed with
  | drain other count =>
      refine ⟨[], (List.append_nil _).symm, ?_⟩
      rw [Console.through_drained, List.append_nil]
  | spin => exact ⟨[], (List.append_nil _).symm, (List.append_nil _).symm⟩
  | call here | next here | finish here | release here | leave here =>
      rw [here]
      refine ⟨[], (List.append_nil _).symm, ?_⟩
      cases place <;> simp [Printing.unsent]
  | @poll writing _ _ _ _ here =>
      rw [here]
      refine ⟨[], (List.append_nil _).symm, ?_⟩
      cases place <;> cases writing <;> simp [Printing.unsent]
  | @enter entering args here free =>
      rw [here]
      cases entering with
      | debugUart =>
          refine ⟨codeBytes args, by simp [texts, Console.entered], ?_⟩
          cases place <;> simp [Printing.unsent, Console.entered]
      | rp1Uart0 =>
          refine ⟨[], (List.append_nil _).symm, ?_⟩
          cases place <;> simp [Printing.unsent, Console.entered]
  | @found opening args other here =>
      rw [here]
      cases opening with
      | debugUart =>
          refine ⟨[], (List.append_nil _).symm, ?_⟩
          cases place <;> simp [Printing.unsent, Console.look, codeBytes]
      | rp1Uart0 =>
          refine ⟨[], (List.append_nil _).symm, ?_⟩
          cases place <;> simp [Printing.unsent, Console.look, codeBytes]
  | absent here missing =>
      rw [here]
      refine ⟨[], (List.append_nil _).symm, ?_⟩
      cases place with
      | debugUart => simp [Printing.unsent]
      | rp1Uart0 =>
          rw [missing] at cell
          rw [target, ← cell] at there
          cases there
  | @store writing other args char left here =>
      refine ⟨[], (List.append_nil _).symm, ?_⟩
      have theirs := writes _ _ _ _ _ here
      have free := room _ _ _ _ _ here
      rw [here]
      by_cases same : place = writing
      · subst same
        obtain rfl := Option.some.inj (there.symm.trans theirs)
        rw [Console.line_stored, Fifo.through_offered _ free]
        cases place <;> simp [Printing.unsent]
      · have apart : uart ≠ other := by
          rintro rfl
          cases place <;> cases writing <;> simp_all [target]
        rw [Console.line_stored_of_ne apart]
        cases place <;> cases writing <;> simp_all [Printing.unsent]

end Facts

end Rpi5.Bootloader
