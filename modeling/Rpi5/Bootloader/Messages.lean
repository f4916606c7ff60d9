import Rpi5.Bootloader.PrintSteps

/-!
# Messages stay whole

Every call of `_print` holds `DEBUG_UART` until it has written to both UARTs. So each UART
sends the texts of the calls one after another, in the order in which the calls obtained
`DEBUG_UART`, and only the last one may be incomplete. The locks are always taken in the
same order, so whatever happened the threads can finish.
-/

namespace Rpi5.Bootloader

open Rpi5.Logical Rpi5.Semantics Rpi5.Mutex

/-- Before the first call. There may be a UART in `RP1_UART0`; the source puts none there. -/
def silent {ι : Type} (rp1 : Option Pl011Uart) (line : Pl011Uart → Fifo UInt8)
    (programs : ι → List Arguments) : Config ι (Console ι) (Printer ι) where
  shared :=
    { locked := fun _ => false
      cell := fun
        | .debugUart => none
        | .rp1Uart0 => rp1
      line := line
      order := [] }
  threads thread := ⟨thread, .outside, programs thread⟩

section Invariant

variable {ι : Type} [Fintype ι] [DecidableEq ι] {capacity : Pl011Uart → Nat} {rp1 : Option Pl011Uart}
  {line : Pl011Uart → Fifo UInt8} {programs : ι → List Arguments}

/-- A lock with its threads. -/
def lockOf (place : Static) (config : Config ι (Console ι) (Printer ι)) : SpinLock ι :=
  config.lower (fun console => console.locked place) fun printer => printer.stage.spinner place

/-- The invariant of the threads and their calls. -/
structure Accounted (rp1 : Option Pl011Uart) (programs : ι → List Arguments)
    (config : Config ι (Console ι) (Printer ι)) : Prop where
  flagged : ∀ place, (lockOf place config).Flagged
  named : ∀ thread, (config.threads thread).name = thread
  calls : ∀ thread, callsBy thread config.shared.order ++
    ((config.threads thread).stage.due ++ (config.threads thread).program) = programs thread
  debugCell : config.shared.cell .debugUart = none ∨
    config.shared.cell .debugUart = some ⟨pl011UartAddr⟩
  rp1Cell : config.shared.cell .rp1Uart0 = rp1
  writes : ∀ thread place uart args left ready,
    (config.threads thread).stage = .writing place uart args left ready →
      target rp1 place = some uart ∧ left <:+ chars args
  /-- The call which a thread writes is the last of the order. -/
  last : ∀ thread args, (config.threads thread).stage.current = some args →
    ∃ whole, config.shared.order = whole ++ [(thread, args)]

/-- Two threads never hold `DEBUG_UART`. -/
theorem Accounted.alone {config : Config ι (Console ι) (Printer ι)}
    (accounted : Accounted rp1 programs config) {one other : ι}
    (first : (config.threads one).stage.Holds) (second : (config.threads other).stage.Holds) :
    one = other := by
  by_contra differ
  have single := (accounted.flagged .debugUart).single
  have both : ((config.threads one).stage.spinner .debugUart).guards +
      ((config.threads other).stage.spinner .debugUart).guards ≤ (lockOf .debugUart config).guards :=
    add_le_total Spinner.guards (lockOf .debugUart config).threads differ
  rw [guards_of_holds first, guards_of_holds second] at both
  omega

/-- Where `DEBUG_UART` is free nobody holds it. -/
theorem Accounted.free {config : Config ι (Console ι) (Printer ι)}
    (accounted : Accounted rp1 programs config) (free : config.shared.locked .debugUart = false)
    (thread : ι) : ¬ (config.threads thread).stage.Holds := by
  intro holds
  have flag := (accounted.flagged .debugUart).flag
  have single := (accounted.flagged .debugUart).single
  have mine : ((config.threads thread).stage.spinner .debugUart).guards ≤
      (lockOf .debugUart config).guards := le_total Spinner.guards (lockOf .debugUart config).threads thread
  rw [guards_of_holds holds] at mine
  have set := flag.mpr (Nat.le_antisymm single mine)
  have same : (lockOf .debugUart config).shared = config.shared.locked .debugUart := rfl
  rw [same, free] at set
  cases set

/-- Before anything is printed everything is accounted for. -/
theorem accounted_silent (rp1 : Option Pl011Uart) (line : Pl011Uart → Fifo UInt8)
    (programs : ι → List Arguments) : Accounted rp1 programs (silent rp1 line programs) where
  flagged place := by
    have fresh : lockOf place (silent rp1 line programs) = SpinLock.new := by
      cases place <;> rfl
    rw [fresh]
    exact SpinLock.flagged_new
  named _ := rfl
  calls _ := rfl
  debugCell := .inl rfl
  rp1Cell := rfl
  writes _ _ _ _ _ _ writing := by cases writing
  last _ _ current := by cases current

/-- Every step keeps the account. -/
theorem Accounted.step {before after : Config ι (Console ι) (Printer ι)} {thread : ι} {print : Print}
    (accounted : Accounted rp1 programs before)
    (taken : before.step (printing capacity) thread print = some after) :
    Accounted rp1 programs after := by
  obtain ⟨acted, others⟩ := Config.acted_of_step taken
  have printed := printed_of_printing acted
  have name := accounted.named thread
  refine ⟨fun place => ?flagged, fun other => ?named, fun other => ?calls, ?debugCell, ?rp1Cell,
    fun other place uart args left ready writing => ?writes, fun other args current => ?last⟩
  case flagged =>
    rcases (printing_refines capacity place).step taken with same | ⟨lower, stepped⟩
    · unfold lockOf
      rw [same]
      exact accounted.flagged place
    · exact (accounted.flagged place).step stepped
  case named =>
    by_cases mine : other = thread
    · rw [mine, name_of_printed printed, name]
    · rw [others other mine, accounted.named other]
  case calls =>
    rw [← accounted.calls other]
    by_cases mine : other = thread
    · have kept := calls_of_printed printed
      rwa [name, ← mine] at kept
    · rw [others other mine]
      rcases order_of_printed printed with same | ⟨args, -, -, -, same⟩
      · rw [same]
      · have differ : thread ≠ other := fun same => mine same.symm
        rw [same, name]
        simp [callsBy, differ]
  case debugCell =>
    rcases (cells_of_printed printed).2 with same | same
    · rw [same]
      exact accounted.debugCell
    · right
      rcases accounted.debugCell with none | some <;> rw [same] <;> simp [*]
  case rp1Cell => rw [(cells_of_printed printed).1, accounted.rp1Cell]
  case writes =>
    by_cases mine : other = thread
    · subst mine
      rcases writes_of_printed printed writing with ⟨looked, all⟩ | ⟨longer, ready, earlier, rest⟩
      · refine ⟨?_, all ▸ List.suffix_rfl⟩
        cases place with
        | debugUart =>
            rcases accounted.debugCell with none | some <;> simp_all [Console.look, target]
        | rp1Uart0 => rw [← looked, target, Console.look, accounted.rp1Cell]
      · obtain ⟨there, suffix⟩ := accounted.writes other place uart args longer ready earlier
        exact ⟨there, rest.trans suffix⟩
    · rw [others other mine] at writing
      exact accounted.writes other place uart args left ready writing
  case last =>
    by_cases mine : other = thread
    · subst mine
      rcases current_of_printed printed current with earlier | ⟨-, entered⟩
      · rcases order_of_printed printed with same | ⟨_, here, -⟩
        · rw [same]
          exact accounted.last other args earlier
        · rw [here] at earlier
          cases earlier
      · exact ⟨before.shared.order, by rw [entered, name]⟩
    · rw [others other mine] at current
      rcases order_of_printed printed with same | ⟨_, -, free, -⟩
      · rw [same]
        exact accounted.last other args current
      · exact absurd (holds_of_current current) (accounted.free free other)

/-- What has gone through a UART, and what the thread with `DEBUG_UART` has to send to it,
are the texts of the calls in their order. -/
structure Balanced (capacity : Pl011Uart → Nat) (rp1 : Option Pl011Uart) (line : Pl011Uart → Fifo UInt8)
    (config : Config ι (Console ι) (Printer ι)) : Prop where
  held : ∀ place uart thread, target rp1 place = some uart → (config.threads thread).stage.Holds →
    (config.shared.line uart).through ++ (config.threads thread).stage.unsent place =
      (line uart).through ++ texts config.shared.order
  quiet : ∀ place uart, target rp1 place = some uart →
    (∀ thread, ¬ (config.threads thread).stage.Holds) →
      (config.shared.line uart).through = (line uart).through ++ texts config.shared.order
  room : ∀ thread place uart args char left,
    (config.threads thread).stage = .writing place uart args (char :: left) true →
      (config.shared.line uart).held.length < capacity uart
  idle : ∀ uart, (∀ place, target rp1 place ≠ some uart) →
    (config.shared.line uart).through = (line uart).through

omit [Fintype ι] [DecidableEq ι] in
/-- And balanced. -/
theorem balanced_silent (capacity : Pl011Uart → Nat) (rp1 : Option Pl011Uart)
    (line : Pl011Uart → Fifo UInt8) (programs : ι → List Arguments) :
    Balanced capacity rp1 line (silent rp1 line programs) where
  held _ _ _ _ holds := by cases holds
  quiet _ _ _ _ := (List.append_nil _).symm
  room _ _ _ _ _ _ ready := by cases ready
  idle _ _ := rfl

/-- Every step keeps the balance. -/
theorem Balanced.step {before after : Config ι (Console ι) (Printer ι)} {thread : ι} {print : Print}
    (distinct : rp1 ≠ some ⟨pl011UartAddr⟩) (accounted : Accounted rp1 programs before)
    (balanced : Balanced capacity rp1 line before)
    (taken : before.step (printing capacity) thread print = some after) :
    Balanced capacity rp1 line after := by
  have kept := accounted.step taken
  obtain ⟨acted, others⟩ := Config.acted_of_step taken
  have printed := printed_of_printing acted
  have sent : ∀ place uart, target rp1 place = some uart →
      ∃ added, texts after.shared.order = texts before.shared.order ++ added ∧
        (after.shared.line uart).through ++ (after.threads thread).stage.unsent place =
          (before.shared.line uart).through ++ (before.threads thread).stage.unsent place ++ added :=
    fun place uart there => sent_of_printed distinct printed accounted.rp1Cell
      (fun place uart args left ready writing =>
        (accounted.writes thread place uart args left ready writing).1)
      (balanced.room thread) there
  refine ⟨fun place uart other there holds => ?held, fun place uart there free => ?quiet,
    fun other place uart args char left ready => ?room, fun uart elsewhere => ?idle⟩
  case held =>
    obtain ⟨added, grown, same⟩ := sent place uart there
    by_cases mine : other = thread
    · subst mine
      by_cases inside : (before.threads other).stage.Holds
      · rw [same, grown, balanced.held place uart other there inside, List.append_assoc]
      · have free := accounted.free (free_of_printed printed inside holds)
        rw [same, grown, unsent_of_not_holds inside, balanced.quiet place uart there free,
          List.append_nil, List.append_assoc]
    · have outside : ¬ (after.threads thread).stage.Holds := fun both => mine (kept.alone holds both)
      rw [others other mine] at holds ⊢
      have before' : ¬ (before.threads thread).stage.Holds := fun both =>
        mine (accounted.alone holds both)
      rcases order_of_printed printed with order | ⟨args, -, -, opened, -⟩
      · rw [order, List.self_eq_append_right] at grown
        subst grown
        rw [unsent_of_not_holds outside, unsent_of_not_holds before'] at same
        simp only [List.append_nil] at same
        rw [same, order]
        exact balanced.held place uart other there holds
      · rw [opened] at outside
        exact absurd rfl outside
  case quiet =>
    obtain ⟨added, grown, same⟩ := sent place uart there
    rw [unsent_of_not_holds (free thread), List.append_nil] at same
    rw [same, grown]
    by_cases inside : (before.threads thread).stage.Holds
    · rw [balanced.held place uart thread there inside, List.append_assoc]
    · have none : ∀ other, ¬ (before.threads other).stage.Holds := by
        intro other
        by_cases mine : other = thread
        · rwa [mine]
        · rw [← others other mine]
          exact free other
      rw [unsent_of_not_holds inside, balanced.quiet place uart there none, List.append_nil,
        List.append_assoc]
  case room =>
    by_cases mine : other = thread
    · subst mine
      rcases ready_of_printed printed ready with earlier | room
      · have less := balanced.room other place uart args char left earlier
        rcases held_of_printed printed uart with fewer | ⟨_, _, _, _, here, there⟩
        · omega
        · rw [there] at ready
          cases ready
      · exact room
    · rw [others other mine] at ready
      have less := balanced.room other place uart args char left ready
      rcases held_of_printed printed uart with fewer | ⟨_, _, _, _, here, -⟩
      · omega
      · have first : (before.threads thread).stage.Holds := by rw [here]; rfl
        have second : (before.threads other).stage.Holds := by rw [ready]; rfl
        exact absurd (accounted.alone second first) mine
  case idle =>
    rw [← balanced.idle uart elsewhere]
    exact idle_of_printed printed
      (fun place uart args left ready writing =>
        (accounted.writes thread place uart args left ready writing).1) elsewhere

/-- Both parts of the invariant, in every state of every run. -/
theorem balanced_of_runs (distinct : rp1 ≠ some ⟨pl011UartAddr⟩) {events : List (ι × Print)}
    {config : Config ι (Console ι) (Printer ι)}
    (runs : Runs (printing capacity) (fun _ => True) (silent rp1 line programs) events config) :
    Accounted rp1 programs config ∧ Balanced capacity rp1 line config := by
  apply runs.invariant
  · exact ⟨accounted_silent rp1 line programs, balanced_silent capacity rp1 line programs⟩
  · rintro before thread print after ⟨accounted, balanced⟩ taken -
    exact ⟨accounted.step taken, balanced.step distinct accounted taken⟩

end Invariant

section Messages

variable {ι : Type} [Fintype ι] [DecidableEq ι] {capacity : Pl011Uart → Nat} {rp1 : Option Pl011Uart}
  {line : Pl011Uart → Fifo UInt8} {programs : ι → List Arguments}

/-- All threads have returned from all their calls. -/
def Finished (config : Config ι (Console ι) (Printer ι)) : Prop :=
  ∀ thread, (config.threads thread).stage = .outside ∧ (config.threads thread).program = []

/-- Each UART has been given the texts of whole calls, in one order for both, and at most the
beginning of one more. The calls of each thread are in its own order. -/
structure Unbroken (rp1 : Option Pl011Uart) (line : Pl011Uart → Fifo UInt8)
    (programs : ι → List Arguments) (config : Config ι (Console ι) (Printer ι)) : Prop where
  calls : ∀ thread, callsBy thread config.shared.order <+: programs thread
  whole : ∀ place uart, target rp1 place = some uart → ∃ whole last begun,
    config.shared.order = whole ++ last ∧ last.length ≤ 1 ∧ begun <+: texts last ∧
      (config.shared.line uart).through = (line uart).through ++ texts whole ++ begun
  idle : ∀ uart, (∀ place, target rp1 place ≠ some uart) →
    (config.shared.line uart).through = (line uart).through
  finished : Finished config → (∀ thread, callsBy thread config.shared.order = programs thread) ∧
    ∀ place uart, target rp1 place = some uart →
      (config.shared.line uart).through = (line uart).through ++ texts config.shared.order

/-- What a thread has to send is the end of its call. -/
theorem unsent_suffix {stage : Printing} {args : Arguments} (current : stage.current = some args)
    (rest : ∀ place uart args left ready, stage = .writing place uart args left ready →
      left <:+ chars args) (place : Static) : stage.unsent place <:+ codeBytes args := by
  cases stage with
  | outside => cases current
  | dropping => cases current
  | locking entering other =>
      cases entering with
      | debugUart => cases current
      | rp1Uart0 =>
          obtain rfl := Option.some.inj current
          cases place with
          | debugUart => exact List.nil_suffix
          | rp1Uart0 => exact List.suffix_rfl
  | opening entering other =>
      obtain rfl := Option.some.inj current
      cases place <;> cases entering <;> first | exact List.nil_suffix | exact List.suffix_rfl
  | writing writing uart other left ready =>
      obtain rfl := Option.some.inj current
      have part : left.map Pl011Uart.codeByte <:+ codeBytes other :=
        (rest _ _ _ _ _ rfl).map Pl011Uart.codeByte
      cases place <;> cases writing <;>
        first | exact part | exact List.nil_suffix | exact List.suffix_rfl

/-- A thread with `DEBUG_UART` which writes no more has sent everything. -/
theorem unsent_of_current {stage : Printing} (none : stage.current = none) (place : Static) :
    stage.unsent place = [] := by
  cases stage with
  | outside | dropping => cases place <;> rfl
  | locking entering other =>
      cases entering with
      | debugUart => cases place <;> rfl
      | rp1Uart0 => cases none
  | opening | writing => cases none

omit [Fintype ι] [DecidableEq ι] in
/-- The texts of two lists stand one behind the other. -/
theorem texts_append (first second : List (ι × Arguments)) :
    texts (first ++ second) = texts first ++ texts second := List.flatMap_append

/-- Whatever the threads print in whatever order of their steps, no text is broken by another,
lost or sent twice. -/
theorem unbroken_of_runs (distinct : rp1 ≠ some ⟨pl011UartAddr⟩) {events : List (ι × Print)}
    {config : Config ι (Console ι) (Printer ι)}
    (runs : Runs (printing capacity) (fun _ => True) (silent rp1 line programs) events config) :
    Unbroken rp1 line programs config := by
  obtain ⟨accounted, balanced⟩ := balanced_of_runs distinct runs
  refine ⟨fun thread => ⟨_, accounted.calls thread⟩, fun place uart there => ?_, balanced.idle,
    fun done => ⟨fun thread => ?_, fun place uart there => ?_⟩⟩
  · by_cases busy : ∃ thread, (config.threads thread).stage.Holds
    · obtain ⟨thread, holds⟩ := busy
      have sent := balanced.held place uart thread there holds
      cases current : (config.threads thread).stage.current with
      | none =>
          rw [unsent_of_current current, List.append_nil] at sent
          exact ⟨config.shared.order, [], [], (List.append_nil _).symm, Nat.zero_le 1,
            List.nil_prefix, by rw [sent, List.append_nil]⟩
      | some args =>
          obtain ⟨whole, order⟩ := accounted.last thread args current
          obtain ⟨begun, text⟩ := unsent_suffix current
            (fun place uart args left ready writing =>
              (accounted.writes thread place uart args left ready writing).2) place
          have last : texts [(thread, args)] = codeBytes args := List.append_nil _
          refine ⟨whole, [(thread, args)], begun, order, Nat.le_refl 1, ⟨_, text.trans last.symm⟩, ?_⟩
          rw [order, texts_append, last, ← text, ← List.append_assoc, ← List.append_assoc] at sent
          exact List.append_cancel_right sent
    · have free := balanced.quiet place uart there fun thread holds => busy ⟨thread, holds⟩
      exact ⟨config.shared.order, [], [], (List.append_nil _).symm, Nat.zero_le 1,
        List.nil_prefix, by rw [free, List.append_nil]⟩
  · have all := accounted.calls thread
    have none : Printing.outside.due = [] := rfl
    rwa [(done thread).1, (done thread).2, none, List.append_nil, List.append_nil] at all
  · refine balanced.quiet place uart there fun thread holds => ?_
    rw [(done thread).1] at holds
    cases holds

/-- Two threads, and what they print. -/
def greeting : Fin 2 → List Arguments
  | 0 => [["a"]]
  | 1 => [["b", "c"]]

/-- A character is written, and drains. -/
def letterMoves : List Print := [.poll, .store, .drain ⟨pl011UartAddr⟩ 1]

/-- The second thread tries to obtain `DEBUG_UART` while the first has it. -/
def greetingMoves : List (Fin 2 × Print) :=
  let closing : List Print := [.close, .lock .exchange, .look, .drop, .drop]
  [(0, .call), (1, .call), (0, .lock .exchange), (1, .lock .fail), (0, .look)] ++
    (letterMoves ++ closing).map (0, ·) ++ [(1, .lock .exchange), (1, .look)] ++
    (letterMoves ++ letterMoves ++ closing).map (1, ·)

/-- The second thread waits for the lock, and its text follows that of the first one. -/
theorem greeting_unbroken : ∃ config : Config (Fin 2) (Console (Fin 2)) (Printer (Fin 2)),
    (config.shared.line ⟨pl011UartAddr⟩).gone = [0x61, 0x62, 0x63] ∧
      Unbroken none (fun _ => ⟨[], []⟩) greeting config := by
  obtain ⟨config, run, sent⟩ : ∃ config, Runs (printing fun _ => 1) (fun _ => True)
      (silent none (fun _ => ⟨[], []⟩) greeting) greetingMoves config ∧
        decide ((config.shared.line ⟨pl011UartAddr⟩).gone = [0x61, 0x62, 0x63]) = true :=
    exists_run_of_exec (by decide +kernel)
  exact ⟨config, of_decide_eq_true sent, unbroken_of_runs (Option.some_ne_none _).symm run⟩

end Messages
end Rpi5.Bootloader
