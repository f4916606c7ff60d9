import Rpi5.Bootloader.Footprint
import Rpi5.Semantics.Monitor

/-!
# Sessions of a UART

`init` keeps an order: the UART is idle when it is disabled, its divisor is set while it is
disabled, the line control comes after both parts of the divisor, and the UART is enabled last.
`write` keeps one too: it stores a character only after it has seen room for it. A monitor
follows both through the whole program.

No run of `main` and of the panic handler leaves this order at a UART which the program
initialises, whatever the hardware answers.
-/

namespace Rpi5.Bootloader

open Rpi5.Logical Rpi5.Semantics Rpi5.DeviceTree

/-- The registers of a UART which the driver uses. -/
def Pl011Uart.used (uart : Pl011Uart) : List Nat := uart.configuration ++ uart.transmission

/-- How far a UART is configured. -/
inductive Stage where
  | found
  | disabled
  | integer
  | fraction
  | framed
  | enabled
deriving DecidableEq, Repr

/-- A UART, as the accesses so far and their replies leave it. -/
structure Session where
  stage : Stage
  /-- It was not busy when its flags were read last, and has got no character since. -/
  idle : Bool
  /-- It had room when its flags were read last, and has got no character since. -/
  room : Bool
deriving DecidableEq, Repr

namespace Session

/-- One stage after the other. -/
def advance (session : Session) (stage next : Stage) : Option Session :=
  if session.stage = stage then some { session with stage := next } else none

/-- A store to a register of a UART. -/
def store (uart : Pl011Uart) (session : Session) (address : Nat) (word : Word) : Option Session :=
  if address = uart.data then
    if session.stage = .enabled ∧ session.room then
      some { session with idle := false, room := false }
    else none
  else if address = uart.control then
    if UARTCR.uarten.read word ≠ 0 then session.advance .framed .enabled
    else if session.idle then some { session with stage := .disabled }
    else none
  else if address = uart.integerBaudRate then session.advance .disabled .integer
  else if address = uart.fractionalBaudRate then session.advance .integer .fraction
  else if address = uart.lineControl then
    if session.stage = .disabled then some session else session.advance .fraction .framed
  else if address = uart.interrputClear then session.advance .disabled .disabled
  else some session

section Store

variable (uart : Pl011Uart) (session : Session) (word : Word)

/-- Data may be stored if the UART is enabled and has room. -/
theorem store_data : session.store uart uart.data word =
    if session.stage = .enabled ∧ session.room then
      some { session with idle := false, room := false }
    else none := if_pos rfl

/-- The control register enables a framed UART, or disables one which is idle. -/
theorem store_control : session.store uart uart.control word =
    if UARTCR.uarten.read word ≠ 0 then session.advance .framed .enabled
    else if session.idle then some { session with stage := .disabled }
    else none := by
  simp [store, Pl011Uart.data, Pl011Uart.control]

/-- The integer divisor comes first. -/
theorem store_integerBaudRate :
    session.store uart uart.integerBaudRate word = session.advance .disabled .integer := by
  simp [store, Pl011Uart.data, Pl011Uart.control, Pl011Uart.integerBaudRate]

/-- The fraction comes behind it. -/
theorem store_fractionalBaudRate :
    session.store uart uart.fractionalBaudRate word = session.advance .integer .fraction := by
  simp [store, Pl011Uart.data, Pl011Uart.control, Pl011Uart.integerBaudRate,
    Pl011Uart.fractionalBaudRate]

/-- The line control comes last. -/
theorem store_lineControl : session.store uart uart.lineControl word =
    if session.stage = .disabled then some session else session.advance .fraction .framed := by
  simp [store, Pl011Uart.data, Pl011Uart.control, Pl011Uart.integerBaudRate,
    Pl011Uart.fractionalBaudRate, Pl011Uart.lineControl]

/-- Interrupts are cleared while it is disabled. -/
theorem store_interrputClear :
    session.store uart uart.interrputClear word = session.advance .disabled .disabled := by
  simp [store, Pl011Uart.data, Pl011Uart.control, Pl011Uart.integerBaudRate,
    Pl011Uart.fractionalBaudRate, Pl011Uart.lineControl, Pl011Uart.interrputClear]

/-- Other registers are not of this UART. -/
theorem store_other {address : Nat} (other : address ∉ uart.used) :
    session.store uart address word = some session := by
  simp only [Pl011Uart.used, Pl011Uart.configuration, Pl011Uart.transmission, List.mem_append,
    List.mem_cons, List.not_mem_nil, or_false, not_or] at other
  simp [store, other]

end Store

/-- What the flags say. -/
def look (session : Session) (flags : Word) : Session :=
  { session with
    idle := UARTFR.busy.read flags = 0
    room := UARTFR.txff.read flags = 0 }

/-- The order of the accesses to a UART. -/
def monitor (uart : Pl011Uart) : Monitor Contact (BitVec 64) Session
  | session, .register (.write address word), _ => session.store uart address word
  | session, .register (.read address), reply =>
      some (if address = uart.flags then session.look (reply.setWidth 32) else session)
  | session, .system _, _ => some session

/-- A UART as the firmware leaves it. -/
def initial : Session := ⟨.found, false, false⟩

/-- No initialisation is under way. -/
def Resting (session : Session) : Prop := session.stage = .found ∨ session.stage = .enabled

/-- Nothing is under way, and if it is known to be enabled it is. -/
def Ready (known : Prop) (session : Session) : Prop :=
  session.Resting ∧ (known → session.stage = .enabled)

def At (stage : Stage) (session : Session) : Prop := session.stage = stage

end Session

/-- A part of `main` between two conditions on a UART. It panics only where the UART rests. -/
abbrev Conducts {α : Type} (uart : Pl011Uart) (answer : Request → Option Bytes)
    (respond : List Contact → Contact → BitVec 64) (pre : Session → Prop) (program : Running α)
    (post : Session → Prop) : Prop :=
  Dialogue.Keeps answer respond ((Session.monitor uart).Watched respond .initial pre) program
    (fun _ => (Session.monitor uart).Watched respond .initial post)
    fun why => (Session.monitor uart).Watched respond .initial
      fun session => why = .panic → session.Resting

section Drivers

variable {tock : TockRegisters} {fuel : Nat} {uart : Pl011Uart} {answer : Request → Option Bytes}
  {respond : List Contact → Contact → BitVec 64} {pre : Session → Prop}

/-- Reading a register is always in order, and changes no stage. -/
theorem read_accepted (address : Nat) (stages : Stage → Prop) :
    (Session.monitor uart).Accepts (fun session => stages session.stage)
      (.register (.read address)) fun session => stages session.stage := by
  intro session reply holds
  refine ⟨_, rfl, ?_⟩
  split
  · exact holds
  · exact holds

/-- Other registers are nothing to a UART. -/
theorem other_accepted {access : Access} (other : access.address ∉ uart.used) :
    (Session.monitor uart).Accepts pre (.register access) pre := by
  intro session reply holds
  refine ⟨session, ?_, holds⟩
  cases access with
  | read address =>
      refine congrArg some (if_neg ?_)
      rintro rfl
      exact other (by simp [Access.address, Pl011Uart.used, Pl011Uart.configuration])
  | write address word => exact session.store_other uart word other

/-- Only the flags say anything of a UART. -/
theorem read_unchanged {address : Nat} (other : address ≠ uart.flags) :
    (Session.monitor uart).Accepts pre (.register (.read address)) pre :=
  fun session _ holds => ⟨session, congrArg some (if_neg other), holds⟩

/-- A store which takes a UART from one stage to the next. -/
theorem store_accepted {address : Nat} {word : Word} {stage next : Stage}
    (stores : ∀ idle room,
      (⟨stage, idle, room⟩ : Session).store uart address word = some ⟨next, idle, room⟩) :
    (Session.monitor uart).Accepts (Session.At stage) (.register (.write address word))
      (Session.At next) := by
  rintro ⟨_, idle, room⟩ _ rfl
  exact ⟨_, stores idle room, rfl⟩

/-- A busy wait for a flag to be clear. -/
theorem spin_conducts (stages : Stage → Prop) {busy : Word → Bool} {clear : Session → Prop}
    (looked : ∀ (session : Session) word, busy word = false → clear (session.look word)) :
    Conducts uart answer respond (fun session => stages session.stage)
      (driver (Driver.spinWhile uart.flags busy fuel))
      fun session => stages session.stage ∧ clear session := by
  unfold driver Driver.spinWhile
  rw [Dialogue.embed_poll]
  apply Dialogue.keeps_poll
  · intro history watched _
    exact watched.append fun session holds => read_accepted uart.flags stages session _ holds
  · intro history watched ready
    refine watched.append fun session holds => ⟨_, rfl, ?_⟩
    rw [if_pos rfl]
    refine ⟨holds, looked session _ ?_⟩
    simpa [Except.mapError] using ready
  · intro history why _ failed
    cases failed
  · intro history watched
    exact watched.mono fun _ _ same => by cases same

/-- A driver for other registers. -/
theorem other_conducts {α : Type} {program : Driver α} {registers : List Nat}
    (touches : Driver.Touches registers program) (apart : registers.Disjoint uart.used) :
    Conducts uart answer respond pre (driver program) pre := by
  have within : Dialogue.Within (fun _ => False)
      (fun contact => (Session.monitor uart).Accepts pre contact pre) (· = .limit)
      (driver program) :=
    driver_within touches fun access member => other_accepted fun used => apart member used
  refine (within.watched fun _ accepts => accepts).mono (fun _ holds => holds)
    (fun _ _ holds => holds) ?_
  rintro why history ⟨rfl, watched⟩
  exact watched.mono fun _ _ same => by cases same

/-- A UART is idle once it has been flushed. -/
theorem flush_conducts : Conducts uart answer respond Session.Resting
    (driver (uart.flush tock fuel)) fun session => session.Resting ∧ session.idle := by
  refine spin_conducts (fun stage => stage = .found ∨ stage = .enabled) fun session word free => ?_
  have bit : UARTFR.busy.read word < 2 := Nat.mod_lt _ (by decide)
  have off : UARTFR.busy.read word ≠ 1 := by
    intro on
    rw [← Bool.not_eq_true, tock.matchesAll_iff _ _ (by decide)] at free
    refine free fun one member => ?_
    rw [List.mem_singleton.mp member]
    exact on
  exact decide_eq_true (by omega : UARTFR.busy.read word = 0)

/-- An idle UART is disabled, configured and enabled. -/
theorem configure_conducts (kind : UartNum) {baudrate : UInt32} (positive : 0 < baudrate.toNat) :
    Conducts uart answer respond (fun session => session.Resting ∧ session.idle)
      (driver (uart.disabled tock >>= fun _ => uart.setup tock kind baudrate))
      (Session.At .enabled) := by
  obtain ⟨small, fast⟩ := Pl011Uart.uartClk_bounds kind
  have asserted : (Accessing.assert (Pl011Uart.uartClk kind > 3686400) : Driver Unit) = .done () :=
    if_pos fast
  have off (word : Word) : UARTCR.uarten.read (tock.modify [UARTCR.uarten.clear] word) = 0 :=
    tock.read_modify _ word (by decide) _ (List.mem_singleton_self _)
  have on : UARTCR.uarten.read
      (tock.modify [UARTCR.uarten.set, UARTCR.txe.set, UARTCR.rxe.set] 0) = 1 :=
    tock.read_modify _ 0 (by decide) _ (List.mem_cons_self)
  unfold Pl011Uart.setup
  rw [asserted, Pl011Uart.clockDivisor_eq small positive]
  have reads {address : Nat} (other : address ≠ uart.flags) {stages : Session → Prop} :
      (Session.monitor uart).Accepts stages (.register (.read address)) stages := read_unchanged other
  have disabling (word : Word) : (Session.monitor uart).Accepts
      (fun session => session.Resting ∧ session.idle)
      (.register (.write uart.control (tock.modify [UARTCR.uarten.clear] word)))
      (Session.At .disabled) := by
    rintro session _ ⟨-, idle⟩
    refine ⟨{ session with stage := .disabled }, ?_, rfl⟩
    change session.store uart _ _ = _
    rw [Session.store_control, if_neg (not_not.mpr (off word)), if_pos idle]
  have clearing (word : Word) : (Session.monitor uart).Accepts (Session.At .disabled)
      (.register (.write uart.interrputClear word)) (Session.At .disabled) :=
    store_accepted fun _ _ => Session.store_interrputClear _ _ _
  have emptying (word : Word) : (Session.monitor uart).Accepts (Session.At .disabled)
      (.register (.write uart.lineControl word)) (Session.At .disabled) :=
    store_accepted fun _ _ => Session.store_lineControl _ _ _
  have integer (word : Word) : (Session.monitor uart).Accepts (Session.At .disabled)
      (.register (.write uart.integerBaudRate word)) (Session.At .integer) :=
    store_accepted fun _ _ => Session.store_integerBaudRate _ _ _
  have fraction (word : Word) : (Session.monitor uart).Accepts (Session.At .integer)
      (.register (.write uart.fractionalBaudRate word)) (Session.At .fraction) :=
    store_accepted fun _ _ => Session.store_fractionalBaudRate _ _ _
  have framing (word : Word) : (Session.monitor uart).Accepts (Session.At .fraction)
      (.register (.write uart.lineControl word)) (Session.At .framed) :=
    store_accepted fun _ _ => Session.store_lineControl _ _ _
  have enabling : (Session.monitor uart).Accepts (Session.At .framed)
      (.register (.write uart.control
        (tock.modify [UARTCR.uarten.set, UARTCR.txe.set, UARTCR.rxe.set] 0)))
      (Session.At .enabled) := by
    refine store_accepted fun idle room => ?_
    rw [Session.store_control, if_pos (by rw [on]; decide)]
    rfl
  refine Dialogue.keeps_accepted (reads ?_) fun before =>
    Dialogue.keeps_accepted (disabling _) fun _ => Dialogue.keeps_accepted (clearing _) fun _ =>
      Dialogue.keeps_accepted (reads ?_) fun line => Dialogue.keeps_accepted (emptying _) fun _ =>
        Dialogue.keeps_accepted (integer _) fun _ => Dialogue.keeps_accepted (fraction _) fun _ =>
          Dialogue.keeps_accepted (framing _) fun _ => Dialogue.keeps_accepted enabling fun _ =>
            Dialogue.keeps_done fun _ enabled => enabled
  · simp [Pl011Uart.control, Pl011Uart.flags]
  · simp [Pl011Uart.lineControl, Pl011Uart.flags]

/-- The UART itself is enabled by its initialisation, and another one is left as it is. -/
theorem init_conducts {other : Pl011Uart} (apart : other ≠ uart → other.used.Disjoint uart.used)
    (known : Prop) (kind : UartNum) {baudrate : UInt32} (positive : 0 < baudrate.toNat) :
    Conducts uart answer respond (Session.Ready known)
      (driver (other.init tock kind baudrate fuel)) (Session.Ready (known ∨ other = uart)) := by
  by_cases same : other = uart
  · subst same
    unfold Pl011Uart.init
    rw [driver_bind]
    refine (flush_conducts.bind fun _ => configure_conducts kind positive).mono ?_ ?_ fun _ _ holds => holds
    · exact fun history watched => watched.mono fun _ ready => ready.1
    · exact fun _ history watched => watched.mono fun _ enabled => ⟨.inr enabled, fun _ => enabled⟩
  · have touches : Driver.Touches other.used (other.init tock kind baudrate fuel) :=
      (other.init_touches tock fuel kind positive).mono (List.subset_append_left _ _)
    refine (other_conducts touches (apart same)).mono (fun _ holds => holds) ?_ fun _ _ holds => holds
    exact fun _ history watched => watched.mono fun _ ready =>
      ⟨ready.1, fun either => ready.2 (either.resolve_right same)⟩

/-- A text is written to another UART, or to this one if it is known to be enabled. -/
theorem write_conducts {other : Pl011Uart} (apart : other ≠ uart → other.used.Disjoint uart.used)
    {known : Prop} (enabled : other = uart → known) (chars : List Char) :
    Conducts uart answer respond (Session.Ready known) (driver (other.writeLoop tock fuel chars))
      (Session.Ready known) := by
  by_cases same : other = uart
  · subst same
    have sure : known := enabled rfl
    induction chars with
    | nil => exact Dialogue.keeps_done fun _ holds => holds
    | cons char chars ih =>
        have waited : Conducts other answer respond (Session.Ready known)
            (driver (Driver.spinWhile other.flags (tock.isSet UARTFR.txff) fuel))
            fun session => session.Ready known ∧ session.room := by
          refine spin_conducts
            (fun stage => (stage = .found ∨ stage = .enabled) ∧ (known → stage = .enabled))
            fun session word free => ?_
          rw [← Bool.not_eq_true, tock.isSet_iff, not_not] at free
          exact decide_eq_true free
        have stored (word : Word) : Conducts other answer respond
            (fun session => session.Ready known ∧ session.room) (driver (Driver.set other.data word))
            (Session.Ready known) := by
          refine Dialogue.keeps_accepted (fun session _ both => ?_) fun _ =>
            Dialogue.keeps_done fun _ holds => holds
          refine ⟨_, (session.store_data other word).trans (if_pos ⟨both.1.2 sure, both.2⟩), both.1⟩
        unfold Pl011Uart.writeLoop Pl011Uart.writeChar
        rw [driver_bind, driver_bind]
        exact (waited.bind fun _ => stored _).bind fun _ => ih
  · have touches : Driver.Touches other.used (other.writeLoop tock fuel chars) :=
      (other.writeLoop_touches tock fuel chars).mono (List.subset_append_right _ _)
    exact other_conducts touches (apart same)

/-- The timer is nothing to a UART, and may panic at any time. -/
theorem timing_conducts {α : Type} (program : Timing α) (known : Prop) :
    Conducts uart answer respond (Session.Ready known) (timing program) (Session.Ready known) := by
  have within : Dialogue.Within (fun _ => False)
      (fun contact => (Session.monitor uart).Accepts (Session.Ready known) contact
        (Session.Ready known)) (fun _ => True) (timing program) :=
    Dialogue.Within.embed (.trivial program)
      (fun _ _ session _ ready => ⟨session, rfl, ready⟩) fun _ _ => trivial
  refine (within.watched fun _ accepts => accepts).mono (fun _ holds => holds)
    (fun _ _ holds => holds) ?_
  exact fun why history both => both.2.mono fun _ ready _ => ready.1

end Drivers

section System

variable {tock : TockRegisters} {fuel address : Nat} {uart : Pl011Uart}
  {answer : Request → Option Bytes} {respond : List Contact → Contact → BitVec 64} {known : Prop}

/-- Starting the found UART leaves the watched one ready, if it is it or was known. -/
theorem startDebugUart_conducts {debug : Pl011Uart}
    (apart : debug ≠ uart → debug.used.Disjoint uart.used) :
    Conducts uart answer respond (Session.Ready known) (startDebugUart tock fuel debug)
      (Session.Ready (known ∨ debug = uart)) := by
  have written (text : String) : Conducts uart answer respond (Session.Ready (known ∨ debug = uart))
      (driver (debug.write tock fuel text)) (Session.Ready (known ∨ debug = uart)) :=
    write_conducts apart .inr text.toList
  have chip : Conducts uart answer respond (Session.Ready (known ∨ debug = uart))
      (driver (Driver.get pl011UartAddr)) (Session.Ready (known ∨ debug = uart)) :=
    Dialogue.keeps_accepted (read_accepted _ fun stage => (stage = .found ∨ stage = .enabled) ∧
      (known ∨ debug = uart → stage = .enabled)) fun _ => Dialogue.keeps_done fun _ holds => holds
  refine (init_conducts apart known .Debug (by decide)).bind fun _ =>
    (written "debug uart starting...\r\n").bind fun _ => chip.bind fun chipId => ?_
  split
  · exact written _
  · exact written _

/-- So does starting the RP1 UART. -/
theorem startRp1Uart_conducts (apart : rp1Uart ≠ uart → rp1Uart.used.Disjoint uart.used) :
    Conducts uart answer respond (Session.Ready known) (driver (startRp1Uart tock fuel))
      (Session.Ready (known ∨ rp1Uart = uart)) := by
  unfold startRp1Uart
  rw [driver_bind]
  exact (init_conducts apart known (.Rp1 0) (by decide)).bind fun _ => write_conducts apart .inr _

/-- The message of the timer goes to the fixed UART, which has to be known as enabled. -/
theorem initTimer_conducts (apart : pl011Uart ≠ uart → pl011Uart.used.Disjoint uart.used)
    (enabled : pl011Uart = uart → known) :
    Conducts uart answer respond (Session.Ready known) (initTimer tock fuel)
      (Session.Ready known) := by
  refine (timing_conducts _ known).bind fun frequency => ?_
  have told : Conducts uart answer respond (Session.Ready known) (println tock fuel
      ["system counter frequency: ", toString frequency.toNat, "Hz\n"]) (Session.Ready known) := by
    unfold println
    rw [writeFmt_eq_writeLoop]
    exact write_conducts apart enabled _
  refine told.bind fun _ => ?_
  split
  · exact Dialogue.keeps_done fun _ holds => holds
  · exact Dialogue.keeps_stop fun _ watched => watched.mono fun _ ready _ => ready.1

/-- The loop keeps it ready. -/
theorem blink_conducts (apart : rp1Uart ≠ uart → rp1Uart.used.Disjoint uart.used)
    (pins : pinRegisters.Disjoint uart.used) (enabled : rp1Uart = uart → known)
    (timer : SystemTimer) (turns : Nat) :
    Conducts uart answer respond (Session.Ready known) (blink tock fuel timer turns)
      (Session.Ready known) := by
  have half (operation : Operation) (among : operation.pin ∈ ([14, 15, 18] : List (Fin 28))) :
      Conducts uart answer respond (Session.Ready known)
        (blinkHalf tock fuel timer (operation.perform tock Rp1Gpio.new)) (Session.Ready known) :=
    (other_conducts (perform_new_touches tock operation among) pins).bind fun _ =>
      (write_conducts apart enabled _).bind fun _ => timing_conducts _ known
  induction turns with
  | zero => exact Dialogue.keeps_stop fun _ watched => watched.mono fun _ ready _ => ready.1
  | succ turns ih =>
      exact (half (.gpioEnable 18) (by decide)).bind fun _ =>
        (half (.gpioDisable 18) (by decide)).bind fun _ => ih

/-- The panic handler keeps a resting one at rest. -/
theorem panicHandler_conducts (apart : pl011Uart ≠ uart → pl011Uart.used.Disjoint uart.used) :
    Conducts uart answer respond Session.Resting (panicHandler tock fuel) Session.Resting := by
  have started : Conducts uart answer respond (Session.Ready False) (panicHandler tock fuel)
      (Session.Ready (False ∨ pl011Uart = uart)) :=
    (init_conducts apart False .Debug (by decide)).bind fun _ => write_conducts apart .inr _
  refine started.mono ?_ ?_ fun _ _ holds => holds
  · exact fun history watched => watched.mono fun _ resting => ⟨resting, False.elim⟩
  · exact fun _ history watched => watched.mono fun _ ready => ready.1

end System

/-- No run leaves the order at a UART which `main` initialises: the one it has found, or the one
of the RP1. Other UARTs of the program, and the pins, have to be elsewhere. -/
theorem system_in_session (tock : TockRegisters) {fuel address : Nat} {uart : Pl011Uart}
    {answer : Request → Option Bytes} (respond : List Contact → Contact → BitVec 64)
    (found : located fuel answer = .ok address) (own : uart = ⟨address⟩ ∨ uart = rp1Uart)
    (apart : ∀ other ∈ [⟨address⟩, rp1Uart, pl011Uart], other ≠ uart → other.used.Disjoint uart.used)
    (pins : pinRegisters.Disjoint uart.used) :
    ((Session.monitor uart).watch respond .initial
      ((system tock fuel).exec answer respond []).2).isSome := by
  have rp1 := apart rp1Uart (by simp)
  have console := apart pl011Uart (by simp)
  have sure : (False ∨ ⟨address⟩ = uart) ∨ rp1Uart = uart :=
    own.elim (fun same => .inl (.inr same.symm)) fun same => .inr same.symm
  have started : Conducts uart answer respond (Session.Ready False) (start tock fuel address)
      (Session.Ready ((False ∨ ⟨address⟩ = uart) ∨ rp1Uart = uart)) :=
    (startDebugUart_conducts (apart ⟨address⟩ (by simp))).bind fun _ =>
      (other_conducts (setupPins_touches tock) pins).bind fun _ =>
        (startRp1Uart_conducts rp1).bind fun _ =>
          (initTimer_conducts console fun _ => sure).bind fun timer =>
            blink_conducts rp1 pins .inr timer fuel
  have run : Dialogue.Keeps answer respond (· = []) (main tock fuel)
      (fun _ => (Session.monitor uart).Watched respond .initial fun _ => True)
      fun why => (Session.monitor uart).Watched respond .initial
        fun session => why = .panic → session.Resting := by
    rintro _ rfl
    rw [exec_main_of_ok found]
    exact (started.mono (fun _ holds => holds)
      (fun _ _ watched => watched.mono fun _ _ => trivial) fun _ _ holds => holds) []
      ⟨.initial, rfl, .inl rfl, False.elim⟩
  have handled (why : Abort) : Dialogue.Keeps answer respond
      ((Session.monitor uart).Watched respond .initial fun session => why = .panic → session.Resting)
      (onAbort tock fuel why)
      (fun _ => (Session.monitor uart).Watched respond .initial fun _ => True)
      fun _ => (Session.monitor uart).Watched respond .initial fun _ => True := by
    cases why with
    | panic =>
        refine (panicHandler_conducts console).mono ?_ ?_ ?_
        · exact fun _ watched => watched.mono fun _ resting => resting rfl
        · exact fun _ _ watched => watched.mono fun _ _ => trivial
        · exact fun _ _ watched => watched.mono fun _ _ => trivial
    | limit => exact Dialogue.keeps_stop fun _ watched => watched.mono fun _ _ => trivial
  exact (run.rescue handled).watched rfl

/-- On the board of the example the debug UART is the one which `println!` uses. -/
theorem piImage_in_session :
    ((Session.monitor pl011Uart).watch (fun _ _ => 0) .initial
      ((system tockRegisters 30).exec piImage.blob.whole.answer (fun _ _ => 0) []).2).isSome := by
  apply system_in_session tockRegisters (fun _ _ => 0) piImage_located (.inl rfl)
  · intro other member different
    have rp1 : rp1Uart.used.Disjoint pl011Uart.used := List.disjoint_left.mpr (by decide)
    simp only [List.mem_cons, List.not_mem_nil, or_false] at member
    rcases member with rfl | rfl | rfl
    · exact absurd rfl different
    · exact rp1
    · exact absurd rfl different
  · exact List.disjoint_left.mpr (by decide)

end Rpi5.Bootloader
