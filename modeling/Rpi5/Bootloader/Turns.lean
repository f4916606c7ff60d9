import Rpi5.Bootloader.Pacing

/-!
# The last loop goes on

A run shows no more than the performance. It also shows no less, as long as the hardware lets
it: on a board whose UARTs leave their busy states after so many polls, and whose counter
advances by a second in so many readings, every turn of the last loop comes to its end.

A counter of 64 bits which never runs back cannot advance for ever. Each wait takes a number of
readings from those for which it does.
-/

namespace Rpi5.Bootloader

open Rpi5.Logical Rpi5.Semantics Rpi5.DeviceTree

namespace Board

variable (board : Board)

/-- Polled at any time, a UART is not busy and has room within so many polls. -/
def Frees (polls : Nat) (uart : Pl011Uart) : Prop :=
  ∀ field ∈ [UARTFR.busy, UARTFR.txff], ∀ history, ∃ earlier < polls, field.read
    ((board.respond (history ++ List.replicate earlier (.register (.read uart.flags)))
      (.register (.read uart.flags))).setWidth 32) = 0

/-- Within so many readings the counter advances by a second, from any of the first ones. -/
def Advances (polls limit : Nat) : Prop :=
  ∀ index < limit,
    (board.counter.reading index).toNat + board.second ≤ (board.counter.reading (index + polls)).toNat

end Board

/-- A driver which polls nothing, and never stops. -/
abbrev Prompt {α : Type} (program : Driver α) : Prop :=
  Dialogue.Within (fun _ => False) (fun _ => True) (fun _ => False) program

section Prompt

variable (tock : TockRegisters)

/-- A read does not poll. -/
theorem get_prompt (address : Nat) : Prompt (Driver.get address) := .call trivial fun _ => .done

/-- Nor does a store. -/
theorem set_prompt (address : Nat) (word : Word) : Prompt (Driver.set address word) :=
  .call trivial fun _ => .done

/-- Nor do both together. -/
theorem modify_prompt (address : Nat) (values : List FieldValue) :
    Prompt (Driver.modify tock address values) :=
  (get_prompt address).bind fun _ => set_prompt address _

/-- Disabling a UART does not poll. -/
theorem disabled_prompt (uart : Pl011Uart) : Prompt (uart.disabled tock) :=
  (modify_prompt tock _ _).bind fun _ => (set_prompt _ _).bind fun _ => modify_prompt tock _ _

/-- Nor does setting it up. -/
theorem setup_prompt (uart : Pl011Uart) (kind : UartNum) {baudrate : UInt32}
    (positive : 0 < baudrate.toNat) : Prompt (uart.setup tock kind baudrate) := by
  obtain ⟨small, fast⟩ := Pl011Uart.uartClk_bounds kind
  have asserted : (Accessing.assert (Pl011Uart.uartClk kind > 3686400) : Driver Unit) = .done () :=
    if_pos fast
  unfold Pl011Uart.setup
  rw [asserted, Pl011Uart.clockDivisor_eq small positive]
  exact (set_prompt _ _).bind fun _ => (set_prompt _ _).bind fun _ =>
    (set_prompt _ _).bind fun _ => set_prompt _ _

/-- Nor does a change of a control register. -/
theorem modifyCtrl_prompt (gpio : Rp1Gpio) (pin : Fin 28) (values : List FieldValue) :
    Prompt (gpio.modifyCtrl tock pin values) := by
  unfold Rp1Gpio.modifyCtrl
  rw [Rp1Gpio.unwrapPin_pin]
  exact modify_prompt tock _ values

/-- Nor does an operation on a pin. -/
theorem perform_prompt (gpio : Rp1Gpio) (operation : Operation) :
    Prompt (operation.perform tock gpio) := by
  cases operation with
  | enableOutput pin =>
      refine (modifyCtrl_prompt tock gpio pin _).bind fun _ => ?_
      rw [Rp1Gpio.unwrapPin_pin]
      exact modify_prompt tock _ _
  | setFunc pin function => exact modifyCtrl_prompt tock gpio pin _
  | gpioEnable pin => exact modifyCtrl_prompt tock gpio pin _
  | gpioDisable pin => exact modifyCtrl_prompt tock gpio pin _

/-- So the pins are set up without polling. -/
theorem setupPins_prompt : Prompt (setupPins tock) :=
  (perform_prompt tock _ (.setFunc 14 4)).bind fun _ =>
    (perform_prompt tock _ (.setFunc 15 4)).bind fun _ =>
      (perform_prompt tock _ (.enableOutput 14)).bind fun _ =>
        (perform_prompt tock _ (.enableOutput 15)).bind fun _ =>
          perform_prompt tock _ (.enableOutput 18)

end Prompt

/-- A program which returns, after so many readings at most. -/
abbrev Spends {α : Type} (board : Board) (answer : Request → Option Bytes) (limit taken : Nat)
    (program : Running α) : Prop :=
  ∀ later, Dialogue.Completes answer board.respond
    (fun history => readings history + (taken + later) ≤ limit) program
    fun _ history => readings history + later ≤ limit

section Spends

variable {tock : TockRegisters} {fuel : Nat} {board : Board} {answer : Request → Option Bytes}
  {limit polls taken more : Nat} {α β : Type}

/-- Readings which are spent add up. -/
theorem Spends.bind {first : Running α} {next : α → Running β}
    (one : Spends board answer limit taken first)
    (other : ∀ value, Spends board answer limit more (next value)) :
    Spends board answer limit (taken + more) (first >>= next) := by
  intro later
  rw [Nat.add_assoc]
  exact (one (more + later)).bind fun value => other value later

/-- What spends nothing may come first. -/
theorem Spends.silent_bind {first : Running α} {next : α → Running β}
    (one : Spends board answer limit 0 first)
    (other : ∀ value, Spends board answer limit taken (next value)) :
    Spends board answer limit taken (first >>= next) := by
  have whole := one.bind other
  rwa [Nat.zero_add] at whole

/-- What spends no readings leaves room for later ones. -/
theorem Spends.keeps_room {program : Running α} (silent : Spends board answer limit 0 program)
    (later : Nat) : Dialogue.Completes answer board.respond
      (fun history => readings history + later ≤ limit) program
      fun _ history => readings history + later ≤ limit := by
  have completes := silent later
  rwa [Nat.zero_add] at completes

/-- A driver reads the counter at no time. -/
abbrev Returning (board : Board) (answer : Request → Option Bytes) (limit : Nat)
    (program : Driver α) : Prop :=
  Spends board answer limit 0 (driver program)

/-- A sequence returns if its parts do. -/
theorem Returning.bind {first : Driver α} {next : α → Driver β}
    (one : Returning board answer limit first)
    (other : ∀ value, Returning board answer limit (next value)) :
    Returning board answer limit (first >>= next) := by
  unfold Returning
  rw [driver_bind]
  exact Spends.bind one other

/-- What does not poll returns. -/
theorem Prompt.returning {program : Driver α} (prompt : Prompt program) :
    Returning board answer limit program := by
  have within : Dialogue.Within (fun _ => False) (fun contact => contact ≠ .system .counter)
      (fun _ => False) (driver program) :=
    Dialogue.Within.embed prompt (fun _ _ => nofun) fun _ never => never
  intro later
  rw [Nat.zero_add]
  refine within.completes fun history contact room other => ?_
  have none : readings [contact] = 0 := List.count_eq_zero.mpr (by simpa using other.symm)
  rw [readings_append, none]
  exact room

/-- A busy wait for a field, which is clear in time. -/
theorem spinWhile_returning {address : Nat} {busy : Word → Bool} (enough : polls ≤ fuel)
    (free : ∀ history, ∃ earlier < polls, busy
      ((board.respond (history ++ List.replicate earlier (.register (.read address)))
        (.register (.read address))).setWidth 32) = false) :
    Returning board answer limit (Driver.spinWhile address busy fuel) := by
  intro later
  unfold driver Driver.spinWhile
  rw [Dialogue.embed_poll, Nat.zero_add]
  apply Dialogue.completes_poll enough
  · intro history _
    obtain ⟨earlier, below, ready⟩ := free history
    exact ⟨earlier, below, by rw [ready]; rfl⟩
  · intro history _ earlier why failed
    cases failed
  · intro history room made _
    have none : readings (List.replicate made (.register (.read address))) = 0 := by
      simp [readings, List.count_replicate]
    rw [readings_append, none]
    exact room

variable {uart : Pl011Uart}

/-- A UART which frees up is initialised. -/
theorem init_returning (frees : board.Frees polls uart) (enough : polls ≤ fuel) (kind : UartNum)
    {baudrate : UInt32} (positive : 0 < baudrate.toNat) :
    Returning board answer limit (uart.init tock kind baudrate fuel) := by
  have flushed : Returning board answer limit (uart.flush tock fuel) := by
    refine spinWhile_returning enough fun history => ?_
    obtain ⟨earlier, below, clear⟩ := frees UARTFR.busy (by simp) history
    exact ⟨earlier, below, Pl011Uart.not_busy clear⟩
  exact flushed.bind fun _ => (disabled_prompt tock uart).returning.bind fun _ =>
    (setup_prompt tock uart kind positive).returning

/-- And takes all characters. -/
theorem writeLoop_returning (frees : board.Frees polls uart) (enough : polls ≤ fuel)
    (chars : List Char) : Returning board answer limit (uart.writeLoop tock fuel chars) := by
  induction chars with
  | nil =>
      have nothing : Prompt (.done () : Driver Unit) := .done
      exact nothing.returning
  | cons char chars ih =>
      have waited : Returning board answer limit
          (Driver.spinWhile uart.flags (tock.isSet UARTFR.txff) fuel) := by
        refine spinWhile_returning enough fun history => ?_
        obtain ⟨earlier, below, clear⟩ := frees UARTFR.txff (by simp) history
        refine ⟨earlier, below, ?_⟩
        rw [← Bool.not_eq_true, tock.isSet_iff]
        exact not_not.mpr clear
      exact (waited.bind fun _ => (set_prompt _ _).returning).bind fun _ => ih

/-- A wait for a second takes the readings in which a second passes, and the first one. -/
theorem wait_spends (advances : board.Advances polls limit) (positive : 0 < polls)
    (enough : polls ≤ fuel) (nonZero : board.frequency ≠ 0) :
    Spends board answer limit (polls + 1)
      (timing ((⟨some ⟨board.frequency, nonZero⟩⟩ : SystemTimer).wait oneSecond fuel)) := by
  intro later
  rw [wait_eq]
  apply Dialogue.keeps_call
  intro history room
  change Dialogue.Completes _ _ _ (timing (Dialogue.poll .counter
    (SystemTimer.waiting (board.counter.reading (readings history)) _) .outOfFuel fuel)) _
  unfold timing
  rw [Dialogue.embed_poll]
  -- From here on the replies are the readings after the first one.
  have reply (earlier : Nat) : board.respond (history ++ [.system .counter] ++
      List.replicate earlier (.system .counter)) (.system .counter) =
      (board.counter.reading (readings history + (earlier + 1))).toBitVec := by
    simp [Board.respond, readings]
  have verdict (earlier : Nat) : (SystemTimer.waiting (board.counter.reading (readings history))
      (SystemTimer.waitTime ⟨board.frequency, nonZero⟩ oneSecond)
      (UInt64.ofBitVec (board.respond (history ++ [.system .counter] ++
        List.replicate earlier (.system .counter)) (.system .counter)))).mapError Abort.ofFault =
      .ok (decide ((board.counter.reading (readings history + (earlier + 1))).toNat -
        (board.counter.reading (readings history)).toNat < board.second)) := by
    rw [reply, UInt64.ofBitVec_toBitVec, waiting_of_le (board.counter.mono (Nat.le_add_right _ _))]
    rfl
  apply Dialogue.completes_poll enough
  · rintro _ rfl
    refine ⟨polls - 1, Nat.sub_one_lt_of_lt positive, (verdict _).trans ?_⟩
    have passed := advances (readings history) (by omega)
    rw [Nat.sub_add_cancel positive, decide_eq_false (by omega)]
  · rintro _ rfl earlier why failed
    rw [verdict] at failed
    cases failed
  · rintro _ rfl made within
    have read : readings (List.replicate made (.system .counter)) = made := by simp [readings]
    have first : readings [.system .counter] = 1 := rfl
    rw [readings_append, readings_append, read, first]
    omega

variable (tock fuel)

/-- So many turns of the last loop. -/
def repeated (timer : SystemTimer) : Nat → Running Unit
  | 0 => return ()
  | turns + 1 => do
      blinkHalf tock fuel timer (Rp1Gpio.new.gpioEnable tock 18)
      blinkHalf tock fuel timer (Rp1Gpio.new.gpioDisable tock 18)
      repeated timer turns

/-- `start` up to so many turns. -/
def rehearsal (address turns : Nat) : Running SystemTimer := do
  startDebugUart tock fuel ⟨address⟩
  driver (setupPins tock)
  driver (startRp1Uart tock fuel)
  let timer ← initTimer tock fuel
  repeated tock fuel timer turns
  return timer

/-- Some turns of the loop come in front of the others. -/
theorem blink_add (timer : SystemTimer) (turns more : Nat) :
    blink tock fuel timer (turns + more) =
      repeated tock fuel timer turns >>= fun _ => blink tock fuel timer more := by
  induction turns with
  | zero => rw [Nat.zero_add]; rfl
  | succ turns ih =>
      rw [Nat.add_right_comm, blink, ih, repeated]
      simp only [bind_assoc]

/-- The last loop goes on after the rehearsal. -/
theorem start_eq {turns : Nat} (within : turns ≤ fuel) (address : Nat) :
    start tock fuel address =
      rehearsal tock fuel address turns >>= fun timer => blink tock fuel timer (fuel - turns) := by
  have loop (timer : SystemTimer) : blink tock fuel timer fuel =
      repeated tock fuel timer turns >>= fun _ => blink tock fuel timer (fuel - turns) := by
    rw [← blink_add, Nat.add_sub_cancel' within]
  unfold start rehearsal
  simp only [loop, bind_assoc, pure_bind]

variable {tock fuel}

/-- Both halves of each turn take a wait. -/
theorem repeated_spends (rp1 : board.Frees polls rp1Uart) (advances : board.Advances polls limit)
    (enough : polls ≤ fuel) (nonZero : board.frequency ≠ 0) (turns : Nat) :
    Spends board answer limit (turns * (2 * (polls + 1)))
      (repeated tock fuel ⟨some ⟨board.frequency, nonZero⟩⟩ turns) := by
  obtain ⟨_, positive, -⟩ := rp1 UARTFR.busy (by simp) []
  have half (operation : Operation) : Spends board answer limit (polls + 1)
      (blinkHalf tock fuel ⟨some ⟨board.frequency, nonZero⟩⟩
        (operation.perform tock Rp1Gpio.new)) := by
    have asked : Returning board answer limit (operation.perform tock Rp1Gpio.new) :=
      (perform_prompt tock _ operation).returning
    have hello : Returning board answer limit (rp1Uart.write tock fuel "Hello from RP1\r\n") :=
      writeLoop_returning rp1 enough _
    exact Spends.silent_bind asked fun _ => Spends.silent_bind hello fun _ =>
      wait_spends advances (Nat.zero_lt_of_lt positive) enough nonZero
  induction turns with
  | zero =>
      intro later
      rw [Nat.zero_mul, Nat.zero_add]
      exact Dialogue.keeps_done fun _ room => room
  | succ turns ih =>
      have whole := (half (.gpioEnable 18)).bind fun _ => (half (.gpioDisable 18)).bind fun _ => ih
      have total : (turns + 1) * (2 * (polls + 1)) =
          polls + 1 + (polls + 1 + turns * (2 * (polls + 1))) := by
        ring
      rw [total]
      exact whole

/-- The timer gets to know the frequency. -/
theorem initTimer_completes (console : board.Frees polls pl011Uart) (enough : polls ≤ fuel)
    (nonZero : board.frequency ≠ 0) (later : Nat) :
    Dialogue.Completes answer board.respond (fun history => readings history + later ≤ limit)
      (initTimer tock fuel) fun timer history =>
        timer = ⟨some ⟨board.frequency, nonZero⟩⟩ ∧ readings history + later ≤ limit := by
  have read : Dialogue.Completes answer board.respond
      (fun history => readings history + later ≤ limit) (timing SystemTimer.getTimerFrequency)
      fun frequency history => frequency = board.frequency ∧ readings history + later ≤ limit := by
    apply Dialogue.keeps_call
    intro history room
    apply Dialogue.keeps_done
    rintro _ rfl
    have none : readings [.system .frequency] = 0 := rfl
    exact ⟨rfl, by rwa [readings_append, none]⟩
  refine read.bind fun frequency => Dialogue.keeps_of_fact ?_
  rintro rfl
  have told : Returning board answer limit (pl011Uart.writeFmt tock fuel
      ["system counter frequency: ", toString board.frequency.toNat, "Hz\n"]) := by
    rw [writeFmt_eq_writeLoop]
    exact writeLoop_returning console enough _
  refine (Spends.keeps_room told later).bind fun _ => ?_
  rw [dif_pos nonZero]
  exact Dialogue.keeps_done fun _ room => ⟨rfl, room⟩

/-- So the found UART is started without a reading. -/
theorem startDebugUart_returning {address : Nat} (debug : board.Frees polls ⟨address⟩)
    (enough : polls ≤ fuel) :
    Spends board answer limit 0 (startDebugUart tock fuel ⟨address⟩) := by
  have written (text : String) : Returning board answer limit
      ((⟨address⟩ : Pl011Uart).write tock fuel text) := writeLoop_returning debug enough _
  have init : Returning board answer limit ((⟨address⟩ : Pl011Uart).init tock .Debug 115200 fuel) :=
    init_returning debug enough .Debug (by decide)
  refine Spends.silent_bind init fun _ =>
    Spends.silent_bind (written "debug uart starting...\r\n") fun _ =>
      Spends.silent_bind (get_prompt pl011UartAddr).returning fun chipId => ?_
  split
  · exact written _
  · exact written _

/-- So many turns are completed as long as a second passes in time. -/
theorem rehearsal_completes {address : Nat} (debug : board.Frees polls ⟨address⟩)
    (rp1 : board.Frees polls rp1Uart) (console : board.Frees polls pl011Uart) (turns : Nat)
    (advances : board.Advances polls (turns * (2 * (polls + 1)))) (enough : polls ≤ fuel)
    (nonZero : board.frequency ≠ 0) :
    Dialogue.Completes answer board.respond (fun history => history = [])
      (rehearsal tock fuel address turns) fun _ _ => True := by
  have pins : Returning board answer (turns * (2 * (polls + 1))) (setupPins tock) :=
    (setupPins_prompt tock).returning
  have uart : Returning board answer (turns * (2 * (polls + 1))) (startRp1Uart tock fuel) :=
    (init_returning rp1 enough (.Rp1 0) (by decide)).bind fun _ => writeLoop_returning rp1 enough _
  have whole : Dialogue.Completes answer board.respond
      (fun history => readings history + (turns * (2 * (polls + 1)) + 0) ≤
        turns * (2 * (polls + 1))) (rehearsal tock fuel address turns) fun _ _ => True := by
    refine ((startDebugUart_returning debug enough).keeps_room _).bind fun _ =>
      (Spends.keeps_room pins _).bind fun _ => (Spends.keeps_room uart _).bind fun _ =>
        (initTimer_completes console enough nonZero _).bind fun timer => Dialogue.keeps_of_fact ?_
    rintro rfl
    exact (repeated_spends rp1 advances enough nonZero turns 0).bind fun _ =>
      Dialogue.keeps_done fun _ _ => trivial
  refine whole.mono ?_ (fun _ _ done => done) fun _ _ never => never
  rintro _ rfl
  exact Nat.le_of_eq (Nat.zero_add _)

/-- The turns show as many turns of the performance. -/
theorem repeated_shows (timer : SystemTimer) (turns : Nat) :
    Dialogue.Emits shown (List.replicate turns turn).flatten (repeated tock fuel timer turns) := by
  induction turns with
  | zero => exact .done
  | succ turns ih => exact turn_shows tock fuel timer ih

/-- A number of turns shows the whole performance with as many turns. -/
theorem rehearsal_shows {address : Nat}
    (hidden : Hidden ((⟨address⟩ : Pl011Uart).configuration ++ (⟨address⟩ : Pl011Uart).transmission))
    (turns : Nat) :
    Dialogue.Emits shown (performance turns) (rehearsal tock fuel address turns) := by
  have pins : Dialogue.Emits shown [.pin 0] (driver (setupPins tock)) := setupPins_shows.embed
  have uart : Dialogue.Emits shown (sentText "rp1 uart starting...\r\n")
      (driver (startRp1Uart tock fuel)) := startRp1Uart_shows.embed
  change Dialogue.Emits shown ([.pin 0] ++ (sentText "rp1 uart starting...\r\n" ++
    (List.replicate turns turn).flatten)) _
  exact (startDebugUart_shows tock fuel hidden).silent_bind fun _ => pins.bind fun _ =>
    uart.bind fun _ => (initTimer_shows tock fuel).silent_bind fun timer =>
      (repeated_shows timer turns).bind_silent fun _ => .done

end Spends

/-- The run shows every turn for which the hardware lets it: its UARTs are free within so many
polls, and a second passes within so many readings. -/
theorem system_keeps_performing (tock : TockRegisters) {fuel polls turns address : Nat}
    (board : Board) {answer : Request → Option Bytes} (found : located fuel answer = .ok address)
    (hidden : Hidden ((⟨address⟩ : Pl011Uart).configuration ++ (⟨address⟩ : Pl011Uart).transmission))
    (frees : ∀ uart ∈ [⟨address⟩, rp1Uart, pl011Uart], board.Frees polls uart)
    (advances : board.Advances polls (turns * (2 * (polls + 1)))) (running : board.frequency ≠ 0)
    (enough : polls ≤ fuel) (within : turns ≤ fuel) :
    performance turns <+: ((system tock fuel).exec answer board.respond []).2.flatMap shown := by
  obtain ⟨history, run⟩ := main_calm tock found running
  have same : ((system tock fuel).exec answer board.respond []).2 =
      ((start tock fuel address).exec answer board.respond []).2 := by
    rw [← exec_main_of_ok found]
    unfold system
    rw [Dialogue.exec_rescue, run]
    rfl
  obtain ⟨timer, returned⟩ := (rehearsal_completes (frees ⟨address⟩ (by simp))
    (frees rp1Uart (by simp)) (frees pl011Uart (by simp)) turns advances enough running).returns rfl
  obtain ⟨added, later, -, displayed⟩ :=
    (rehearsal_shows hidden turns).of_exec answer board.respond []
  have whole := displayed timer returned
  rw [List.nil_append] at later
  rw [same, start_eq tock fuel within, Dialogue.exec_bind]
  rcases rehearsed : (rehearsal tock fuel address turns).exec answer board.respond [] with ⟨_, calls⟩
  rw [rehearsed] at returned later
  subst returned later
  obtain ⟨rest, onward, -, -⟩ :=
    (blink_shows tock fuel timer (fuel - turns)).of_exec answer board.respond calls
  dsimp only
  rw [onward, List.flatMap_append, whole]
  exact List.prefix_append _ _

/-- A counter of 54 MHz which is read once in a second, a hundred times. -/
def secondsCounter : Counter where
  reading index := UInt64.ofNat (54000000 * min index 100)
  steady index := by
    have small (count : Nat) : 54000000 * min count 100 < 2 ^ 64 := by omega
    rw [UInt64.toNat_ofNat_of_lt' (small _), UInt64.toNat_ofNat_of_lt' (small _)]
    omega

/-- Registers which read as zero are always free. -/
def secondsBoard : Board := ⟨54000000, secondsCounter, fun _ _ => 0⟩

/-- Each UART of the board is free at once. -/
theorem secondsBoard_frees (uart : Pl011Uart) : secondsBoard.Frees 1 uart := by
  intro field _ history
  refine ⟨0, Nat.one_pos, ?_⟩
  simp [Board.respond, secondsBoard, Field.read]

/-- On this board the performance goes on with two turns. -/
theorem piImage_keeps_performing : performance 2 <+:
    ((system tockRegisters 30).exec piImage.blob.whole.answer secondsBoard.respond []).2.flatMap
      shown := by
  have advances : secondsBoard.Advances 1 (2 * (2 * (1 + 1))) := by
    unfold Board.Advances
    decide
  exact system_keeps_performing tockRegisters secondsBoard piImage_located (by decide)
    (fun uart _ => secondsBoard_frees uart) advances (by decide) (by decide) (by decide)

end Rpi5.Bootloader
