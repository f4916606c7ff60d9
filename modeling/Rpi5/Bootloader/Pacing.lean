import Rpi5.Bootloader.Blink

/-!
# The pace of the last loop

Between two changes of the pin the counter is read, and advances by the ticks of a second as
the timer counts them. An invariant of the history carries this through the loop: since each
change, enough ticks have passed for all changes after it, and before the next change for one
more.

The same invariant shows that a run stops at its bound only, or at a frequency of zero.
-/

namespace Rpi5.Bootloader

open Rpi5.Logical Rpi5.Semantics Rpi5.DeviceTree

/-- The pin is driven, high or low, and not left to its function. -/
def isChange : Contact → Bool
  | .register (.write address word) => address == pinRegister && GpioCtrl.oeover.read word != 0
  | _ => false

/-- The number of changes. -/
def changes (history : List Contact) : Nat := history.countP isChange

/-- The changes of two histories add up. -/
@[simp] theorem changes_append (first second : List Contact) :
    changes (first ++ second) = changes first + changes second := List.countP_append

/-- One contact is a change or none. -/
theorem changes_singleton (one : Contact) : changes [one] = if isChange one then 1 else 0 :=
  List.countP_singleton

/-- The readings of the counter add up too. -/
@[simp] theorem readings_append (first second : List Contact) :
    readings (first ++ second) = readings first + readings second := List.count_append

/-- A contact of a longer history is the new one, or was there before. -/
theorem split_append {history before between : List Contact} {one first : Contact}
    (split : history ++ [one] = before ++ first :: between) :
    between = [] ∧ first = one ∨
      ∃ shorter, between = shorter ++ [one] ∧ history = before ++ first :: shorter := by
  rcases List.eq_nil_or_concat' between with rfl | ⟨shorter, last, rfl⟩
  · obtain ⟨-, same⟩ := List.append_inj' split rfl
    exact .inl ⟨rfl, (List.singleton_inj.mp same).symm⟩
  · rw [← List.cons_append, ← List.append_assoc] at split
    obtain ⟨same, last⟩ := List.append_inj' split rfl
    exact .inr ⟨shorter, by rw [List.singleton_inj.mp last], same⟩

namespace Board

variable (board : Board) (ticks : Nat)

/-- The reading which comes next. -/
def upcoming (history : List Contact) : Nat := (board.counter.reading (readings history)).toNat

/-- The reading which came last, if there was one. -/
def latest (history : List Contact) : Nat := (board.counter.reading (readings history - 1)).toNat

/-- From the first reading after each change up to `now`, so many ticks have passed for each
change since, and for so many more. -/
def Passed (more now : Nat) (history : List Contact) : Prop :=
  ∀ before one between, history = before ++ one :: between → isChange one →
    ticks * (changes between + more) ≤ now - board.upcoming before

/-- Whenever the pin is changed, enough ticks have passed since all changes before. -/
def Paced (history : List Contact) : Prop :=
  ∀ past one, past ++ [one] <+: history → isChange one → board.Passed ticks 1 (board.latest past) past

/-- The pin may be changed now. -/
def Due (history : List Contact) : Prop :=
  board.Paced ticks history ∧ board.Passed ticks 1 (board.latest history) history

/-- The pin has been changed, perhaps just now. -/
def Settled (history : List Contact) : Prop :=
  board.Paced ticks history ∧ board.Passed ticks 0 (board.latest history) history

variable {board} {ticks} {more now later : Nat} {history : List Contact} {one : Contact}

/-- Time does not go back. -/
theorem latest_mono (history : List Contact) (one : Contact) :
    board.latest history ≤ board.latest (history ++ [one]) := by
  apply board.counter.mono
  rw [readings_append]
  omega

/-- What has passed has passed later too. -/
theorem Passed.mono (passed : board.Passed ticks more now history) (le : now ≤ later) :
    board.Passed ticks more later history := by
  intro before one between split change
  exact (passed before one between split change).trans (Nat.sub_le_sub_right le _)

/-- Other contacts are nothing to it. -/
theorem Passed.append (passed : board.Passed ticks more now history) (other : isChange one = false) :
    board.Passed ticks more now (history ++ [one]) := by
  intro before first between split change
  rcases split_append split with ⟨-, rfl⟩ | ⟨shorter, rfl, same⟩
  · rw [other] at change
    cases change
  · have earlier := passed before first shorter same change
    rw [changes_append, changes_singleton, other]
    exact earlier

/-- A change counts for those before it. -/
theorem Passed.change (passed : board.Passed ticks 1 now history) (changed : isChange one = true) :
    board.Passed ticks 0 now (history ++ [one]) := by
  intro before first between split change
  rcases split_append split with ⟨rfl, -⟩ | ⟨shorter, rfl, same⟩
  · exact Nat.zero_le _
  · have earlier := passed before first shorter same change
    rw [changes_append, changes_singleton, changed]
    exact earlier

/-- A history stays paced if the next change is due. -/
theorem Paced.append (paced : board.Paced ticks history)
    (due : isChange one = true → board.Passed ticks 1 (board.latest history) history) :
    board.Paced ticks (history ++ [one]) := by
  intro past other within change
  rcases List.prefix_concat_iff.mp within with same | shorter
  · obtain ⟨rfl, last⟩ := List.append_inj' same rfl
    cases last
    exact due change
  · exact paced past other shorter change

/-- A change stays due while there is none. -/
theorem Due.append (due : board.Due ticks history) (other : isChange one = false) :
    board.Due ticks (history ++ [one]) :=
  ⟨due.1.append fun _ => due.2, (due.2.append other).mono (latest_mono history one)⟩

/-- So does what has settled. -/
theorem Settled.append (settled : board.Settled ticks history) (other : isChange one = false) :
    board.Settled ticks (history ++ [one]) := by
  refine ⟨settled.1.append fun change => ?_, (settled.2.append other).mono (latest_mono history one)⟩
  rw [other] at change
  cases change

/-- Where a change is due the last one has settled. -/
theorem Due.settled (due : board.Due ticks history) : board.Settled ticks history := by
  refine ⟨due.1, fun before one between split change => ?_⟩
  exact (Nat.mul_le_mul_left ticks (Nat.le_succ _)).trans (due.2 before one between split change)

/-- Any contact may follow when a change is due. -/
theorem Due.next (due : board.Due ticks history) (one : Contact) :
    board.Settled ticks (history ++ [one]) := by
  cases change : isChange one with
  | false => exact (due.append change).settled
  | true =>
      exact ⟨due.1.append fun _ => due.2, (due.2.change change).mono (latest_mono history one)⟩

end Board

section Programs

variable {tock : TockRegisters} {fuel : Nat} {board : Board} {answer : Request → Option Bytes}
  {ticks : Nat}

/-- How a run may end: at its bound, or in a panic over a frequency of zero. -/
def Ending (board : Board) (ticks : Nat) (why : Abort) (history : List Contact) : Prop :=
  (why = .panic → board.frequency = 0) ∧ board.Paced ticks history

/-- A program from histories of one kind to histories of another, with such an ending. -/
abbrev Paces {α : Type} (board : Board) (ticks : Nat) (answer : Request → Option Bytes)
    (pre : List Contact → Prop) (program : Running α) (post : α → List Contact → Prop) : Prop :=
  Dialogue.Keeps answer board.respond pre program post (Ending board ticks)

/-- A driver which never changes the pin. -/
abbrev Spares {α : Type} (program : Driver α) : Prop :=
  Dialogue.Within (fun _ => False) (fun access => isChange (.register access) = false)
    (· = .outOfFuel) program

/-- A driver of other registers spares the pin. -/
theorem spares_of_touches {α : Type} {program : Driver α} {registers : List Nat}
    (touches : Driver.Touches registers program) (apart : pinRegister ∉ registers) :
    Spares program := by
  apply Dialogue.Within.mono touches _ fun _ ended => ended
  intro access member
  cases access with
  | read address => rfl
  | write address word =>
      have different : address ≠ pinRegister := by
        rintro rfl
        exact apart member
      simp [isChange, different]

/-- Such a driver keeps every condition which other contacts keep. -/
theorem driver_paces {α : Type} {program : Driver α} (spares : Spares program)
    {pre : List Contact → Prop} (paced : ∀ history, pre history → board.Paced ticks history)
    (kept : ∀ history one, pre history → isChange one = false → pre (history ++ [one])) :
    Paces board ticks answer pre (driver program) fun _ => pre := by
  have within : Dialogue.Within (fun _ => False) (fun contact => isChange contact = false)
      (· = .limit) (driver program) := by
    apply Dialogue.Within.embed spares fun _ other => other
    rintro why rfl
    rfl
  refine (within.keeps kept).mono (fun _ holds => holds) (fun _ _ holds => holds) ?_
  rintro why history ⟨rfl, holds⟩
  exact ⟨nofun, paced history holds⟩

/-- Such a driver leaves a change due. -/
theorem driver_due {α : Type} {program : Driver α} (spares : Spares program) :
    Paces board ticks answer (board.Due ticks) (driver program) fun _ => board.Due ticks :=
  driver_paces spares (fun _ due => due.1) fun _ _ due other => due.append other

/-- And the last one settled. -/
theorem driver_settled {α : Type} {program : Driver α} (spares : Spares program) :
    Paces board ticks answer (board.Settled ticks) (driver program) fun _ => board.Settled ticks :=
  driver_paces spares (fun _ settled => settled.1) fun _ _ settled other => settled.append other

/-- Of no ticks enough have always passed. -/
theorem due_zero (history : List Contact) : board.Due 0 history := by
  refine ⟨fun past one _ _ before first between _ _ => ?_, fun before first between _ _ => ?_⟩ <;>
    simp

/-- A driver for a UART which may be anywhere, if no ticks have to pass. -/
theorem driver_due_or_zero {α : Type} {program : Driver α} {registers : List Nat}
    (touches : Driver.Touches registers program) (spared : pinRegister ∉ registers ∨ ticks = 0) :
    Paces board ticks answer (board.Due ticks) (driver program) fun _ => board.Due ticks := by
  rcases spared with apart | rfl
  · exact driver_due (spares_of_touches touches apart)
  · have within : Dialogue.Within (fun _ => False) (fun _ => True) (· = .limit) (driver program) :=
      driver_within touches fun _ _ => trivial
    refine (within.keeps fun _ _ _ _ => due_zero _).mono (fun _ due => due) (fun _ _ due => due) ?_
    rintro why history ⟨rfl, due⟩
    exact ⟨nofun, due.1⟩

/-- When a change is due the control register of the pin may be rewritten in any way. -/
theorem modifyPin_paces (values : List FieldValue) :
    Paces board ticks answer (board.Due ticks) (driver (Rp1Gpio.new.modifyCtrl tock 18 values))
      fun _ => board.Settled ticks := by
  apply Dialogue.keeps_call
  intro history due
  apply Dialogue.keeps_call
  rintro _ rfl
  apply Dialogue.keeps_done
  rintro _ rfl
  exact (due.append rfl).next _

section Wait

/-- A timer with a frequency reads the counter and polls it. -/
theorem wait_eq (frequency : NonZeroU64) (duration : Duration) (fuel : Nat) :
    (⟨some frequency⟩ : SystemTimer).wait duration fuel = .call .counter fun start =>
      Dialogue.poll .counter (SystemTimer.waiting start (SystemTimer.waitTime frequency duration))
        .outOfFuel fuel := by
  have fits : (Accessing.checked 128 (frequency.val.toNat / 1000 / 1000 * duration.asMicros) :
      Timing Nat) = .done (SystemTimer.waitTime frequency duration) :=
    if_pos (SystemTimer.waitTime_lt frequency duration)
  unfold SystemTimer.wait SystemTimer.getTimerCounter
  dsimp only
  rw [fits]
  rfl

/-- While the timer waits: what has passed when it began, and that it began after all changes. -/
structure Waiting (board : Board) (ticks start : Nat) (history : List Contact) : Prop where
  paced : board.Paced ticks history
  passed : board.Passed ticks 0 (board.counter.reading start).toNat history
  begun : start < readings history
  after : ∀ before one between, history = before ++ one :: between → isChange one →
    readings before ≤ start

variable {start : Nat} {history : List Contact}

/-- With the first reading of the counter the wait begins. -/
theorem waiting_of_settled (settled : board.Settled ticks history) :
    Waiting board ticks (readings history) (history ++ [.system .counter]) := by
  refine ⟨(settled.append rfl).1, ?_, ?_, ?_⟩
  · exact (settled.2.append rfl).mono (board.counter.mono (Nat.sub_le _ _))
  · rw [readings_append]
    exact Nat.lt_add_one _
  · intro before one between split change
    rcases split_append split with ⟨-, rfl⟩ | ⟨shorter, rfl, same⟩
    · cases change
    · rw [same, readings_append]
      exact Nat.le_add_right _ _

/-- It goes on with the next one. -/
theorem Waiting.next (waiting : Waiting board ticks start history) :
    Waiting board ticks start (history ++ [.system .counter]) := by
  refine ⟨waiting.paced.append nofun, waiting.passed.append rfl, ?_, ?_⟩
  · rw [readings_append]
    exact Nat.lt_add_right _ waiting.begun
  · intro before one between split change
    rcases split_append split with ⟨-, rfl⟩ | ⟨shorter, rfl, same⟩
    · cases change
    · exact waiting.after before one shorter same change

/-- Once the ticks are over the next change is due. -/
theorem Waiting.due (waiting : Waiting board ticks start history)
    (elapsed : ticks ≤ board.latest history - (board.counter.reading start).toNat) :
    board.Due ticks history := by
  refine ⟨waiting.paced, fun before one between split change => ?_⟩
  have passed := waiting.passed before one between split change
  have first : board.upcoming before ≤ (board.counter.reading start).toNat :=
    board.counter.mono (waiting.after before one between split change)
  have last : (board.counter.reading start).toNat ≤ board.latest history :=
    board.counter.mono (Nat.le_sub_one_of_lt waiting.begun)
  rw [Nat.add_zero] at passed
  rw [Nat.mul_succ]
  omega

/-- A counter which has not run back can be compared. -/
theorem waiting_of_le {start counter : UInt64} (le : start.toNat ≤ counter.toNat) (ticks : Nat) :
    SystemTimer.waiting start ticks counter = .ok (decide (counter.toNat - start.toNat < ticks)) :=
  if_neg (Nat.not_lt.mpr le)

/-- The polls of a wait which began with some reading. -/
theorem poll_paces (start : Nat) {target : Nat} (enough : ticks ≤ target) :
    Paces board ticks answer (Waiting board ticks start)
      (timing (Dialogue.poll .counter (SystemTimer.waiting (board.counter.reading start) target)
        .outOfFuel fuel)) fun _ => board.Due ticks := by
  have verdict (calls : List Contact) (waiting : Waiting board ticks start calls) :
      (SystemTimer.waiting (board.counter.reading start) target
        (UInt64.ofBitVec (board.respond calls (.system .counter)))).mapError Abort.ofFault =
      .ok (decide (board.latest (calls ++ [.system .counter]) -
        (board.counter.reading start).toNat < target)) := by
    have reading : UInt64.ofBitVec (board.respond calls (.system .counter)) =
        board.counter.reading (readings calls) := rfl
    rw [reading, waiting_of_le (board.counter.mono waiting.begun.le), Board.latest, readings_append]
    rfl
  unfold timing
  rw [Dialogue.embed_poll]
  apply Dialogue.keeps_poll
  · intro calls waiting _
    exact waiting.next
  · intro calls waiting ready
    rw [verdict calls waiting] at ready
    have passed : target ≤ board.latest (calls ++ [.system .counter]) -
        (board.counter.reading start).toNat := by
      simpa using ready
    exact waiting.next.due (enough.trans passed)
  · intro calls why waiting failed
    rw [verdict calls waiting] at failed
    cases failed
  · intro calls waiting
    exact ⟨nofun, waiting.paced⟩

/-- A wait makes the next change due. -/
theorem wait_paces (frequency : NonZeroU64) (duration : Duration)
    (enough : ticks ≤ SystemTimer.waitTime frequency duration) :
    Paces board ticks answer (board.Settled ticks)
      (timing ((⟨some frequency⟩ : SystemTimer).wait duration fuel))
      fun _ => board.Due ticks := by
  rw [wait_eq]
  apply Dialogue.keeps_call
  intro history settled
  apply (poll_paces (readings history) enough).mono _ (fun _ _ due => due) fun _ _ ending => ending
  rintro _ rfl
  exact waiting_of_settled settled

end Wait

/-- The ticks for which the timer waits in the last loop. -/
def Board.second (board : Board) : Nat := board.frequency.toNat / 1000 / 1000 * 1000000

/-- What `main` knows of the timer in its last loop. -/
def Initialised (board : Board) (ticks : Nat) (timer : SystemTimer) (history : List Contact) : Prop :=
  (∃ nonZero, timer = ⟨some ⟨board.frequency, nonZero⟩⟩) ∧ board.Due ticks history

/-- Half a turn changes the pin when it is due, and ends when the next change is. -/
theorem blinkHalf_paces (nonZero : board.frequency ≠ 0) (enough : ticks ≤ board.second)
    (values : List FieldValue) :
    Paces board ticks answer (board.Due ticks)
      (blinkHalf tock fuel ⟨some ⟨board.frequency, nonZero⟩⟩
        (Rp1Gpio.new.modifyCtrl tock 18 values)) fun _ => board.Due ticks :=
  (modifyPin_paces values).bind fun _ =>
    (driver_settled (spares_of_touches (Pl011Uart.writeLoop_touches tock rp1Uart fuel _)
      (by decide))).bind fun _ => wait_paces ⟨board.frequency, nonZero⟩ oneSecond enough

/-- So the loop is paced. -/
theorem blink_paces (nonZero : board.frequency ≠ 0) (enough : ticks ≤ board.second) (turns : Nat) :
    Paces board ticks answer (board.Due ticks)
      (blink tock fuel ⟨some ⟨board.frequency, nonZero⟩⟩ turns) fun _ _ => False := by
  induction turns with
  | zero => exact Dialogue.keeps_stop fun history due => ⟨nofun, due.1⟩
  | succ turns ih =>
      exact (blinkHalf_paces nonZero enough _).bind fun _ =>
        (blinkHalf_paces nonZero enough _).bind fun _ => ih

/-- The frequency is read once; a panic says that it is zero. -/
theorem initTimer_paces : Paces board ticks answer (board.Due ticks) (initTimer tock fuel)
    (Initialised board ticks) := by
  have read : Paces board ticks answer (board.Due ticks) (timing SystemTimer.getTimerFrequency)
      fun frequency history => frequency = board.frequency ∧ board.Due ticks history := by
    apply Dialogue.keeps_call
    intro history due
    apply Dialogue.keeps_done
    rintro _ rfl
    exact ⟨rfl, due.append rfl⟩
  refine read.bind fun frequency => Dialogue.keeps_of_fact ?_
  rintro rfl
  refine (driver_due (spares_of_touches (Pl011Uart.writeFmt_touches tock pl011Uart fuel _)
    (by decide))).bind fun _ => ?_
  split
  · rename_i nonZero
    exact Dialogue.keeps_done fun history due => ⟨⟨nonZero, rfl⟩, due⟩
  · rename_i zero
    exact Dialogue.keeps_stop fun history due => ⟨fun _ => not_not.mp zero, due.1⟩

/-- The pin is set up without a change. -/
theorem setupPins_spares : Spares (setupPins tock) := by
  have other (operation : Operation) (apart : pinRegister ∉
      [Rp1Gpio.new.ctrl operation.pin, Rp1Gpio.new.pad operation.pin]) :
      Spares (operation.perform tock Rp1Gpio.new) :=
    spares_of_touches (Rp1Gpio.perform_touches tock Rp1Gpio.new operation) apart
  have ctrl : Spares (Rp1Gpio.new.modifyCtrl tock 18
      [GpioCtrl.outover.val 0, GpioCtrl.oeover.val 0]) := by
    refine .call rfl fun word => .call ?_ fun _ => .done
    have value := tock.read_modify [GpioCtrl.outover.val 0, GpioCtrl.oeover.val 0] word
      (by decide) (GpioCtrl.oeover.val 0) (by decide)
    have zero : GpioCtrl.oeover.read
        (tock.modify [GpioCtrl.outover.val 0, GpioCtrl.oeover.val 0] word) = 0 := value
    simp [isChange, zero]
  have pad : Spares (Driver.modify tock (Rp1Gpio.padAddress Rp1Gpio.new.padsBank0 18)
      [Gpio.od.clear, Gpio.pde.clear, Gpio.pue.clear]) :=
    spares_of_touches (Driver.touches_modify tock (List.mem_singleton_self _) _) (by decide)
  exact (other (.setFunc 14 4) (by decide)).bind fun _ =>
    (other (.setFunc 15 4) (by decide)).bind fun _ =>
      (other (.enableOutput 14) (by decide)).bind fun _ =>
        (other (.enableOutput 15) (by decide)).bind fun _ => ctrl.bind fun _ => pad

/-- Starting the found UART spares the pin, if it is not among its registers. -/
theorem startDebugUart_paces {address : Nat} (spared : pinRegister ∉
      (⟨address⟩ : Pl011Uart).configuration ++ (⟨address⟩ : Pl011Uart).transmission ∨ ticks = 0) :
    Paces board ticks answer (board.Due ticks) (startDebugUart tock fuel ⟨address⟩)
      fun _ => board.Due ticks := by
  have configuration := spared.imp_left fun apart member => apart (List.mem_append_left _ member)
  have transmission := spared.imp_left fun apart member => apart (List.mem_append_right _ member)
  have init : Paces board ticks answer (board.Due ticks)
      (driver ((⟨address⟩ : Pl011Uart).init tock .Debug 115200 fuel)) fun _ => board.Due ticks :=
    driver_due_or_zero (Pl011Uart.init_touches tock _ fuel .Debug (by decide)) configuration
  have written (text : String) : Paces board ticks answer (board.Due ticks)
      (driver ((⟨address⟩ : Pl011Uart).write tock fuel text)) fun _ => board.Due ticks :=
    driver_due_or_zero (Pl011Uart.writeLoop_touches tock _ fuel _) transmission
  have chip : Spares (Driver.get pl011UartAddr) :=
    spares_of_touches (Driver.touches_get (List.mem_singleton_self _)) (by decide)
  refine init.bind fun _ => (written "debug uart starting...\r\n").bind fun _ =>
    (driver_due chip).bind fun chipId => ?_
  split
  · exact written _
  · exact written _

/-- A whole run, from a UART which is not where the pin is if any ticks have to pass. -/
theorem start_paces {address : Nat} (spared : pinRegister ∉
      (⟨address⟩ : Pl011Uart).configuration ++ (⟨address⟩ : Pl011Uart).transmission ∨ ticks = 0)
    (enough : ticks ≤ board.second) :
    Paces board ticks answer (board.Due ticks) (start tock fuel address) fun _ _ => False := by
  refine (startDebugUart_paces spared).bind fun _ => (driver_due setupPins_spares).bind fun _ =>
    (driver_due (spares_of_touches (startRp1Uart_touches tock fuel) (by decide))).bind fun _ =>
      initTimer_paces.bind fun timer => Dialogue.keeps_of_fact ?_
  rintro ⟨nonZero, rfl⟩
  exact blink_paces nonZero enough fuel

/-- How a run of `start` ends. -/
theorem start_ends (tock : TockRegisters) (fuel : Nat) (answer : Request → Option Bytes)
    {address : Nat} (spared : pinRegister ∉
      (⟨address⟩ : Pl011Uart).configuration ++ (⟨address⟩ : Pl011Uart).transmission ∨ ticks = 0)
    (enough : ticks ≤ board.second) : ∃ why history,
      (start tock fuel address).exec answer board.respond [] = (.error (.stopped why), history) ∧
        Ending board ticks why history := by
  have due : board.Due ticks [] := by
    refine ⟨fun past one within => ?_, fun before one between split => ?_⟩
    · exact absurd (List.prefix_nil.mp within) (List.append_ne_nil_of_right_ne_nil _ nofun)
    · exact absurd split.symm (List.append_ne_nil_of_right_ne_nil _ nofun)
  have run : Paces board ticks answer (board.Due ticks) (start tock fuel address)
      fun _ _ => False := start_paces spared enough
  have ends := run [] due
  rcases done : (start tock fuel address).exec answer board.respond [] with ⟨halt | value, history⟩
  · rw [done] at ends
    cases halt with
    | stopped why => exact ⟨why, history, rfl, ends⟩
    | unanswered question => exact ends.elim
  · rw [done] at ends
    exact ends.elim

end Programs

section Main

variable (tock : TockRegisters) {fuel : Nat} (board : Board)

/-- Between two changes of the pin the counter advances by the ticks of a second for each
change since the first, in every run of `main` whose debug UART is not where the pin is. -/
theorem main_paced (fuel : Nat) (answer : Request → Option Bytes)
    (apart : ∀ address, located fuel answer = .ok address → pinRegister ∉
      (⟨address⟩ : Pl011Uart).configuration ++ (⟨address⟩ : Pl011Uart).transmission) :
    board.Paced board.second ((main tock fuel).exec answer board.respond []).2 := by
  cases found : located fuel answer with
  | error halt =>
      rw [exec_main_of_error found]
      intro past one within
      exact absurd (List.prefix_nil.mp within) (List.append_ne_nil_of_right_ne_nil _ nofun)
  | ok address =>
      obtain ⟨why, history, run, ending⟩ :=
        start_ends tock fuel answer (.inl (apart address found)) (Nat.le_refl board.second)
      rw [exec_main_of_ok found, run]
      exact ending.2

/-- A processor with a counter of 54 MHz, and registers which read as zero. -/
def quietBoard : Board := ⟨54000000, SystemTimer.jump 54000000, fun _ _ => 0⟩

/-- On the board of the example the pin is paced by a second. -/
theorem piImage_paced : quietBoard.Paced 54000000
    ((main tockRegisters 30).exec piImage.blob.whole.answer quietBoard.respond []).2 := by
  apply main_paced
  intro address found
  rw [piImage_located] at found
  cases found
  decide

variable {board}

/-- With a frequency `main` only stops at its bound once it has found its UART. -/
theorem main_calm {answer : Request → Option Bytes} {address : Nat}
    (found : located fuel answer = .ok address) (running : board.frequency ≠ 0) :
    ∃ history, (main tock fuel).exec answer board.respond [] =
      (.error (.stopped .limit), history) := by
  have ends : ∃ why history, (start tock fuel address).exec answer board.respond [] =
      (.error (.stopped why), history) ∧ Ending board 0 why history :=
    start_ends tock fuel answer (.inr rfl) (Nat.zero_le board.second)
  obtain ⟨why, history, run, panics, -⟩ := ends
  rw [exec_main_of_ok found, run]
  cases why with
  | panic => exact absurd (panics rfl) running
  | limit => exact ⟨history, rfl⟩

variable {image : Image}

/-- With a frequency `main` panics exactly if the search leaves it without a debug UART. -/
theorem main_panics_iff (placed : image.blob.base = dtbAddress) (running : board.frequency ≠ 0) :
    (∃ fuel history, (main tock fuel).exec image.blob.whole.answer board.respond [] =
        (.error (.stopped .panic), history)) ↔
      ∃ result calls, image.DebugReturns none (some "arm,pl011") .always result calls ∧
        NoDebugUart result calls := by
  constructor
  · rintro ⟨fuel, history, panicked⟩
    rcases run : image.debugRun none (some "arm,pl011") .always fuel with
      ⟨(reason | request) | ⟨⟨⟩⟩, calls⟩
    · refine ⟨_, calls, ⟨fun cut => ?_, fuel, run⟩, .inl ⟨reason, rfl⟩⟩
      -- A search which was cut cuts `main` as well.
      have found := @located_image image fuel placed
      rw [run, cut] at found
      rw [exec_main_of_error found] at panicked
      cases panicked
    · have found := @located_image image fuel placed
      rw [run] at found
      rw [exec_main_of_error found] at panicked
      cases panicked
    · refine ⟨.ok (), calls, ⟨nofun, fuel, run⟩, ?_⟩
      by_contra fine
      obtain ⟨first, others, -, -, found⟩ := located_of_found placed run fine
      obtain ⟨later, calm⟩ := main_calm tock found running
      rw [panicked] at calm
      cases calm
  · rintro ⟨result, calls, ⟨whole, fuel, run⟩, fails⟩
    exact ⟨fuel, [], exec_main_of_error (located_of_noDebugUart placed run whole fails)⟩

/-- The board is small enough for its header. -/
theorem uartBoard_small : 40 + (uartBoard.encode.length + knownNames.length) < 2 ^ 32 := by
  decide +kernel

/-- A board whose only UART is not the one that is searched for. -/
def otherImage : Image :=
  .assemble dtbAddress uartBoard.encode knownNames (by decide +kernel) uartBoard_small

/-- A tree without the UART ends `main` in a panic. -/
theorem otherImage_panics : ∃ fuel history,
    (main tockRegisters fuel).exec otherImage.blob.whole.answer quietBoard.respond [] =
      (.error (.stopped .panic), history) := by
  have nothing : otherImage.DebugReturns none (some "arm,pl011") .always (.ok ()) [] :=
    ⟨by decide, 20, by decide +kernel⟩
  exact (main_panics_iff tockRegisters rfl (by decide)).mpr ⟨_, _, nothing, .inr ⟨rfl, nofun⟩⟩

/-- On a conforming tree in an aligned blob with a UART whose registers are at a valid address,
`main` takes its first window, and never panics. -/
theorem main_runs_on_tree {block : StructBlock} (placed : image.blob.base = dtbAddress)
    (offset : 4 ∣ image.parser.dtbHeader.header.offDtStruct)
    (serial : Serialises image.blob.whole image.parser block) (untrailed : block.trailing = 0)
    (conforming : block.tree.Conforming none (some "arm,pl011")) {first : Window}
    {others : List Window} (reported : (block.tree.matching none (some "arm,pl011")).flatMap
      reportedWindows = first :: others) (valid : ValidRegisters first.1) :
    ∃ enough, ∀ fuel ≥ enough, located fuel image.blob.whole.answer = .ok first.1 ∧
      ∀ board : Board, board.frequency ≠ 0 → ∃ history,
        (main tock fuel).exec image.blob.whole.answer board.respond [] =
          (.error (.stopped .limit), history) := by
  obtain ⟨enough, found⟩ :=
    located_of_tree placed offset serial untrailed conforming reported valid
  refine ⟨enough, fun fuel above => ⟨found fuel above, fun board running => ?_⟩⟩
  exact main_calm tock (found fuel above) running

/-- On the tree with one, `main` runs until its bound, on every board with a frequency. -/
theorem piImage_runs : ∃ enough, ∀ fuel ≥ enough,
    located fuel piImage.blob.whole.answer = .ok 0x107d001000 ∧
      ∀ board : Board, board.frequency ≠ 0 → ∃ history,
        (main tockRegisters fuel).exec piImage.blob.whole.answer board.respond [] =
          (.error (.stopped .limit), history) := by
  have reported : (piBoard.tree.matching none (some "arm,pl011")).flatMap reportedWindows =
      [(0x107d001000, 0x200)] := by
    decide +kernel
  exact main_runs_on_tree tockRegisters rfl (by decide) piImage_serialises rfl piBoard_conforming
    reported (by decide)

end Main
end Rpi5.Bootloader
