import Rpi5.Bootloader.Registers
import Rpi5.Logical.FixedPoint

/-!
# The system timer

The module `systimer` of the source. `wait` rounds three times: the duration to whole
microseconds, and the frequency twice to reach ticks for each microsecond. The number
of ticks it waits for is exact only if none of this loses anything.
-/

namespace Rpi5.Bootloader

open Rpi5.Logical Rpi5.Semantics

/-- The system registers the timer reads. -/
inductive SystemRegister where
  /-- `CNTFRQ_EL0`. -/
  | frequency
  /-- `CNTPCT_EL0`. -/
  | counter
deriving DecidableEq, Repr

/-- Code which reads the system registers. -/
abbrev Timing (α : Type) := Accessing SystemRegister UInt64 α

/-- `core::time::Duration`: the nanoseconds stay below one second. -/
structure Duration where
  secs : UInt64
  nanos : Nat
  nanos_lt : nanos < 1000000000

namespace Duration

/-- `as_micros`, rounded down. -/
def asMicros (duration : Duration) : Nat := duration.secs.toNat * 1000000 + duration.nanos / 1000

/-- `as_nanos`, the whole duration. -/
def asNanos (duration : Duration) : Nat := duration.secs.toNat * 1000000000 + duration.nanos

end Duration

/-- `NonZeroU64`. -/
abbrev NonZeroU64 := { value : UInt64 // value ≠ 0 }

/-- `SystemTimer`. -/
structure SystemTimer where
  counterFrequency : Option NonZeroU64

namespace SystemTimer

def new : SystemTimer := ⟨none⟩

def getTimerFrequency : Timing UInt64 := .call .frequency .done

def getTimerCounter : Timing UInt64 := .call .counter .done

/-- `init`: the timer after it. -/
def init (_ : SystemTimer) : Timing SystemTimer := do
  let frequency ← getTimerFrequency
  if nonZero : frequency ≠ 0 then return ⟨some ⟨frequency, nonZero⟩⟩ else .stop .unwrapNone

/-- The condition of the loop in `wait`. The subtraction panics on overflow. -/
def waiting (start : UInt64) (waitTime : Nat) (counter : UInt64) : Except Fault Bool :=
  if counter.toNat < start.toNat then .error .overflow
  else .ok (counter.toNat - start.toNat < waitTime)

def wait (timer : SystemTimer) (duration : Duration) (fuel : Nat) : Timing Unit := do
  let micros := duration.asMicros
  let start ← getTimerCounter
  match timer.counterFrequency with
  | none => .stop .unwrapNone
  | some frequency =>
      let waitTime ← Accessing.checked 128 (frequency.val.toNat / 1000 / 1000 * micros)
      Dialogue.poll .counter (waiting start waitTime) .outOfFuel fuel

/-- A timer is initialised and waits. -/
def initAndWait (duration : Duration) (fuel : Nat) : Timing Unit := do
  let timer ← new.init
  timer.wait duration fuel

end SystemTimer

/-- The readings of a counter which never runs back. -/
structure Counter where
  reading : Nat → UInt64
  steady : ∀ index, (reading index).toNat ≤ (reading (index + 1)).toNat

namespace Counter

variable (counter : Counter) (frequency : NonZeroU64)

/-- The processor answers with its frequency and with one reading after the other. -/
def processor (history : List SystemRegister) : SystemRegister → UInt64
  | .frequency => frequency.val
  | .counter => counter.reading (history.count .counter)

/-- The ticks between the first and the last reading of a run. -/
def elapsed (calls : List SystemRegister) : Nat :=
  (counter.reading (calls.count .counter - 1)).toNat - (counter.reading 0).toNat

/-- A later reading is not smaller. -/
theorem mono {first second : Nat} (before : first ≤ second) :
    (counter.reading first).toNat ≤ (counter.reading second).toNat := by
  induction before with
  | refl => exact Nat.le_refl _
  | step _ ih => exact ih.trans (counter.steady _)

end Counter

namespace SystemTimer

/-- The counter advances far enough for a whole duration before the timer returns, which
never panics. -/
structure NeverEarly (frequency : NonZeroU64) (duration : Duration) : Prop where
  calm : ∀ (counter : Counter) fuel reason,
    ((initAndWait duration fuel).run (counter.processor frequency) []).1 =
      .error (.stopped reason) → reason = .outOfFuel
  late : ∀ (counter : Counter) fuel calls,
    (initAndWait duration fuel).run (counter.processor frequency) [] = (.ok (), calls) →
      duration.asNanos * frequency.val.toNat ≤ counter.elapsed calls * 1000000000

section Arithmetic

variable {frequency : NonZeroU64} {duration : Duration}

/-- The number of ticks the timer waits for. -/
def waitTime (frequency : NonZeroU64) (duration : Duration) : Nat :=
  frequency.val.toNat / 1000 / 1000 * duration.asMicros

/-- The time to wait for is computed without an overflow. -/
theorem waitTime_lt (frequency : NonZeroU64) (duration : Duration) :
    waitTime frequency duration < 2 ^ 128 := by
  have narrow : frequency.val.toNat < 2 ^ 64 := frequency.val.toNat_lt
  have short : duration.asMicros ≤ 2 ^ 64 * 1000000 := by
    have secs : duration.secs.toNat < 2 ^ 64 := duration.secs.toNat_lt
    have nanos := duration.nanos_lt
    unfold Duration.asMicros
    omega
  unfold waitTime
  calc frequency.val.toNat / 1000 / 1000 * duration.asMicros
      ≤ frequency.val.toNat / 1000 / 1000 * (2 ^ 64 * 1000000) := Nat.mul_le_mul_left _ short
    _ = frequency.val.toNat / 1000 / 1000 * 1000000 * 2 ^ 64 := by ring
    _ ≤ frequency.val.toNat * 2 ^ 64 := Nat.mul_le_mul_right _ (by omega)
    _ < 2 ^ 128 := by omega

/-- The ticks the timer waits for last as long as the duration exactly if no rounding loses
anything. -/
theorem enough_iff : duration.asNanos * frequency.val.toNat ≤ waitTime frequency duration * 1000000000 ↔
    duration.asNanos = 0 ∨ 1000000 ∣ frequency.val.toNat ∧ 1000 ∣ duration.nanos := by
  have micros : duration.asMicros = duration.asNanos / 1000 := by
    unfold Duration.asMicros Duration.asNanos
    omega
  have whole : 1000 ∣ duration.nanos ↔ 1000 ∣ duration.asNanos := by
    unfold Duration.asNanos
    omega
  have ticks : waitTime frequency duration * 1000000000 =
      duration.asNanos / 1000 * 1000 * (frequency.val.toNat / 1000000 * 1000000) := by
    unfold waitTime
    rw [micros, Nat.div_div_eq_div_mul]
    ring
  have running : 0 < frequency.val.toNat := by
    apply Nat.pos_of_ne_zero
    intro zero
    exact frequency.property (UInt64.toNat_inj.mp zero)
  rw [ticks]
  rcases Nat.eq_zero_or_pos duration.asNanos with zero | positive
  · simp [zero]
  · rw [le_truncated_mul_iff (Nat.mul_pos positive running), whole, and_comm]
    exact (or_iff_right (Nat.ne_of_gt positive)).symm

end Arithmetic

section Runs

variable {counter : Counter} {frequency : NonZeroU64} {duration : Duration} {fuel polls : Nat}

/-- The accesses of a run up to the loop, and some polls. -/
def polled (polls : Nat) : List SystemRegister := [.frequency, .counter] ++ List.replicate polls .counter

/-- Polling reads the counter once more than it waits. -/
theorem count_polled (polls : Nat) : (polled polls).count .counter = polls + 1 := by
  simp [polled]

/-- A timer which has been initialised takes the first reading, and then polls. -/
theorem run_initAndWait (counter : Counter) (frequency : NonZeroU64) (duration : Duration) (fuel : Nat) :
    (initAndWait duration fuel).run (counter.processor frequency) [] =
      Accessing.run (counter.processor frequency)
        (Dialogue.poll .counter (waiting (counter.reading 0) (waitTime frequency duration))
          .outOfFuel fuel) (polled 0) := by
  have initialised : new.init.run (counter.processor frequency) [] =
      (.ok ⟨some frequency⟩, [.frequency]) := by
    have nonZero : frequency.val ≠ 0 := frequency.property
    change Accessing.run _ (if nonZero : frequency.val ≠ 0 then _ else _) _ = _
    rw [dif_pos nonZero]
    rfl
  have read : getTimerCounter.run (counter.processor frequency) [.frequency] =
      (.ok (counter.reading 0), [.frequency, .counter]) := rfl
  unfold initAndWait
  rw [Accessing.run_bind_of_ok initialised]
  unfold wait
  rw [Accessing.run_bind_of_ok read]
  exact Accessing.run_bind_of_ok (Accessing.run_checked (waitTime_lt frequency duration))

/-- The counter does not run back, so the difference to its first reading can be taken. -/
theorem waiting_reading (counter : Counter) (ticks index : Nat) :
    waiting (counter.reading 0) ticks (counter.reading index) =
      .ok (decide ((counter.reading index).toNat - (counter.reading 0).toNat < ticks)) :=
  if_neg (Nat.not_lt.mpr (counter.mono (Nat.zero_le index)))

/-- The next reading is that of the next time. -/
theorem processor_polled (counter : Counter) (frequency : NonZeroU64) (polls : Nat) :
    counter.processor frequency (polled 0 ++ List.replicate polls .counter) .counter =
      counter.reading (polls + 1) := by
  have same : polled 0 ++ List.replicate polls .counter = polled polls := rfl
  rw [same, Counter.processor, count_polled]

/-- A run of the timer takes too many polls, or ends with a reading far enough from the first. -/
theorem initAndWait_cases (counter : Counter) (frequency : NonZeroU64) (duration : Duration)
    (fuel : Nat) :
    ((initAndWait duration fuel).run (counter.processor frequency) []).1 =
        .error (.stopped .outOfFuel) ∨
      ∃ polls, waitTime frequency duration ≤
          (counter.reading (polls + 1)).toNat - (counter.reading 0).toNat ∧
        (initAndWait duration fuel).run (counter.processor frequency) [] =
          (.ok (), polled (polls + 1)) := by
  rw [run_initAndWait]
  rcases Dialogue.waits_or .counter (waiting (counter.reading 0) (waitTime frequency duration))
    (counter.processor frequency) (polled 0) fuel with waits | ⟨polls, within, waits, last⟩
  · refine .inl ?_
    unfold Accessing.run
    rw [Dialogue.exec_poll_of_waits waits]
  · rw [processor_polled, waiting_reading] at last
    have late : ¬ (counter.reading (polls + 1)).toNat - (counter.reading 0).toNat <
        waitTime frequency duration := by
      simpa using last
    refine .inr ⟨polls, Nat.not_lt.mp late, waits.exec_done within ?_⟩
    rw [processor_polled, waiting_reading, decide_eq_false late]

/-- A run stops for no other reason than the bound on its steps. -/
theorem initAndWait_calm (counter : Counter) (frequency : NonZeroU64) (duration : Duration) (fuel : Nat)
    {reason : Fault} (stopped : ((initAndWait duration fuel).run (counter.processor frequency) []).1 =
      .error (.stopped reason)) : reason = .outOfFuel := by
  rcases initAndWait_cases counter frequency duration fuel with limit | ⟨polls, -, run⟩
  · rw [stopped] at limit
    cases limit
    rfl
  · rw [run] at stopped
    cases stopped

/-- What has elapsed when the timer returns is what it waits for, or more. -/
theorem waitTime_le_elapsed {calls : List SystemRegister}
    (run : (initAndWait duration fuel).run (counter.processor frequency) [] = (.ok (), calls)) :
    waitTime frequency duration ≤ counter.elapsed calls ∧ counter.elapsed calls < 2 ^ 64 := by
  rcases initAndWait_cases counter frequency duration fuel with limit | ⟨polls, late, same⟩
  · rw [run] at limit
    cases limit
  · rw [run] at same
    cases same
    have narrow := (counter.reading (polls + 1)).toNat_lt
    unfold Counter.elapsed
    rw [count_polled, Nat.add_sub_cancel]
    omega

/-- A counter which jumps by so many ticks after its first reading. -/
def jump (ticks : UInt64) : Counter where
  reading index := if index = 0 then 0 else ticks
  steady index := by
    rw [if_neg (Nat.succ_ne_zero index)]
    split
    · exact Nat.zero_le _
    · exact Nat.le_refl _

/-- A jump passes all its ticks between two readings. -/
theorem elapsed_jump (ticks : UInt64) : (jump ticks).elapsed (polled 1) = ticks.toNat := rfl

/-- The timer returns as soon as the ticks it waits for are over. -/
theorem run_jump {ticks : UInt64} (exact : ticks.toNat = waitTime frequency duration) :
    (initAndWait duration 1).run ((jump ticks).processor frequency) [] = (.ok (), polled 1) := by
  have first : Dialogue.Waits .counter (waiting ((jump ticks).reading 0) (waitTime frequency duration))
      ((jump ticks).processor frequency) (polled 0) 0 := nofun
  rw [run_initAndWait]
  refine first.exec_done Nat.one_pos ?_
  have late : ¬ ((jump ticks).reading (0 + 1)).toNat - ((jump ticks).reading 0).toNat <
      waitTime frequency duration := Nat.not_lt.mpr (Nat.le_of_eq exact.symm)
  rw [processor_polled, waiting_reading, decide_eq_false late]

end Runs

/-- The timer is never early exactly if the duration is zero, if neither the frequency nor
the duration is rounded, or if no counter of 64 bits ever gets as far as it waits. -/
theorem neverEarly_iff (frequency : NonZeroU64) (duration : Duration) :
    NeverEarly frequency duration ↔ duration.asNanos = 0 ∨
      1000000 ∣ frequency.val.toNat ∧ 1000 ∣ duration.nanos ∨
        2 ^ 64 ≤ frequency.val.toNat / 1000000 * duration.asMicros := by
  have ticks : frequency.val.toNat / 1000000 * duration.asMicros = waitTime frequency duration := by
    unfold waitTime
    rw [Nat.div_div_eq_div_mul]
  rw [ticks, ← or_assoc, ← enough_iff]
  constructor
  · intro never
    by_cases far : 2 ^ 64 ≤ waitTime frequency duration
    · exact .inr far
    · have exact : (UInt64.ofNat (waitTime frequency duration)).toNat = waitTime frequency duration := by
        rw [UInt64.toNat_ofNat', Nat.mod_eq_of_lt (Nat.not_le.mp far)]
      have late := never.late _ _ _ (run_jump exact)
      rw [elapsed_jump, exact] at late
      exact .inl late
  · intro enough
    refine ⟨fun counter fuel reason => initAndWait_calm counter frequency duration fuel,
      fun counter fuel calls run => ?_⟩
    obtain ⟨late, narrow⟩ := waitTime_le_elapsed run
    rcases enough with lasts | far
    · exact lasts.trans (Nat.mul_le_mul_right _ late)
    · omega

/-- A counter of 62.5 MHz has advanced by 62000000 ticks when a wait for one second returns. -/
theorem second_returns_early :
    ∃ calls, (initAndWait ⟨1, 0, by decide⟩ 1).run
      ((jump 62000000).processor ⟨62500000, by decide⟩) [] = (.ok (), calls) ∧
        (jump 62000000).elapsed calls * 1000000000 < (⟨1, 0, by decide⟩ : Duration).asNanos * 62500000 :=
  ⟨_, run_jump rfl, by decide +kernel⟩

end SystemTimer
end Rpi5.Bootloader
