import Mathlib.Data.Rat.Floor
import Rpi5.Bootloader.Pl011
import Rpi5.Logical.FixedPoint

/-!
# The baud divisor

`init` writes the divisor of the UART clock in two registers, an integer part and a
fraction of six bits. The integer part is rounded down and the fraction to the nearest,
so the pair is the closest fixed-point number unless the rounded fraction carries.
-/

namespace Rpi5.Bootloader.Pl011Uart

open Rpi5.Logical Rpi5.Semantics

variable {tock : TockRegisters} {uart : Pl011Uart} {kind : UartNum} {baudrate : UInt32}
  {device : Device} {history calls : List Access} {fuel : Nat}

/-- The exact divisor of a UART's clock. -/
def divisor (kind : UartNum) (baudrate : UInt32) : ℚ := uartClk kind / (16 * baudrate.toNat : ℕ)

/-- The divisor fits the integer register and is not zero. -/
structure InRange (kind : UartNum) (baudrate : UInt32) : Prop where
  low : 1 ≤ divisor kind baudrate
  high : divisor kind baudrate ≤ 65535

/-- Initialising the UART returns once it is free, never panics, and divides its clock by
the number closest to the exact divisor. -/
structure Divides (tock : TockRegisters) (uart : Pl011Uart) (kind : UartNum) (baudrate : UInt32) :
    Prop where
  calm : ∀ device fuel reason, ((uart.init tock kind baudrate fuel).run device []).1 =
    .error (.stopped reason) → reason = .outOfFuel
  returns : ∀ device : Device, (∃ polls, UARTFR.busy.read
      (device (List.replicate polls (.read uart.flags)) (.read uart.flags)) = 0) →
    ∃ enough, ∀ fuel > enough, ((uart.init tock kind baudrate fuel).run device []).1 = .ok ()
  closest : ∀ device fuel calls, (uart.init tock kind baudrate fuel).run device [] = (.ok (), calls) →
    ∃ whole fraction, writes uart.integerBaudRate calls = [whole] ∧
      writes uart.fractionalBaudRate calls = [fraction] ∧
        (64 * whole.toNat + fraction.toNat : ℤ) =
          ⌊(4 * uartClk kind / baudrate.toNat : ℚ) + 1 / 2⌋

section Arithmetic

/-- Both clocks are above the highest rate and small enough to compute with. -/
theorem uartClk_bounds (kind : UartNum) : uartClk kind * 8 + 1 < 2 ^ 32 ∧ uartClk kind > 3686400 := by
  unfold uartClk
  split <;> omega

/-- A rate in range is not 0. -/
theorem InRange.positive (range : InRange kind baudrate) : 0 < baudrate.toNat := by
  apply Nat.pos_of_ne_zero
  intro zero
  have low := range.low
  unfold divisor at low
  rw [zero] at low
  norm_num at low

/-- The integer part as the code computes it. -/
theorem whole_eq : (uartClk kind / baudrate.toNat / 16 : ℕ) = ⌊divisor kind baudrate⌋ := by
  unfold divisor
  rw [floor_quotient, Nat.mul_comm, Nat.div_div_eq_div_mul]

/-- The fraction as the code computes it, before the high bits are cut off. -/
theorem halves_eq :
    ((uartClk kind * 8 / baudrate.toNat + 1) / 2 : ℕ) = nearest 6 (divisor kind baudrate) := by
  have scaled : 2 ^ 6 * divisor kind baudrate = ((4 * uartClk kind : ℕ) / baudrate.toNat : ℚ) := by
    unfold divisor
    push_cast
    ring
  unfold nearest
  rw [scaled, floor_half_up]
  congr 4
  ring

/-- The nearest fraction in 64ths, in whole numbers. -/
theorem nearest_divisor : nearest 6 (divisor kind baudrate) =
    ⌊(4 * uartClk kind / baudrate.toNat : ℚ) + 1 / 2⌋ := by
  unfold nearest divisor
  congr 2
  push_cast
  ring

/-- The pair of the code is the closest number exactly if its fraction does not carry. -/
theorem pair_eq_iff :
    (64 * (uartClk kind / baudrate.toNat / 16 : ℕ) +
        ((uartClk kind * 8 / baudrate.toNat + 1) / 2 &&& 0b111111 : ℕ) : ℤ) =
          ⌊(4 * uartClk kind / baudrate.toNat : ℚ) + 1 / 2⌋ ↔
      Int.fract (divisor kind baudrate) < 127 / 128 := by
  have low : (uartClk kind * 8 / baudrate.toNat + 1) / 2 &&& 0b111111 =
      (uartClk kind * 8 / baudrate.toNat + 1) / 2 % 2 ^ 6 := Nat.and_two_pow_sub_one_eq_mod _ 6
  have room : (1 - 1 / 2 ^ (6 + 1) : ℚ) = 127 / 128 := by norm_num
  rw [low, Int.natCast_mod, halves_eq, whole_eq, ← nearest_divisor, ← room]
  exact halves_eq_nearest_iff 6 (divisor kind baudrate)

end Arithmetic

section Runs

/-- The function returns a whole part and the rounded fraction, without its carry. -/
theorem run_clockDivisor {clk divisor : Nat} (small : clk * 8 + 1 < 2 ^ 32) (positive : 0 < divisor) :
    (clockDivisor clk divisor).run device history =
      (.ok (clk / divisor / 16, (clk * 8 / divisor + 1) / 2 &&& 0b111111), history) := by
  have eighths : clk * 8 < 2 ^ 32 := by omega
  have halves : clk * 8 / divisor + 1 < 2 ^ 32 := by
    have below : clk * 8 / divisor ≤ clk * 8 := Nat.div_le_self _ _
    omega
  unfold clockDivisor
  rw [Accessing.run_bind_of_ok (Accessing.run_div positive),
    Accessing.run_bind_of_ok (Accessing.run_checked eighths),
    Accessing.run_bind_of_ok (Accessing.run_div positive),
    Accessing.run_bind_of_ok (Accessing.run_checked halves)]
  rfl

/-- Once the UART is disabled nothing stops the initialisation. -/
theorem run_setup (positive : 0 < baudrate.toNat) :
    (uart.setup tock kind baudrate).run device history = (.ok (), history ++
      [.write uart.integerBaudRate (.ofNat 32 (uartClk kind / baudrate.toNat / 16)),
        .write uart.fractionalBaudRate
          (.ofNat 32 ((uartClk kind * 8 / baudrate.toNat + 1) / 2 &&& 0b111111)),
        .write uart.lineControl (tock.modify [UARTLCR.bit8, UARTLCR.fen.set] 0),
        .write uart.control
          (tock.modify [UARTCR.uarten.set, UARTCR.txe.set, UARTCR.rxe.set] 0)]) := by
  obtain ⟨small, fast⟩ := uartClk_bounds kind
  unfold setup
  rw [Accessing.run_bind_of_ok (Accessing.run_assert fast),
    Accessing.run_bind_of_ok (run_clockDivisor small positive),
    Accessing.run_bind_of_ok (Driver.run_set _ _), Accessing.run_bind_of_ok (Driver.run_set _ _),
    Accessing.run_bind_of_ok (Driver.run_write _ _ _), Driver.run_write]
  simp only [List.append_assoc, List.cons_append, List.nil_append]

/-- Disabling the UART leaves the divisor alone. -/
theorem run_disabled (tock : TockRegisters) (uart : Pl011Uart) (device : Device)
    (history : List Access) : ∃ accesses, (uart.disabled tock).run device history =
      (.ok (), history ++ accesses) ∧ writes uart.integerBaudRate accesses = [] ∧
        writes uart.fractionalBaudRate accesses = [] := by
  unfold disabled
  rw [Accessing.run_bind_of_ok (Driver.run_modify _ _ _), Accessing.run_bind_of_ok (Driver.run_write _ _ _),
    Driver.run_modify]
  simp only [List.append_assoc]
  refine ⟨_, rfl, ?_, ?_⟩ <;>
    simp [writes, integerBaudRate, fractionalBaudRate, control, interrputClear, lineControl]

/-- From the end of the busy wait on, the initialisation returns and has written one divisor. -/
theorem run_init_of_flush (kind : UartNum) (positive : 0 < baudrate.toNat)
    {polls : Nat} (flushed : (uart.flush tock fuel).run device [] =
      (.ok (), List.replicate polls (.read uart.flags))) :
    ∃ calls, (uart.init tock kind baudrate fuel).run device [] = (.ok (), calls) ∧
      writes uart.integerBaudRate calls = [.ofNat 32 (uartClk kind / baudrate.toNat / 16)] ∧
        writes uart.fractionalBaudRate calls =
          [.ofNat 32 ((uartClk kind * 8 / baudrate.toNat + 1) / 2 &&& 0b111111)] := by
  obtain ⟨accesses, disabled, whole, fraction⟩ := run_disabled tock uart device
    (List.replicate polls (.read uart.flags))
  unfold init
  rw [Accessing.run_bind_of_ok flushed, Accessing.run_bind_of_ok disabled, run_setup positive]
  refine ⟨_, rfl, ?_, ?_⟩ <;> simp only [writes_append, writes_replicate_read, whole, fraction] <;>
    simp [writes, integerBaudRate, fractionalBaudRate, control, lineControl]

/-- A run of the initialisation waits for too long, or returns with one divisor written. -/
theorem init_cases (tock : TockRegisters) (uart : Pl011Uart) (kind : UartNum)
    (positive : 0 < baudrate.toNat) (device : Device) (fuel : Nat) :
    ((uart.init tock kind baudrate fuel).run device []).1 = .error (.stopped .outOfFuel) ∨
      ∃ calls, (uart.init tock kind baudrate fuel).run device [] = (.ok (), calls) ∧
        writes uart.integerBaudRate calls = [.ofNat 32 (uartClk kind / baudrate.toNat / 16)] ∧
          writes uart.fractionalBaudRate calls =
            [.ofNat 32 ((uartClk kind * 8 / baudrate.toNat + 1) / 2 &&& 0b111111)] := by
  rcases Driver.run_spinWhile_cases device uart.flags (tock.matchesAll [UARTFR.busy.set]) fuel [] with
    waited | ⟨polls, -, flushed⟩
  · refine .inl ?_
    unfold init flush
    rw [Accessing.run_bind_of_error waited]
  · exact .inr (run_init_of_flush kind positive flushed)

/-- With `busy` clear the loop ends. -/
theorem not_busy {word : Word} (free : UARTFR.busy.read word = 0) :
    tock.matchesAll [UARTFR.busy.set] word = false := by
  rw [← Bool.not_eq_true, tock.matchesAll_iff _ _ (by decide)]
  intro matches_all
  have on := matches_all UARTFR.busy.set (List.mem_singleton_self _)
  change UARTFR.busy.read word = 1 at on
  omega

/-- A UART which is ever free is initialised. -/
theorem init_returns (positive : 0 < baudrate.toNat) (free : ∃ polls, UARTFR.busy.read
      (device (List.replicate polls (.read uart.flags)) (.read uart.flags)) = 0) :
    ∃ enough, ∀ fuel > enough, ((uart.init tock kind baudrate fuel).run device []).1 = .ok () := by
  obtain ⟨polls, ready⟩ := free
  have free : ∃ polls, tock.matchesAll [UARTFR.busy.set]
      (device ([] ++ List.replicate polls (.read uart.flags)) (.read uart.flags)) = false :=
    ⟨polls, not_busy ready⟩
  obtain ⟨enough, flushed⟩ := Driver.run_spinWhile_of_free free
  refine ⟨enough, fun fuel more => ?_⟩
  obtain ⟨calls, run, -⟩ := run_init_of_flush kind positive (flushed fuel more)
  rw [run]

end Runs

/-- The divisor which `init` writes is the closest one exactly if the exact divisor is not
within half a fraction unit below an integer. -/
theorem divides_iff (range : InRange kind baudrate) :
    Divides tock uart kind baudrate ↔ Int.fract (divisor kind baudrate) < 127 / 128 := by
  have positive := range.positive
  obtain ⟨small, -⟩ := uartClk_bounds kind
  have whole : (BitVec.ofNat 32 (uartClk kind / baudrate.toNat / 16)).toNat =
      uartClk kind / baudrate.toNat / 16 := by
    have below : uartClk kind / baudrate.toNat / 16 ≤ uartClk kind :=
      (Nat.div_le_self _ _).trans (Nat.div_le_self _ _)
    rw [BitVec.toNat_ofNat, Nat.mod_eq_of_lt (by omega)]
  have fraction : ∀ halves, (BitVec.ofNat 32 (halves &&& 0b111111)).toNat = halves &&& 0b111111 := by
    intro halves
    have below : halves &&& 0b111111 ≤ 0b111111 := Nat.and_le_right
    rw [BitVec.toNat_ofNat, Nat.mod_eq_of_lt (by omega)]
  constructor
  · intro divides
    obtain ⟨enough, returns⟩ := divides.returns (fun _ _ => 0) ⟨0, rfl⟩
    have returned := returns (enough + 1) (Nat.lt_succ_self enough)
    rcases init_cases tock uart kind positive (fun _ _ => 0) (enough + 1) with stopped | ⟨calls, run, wholes, fractions⟩
    · rw [returned] at stopped
      cases stopped
    · obtain ⟨_, _, same, other, closest⟩ := divides.closest _ _ _ run
      rw [wholes] at same
      rw [fractions] at other
      cases same
      cases other
      rwa [whole, fraction, pair_eq_iff] at closest
  · intro room
    refine ⟨fun device fuel reason stopped => ?_, fun device => init_returns positive,
      fun device fuel calls run => ?_⟩
    · rcases init_cases tock uart kind positive device fuel with limit | ⟨calls, run, -⟩
      · rw [stopped] at limit
        cases limit
        rfl
      · rw [run] at stopped
        cases stopped
    · rcases init_cases tock uart kind positive device fuel with limit | ⟨_, same, wholes, fractions⟩
      · rw [run] at limit
        cases limit
      · rw [run] at same
        cases same
        refine ⟨_, _, wholes, fractions, ?_⟩
        rwa [whole, fraction, pair_eq_iff]

/-- The rate the bootloader uses is far from the boundary. -/
theorem debug_divides : InRange .Debug 115200 ∧ Divides tockRegisters ⟨0x107d001000⟩ .Debug 115200 := by
  have rate : UInt32.toNat 115200 = 115200 := rfl
  have exact : divisor .Debug 115200 = 13750 / 576 := by norm_num [divisor, uartClk, rate]
  have range : InRange .Debug 115200 := by constructor <;> norm_num [exact]
  refine ⟨range, (divides_iff range).mpr ?_⟩
  have floor : ⌊divisor .Debug 115200⌋ = 23 := by
    rw [exact, Int.floor_eq_iff]
    constructor <;> norm_num
  rw [Int.fract, floor, exact]
  norm_num

/-- At 1380000 baud the rounded fraction carries: 1 and 0/64 is written, the closest is 2. -/
theorem debug_carries : InRange .Debug 1380000 ∧ (∃ calls,
    ((⟨0x107d001000⟩ : Pl011Uart).init tockRegisters .Debug 1380000 1).run (fun _ _ => 0) [] =
      (.ok (), calls) ∧ writes 0x107d001024 calls = [1] ∧ writes 0x107d001028 calls = [0]) ∧
    ⌊(4 * uartClk .Debug / 1380000 : ℚ) + 1 / 2⌋ = 128 := by
  have rate : UInt32.toNat 1380000 = 1380000 := rfl
  refine ⟨?_, ⟨_, rfl, by decide +kernel, by decide +kernel⟩, ?_⟩
  · constructor <;> norm_num [divisor, uartClk, rate]
  · rw [Int.floor_eq_iff]
    constructor <;> norm_num [uartClk]

end Rpi5.Bootloader.Pl011Uart
