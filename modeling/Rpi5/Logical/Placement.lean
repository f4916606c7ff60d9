import Mathlib.Algebra.Order.Floor.Div
import Mathlib.Tactic.Common

/-!
# Placement of sections

A linker script places the input sections of each output section one behind the
other, each at the next address with its alignment. An output section is aligned as
its strictest input asks, and at least as the script asks. Alignments are powers
of two.
-/

namespace Rpi5.Logical

/-- An input section: its length, and the power of two it is aligned to. -/
structure Input where
  size : Nat
  power : Nat
deriving DecidableEq, Repr

/-- The next multiple of a power of two. -/
def alignTo (power counter : Nat) : Nat := 2 ^ power * (counter ⌈/⌉ 2 ^ power)

/-- Aligning never goes back. -/
theorem le_alignTo (power counter : Nat) : counter ≤ alignTo power counter :=
  le_smul_ceilDiv (Nat.two_pow_pos power)

/-- What is aligned is a multiple. -/
theorem dvd_alignTo (power counter : Nat) : 2 ^ power ∣ alignTo power counter :=
  Nat.dvd_mul_right _ _

/-- A smaller alignment comes with a greater one. -/
theorem dvd_alignTo_of_le {small power : Nat} (le : small ≤ power) (counter : Nat) :
    2 ^ small ∣ alignTo power counter :=
  (Nat.pow_dvd_pow 2 le).trans (dvd_alignTo power counter)

/-- An aligned counter stays where it is. -/
theorem alignTo_of_dvd {power counter : Nat} (aligned : 2 ^ power ∣ counter) :
    alignTo power counter = counter := by
  obtain ⟨multiple, rfl⟩ := aligned
  unfold alignTo
  rw [← smul_eq_mul (2 ^ power) multiple, smul_ceilDiv (Nat.two_pow_pos power), smul_eq_mul]

/-- Input sections with their addresses, from a location counter on. -/
def place : Nat → List Input → List (Nat × Input)
  | _, [] => []
  | counter, input :: rest =>
      (alignTo input.power counter, input) ::
        place (alignTo input.power counter + input.size) rest

/-- The location counter behind all input sections. -/
def placeEnd : Nat → List Input → Nat
  | counter, [] => counter
  | counter, input :: rest => placeEnd (alignTo input.power counter + input.size) rest

/-- Placing inputs never goes back. -/
theorem le_placeEnd (counter : Nat) (inputs : List Input) : counter ≤ placeEnd counter inputs := by
  induction inputs generalizing counter with
  | nil => exact Nat.le_refl counter
  | cons input rest ih =>
      calc counter ≤ alignTo input.power counter := le_alignTo input.power counter
        _ ≤ alignTo input.power counter + input.size := Nat.le_add_right _ _
        _ ≤ placeEnd (alignTo input.power counter + input.size) rest := ih _

/-- Every input section is between the counters before and behind all of them. -/
theorem place_within {counter : Nat} {inputs : List Input} {placed : Nat × Input}
    (member : placed ∈ place counter inputs) :
    counter ≤ placed.1 ∧ placed.1 + placed.2.size ≤ placeEnd counter inputs := by
  induction inputs generalizing counter with
  | nil => cases member
  | cons input rest ih =>
      rcases List.mem_cons.mp member with rfl | later
      · exact ⟨le_alignTo input.power counter, le_placeEnd _ rest⟩
      · obtain ⟨after, inside⟩ := ih later
        have before := le_alignTo input.power counter
        exact ⟨by omega, inside⟩

/-- An output section, with its input sections where they are placed. -/
structure Output where
  start : Nat
  stop : Nat
  inputs : List (Nat × Input)
deriving DecidableEq, Repr

/-- `: ALIGN(2 ^ power) { inputs . = ALIGN(2 ^ trailing) }` from a location counter on. -/
def output (power trailing counter : Nat) (inputs : List Input) : Output :=
  let strictest := inputs.foldl (fun power input => max power input.power) power
  let start := alignTo strictest counter
  { start, stop := alignTo trailing (placeEnd start inputs), inputs := place start inputs }

section Output

variable {power trailing counter : Nat} {inputs : List Input}

/-- The strictest alignment is no less than the one asked for. -/
private theorem le_strictest (power : Nat) (inputs : List Input) :
    power ≤ inputs.foldl (fun power input => max power input.power) power := by
  induction inputs generalizing power with
  | nil => exact Nat.le_refl power
  | cons input rest ih => exact (Nat.le_max_left _ _).trans (ih _)

/-- A section does not start before the counter. -/
theorem le_output_start : counter ≤ (output power trailing counter inputs).start :=
  le_alignTo _ counter

/-- Nor does it stop before it starts. -/
theorem output_start_le_stop :
    (output power trailing counter inputs).start ≤ (output power trailing counter inputs).stop :=
  (le_placeEnd _ inputs).trans (le_alignTo trailing _)

/-- It starts at a multiple of its alignment. -/
theorem output_start_aligned : 2 ^ power ∣ (output power trailing counter inputs).start :=
  dvd_alignTo_of_le (le_strictest power inputs) counter

/-- It stops at a multiple of its trailing one. -/
theorem output_stop_aligned : 2 ^ trailing ∣ (output power trailing counter inputs).stop :=
  dvd_alignTo trailing _

/-- The input sections are inside their output section. -/
theorem output_within {placed : Nat × Input}
    (member : placed ∈ (output power trailing counter inputs).inputs) :
    (output power trailing counter inputs).start ≤ placed.1 ∧
      placed.1 + placed.2.size ≤ (output power trailing counter inputs).stop := by
  obtain ⟨after, inside⟩ := place_within member
  exact ⟨after, inside.trans (le_alignTo trailing _)⟩

end Output
end Rpi5.Logical
