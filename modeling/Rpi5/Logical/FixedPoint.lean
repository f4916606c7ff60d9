import Mathlib.Algebra.Order.Floor.Ring
import Mathlib.Tactic.FieldSimp
import Mathlib.Tactic.Linarith
import Mathlib.Tactic.Ring

/-!
# Fixed-point numbers

A fixed-point number with some fraction bits stands for an integer over a power of two.
`nearest` is the one closest to a value. Its two halves may be computed apart, the
integer part by rounding down and the fraction part by rounding to the nearest; they
belong together unless the rounded fraction carries into the integer part
(`halves_eq_nearest_iff`).
-/

namespace Rpi5.Logical

variable {α : Type} [Field α] [LinearOrder α] [IsStrictOrderedRing α] [FloorRing α]

/-- The fixed-point number closest to a value, in units of the last fraction bit. -/
def nearest (bits : ℕ) (value : α) : ℤ := ⌊2 ^ bits * value + 1 / 2⌋

/-- The integer part of the closest number is the value plus half a unit, rounded down. -/
theorem nearest_div (bits : ℕ) (value : α) :
    nearest bits value / 2 ^ bits = ⌊value + 1 / 2 ^ (bits + 1)⌋ := by
  have unit : (2 : α) ^ bits ≠ 0 := pow_ne_zero bits two_ne_zero
  have scaled : value + 1 / 2 ^ (bits + 1) = (2 ^ bits * value + 1 / 2) / ((2 ^ bits : ℕ) : α) := by
    push_cast
    rw [pow_succ]
    field_simp
  rw [scaled, Int.floor_div_natCast]
  unfold nearest
  norm_cast

/-- A small step up stays in the same unit as long as the fraction leaves room for it. -/
theorem floor_add_eq_iff {value step : α} (positive : 0 ≤ step) :
    ⌊value⌋ = ⌊value + step⌋ ↔ Int.fract value < 1 - step := by
  have split : (⌊value⌋ : α) + Int.fract value = value := Int.floor_add_fract value
  have low : 0 ≤ Int.fract value := Int.fract_nonneg value
  rw [eq_comm, Int.floor_eq_iff]
  constructor
  · rintro ⟨-, below⟩
    linarith
  · intro room
    constructor <;> linarith

/-- The halves of a fixed-point number, computed apart, are those of the closest number
exactly if the value is not within half a unit below an integer. -/
theorem halves_eq_nearest_iff (bits : ℕ) (value : α) :
    2 ^ bits * ⌊value⌋ + nearest bits value % 2 ^ bits = nearest bits value ↔
      Int.fract value < 1 - 1 / 2 ^ (bits + 1) := by
  have positive : (0 : α) ≤ 1 / 2 ^ (bits + 1) := by positivity
  have unit : (2 : ℤ) ^ bits ≠ 0 := pow_ne_zero bits two_ne_zero
  have whole : 2 ^ bits * (nearest bits value / 2 ^ bits) + nearest bits value % 2 ^ bits =
      nearest bits value := Int.mul_ediv_add_emod _ _
  rw [← floor_add_eq_iff positive, ← nearest_div]
  constructor
  · intro same
    apply mul_left_cancel₀ unit
    linarith
  · intro same
    rw [same, whole]

section Quotients

variable (num den : ℕ)

/-- The floor of a quotient of naturals is their natural quotient. -/
theorem floor_quotient : ⌊(num / den : α)⌋ = (num / den : ℕ) := by
  rw [Int.floor_div_natCast, Int.floor_natCast]
  norm_cast

/-- Rounding a quotient to the nearest integer, through the quotient rounded down to halves. -/
theorem floor_half_up :
    ⌊(num / den : α) + 1 / 2⌋ = ((2 * num / den + 1) / 2 : ℕ) := by
  have halves : (num / den : α) + 1 / 2 = ((2 * num : ℕ) / den + 1 : α) / (2 : ℕ) := by
    push_cast
    ring
  rw [halves, Int.floor_div_natCast, Int.floor_add_one, floor_quotient]
  norm_cast

end Quotients

section Truncation

variable {first second unit other : ℕ}

/-- Rounding a number down to a multiple loses nothing exactly if it is one. -/
theorem le_truncated_iff : first ≤ first / unit * unit ↔ unit ∣ first := by
  rw [Nat.dvd_iff_div_mul_eq]
  exact ⟨(Nat.div_mul_le_self first unit).antisymm, Eq.ge⟩

/-- Rounding both factors of a product down loses nothing exactly if neither loses anything. -/
theorem le_truncated_mul_iff (positive : 0 < first * second) :
    first * second ≤ first / unit * unit * (second / other * other) ↔
      unit ∣ first ∧ other ∣ second := by
  have one : first / unit * unit ≤ first := Nat.div_mul_le_self first unit
  have two : second / other * other ≤ second := Nat.div_mul_le_self second other
  rw [← le_truncated_iff, ← le_truncated_iff]
  constructor
  · intro whole
    constructor
    · apply Nat.le_of_mul_le_mul_right _ (Nat.pos_of_mul_pos_left positive)
      exact whole.trans (Nat.mul_le_mul_left _ two)
    · apply Nat.le_of_mul_le_mul_left _ (Nat.pos_of_mul_pos_right positive)
      exact whole.trans (Nat.mul_le_mul_right _ one)
  · rintro ⟨first, second⟩
    exact Nat.mul_le_mul first second

end Truncation
end Rpi5.Logical
