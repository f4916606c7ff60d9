import Mathlib.Algebra.Order.Sub.Basic
import Mathlib.Tactic.Common

/-!
# Relocations

A relocation moves the windows inside a source onto a target of the same length. A
window is a start with a size. On the way up a path every place has a relocation or
passes windows on as they are; a window which is not inside a source on its way is
refused there.
-/

namespace Rpi5.Logical

/-- A source, the target it is moved to, and the length of both. -/
structure Relocation (α : Type) where
  source : α
  target : α
  length : α
deriving DecidableEq, Repr

namespace Relocation

variable {α : Type} [AddCommMonoid α] [PartialOrder α]

/-- A window is wholly inside the source. -/
structure Holds (move : Relocation α) (window : α × α) : Prop where
  start : move.source ≤ window.1
  stop : window.1 + window.2 ≤ move.source + move.length

instance [DecidableLE α] {move : Relocation α} {window : α × α} : Decidable (move.Holds window) :=
  decidable_of_iff (move.source ≤ window.1 ∧ window.1 + window.2 ≤ move.source + move.length)
    ⟨fun ⟨start, stop⟩ => ⟨start, stop⟩, fun holds => ⟨holds.start, holds.stop⟩⟩

/-- A window is part of another one. -/
structure Inside (part whole : α × α) : Prop where
  start : whole.1 ≤ part.1
  stop : part.1 + part.2 ≤ whole.1 + whole.2

/-- A relocation holds the parts of what it holds. -/
theorem Holds.of_inside {move : Relocation α} {part whole : α × α} (holds : move.Holds whole)
    (inside : Inside part whole) : move.Holds part :=
  ⟨holds.start.trans inside.start, inside.stop.trans holds.stop⟩

/-- The sources of two relocations have nothing in common. -/
def Apart (move other : Relocation α) : Prop :=
  move.source + move.length ≤ other.source ∨ other.source + other.length ≤ move.source

/-- The way back. -/
def reverse (move : Relocation α) : Relocation α := ⟨move.target, move.source, move.length⟩

section Apart

variable [IsOrderedCancelAddMonoid α] [CanonicallyOrderedAdd α] {move other : Relocation α}
  {window : α × α}

/-- Only an empty window is inside two sources which are apart. -/
theorem Apart.empty (apart : move.Apart other) (one : move.Holds window) (two : other.Holds window) :
    window.2 = 0 := by
  have within : ∀ {first second : Relocation α}, first.source + first.length ≤ second.source →
      first.Holds window → second.Holds window → window.2 = 0 := by
    intro first second below here there
    have short : window.1 + window.2 ≤ window.1 + 0 := by
      rw [add_zero]
      exact here.stop.trans (below.trans there.start)
    exact le_antisymm ((add_le_add_iff_left _).mp short) zero_le
  rcases apart with below | below
  · exact within below one two
  · exact within below two one

end Apart

variable [Sub α]

/-- The window keeps its offset and its size. -/
def apply (move : Relocation α) (window : α × α) : α × α :=
  (window.1 - move.source + move.target, window.2)

/-- What becomes of a window on a path: `none` if it is refused. -/
inductive Moves : List (Option (Relocation α)) → α × α → Option (α × α) → Prop where
  | top {window} : Moves [] window (some window)
  | pass {path window result} (above : Moves path window result) : Moves (none :: path) window result
  /-- The window lands inside the target. -/
  | move {move path window result} (holds : move.Holds window)
      (lands : move.reverse.Holds (move.apply window)) (above : Moves path (move.apply window) result) :
      Moves (some move :: path) window result
  | refuse {move path window} (outside : ¬ move.Holds window) : Moves (some move :: path) window none

/-- Only one thing becomes of a window. -/
theorem Moves.unique {path : List (Option (Relocation α))} {window : α × α}
    {ending other : Option (α × α)} (moves : Moves path window ending)
    (again : Moves path window other) : ending = other := by
  induction moves with
  | top =>
      cases again
      rfl
  | pass _ ih =>
      cases again with
      | pass again => exact ih again
  | move holds _ _ ih =>
      cases again with
      | move _ _ again => exact ih again
      | refuse outside => exact absurd holds outside
  | refuse outside =>
      cases again with
      | move holds _ _ => exact absurd holds outside
      | refuse _ => rfl

/-- Moving a window does not change its size. -/
theorem Moves.size {path : List (Option (Relocation α))} {window result : α × α}
    (moves : Moves path window (some result)) : result.2 = window.2 := by
  generalize same : some result = ending at moves
  induction moves with
  | top => rw [Option.some.inj same]
  | pass _ ih => exact ih same
  | move _ _ _ ih => exact ih same
  | refuse _ => cases same

variable [IsOrderedCancelAddMonoid α] [CanonicallyOrderedAdd α] [OrderedSub α]
  {move : Relocation α} {window : α × α}

/-- A window inside the source is moved inside the target. -/
theorem Holds.lands (holds : move.Holds window) : move.reverse.Holds (move.apply window) := by
  have offset : window.1 - move.source + window.2 ≤ move.length := by
    have stop := holds.stop
    rwa [← tsub_add_cancel_of_le holds.start, add_comm (window.1 - move.source), add_assoc,
      add_le_add_iff_left] at stop
  refine ⟨le_add_self, ?_⟩
  calc window.1 - move.source + move.target + window.2
      = move.target + (window.1 - move.source + window.2) := by
        rw [add_comm (window.1 - move.source), add_assoc]
    _ ≤ move.target + move.length := by gcongr

section Parts

variable {path : List (Option (Relocation α))} {part whole result : α × α}

/-- A part of a window inside the source is the same part of the moved window. -/
theorem Inside.apply (inside : Inside part whole) (holds : move.Holds whole) :
    Inside (move.apply part) (move.apply whole) ∧
      (move.apply part).1 - (move.apply whole).1 = part.1 - whole.1 := by
  have offset : part.1 - move.source = part.1 - whole.1 + (whole.1 - move.source) :=
    (tsub_add_tsub_cancel inside.start holds.start).symm
  have place : (move.apply part).1 = part.1 - whole.1 + (move.apply whole).1 := by
    simp only [Relocation.apply]
    rw [offset, add_assoc]
  have stop : part.1 - whole.1 + part.2 ≤ whole.2 := by
    have stop := inside.stop
    rwa [← tsub_add_cancel_of_le inside.start, add_comm (part.1 - whole.1), add_assoc,
      add_le_add_iff_left] at stop
  refine ⟨⟨by rw [place]; exact le_add_self, ?_⟩, ?_⟩
  · calc (move.apply part).1 + (move.apply part).2
        = (move.apply whole).1 + (part.1 - whole.1 + part.2) := by
          rw [place, add_comm (part.1 - whole.1), add_assoc]
          rfl
      _ ≤ (move.apply whole).1 + whole.2 := by gcongr
  · rw [place]
    exact add_tsub_cancel_right _ _

/-- What is made of a window is made of its parts, which keep their offsets and sizes. -/
theorem Moves.inside (moves : Moves path whole (some result)) (inside : Inside part whole) :
    Moves path part (some (result.1 + (part.1 - whole.1), part.2)) := by
  generalize same : some result = ending at moves
  induction moves generalizing part with
  | top =>
      rw [Option.some.inj same, add_tsub_cancel_of_le inside.start]
      exact .top
  | pass _ ih => exact .pass (ih inside same)
  | move holds _ _ ih =>
      have holdsPart := holds.of_inside inside
      obtain ⟨moved, offset⟩ := inside.apply holds
      have above := ih moved same
      rw [offset] at above
      exact .move holdsPart holdsPart.lands above
  | refuse _ => cases same

end Parts

end Relocation
end Rpi5.Logical
