import Mathlib.Tactic.Common

/-!
# Queues which drain

A queue of bounded capacity gives items away in order, at moments of its own, and takes
an offered item only if there is room. What went through it is what has left it and what
it holds: draining changes nothing there, and an item taken is appended.
-/

namespace Rpi5.Logical

/-- The items held and those which have left, both in order. -/
@[ext]
structure Fifo (α : Type) where
  held : List α
  gone : List α

namespace Fifo

variable {α : Type} (fifo : Fifo α)

/-- So many items leave, as far as there are any. -/
def drained (count : Nat) : Fifo α := ⟨fifo.held.drop count, fifo.gone ++ fifo.held.take count⟩

/-- An offered item is taken if there is room, and lost if not. -/
def offered (capacity : Nat) (item : α) : Fifo α :=
  if fifo.held.length < capacity then ⟨fifo.held ++ [item], fifo.gone⟩ else fifo

/-- All items which have been taken. -/
def through : List α := fifo.gone ++ fifo.held

/-- Draining loses nothing. -/
@[simp] theorem through_drained (count : Nat) : (fifo.drained count).through = fifo.through := by
  simp [drained, through]

/-- What is offered while there is room goes through last. -/
theorem through_offered {capacity : Nat} (room : fifo.held.length < capacity) (item : α) :
    (fifo.offered capacity item).through = fifo.through ++ [item] := by
  rw [offered, if_pos room]
  exact (List.append_assoc _ _ _).symm

/-- Draining takes out what it says, as far as it is there. -/
theorem length_drained (count : Nat) :
    (fifo.drained count).held.length = fifo.held.length - count := List.length_drop

/-- An offer does not exceed the capacity. -/
theorem length_offered {capacity : Nat} (within : fifo.held.length ≤ capacity) (item : α) :
    (fifo.offered capacity item).held.length ≤ capacity := by
  unfold offered
  split
  · rw [List.length_append, List.length_singleton]
    exact Nat.succ_le_of_lt ‹_›
  · exact within

end Fifo
end Rpi5.Logical
