import Rpi5.DeviceTree.Translation

/-!
# Parts of a window

A path whose entries fit a window fits every part of it, as long as the window ends
inside the address space when it arrives at the top. So `calculate_address_internal`
keeps the offsets inside a window through any number of levels.
-/

namespace Rpi5.DeviceTree

open Rpi5.Logical Rpi5.Semantics

section Parts

variable {memory : Memory} {place : Option SimpleDeviceNode} {path : List (Option RangeEntry)}
  {part whole result : Window}

/-- The relocations of the entries on a path. -/
abbrev relocations (path : List (Option RangeEntry)) : List (Option (Relocation Nat)) :=
  path.map (Option.map RangeEntry.relocation)

/-- A level passes a window on only after it has read its entry. -/
theorem read_of_addressChild {node : SimpleDeviceNode}
    (done : (node.addressChild whole).eval memory.answer = .ok result) :
    ∃ entry : Option RangeEntry,
      node.readRoundInternal.eval memory.answer = .ok (entry.map RangeEntry.fields) := by
  unfold SimpleDeviceNode.addressChild at done
  by_cases given : node.ranges.isSome
  · rw [if_pos given, Inquiry.eval_bind] at done
    obtain ⟨fields, read, -⟩ := bind_eq_ok.mp done
    refine ⟨fields.map fun (child, parent, len) => ⟨child, parent, len⟩, ?_⟩
    rw [read]
    cases fields <;> rfl
  · refine ⟨none, ?_⟩
    rw [Option.not_isSome_iff_eq_none] at given
    unfold SimpleDeviceNode.readRoundInternal
    rw [given]
    rfl

/-- Where a translation succeeds, the entries above the window were read. -/
theorem decodes_of_upward (node : SimpleDeviceNode)
    (done : memory.upward (some node) whole = .ok result) :
    ∃ path, Decodes memory (some node) path := by
  induction node, whole using SimpleDeviceNode.calculateAddressInternal.induct with
  | case1 addressCells sizeCells reg ranges window =>
      obtain ⟨moved, child, -⟩ := bind_eq_ok.mp ((translation_eq _ window).symm.trans done)
      obtain ⟨entry, read⟩ := read_of_addressChild child
      exact ⟨[entry], .inner read .top⟩
  | case2 parent addressCells sizeCells reg ranges window ih =>
      obtain ⟨moved, child, rest⟩ := bind_eq_ok.mp ((translation_eq _ window).symm.trans done)
      obtain ⟨entry, read⟩ := read_of_addressChild child
      obtain ⟨path, above⟩ := ih moved rest
      exact ⟨entry :: path, .inner read above⟩

/-- A window which arrives at the top fits every entry on its way. -/
theorem pathFits_of_upward (decodes : Decodes memory place path)
    (done : memory.upward place whole = .ok result) : PathFits path whole := by
  induction decodes generalizing whole with
  | top => trivial
  | @inner node path entry read above ih =>
      have step : memory.translation node whole = .ok result := done
      rw [translation_eq, eval_addressChild_of_read read] at step
      obtain ⟨moved, child, rest⟩ := bind_eq_ok.mp step
      cases entry with
      | none =>
          cases child
          exact ih rest
      | some entry =>
          have fits : entry.Fits whole := by
            by_contra overflows
            rw [Option.elim_some, apply_of_not_fits overflows] at child
            cases child
          refine ⟨fits, fun holds => ih ?_⟩
          rw [Option.elim_some, apply_of_holds fits holds] at child
          cases child
          exact rest

/-- If it ends inside the address space there, it does so on the whole way. -/
theorem stop_of_moves (fits : PathFits path whole)
    (moves : Relocation.Moves (relocations path) whole (some result))
    (stop : result.1 + result.2 < 2 ^ 64) : whole.1 + whole.2 < 2 ^ 64 := by
  induction path generalizing whole with
  | nil =>
      cases moves
      exact stop
  | cons entry path ih =>
      cases entry with
      | none =>
          cases moves with
          | pass moves => exact ih fits moves
      | some entry => exact fits.1.windowStop

/-- Then the path fits the parts of the window. -/
theorem PathFits.inside (fits : PathFits path whole)
    (moves : Relocation.Moves (relocations path) whole (some result))
    (stop : result.1 + result.2 < 2 ^ 64) (inside : Relocation.Inside part whole) :
    PathFits path part := by
  induction path generalizing whole part with
  | nil => trivial
  | cons entry path ih =>
      cases entry with
      | none =>
          cases moves with
          | pass moves => exact ih fits moves inside
      | some entry =>
          cases moves with
          | move holds _ moves =>
              have later := fits.2 holds
              obtain ⟨moved, offset⟩ := inside.apply holds
              -- The moved window is added up by the next entry, or by the caller.
              have arrives := stop_of_moves later moves stop
              have windowStop := fits.1.windowStop
              obtain ⟨partStart, partStop⟩ := inside
              have start := holds.start
              have movedStop := moved.stop
              simp only [Relocation.apply, RangeEntry.relocation] at arrives movedStop start
              refine ⟨⟨fits.1.stop, by omega, fun _ => by omega, fun _ => by omega⟩, fun _ => ?_⟩
              exact ih later moves moved

/-- If a window is translated and ends inside the address space, every part of it is
translated with its offset and its size, so no two of its addresses come together. -/
theorem translation_inside (memory : Memory) (node : SimpleDeviceNode) (whole result : Window)
    (done : memory.translation node whole = .ok result) (stop : result.1 + result.2 < 2 ^ 64) :
    result.2 = whole.2 ∧
      (∀ part, Relocation.Inside part whole →
        memory.translation node part = .ok (result.1 + (part.1 - whole.1), part.2)) ∧
      ∀ part other, Relocation.Inside part whole → Relocation.Inside other whole →
        part.1 ≠ other.1 →
          (memory.translation node part).map Prod.fst ≠ (memory.translation node other).map Prod.fst := by
  obtain ⟨path, decodes⟩ := decodes_of_upward node done
  have fits := pathFits_of_upward decodes done
  have moves : Relocation.Moves (relocations path) whole (some result) := by
    obtain ⟨ending, moves, delivers⟩ := (moves_iff_fits decodes whole).mpr fits
    rw [done] at delivers
    cases ending with
    | some window =>
        cases delivers
        exact moves
    | none =>
        obtain ⟨text, same⟩ := delivers
        cases same
  have parts : ∀ part, Relocation.Inside part whole →
      memory.translation node part = .ok (result.1 + (part.1 - whole.1), part.2) := by
    intro part inside
    obtain ⟨ending, reached, delivers⟩ :=
      (moves_iff_fits decodes part).mpr (fits.inside moves stop inside)
    cases reached.unique (moves.inside inside)
    exact delivers
  refine ⟨moves.size, parts, fun part other one two different same => different ?_⟩
  rw [parts part one, parts other two] at same
  have offsets : part.1 - whole.1 = other.1 - whole.1 := by
    simpa [Except.map] using same
  have low := one.start
  have low' := two.start
  omega

end Parts

/-- The window which was moved by the ranges of the bus is moved in both its halves. -/
theorem lowUart_parts :
    lowImage.blob.whole.translation lowUart (0x1800, 0x100) = .ok (0x8800, 0x100) ∧
      lowImage.blob.whole.translation lowUart (0x1900, 0x100) = .ok (0x8900, 0x100) := by
  have parts := (translation_inside lowImage.blob.whole lowUart (0x1800, 0x200)
    (0x8800, 0x200) (by decide +kernel) (by decide)).2.1
  exact ⟨parts (0x1800, 0x100) ⟨by decide, by decide⟩, parts (0x1900, 0x100) ⟨by decide, by decide⟩⟩

end Rpi5.DeviceTree
