import Rpi5.DeviceTree.Assembly
import Rpi5.DeviceTree.Reports
import Rpi5.DeviceTree.Steps
import Rpi5.Logical.Relocation

/-!
# Translation of a window

`calculate_address_internal` is compared with the relocations which the entries of
`ranges` stand for. The code compares only the ends of a window and an entry. So on a
path of any length it does what the relocations do exactly if no sum on the way
overflows and no window begins below its entry (`moves_iff_fits`).
-/

namespace Rpi5.DeviceTree

open Rpi5.Logical Rpi5.Semantics

namespace RangeEntry

/-- What an entry is for: its child windows are moved to its parent's bus. -/
def relocation (entry : RangeEntry) : Relocation Nat := ⟨entry.child, entry.parent, entry.len⟩

/-- The numbers as `read_round_internal` returns them. -/
def fields (entry : RangeEntry) : Nat × Nat × Nat := (entry.child, entry.parent, entry.len)

/-- The ends of an entry and of a window fit a `usize`. A window which does not end behind
the entry does not begin before it, and its place on the parent's bus fits a `usize`. -/
structure Fits (entry : RangeEntry) (window : Window) : Prop where
  stop : entry.child + entry.len < 2 ^ 64
  windowStop : window.1 + window.2 < 2 ^ 64
  start : window.1 + window.2 ≤ entry.child + entry.len → entry.child ≤ window.1
  target : window.1 + window.2 ≤ entry.child + entry.len →
    window.1 - entry.child + entry.parent < 2 ^ 64

instance {entry : RangeEntry} {window : Window} : Decidable (entry.Fits window) :=
  decidable_of_iff (entry.child + entry.len < 2 ^ 64 ∧ window.1 + window.2 < 2 ^ 64 ∧
      (window.1 + window.2 ≤ entry.child + entry.len →
        entry.child ≤ window.1 ∧ window.1 - entry.child + entry.parent < 2 ^ 64))
    ⟨fun ⟨stop, windowStop, place⟩ =>
      ⟨stop, windowStop, fun ends => (place ends).1, fun ends => (place ends).2⟩,
      fun fits => ⟨fits.stop, fits.windowStop, fun ends => ⟨fits.start ends, fits.target ends⟩⟩⟩

end RangeEntry

/-- Every entry on a path fits the window which arrives there, up to the first entry the
window is not inside. -/
def PathFits : List (Option RangeEntry) → Window → Prop
  | [], _ => True
  | none :: path, window => PathFits path window
  | some entry :: path, window => entry.Fits window ∧
      (entry.relocation.Holds window → PathFits path (entry.relocation.apply window))

/-- The entries which `read_round_internal` decodes for a node and its ancestors. -/
inductive Decodes (memory : Memory) : Option SimpleDeviceNode → List (Option RangeEntry) → Prop where
  | top : Decodes memory none []
  | inner {node path} {entry : Option RangeEntry}
      (read : node.readRoundInternal.eval memory.answer = .ok (entry.map RangeEntry.fields))
      (above : Decodes memory node.parent path) : Decodes memory (some node) (entry :: path)

/-- An `Err` is returned. -/
def Refused {α : Type} (result : Except Failure α) : Prop :=
  ∃ text, result = .error (.stopped (.err text))

/-- A panic is no refusal. -/
theorem OnlyPanics.not_refused {α : Type} {result : Except Failure α} (panics : OnlyPanics result) :
    ¬ Refused result := by
  rintro ⟨text, same⟩
  simpa using panics _ same

/-- A result is the window, or an `Err` where there is none. -/
def Delivers (result : Except Failure Window) : Option Window → Prop
  | some window => result = .ok window
  | none => Refused result

section Paths

variable {memory : Memory} {node : SimpleDeviceNode} {entry : RangeEntry} {window : Window}
  {path : List (Option RangeEntry)}

/-- A window which does not fit is an overflow. -/
theorem apply_of_not_fits (overflows : ¬ entry.Fits window) :
    entry.apply window = .error (.stopped .overflow) := by
  unfold RangeEntry.apply
  by_cases sums : 2 ^ 64 ≤ entry.child + entry.len ∨ 2 ^ 64 ≤ window.1 + window.2
  · rw [if_pos sums]
  · obtain ⟨stop, windowStop⟩ := not_or.mp sums
    have ends : ¬ entry.child + entry.len < window.1 + window.2 := by
      intro behind
      exact overflows ⟨by omega, by omega, by omega, by omega⟩
    have place : window.1 < entry.child ∨ 2 ^ 64 ≤ window.1 - entry.child + entry.parent := by
      by_contra inside
      exact overflows ⟨by omega, by omega, by omega, by omega⟩
    rw [if_neg sums, if_neg ends, if_pos place]

/-- A window which fits but is not inside the entry is refused. -/
theorem apply_of_outside (fits : entry.Fits window) (outside : ¬ entry.relocation.Holds window) :
    entry.apply window = .error (.stopped (.err "ranges size overflow")) := by
  obtain ⟨stop, windowStop, start, -⟩ := fits
  have behind : entry.child + entry.len < window.1 + window.2 := by
    by_contra ends
    exact outside ⟨start (Nat.not_lt.mp ends), Nat.not_lt.mp ends⟩
  unfold RangeEntry.apply
  rw [if_neg (by omega), if_pos behind]

/-- A window which fits and is inside the entry is moved. -/
theorem apply_of_holds (fits : entry.Fits window) (holds : entry.relocation.Holds window) :
    entry.apply window = .ok (entry.relocation.apply window) := by
  have ends : window.1 + window.2 ≤ entry.child + entry.len := holds.stop
  have start := fits.start ends
  have target := fits.target ends
  obtain ⟨stop, windowStop, -, -⟩ := fits
  unfold RangeEntry.apply
  rw [if_neg (by omega), if_neg (by omega), if_neg (by omega)]
  rfl

/-- Only without `ranges` there is no entry. -/
theorem ranges_of_read {fields : Option (Nat × Nat × Nat)}
    (read : node.readRoundInternal.eval memory.answer = .ok fields) :
    fields.isSome = node.ranges.isSome := by
  unfold SimpleDeviceNode.readRoundInternal at read
  cases given : node.ranges with
  | none =>
      rw [given] at read
      cases read
      rfl
  | some start =>
      rw [given] at read
      simp only [Inquiry.eval_bind] at read
      obtain ⟨child, -, read⟩ := bind_eq_ok.mp read
      obtain ⟨second, -, read⟩ := bind_eq_ok.mp read
      cases above : node.parent with
      | none =>
          rw [above] at read
          cases read
      | some parent =>
          rw [above] at read
          simp only [Inquiry.eval_bind] at read
          obtain ⟨place, -, read⟩ := bind_eq_ok.mp read
          obtain ⟨third, -, read⟩ := bind_eq_ok.mp read
          obtain ⟨len, -, read⟩ := bind_eq_ok.mp read
          cases read
          rfl

/-- A node translates by the entry decoded for it. -/
theorem eval_addressChild_of_read {entry : Option RangeEntry}
    (read : node.readRoundInternal.eval memory.answer = .ok (entry.map RangeEntry.fields)) :
    (node.addressChild window).eval memory.answer =
      entry.elim (.ok window) fun entry => entry.apply window := by
  have ranges := ranges_of_read read
  unfold SimpleDeviceNode.addressChild
  cases entry with
  | none =>
      have absent : ¬ node.ranges.isSome := by simpa using ranges.symm
      rw [if_neg absent]
      rfl
  | some entry =>
      have present : node.ranges.isSome := by simpa using ranges.symm
      rw [if_pos present, Inquiry.eval_bind, read, ok_bind]
      exact eval_apply entry

/-- What the ancestors make of a window, the last of them of their own. -/
def Memory.upward (memory : Memory) : Option SimpleDeviceNode → Window → Except Failure Window
  | none, window => .ok window
  | some node, window => memory.translation node window

/-- A window is translated by the entries of the node, and then further up. -/
theorem translation_eq (node : SimpleDeviceNode) (window : Window) :
    memory.translation node window =
      (node.addressChild window).eval memory.answer >>= memory.upward node.parent := by
  rw [Memory.translation, calculateAddressInternal_eq, Inquiry.eval_bind]
  congr 1
  funext child
  cases node.parent <;> rfl

/-- Along any path, `calculate_address_internal` does with a window what the relocations
do, exactly if every entry on the way fits it. -/
theorem upward_moves_iff_fits {place : Option SimpleDeviceNode} (decodes : Decodes memory place path)
    (window : Window) :
    (∃ result, Relocation.Moves (path.map (Option.map RangeEntry.relocation)) window result ∧
      Delivers (memory.upward place window) result) ↔ PathFits path window := by
  induction decodes generalizing window with
  | top => exact ⟨fun _ => trivial, fun _ => ⟨some window, .top, rfl⟩⟩
  | @inner node path entry read above ih =>
      have step : memory.upward (some node) window =
          entry.elim (.ok window) (fun entry => entry.apply window) >>= memory.upward node.parent := by
        rw [← eval_addressChild_of_read read]
        exact translation_eq node window
      rw [step]
      cases entry with
      | none =>
          refine Iff.trans ⟨?_, ?_⟩ (ih window)
          · rintro ⟨result, moves, delivers⟩
            cases moves with
            | pass moves => exact ⟨result, moves, delivers⟩
          · rintro ⟨result, moves, delivers⟩
            exact ⟨result, .pass moves, delivers⟩
      | some entry =>
          simp only [Option.elim_some]
          constructor
          · rintro ⟨result, moves, delivers⟩
            by_cases fits : entry.Fits window
            · refine ⟨fits, fun holds => (ih _).mp ?_⟩
              rw [apply_of_holds fits holds, ok_bind] at delivers
              cases moves with
              | move _ _ moves => exact ⟨result, moves, delivers⟩
              | refuse outside => exact absurd holds outside
            · rw [apply_of_not_fits fits, error_bind] at delivers
              cases result with
              | some window => cases delivers
              | none =>
                  obtain ⟨text, same⟩ := delivers
                  cases same
          · rintro ⟨fits, later⟩
            by_cases holds : entry.relocation.Holds window
            · obtain ⟨result, moves, delivers⟩ := (ih _).mpr (later holds)
              rw [apply_of_holds fits holds, ok_bind]
              exact ⟨result, .move holds holds.lands moves, delivers⟩
            · rw [apply_of_outside fits holds, error_bind]
              exact ⟨none, .refuse holds, _, rfl⟩

/-- Along any path, `calculate_address_internal` does with a window what the relocations
do, exactly if every entry on the way fits it. -/
theorem moves_iff_fits (decodes : Decodes memory (some node) path) (window : Window) :
    (∃ result, Relocation.Moves (path.map (Option.map RangeEntry.relocation)) window result ∧
      Delivers (memory.translation node window) result) ↔ PathFits path window :=
  upward_moves_iff_fits decodes window

end Paths

section Low

/-- A bus on a board. -/
def axiNode (items : List PropItem) : NodeToken where
  name := "axi"
  padding := []
  nulFree := by decide
  padded := by decide
  items := items

/-- A board whose UART begins below the mapped part of its bus. -/
def lowBoard : StructBlock :=
  { uartBoard with
    children := .node
      (axiNode [oneCell,
        .prop (.known .ranges (be32 0x1000 ++ be32 0x8000 ++ be32 0x1000) (by decide))])
      (.node (uartNode [pl011, .prop (.known .reg (be32 0x800 ++ be32 0x200) (by decide))]) .nil .nil)
      .nil }

def lowImage : Image :=
  .assemble 0x80000 lowBoard.encode knownNames (by decide +kernel) (by decide +kernel)

/-- The image holds the board. -/
theorem lowImage_serialises : Serialises lowImage.blob.whole lowImage.parser lowBoard := by
  apply known_serialises
  simp [lowBoard, axiNode, uartBoard, rootNode, uartNode, oneCell, pl011, TokenForest.IsKnown,
    NodeToken.IsKnown, PropToken.isKnown_known]

/-- The UART as the walk finds it. -/
def lowUart : SimpleDeviceNode where
  parent := some ⟨some ⟨none, 1, 1, none, none⟩, 1, 1, none, some 0x80064⟩
  addressCells := 2
  sizeCells := 1
  reg := some (0x8009c, 8)
  ranges := none

/-- The entries above it. -/
def lowPath : List (Option RangeEntry) := [none, some ⟨0x1000, 0x8000, 0x1000⟩, none]

/-- The path of its UART is decoded. -/
theorem lowUart_decodes : Decodes lowImage.blob.whole (some lowUart) lowPath :=
  .inner (by decide +kernel) (.inner (by decide +kernel) (.inner (by decide +kernel) .top))

/-- The window of the UART is not inside the entry, and the search panics. -/
theorem lowImage_panics :
    Serialises lowImage.blob.whole lowImage.parser lowBoard ∧
      Decodes lowImage.blob.whole (some lowUart) lowPath ∧
      lowImage.Returns none (some "pl011") .always (.error (.stopped .overflow)) [] ∧
      lowImage.blob.whole.translation lowUart (0x800, 0x200) = .error (.stopped .overflow) ∧
      ¬ ∃ result, Relocation.Moves (lowPath.map (Option.map RangeEntry.relocation)) (0x800, 0x200)
        result ∧ Delivers (lowImage.blob.whole.translation lowUart (0x800, 0x200)) result := by
  have panics : lowImage.blob.whole.translation lowUart (0x800, 0x200) =
      .error (.stopped .overflow) := by decide +kernel
  refine ⟨lowImage_serialises, lowUart_decodes, ⟨by decide, 20, by decide +kernel⟩, panics, ?_⟩
  rintro ⟨result, -, delivers⟩
  rw [panics] at delivers
  cases result with
  | some window => cases delivers
  | none =>
      obtain ⟨text, same⟩ := delivers
      cases same

/-- A window inside the entry is moved. -/
theorem lowUart_moves : ∃ result,
    Relocation.Moves (lowPath.map (Option.map RangeEntry.relocation)) (0x1800, 0x200) result ∧
      Delivers (lowImage.blob.whole.translation lowUart (0x1800, 0x200)) result :=
  (moves_iff_fits lowUart_decodes (0x1800, 0x200)).mpr ⟨by decide, fun _ => trivial⟩

end Low
end Rpi5.DeviceTree
