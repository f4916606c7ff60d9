import Rpi5.DeviceTree.Translation

/-!
# Several entries in a `ranges`

`parse_prop` keeps only the address of a `ranges`, and `read_round_internal` only reads
the entry at that address. A window inside a later entry is therefore moved only where
the first entry happens to do the same (`translatedAlong_iff`).
-/

namespace Rpi5.DeviceTree

open Rpi5.Logical Rpi5.Semantics

/-- The entries of a `ranges` value below the given parent. -/
def Device.rangeEntries (device parent : Device) (value : Bytes) : List RangeEntry :=
  (List.range (value.length / device.rangeStride parent)).map fun index =>
    device.rangeEntry parent (value.drop (device.rangeStride parent * index))

/-- No `ranges` on a lineage is empty or only part of an entry, and the root has none. -/
def TablesFilled : Lineage → Prop
  | [] => True
  | [root] => root.value? "ranges" = none
  | device :: owner :: ancestors =>
      (∀ value ∈ device.value? "ranges", device.rangeEntries owner value ≠ []) ∧
        TablesFilled (owner :: ancestors)

/-- A window inside an entry is moved by it, and refused only if it is inside none. -/
structure TranslatedBy (entries : List RangeEntry) (window : Window)
    (result : Except Failure Window) : Prop where
  moved : ∀ entry ∈ entries, entry.relocation.Holds window →
    result = .ok (entry.relocation.apply window)
  refused : Refused result → ∀ entry ∈ entries, ¬ entry.relocation.Holds window

/-- An entry does with a window what another one does, and nothing overflows. -/
structure RangeEntry.Serves (first entry : RangeEntry) (window : Window) : Prop where
  fits : first.Fits window
  holds : first.relocation.Holds window
  offset : entry.parent + first.child = first.parent + entry.child

/-- On the way up, every ancestor moves the window which arrives there by the entry it is
inside. -/
def TranslatedAlong (memory : Memory) : Option SimpleDeviceNode → Lineage → Window → Prop
  | some node, device :: owner :: ancestors, window =>
      match device.value? "ranges" with
      | none => (node.addressChild window).eval memory.answer = .ok window ∧
          TranslatedAlong memory node.parent (owner :: ancestors) window
      | some value =>
          TranslatedBy (device.rangeEntries owner value) window
              ((node.addressChild window).eval memory.answer) ∧
            ∀ entry ∈ device.rangeEntries owner value, entry.relocation.Holds window →
              TranslatedAlong memory node.parent (owner :: ancestors) (entry.relocation.apply window)
  | _, _, _ => True

/-- On the way up, the first entry serves for every entry which the window is inside. -/
def ServedByFirst : Lineage → Window → Prop
  | device :: owner :: ancestors, window =>
      match device.value? "ranges" with
      | none => ServedByFirst (owner :: ancestors) window
      | some value =>
          ∀ entry ∈ device.rangeEntries owner value, entry.relocation.Holds window →
            (device.rangeEntry owner value).low.Serves entry window ∧
              ServedByFirst (owner :: ancestors) (entry.relocation.apply window)
  | _, _ => True

/-- The way of a window up to the root, through an entry it is inside at every `ranges`. -/
inductive Routes : Lineage → Window → Window → Prop where
  | top {root window} : Routes [root] window window
  | pass {device owner ancestors window target} (plain : device.value? "ranges" = none)
      (above : Routes (owner :: ancestors) window target) :
      Routes (device :: owner :: ancestors) window target
  | move {device owner ancestors window target value entry} (given : device.value? "ranges" = some value)
      (member : entry ∈ device.rangeEntries owner value) (holds : entry.relocation.Holds window)
      (above : Routes (owner :: ancestors) (entry.relocation.apply window) target) :
      Routes (device :: owner :: ancestors) window target

section Tables

variable {memory : Memory} {device owner : Device} {value : Bytes} {window : Window}

/-- One entry gives the results of a table exactly where it serves for the others. -/
theorem translatedBy_iff {first : RangeEntry} {entries : List RangeEntry} :
    TranslatedBy entries window (first.apply window) ↔
      ∀ entry ∈ entries, entry.relocation.Holds window → first.Serves entry window := by
  constructor
  · intro translated entry member holds
    have moved := translated.moved entry member holds
    by_cases fits : first.Fits window
    · by_cases inside : first.relocation.Holds window
      · rw [apply_of_holds fits inside] at moved
        refine ⟨fits, inside, ?_⟩
        have start : entry.child ≤ window.1 := holds.start
        have start' : first.child ≤ window.1 := inside.start
        have place : window.1 - first.child + first.parent = window.1 - entry.child + entry.parent :=
          congrArg Prod.fst (Except.ok.inj moved)
        omega
      · rw [apply_of_outside fits inside] at moved
        cases moved
    · rw [apply_of_not_fits fits] at moved
      cases moved
  · intro served
    have moved : ∀ entry ∈ entries, entry.relocation.Holds window →
        first.apply window = .ok (entry.relocation.apply window) := by
      intro entry member holds
      obtain ⟨fits, inside, offset⟩ := served entry member holds
      have start : entry.child ≤ window.1 := holds.start
      have start' : first.child ≤ window.1 := inside.start
      have place : window.1 - first.child + first.parent = window.1 - entry.child + entry.parent := by
        omega
      have same : first.relocation.apply window = entry.relocation.apply window := Prod.ext place rfl
      rw [apply_of_holds fits inside, same]
    refine ⟨moved, ?_⟩
    rintro ⟨text, failed⟩ entry member holds
    rw [moved entry member holds] at failed
    cases failed

/-- For a window which is not empty, and entries apart from each other, the first entry
serves exactly if the window is in no later one, and nothing overflows in the first. -/
theorem serves_iff_of_apart {first : RangeEntry} {entries : List RangeEntry} (filled : window.2 ≠ 0)
    (apart : ∀ entry ∈ entries, first.relocation.Apart entry.relocation) :
    (∀ entry ∈ first :: entries, entry.relocation.Holds window → first.Serves entry window) ↔
      (first.relocation.Holds window → first.Fits window) ∧
        ∀ entry ∈ entries, ¬ entry.relocation.Holds window := by
  constructor
  · intro served
    refine ⟨fun holds => (served first (by simp) holds).fits, ?_⟩
    intro entry member holds
    have inside := (served entry (by simp [member]) holds).holds
    exact filled ((apart entry member).empty inside holds)
  · rintro ⟨fits, later⟩ entry member holds
    rcases List.mem_cons.mp member with rfl | member
    · exact ⟨fits holds, holds, rfl⟩
    · exact absurd holds (later entry member)

/-- A value with an entry is as long as one. -/
theorem stride_le_of_rangeEntries (filled : device.rangeEntries owner value ≠ []) :
    device.rangeStride owner ≤ value.length := by
  by_contra short
  have none : value.length / device.rangeStride owner = 0 := Nat.div_eq_of_lt (by omega)
  exact filled (by simp [Device.rangeEntries, none])

/-- The entries of every `ranges` are used on the way up exactly as far as the first one
serves for them. -/
theorem translatedAlong_iff {place : Option SimpleDeviceNode} {lineage : Lineage}
    (stands : Stands memory place lineage) (filled : TablesFilled lineage) (window : Window) :
    TranslatedAlong memory place lineage window ↔ ServedByFirst lineage window := by
  induction stands generalizing window with
  | root => exact Iff.rfl
  | @inner node device ancestors level above ih =>
      cases ancestors with
      | nil => exact Iff.rfl
      | cons owner ancestors =>
          obtain ⟨parent, owned, parentLevel⟩ := above.exists_node
          obtain ⟨here, later⟩ := filled
          have long : ∀ value ∈ device.value? "ranges", device.rangeStride owner ≤ value.length :=
            fun value given => stride_le_of_rangeEntries (here value given)
          have own : (node.addressChild window).eval memory.answer = device.translate owner window := by
            rw [eval_addressChild level owned parentLevel, level.translateAt long]
          unfold TranslatedAlong ServedByFirst
          rw [own]
          unfold Device.translate
          cases given : device.value? "ranges" with
          | none => simp only [true_and, ih later]
          | some value =>
              simp only [translatedBy_iff, ih later]
              exact ⟨fun ⟨served, above⟩ entry member holds =>
                ⟨served entry member holds, above entry member holds⟩,
                fun both => ⟨fun entry member holds => (both entry member holds).1,
                  fun entry member holds => (both entry member holds).2⟩⟩

/-- Then `calculate_address_internal` returns the window at the end of its way. -/
theorem upward_of_routes {place : Option SimpleDeviceNode} {lineage : Lineage} {target : Window}
    (stands : Stands memory place lineage) (filled : TablesFilled lineage)
    (translated : TranslatedAlong memory place lineage window)
    (routes : Routes lineage window target) : memory.upward place window = .ok target := by
  induction routes generalizing place with
  | @top root window =>
      cases stands with
      | @inner node _ _ level above =>
          have fit : RangesFit [root] := filled
          exact translation_of_stands (.inner level above) fit
  | @pass device owner ancestors window target plain _ ih =>
      cases stands with
      | @inner node _ _ level above =>
          unfold TranslatedAlong at translated
          simp only [plain] at translated
          obtain ⟨own, later⟩ := translated
          have step : memory.upward (some node) window = _ := translation_eq node window
          rw [step, own, ok_bind]
          exact ih above filled.2 later
  | @move device owner ancestors window target value entry given member holds _ ih =>
      cases stands with
      | @inner node _ _ level above =>
          unfold TranslatedAlong at translated
          simp only [given] at translated
          obtain ⟨own, later⟩ := translated
          have step : memory.upward (some node) window = _ := translation_eq node window
          rw [step, own.moved entry member holds, ok_bind]
          exact ih above filled.2 (later entry member holds)

end Tables

section TwoEntries

/-- A bus with two mapped parts. -/
def tableBus : NodeToken := axiNode
  [oneCell, .prop (.known .ranges
    (be32 0x1000 ++ be32 0x8000 ++ be32 0x1000 ++ (be32 0x4000 ++ be32 0x20000 ++ be32 0x1000))
    (by decide))]

/-- A UART in the second part. -/
def tableUart : NodeToken :=
  uartNode [pl011, .prop (.known .reg (be32 0x4800 ++ be32 0x200) (by decide))]

def tableBoard : StructBlock :=
  { uartBoard with children := .node tableBus (.node tableUart .nil .nil) .nil }

def tableImage : Image :=
  .assemble 0x80000 tableBoard.encode knownNames (by decide +kernel) (by decide +kernel)

/-- The UART with its ancestors. -/
def tableLineage : Lineage := [tableUart.device, tableBus.device, uartBoard.root.device]

/-- The image holds the board. -/
theorem tableImage_serialises : Serialises tableImage.blob.whole tableImage.parser tableBoard := by
  apply known_serialises
  simp [tableBoard, tableBus, tableUart, axiNode, uartBoard, rootNode, uartNode, oneCell, pl011,
    TokenForest.IsKnown, NodeToken.IsKnown, PropToken.isKnown_known]

/-- Its tables are all filled. -/
theorem tableLineage_filled : TablesFilled tableLineage := ⟨by decide, by decide, rfl⟩

/-- The walk finds the UART. -/
theorem tableUart_stands : ∃ node, Stands tableImage.blob.whole (some node) tableLineage := by
  obtain ⟨node, -, stands, -⟩ := @node_at tableImage.blob.whole
    (tableImage.search none (some "pl011") tableImage.blob.whole.stepBound) tableBoard
    tableImage_serialises (by decide +kernel) (Nat.le_refl _) 0 tableLineage (by decide +kernel)
  exact ⟨node, stands⟩

/-- The window of the UART is inside the second entry, and the search refuses it. -/
theorem tableImage_refuses :
    tableBus.device.rangeEntries uartBoard.root.device
        (be32 0x1000 ++ be32 0x8000 ++ be32 0x1000 ++ (be32 0x4000 ++ be32 0x20000 ++ be32 0x1000)) =
        [⟨0x1000, 0x8000, 0x1000⟩, ⟨0x4000, 0x20000, 0x1000⟩] ∧
      Serialises tableImage.blob.whole tableImage.parser tableBoard ∧
      tableBoard.tree.matching none (some "pl011") = [tableLineage] ∧ TablesFilled tableLineage ∧
      Routes tableLineage (0x4800, 0x200) (0x20800, 0x200) ∧
      tableImage.Returns none (some "pl011") .always
        (.error (.stopped (.err "ranges size overflow"))) [] ∧
      ∀ node, Stands tableImage.blob.whole (some node) tableLineage →
        ¬ TranslatedAlong tableImage.blob.whole (some node) tableLineage (0x4800, 0x200) := by
  have routes : Routes tableLineage (0x4800, 0x200) (0x20800, 0x200) :=
    .pass rfl (@Routes.move _ _ _ _ _ _ ⟨0x4000, 0x20000, 0x1000⟩ rfl (by decide) (by decide) .top)
  refine ⟨by decide, tableImage_serialises, by decide +kernel, tableLineage_filled, routes,
    ⟨by decide, 20, by decide +kernel⟩, ?_⟩
  intro node stands translated
  have arrives : tableImage.blob.whole.translation node (0x4800, 0x200) = .ok (0x20800, 0x200) :=
    upward_of_routes stands tableLineage_filled translated routes
  have refuses : climb tableLineage (0x4800, 0x200) =
      .error (.stopped (.err "ranges size overflow")) := by decide +kernel
  rw [translation_of_stands stands (by decide), refuses] at arrives
  cases arrives

/-- A window in the first entry is translated. -/
theorem tableUart_translated : ∃ node, Stands tableImage.blob.whole (some node) tableLineage ∧
    TranslatedAlong tableImage.blob.whole (some node) tableLineage (0x1800, 0x200) := by
  obtain ⟨node, stands⟩ := tableUart_stands
  refine ⟨node, stands, (translatedAlong_iff stands tableLineage_filled _).mpr ?_⟩
  have served : ∀ entry ∈ [(⟨0x1000, 0x8000, 0x1000⟩ : RangeEntry), ⟨0x4000, 0x20000, 0x1000⟩],
      entry.relocation.Holds (0x1800, 0x200) →
        RangeEntry.Serves ⟨0x1000, 0x8000, 0x1000⟩ entry (0x1800, 0x200) := by
    refine (serves_iff_of_apart (by decide) ?_).mpr ⟨fun _ => by decide, by decide⟩
    intro entry member
    rcases List.mem_singleton.mp member with rfl
    exact .inl (by decide)
  intro entry member holds
  exact ⟨served entry member holds, trivial⟩

end TwoEntries
end Rpi5.DeviceTree
