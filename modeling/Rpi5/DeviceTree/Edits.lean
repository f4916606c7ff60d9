import Rpi5.DeviceTree.Reports

/-!
# Giving a node an empty `ranges`

Two forests which differ in one node are `Edited`. Here the node is given an empty
`ranges` and nothing else: the search finds the same nodes (`Edited.matching`), its
values are accepted as before (`Edited.accepted`), and the same windows are asked for
(`Replaced.asked`).
-/

namespace Rpi5.DeviceTree

open Rpi5.Logical Rpi5.Semantics

/-- A node is given an empty `ranges` somewhere among its properties. -/
structure Device.GivenEmptyRanges (old new : Device) : Prop where
  absent : old.value? "ranges" = none
  given : ∃ before after, old.properties = before ++ after ∧
    new.properties = before ++ ⟨"ranges", []⟩ :: after

/-- Two forests below the same nodes differ in one node only, whose ancestors are given. -/
inductive Edited (old new : Device) (above : Lineage) : Lineage → Forest → Forest → Prop where
  | here {children rest} :
      Edited old new above above (.node old children rest) (.node new children rest)
  | inside {ancestors device children children' rest}
      (deeper : Edited old new above (device :: ancestors) children children') :
      Edited old new above ancestors (.node device children rest) (.node device children' rest)
  | later {ancestors device children rest rest'}
      (after : Edited old new above ancestors rest rest') :
      Edited old new above ancestors (.node device children rest) (.node device children rest')

/-- Two lineages are the same, or differ in that node. -/
def Replaced (old new : Device) (above lineage lineage' : Lineage) : Prop :=
  lineage = lineage' ∨ ∃ lower, lineage = lower ++ old :: above ∧ lineage' = lower ++ new :: above

section Values

variable {old new : Device}

/-- The other values stay the same. -/
theorem Device.GivenEmptyRanges.value? (gives : old.GivenEmptyRanges new) {name : String}
    (other : name ≠ "ranges") : new.value? name = old.value? name := by
  obtain ⟨before, after, split, split'⟩ := gives.given
  unfold Device.value?
  rw [split, split', List.foldl_append, List.foldl_append, List.foldl_cons, if_neg (Ne.symm other)]

/-- The new device is another one. -/
theorem Device.GivenEmptyRanges.ne (gives : old.GivenEmptyRanges new) : new ≠ old := by
  obtain ⟨before, after, split, split'⟩ := gives.given
  rintro rfl
  have lengths := congrArg List.length (split.symm.trans split')
  simp only [List.length_append, List.length_cons] at lengths
  omega

/-- It has the same address cells. -/
theorem Device.GivenEmptyRanges.addressCells (gives : old.GivenEmptyRanges new) :
    new.addressCells = old.addressCells := by
  unfold Device.addressCells cellsOr
  rw [gives.value? (by decide)]

/-- And the same size cells. -/
theorem Device.GivenEmptyRanges.sizeCells (gives : old.GivenEmptyRanges new) :
    new.sizeCells = old.sizeCells := by
  unfold Device.sizeCells cellsOr
  rw [gives.value? (by decide)]

/-- So its entries have the same length. -/
theorem Device.GivenEmptyRanges.stride (gives : old.GivenEmptyRanges new) :
    new.stride = old.stride := by
  unfold Device.stride
  rw [gives.addressCells, gives.sizeCells]

variable {deviceName compatibleName : Option String}

/-- An empty `ranges` is no match. -/
theorem Device.GivenEmptyRanges.isMatch (gives : old.GivenEmptyRanges new) :
    new.isMatch deviceName compatibleName = old.isMatch deviceName compatibleName := by
  obtain ⟨before, after, split, split'⟩ := gives.given
  have no : Property.isMatch deviceName compatibleName ⟨"ranges", []⟩ = false := rfl
  unfold Device.isMatch
  rw [split, split', List.any_append, List.any_append, List.any_cons, no, Bool.false_or]

/-- An empty `ranges` is accepted. -/
theorem Device.GivenEmptyRanges.accepted {ancestors : Lineage} (gives : old.GivenEmptyRanges new)
    (accepted : old.Accepted deviceName compatibleName ancestors) :
    new.Accepted deviceName compatibleName ancestors := by
  obtain ⟨before, after, split, split'⟩ := gives.given
  intro property member
  rw [split', List.mem_append, List.mem_cons] at member
  rcases member with member | rfl | member
  · exact accepted property (by simp [split, member])
  · trivial
  · exact accepted property (by simp [split, member])

end Values

section Below

variable {old new : Device} {above ancestors ancestors' lineage lineage' : Lineage}
  {deviceName compatibleName : Option String}

/-- A device below is in both lineages. -/
theorem Replaced.cons (replaced : Replaced old new above ancestors ancestors') (device : Device) :
    Replaced old new above (device :: ancestors) (device :: ancestors') := by
  rcases replaced with rfl | ⟨lower, rfl, rfl⟩
  · exact .inl rfl
  · exact .inr ⟨device :: lower, rfl, rfl⟩

/-- Acceptance looks at the parent's stride only. -/
theorem PropName.accepts_congr {value : Bytes} {kind : PropName}
    (same : ancestors'.head?.map Device.stride = ancestors.head?.map Device.stride)
    (accepts : kind.Accepts deviceName compatibleName ancestors value) :
    kind.Accepts deviceName compatibleName ancestors' value := by
  cases kind with
  | reg =>
      obtain ⟨parent, member, long⟩ := accepts
      rw [Option.mem_def] at member
      rw [member, Option.map_some, Option.map_eq_some_iff] at same
      obtain ⟨parent', member', stride⟩ := same
      exact ⟨parent', member', by rwa [stride]⟩
  | _ => exact accepts

/-- The entries of the innermost `reg` keep their length. -/
theorem Replaced.stride (replaced : Replaced old new above lineage lineage')
    (gives : old.GivenEmptyRanges new) :
    lineage'.head?.map Device.stride = lineage.head?.map Device.stride := by
  rcases replaced with rfl | ⟨lower, rfl, rfl⟩
  · rfl
  · cases lower with
    | nil => simp [gives.stride]
    | cons => rfl

/-- A forest below the node is accepted as before. -/
theorem Forest.Accepted.replaced {forest : Forest} (gives : old.GivenEmptyRanges new)
    (replaced : Replaced old new above ancestors ancestors')
    (accepted : forest.Accepted deviceName compatibleName ancestors) :
    forest.Accepted deviceName compatibleName ancestors' := by
  induction forest generalizing ancestors ancestors' with
  | nil => trivial
  | node device children rest childrenAccepted restAccepted =>
      refine ⟨fun property member => ?_, childrenAccepted (replaced.cons device) accepted.2.1,
        restAccepted replaced accepted.2.2⟩
      exact PropName.accepts_congr (replaced.stride gives) (accepted.1 property member)

/-- The same nodes match below the node. -/
theorem Forest.matching_replaced (forest : Forest)
    (replaced : Replaced old new above ancestors ancestors') :
    List.Forall₂ (Replaced old new above) (forest.matching deviceName compatibleName ancestors)
      (forest.matching deviceName compatibleName ancestors') := by
  induction forest generalizing ancestors ancestors' with
  | nil => exact .nil
  | node device children rest childrenSame restSame =>
      refine List.rel_append (List.rel_append ?_ (childrenSame (replaced.cons device)))
        (restSame replaced)
      split
      · exact .cons (replaced.cons device) .nil
      · exact .nil

/-- The same windows are asked for. -/
theorem Replaced.asked (replaced : Replaced old new above lineage lineage')
    (gives : old.GivenEmptyRanges new) : asked lineage' = asked lineage := by
  have owned : ∀ value, new.asked value = old.asked value := by
    intro value
    simp only [Device.asked, Device.windows, Device.window, gives.addressCells, gives.sizeCells,
      gives.stride]
  have reg : new.value? "reg" = old.value? "reg" := gives.value? (by decide)
  rcases replaced with rfl | ⟨lower, rfl, rfl⟩
  · rfl
  · rcases lower with _ | ⟨device, _ | _⟩
    · cases above with
      | nil => rfl
      | cons => simp only [List.nil_append, DeviceTree.asked, reg]
    · simp only [List.singleton_append, DeviceTree.asked, owned]
    · rfl

/-- So a `reg` of whole entries stays one. -/
theorem Replaced.regWhole (replaced : Replaced old new above lineage lineage')
    (gives : old.GivenEmptyRanges new) (whole : RegWhole lineage) : RegWhole lineage' := by
  have reg : new.value? "reg" = old.value? "reg" := gives.value? (by decide)
  rcases replaced with rfl | ⟨lower, rfl, rfl⟩
  · exact whole
  · rcases lower with _ | ⟨device, _ | _⟩
    · cases above with
      | nil => simpa [RegWhole, reg] using whole
      | cons => simpa [RegWhole, reg] using whole
    · simpa [RegWhole, gives.stride] using whole
    · exact whole

end Below

section Edits

variable {old new : Device} {above ancestors : Lineage} {forest forest' : Forest}
  {deviceName compatibleName : Option String}

/-- The search finds the same nodes. -/
theorem Edited.matching (edited : Edited old new above ancestors forest forest')
    (gives : old.GivenEmptyRanges new) :
    List.Forall₂ (Replaced old new above) (forest.matching deviceName compatibleName ancestors)
      (forest'.matching deviceName compatibleName ancestors) := by
  have same : ∀ (lineage : Lineage) (other : Forest), List.Forall₂ (Replaced old new above)
      (other.matching deviceName compatibleName lineage)
      (other.matching deviceName compatibleName lineage) :=
    fun lineage other => other.matching_replaced (.inl rfl)
  induction edited with
  | here =>
      refine List.rel_append (List.rel_append ?_ (Forest.matching_replaced _ (.inr ⟨[], rfl, rfl⟩)))
        (same _ _)
      rw [gives.isMatch]
      split
      · exact .cons (.inr ⟨[], rfl, rfl⟩) .nil
      · exact .nil
  | inside deeper ih =>
      refine List.rel_append (List.rel_append ?_ ih) (same _ _)
      split
      · exact .cons (.inl rfl) .nil
      · exact .nil
  | later after ih =>
      refine List.rel_append (List.rel_append ?_ (same _ _)) ih
      split
      · exact .cons (.inl rfl) .nil
      · exact .nil

/-- The edited forest is accepted. -/
theorem Edited.accepted (edited : Edited old new above ancestors forest forest')
    (gives : old.GivenEmptyRanges new)
    (accepted : forest.Accepted deviceName compatibleName ancestors) :
    forest'.Accepted deviceName compatibleName ancestors := by
  induction edited with
  | here =>
      exact ⟨gives.accepted accepted.1, Forest.Accepted.replaced gives (.inr ⟨[], rfl, rfl⟩)
        accepted.2.1, accepted.2.2⟩
  | inside deeper ih => exact ⟨accepted.1, ih accepted.2.1, accepted.2.2⟩
  | later after ih => exact ⟨accepted.1, accepted.2.1, ih accepted.2.2⟩

end Edits
end Rpi5.DeviceTree
