import Rpi5.DeviceTree.Assembly
import Rpi5.DeviceTree.Reports
import Rpi5.DeviceTree.Steps

/-!
# Correctness of the search

On a blob which serialises a conforming device tree, `find_node` calls back for
the windows of all matching nodes in document order, each translated by the
ancestors of its node, and returns `Ok` (`find_node_reports`). A matching node
without `reg` ends it with an `Err` (`find_node_until_missing`).
-/

namespace Rpi5.DeviceTree

open Rpi5.Logical Rpi5.Semantics

/-- What a conforming device tree says about the value of a property of each name. -/
def PropName.Conforming (ancestors : Lineage) (value : Bytes) : PropName → Prop
  | .addressCells => value.length = 4
  | .sizeCells => value.length = 4
  | .compatible => ∃ texts : List String, (∀ text ∈ texts, 0 ∉ utf8 text) ∧
      value = (texts.map utf8).flatMap fun text => text ++ [0]
  | .deviceName => ∃ text : String, 0 ∉ utf8 text ∧ value = utf8 text ++ [0]
  | .reg => ∃ parent ∈ ancestors.head?, parent.stride ≤ value.length
  | .ranges => ancestors ≠ []
  | .other => True

/-- The properties of a node are not duplicated, and each is as it should be. -/
structure Device.Conforming (ancestors : Lineage) (device : Device) : Prop where
  nodup : (device.properties.map Property.name).Nodup
  values : ∀ property ∈ device.properties,
    (PropName.ofName property.name).Conforming ancestors property.value

/-- A window lies in an entry, and no sum on the way reaches 2^64. -/
structure RangeEntry.Contains (entry : RangeEntry) (window : Window) : Prop where
  start : entry.child ≤ window.1
  stop : window.1 + window.2 ≤ entry.child + entry.len
  stop_lt : entry.child + entry.len < 2 ^ 64
  target_lt : window.1 - entry.child + entry.parent < 2 ^ 64

instance {entry : RangeEntry} {window : Window} : Decidable (entry.Contains window) :=
  decidable_of_iff (entry.child ≤ window.1 ∧ window.1 + window.2 ≤ entry.child + entry.len ∧
      entry.child + entry.len < 2 ^ 64 ∧ window.1 - entry.child + entry.parent < 2 ^ 64)
    ⟨fun ⟨start, stop, stopLt, targetLt⟩ => ⟨start, stop, stopLt, targetLt⟩,
      fun contains => ⟨contains.start, contains.stop, contains.stop_lt, contains.target_lt⟩⟩

/-- A `ranges` is a single entry of at most two cells a field, and contains the window. -/
def Device.Covers (device parent : Device) (window : Window) : Prop :=
  ∀ value ∈ device.value? "ranges",
    value.length = device.rangeStride parent ∧
      (device.addressCells ≤ 2 ∧ parent.addressCells ≤ 2 ∧ device.sizeCells ≤ 2) ∧
      (device.rangeEntry parent value).Contains window

instance {device parent : Device} {window : Window} : Decidable (device.Covers parent window) :=
  inferInstanceAs (Decidable (∀ value ∈ device.value? "ranges", _ ∧ _ ∧ _))

/-- Every `ranges` of a lineage covers the window that arrives there. -/
def Covered : Lineage → Window → Prop
  | [], _ => True
  | [_], _ => True
  | device :: parent :: ancestors, window =>
      device.Covers parent window ∧ Covered (parent :: ancestors) (device.shift parent window)

instance decidableCovered : (lineage : Lineage) → (window : Window) →
    Decidable (Covered lineage window)
  | [], _ => inferInstanceAs (Decidable True)
  | [_], _ => inferInstanceAs (Decidable True)
  | device :: parent :: ancestors, window =>
      have := decidableCovered (parent :: ancestors) (device.shift parent window)
      inferInstanceAs (Decidable (device.Covers parent window ∧ _))

/-- A matching node has a `reg` of whole entries of at most two cells each, no
`ranges` of its own, and ancestors which cover all its windows. -/
def Reportable : Lineage → Prop
  | device :: owner :: ancestors =>
      device.value? "ranges" = none ∧ 0 < owner.stride ∧
        (owner.addressCells ≤ 2 ∧ owner.sizeCells ≤ 2) ∧
        ∃ value ∈ device.value? "reg", value ≠ [] ∧ owner.stride ∣ value.length ∧
          ∀ window ∈ owner.windows value, Covered (owner :: ancestors) window
  | _ => False

instance : (lineage : Lineage) → Decidable (Reportable lineage)
  | [] => inferInstanceAs (Decidable False)
  | [_] => inferInstanceAs (Decidable False)
  | device :: owner :: ancestors =>
      inferInstanceAs (Decidable (_ ∧ _ ∧ (_ ∧ _) ∧ ∃ value ∈ device.value? "reg", value ≠ [] ∧
        owner.stride ∣ value.length ∧
          ∀ window ∈ owner.windows value, Covered (owner :: ancestors) window))

/-- The windows of a node, translated by its ancestors. -/
def reportedWindows : Lineage → List Window
  | device :: owner :: ancestors =>
      match device.value? "reg" with
      | none => []
      | some value => (owner.windows value).map (translate (owner :: ancestors))
  | _ => []

/-- The conditions on the tree and the nodes a search is for. -/
structure Tree.Conforming (deviceName compatibleName : Option String) (tree : Tree) : Prop where
  nodes : (Forest.node tree.root tree.children .nil).All Device.Conforming []
  matching : ∀ lineage ∈ tree.matching deviceName compatibleName, Reportable lineage

section Consequences

variable {deviceName compatibleName : Option String} {ancestors lineage : Lineage}
  {device : Device}

/-- A conforming value is accepted. -/
theorem PropName.Conforming.accepts {value : Bytes} {kind : PropName}
    (conforming : kind.Conforming ancestors value) :
    kind.Accepts deviceName compatibleName ancestors value := by
  cases kind with
  | addressCells => exact Nat.le_of_eq (Eq.symm conforming)
  | sizeCells => exact Nat.le_of_eq (Eq.symm conforming)
  | compatible =>
      obtain ⟨texts, free, rfl⟩ := conforming
      have parts : cstrings ((texts.map utf8).flatMap fun text => text ++ [0]) =
          (texts.map utf8, []) := cstrings_flatMap (by simpa using free)
      intro _
      rw [parts]
      simp
  | deviceName =>
      obtain ⟨text, free, rfl⟩ := conforming
      intro _
      refine ⟨utf8 text, ?_, by simp⟩
      rw [cstrings_append_nul free]
      rfl
  | reg => exact conforming
  | ranges => trivial
  | other => trivial

/-- What conforms is accepted. -/
theorem Device.Conforming.accepted (conforming : device.Conforming ancestors) :
    device.Accepted deviceName compatibleName ancestors :=
  fun property member => (conforming.values property member).accepts

/-- The root of a conforming tree has no property which is not for it. -/
theorem Device.Conforming.root_absent (conforming : device.Conforming []) {kind : PropName}
    (known : kind = .reg ∨ kind = .ranges) : device.value? kind.text = none := by
  cases given : device.value? kind.text with
  | none => rfl
  | some value =>
      obtain ⟨property, member, named, -⟩ := device.mem_of_value? given
      have fine := conforming.values property member
      rw [named, PropName.ofName_text] at fine
      rcases known with rfl | rfl
      · obtain ⟨parent, above, -⟩ := fine
        cases above
      · exact absurd rfl fine

/-- Where the entries contain the window the code translates it as it should. -/
theorem climb_of_covered {window : Window} (covered : Covered lineage window) :
    climb lineage window = .ok (translate lineage window) := by
  induction lineage generalizing window with
  | nil => rfl
  | cons device ancestors ih =>
      cases ancestors with
      | nil => rfl
      | cons parent ancestors =>
          obtain ⟨covers, above⟩ := covered
          have step : device.translate parent window = .ok (device.shift parent window) := by
            unfold Device.translate Device.shift
            cases given : device.value? "ranges" with
            | none => rfl
            | some value =>
                obtain ⟨-, ⟨childCells, parentCells, sizeCells⟩, contains⟩ := covers value given
                have low : (device.rangeEntry parent value).low = device.rangeEntry parent value := by
                  unfold RangeEntry.low Device.rangeEntry
                  simp only [RangeEntry.mk.injEq]
                  refine ⟨?_, ?_, ?_⟩ <;> exact Nat.mod_eq_of_lt (beNat_take_lt (by omega) _)
                obtain ⟨start, stop, stopLt, targetLt⟩ := contains
                simp only [low]
                unfold RangeEntry.apply
                rw [if_neg (by omega), if_neg (by omega), if_neg (by omega)]
          rw [climb, step, ok_bind]
          exact ih above

/-- A covered lineage in a conforming tree has fitting `ranges`. -/
theorem rangesFit_of_covered {window : Window} (conforming : Lineage.All Device.Conforming lineage)
    (covered : Covered lineage window) : RangesFit lineage := by
  induction lineage generalizing window with
  | nil => trivial
  | cons device ancestors ih =>
      cases ancestors with
      | nil => exact @Device.Conforming.root_absent _ conforming.1 .ranges (.inr rfl)
      | cons parent ancestors =>
          refine ⟨fun value given => ?_, ih conforming.2 covered.2⟩
          exact Nat.le_of_eq (covered.1 value given).1.symm

/-- A reportable node is reported with all its windows. -/
theorem lineageReport_of_reportable (reportable : Reportable lineage) :
    lineageReport lineage = ⟨reportedWindows lineage, .ok ()⟩ := by
  match lineage with
  | [] => cases reportable
  | [_] => cases reportable
  | device :: owner :: ancestors =>
      obtain ⟨plain, -, few, value, given, filled, -, covered⟩ := reportable
      rw [Option.mem_def] at given
      have own : ∀ window ∈ owner.windows value, climb (device :: owner :: ancestors) window =
          .ok (translate (owner :: ancestors) window) := by
        intro window member
        simp only [climb, Device.translate, plain, ok_bind]
        exact climb_of_covered (covered window member)
      unfold lineageReport reportedWindows
      simp only [asked, given, Device.asked]
      rw [if_neg filled, if_neg (by omega), List.map_map, ← Emission.emitAll_map_ok]
      congr 1
      exact List.map_congr_left own

/-- Its `reg` and the `ranges` above it can be read. -/
theorem Reportable.fit (reportable : Reportable lineage)
    (conforming : Lineage.All Device.Conforming lineage) :
    RangesFit lineage ∧ RegWhole lineage := by
  match lineage with
  | [] => cases reportable
  | [_] => cases reportable
  | device :: owner :: ancestors =>
      obtain ⟨plain, positive, few, value, given, filled, whole, covered⟩ := reportable
      rw [Option.mem_def] at given
      have entry : ∃ window, window ∈ owner.windows value := by
        have some : value.length / owner.stride ≠ 0 := by
          obtain ⟨count, length⟩ := whole
          have nonempty : value.length ≠ 0 := by simpa using filled
          rw [length, Nat.mul_div_cancel_left _ positive]
          rintro rfl
          exact nonempty length
        exact List.exists_mem_of_ne_nil _ (by simpa [Device.windows] using some)
      obtain ⟨window, member⟩ := entry
      refine ⟨⟨by simp [plain], rangesFit_of_covered conforming.2 (covered window member)⟩, ?_⟩
      intro other found
      rw [given] at found
      cases found
      exact .inr ⟨positive, whole⟩

/-- A conforming tree is well-formed. -/
theorem Tree.Conforming.wellFormed {tree : Tree}
    (conforming : tree.Conforming deviceName compatibleName) :
    tree.WellFormed deviceName compatibleName := by
  have fit : ∀ lineage ∈ tree.matching deviceName compatibleName,
      RangesFit lineage ∧ RegWhole lineage := fun lineage member =>
    (conforming.matching lineage member).fit (conforming.nodes.of_mem_matching trivial member)
  exact ⟨conforming.nodes.imp fun _ _ => Device.Conforming.accepted,
    fun lineage member => (fit lineage member).1, fun lineage member => (fit lineage member).2⟩

end Consequences

namespace Image

variable {image : Image} {block : StructBlock} {deviceName compatibleName : Option String}

/-- On a conforming tree a search reports the windows of all matching nodes, in
document order and translated by the ancestors of each, and returns `Ok`. -/
theorem find_node_reports (serial : Serialises image.blob.whole image.parser block)
    (untrailed : block.trailing = 0) (one : OneName deviceName compatibleName)
    (conforming : block.tree.Conforming deviceName compatibleName) :
    image.Returns deviceName compatibleName .always (.ok ())
      ((block.tree.matching deviceName compatibleName).flatMap reportedWindows) := by
  have emits := emission_of_tree serial conforming.wellFormed one (Nat.le_refl _)
  have reports := @Emission.each_of_ok Lineage Window Failure Unit lineageReport reportedWindows
    (block.tree.matching deviceName compatibleName)
    (fun lineage member => lineageReport_of_reportable (conforming.matching lineage member))
    (.ofExcept (.ok ()))
  refine ⟨by decide, image.blob.whole.stepBound, ?_⟩
  rw [run_always, emits, if_pos untrailed, Tree.emission, reports]
  simp

end Image

section MissingReg

/-- The first of a lineage has a `reg`. -/
def Lineage.hasReg : Lineage → Bool
  | [] => false
  | device :: _ => (device.value? "reg").isSome

/-- What is reported for a lineage of a tree in which `reg` is optional. -/
def Lineage.report (lineage : Lineage) : Emission Window Failure Unit :=
  if lineage.hasReg then ⟨reportedWindows lineage, .ok ()⟩ else .ofExcept (.error regMissing)

/-- In memory the report of a node is that of its lineage. -/
theorem report_of_optional_reg {memory : Memory} {node : SimpleDeviceNode} {lineage : Lineage}
    {fuel : Nat} (stands : Stands memory (some node) lineage)
    (conforming : Lineage.All Device.Conforming lineage)
    (reportable : lineage.hasReg → Reportable lineage) (enough : memory.stepBound ≤ fuel) :
    memory.report fuel node = lineage.report := by
  unfold Lineage.report
  by_cases given : lineage.hasReg
  · obtain ⟨fit, whole⟩ := (reportable given).fit conforming
    rw [if_pos given, lineageReport_of_stands stands fit whole enough,
      lineageReport_of_reportable (reportable given)]
  · rw [if_neg given]
    match lineage with
    | [] => cases stands
    | device :: ancestors =>
        have absent : device.value? "reg" = none := by simpa [Lineage.hasReg] using given
        exact report_of_no_reg stands.level absent enough

namespace Image

variable {image : Image} {block : StructBlock} {deviceName compatibleName : Option String}

/-- Matching nodes are reported in document order up to the first one without `reg`. With
that error the search ends there, and without such a node it returns `Ok`. -/
theorem find_node_until_missing (serial : Serialises image.blob.whole image.parser block)
    (untrailed : block.trailing = 0) (one : OneName deviceName compatibleName)
    (nodes : (Forest.node block.tree.root block.tree.children .nil).All Device.Conforming [])
    (reportable : ∀ lineage ∈ block.tree.matching deviceName compatibleName, lineage.hasReg →
      Reportable lineage) :
    image.Returns deviceName compatibleName .always
      (if (block.tree.matching deviceName compatibleName).all Lineage.hasReg then .ok ()
        else .error regMissing)
      (((block.tree.matching deviceName compatibleName).takeWhile Lineage.hasReg).flatMap
        reportedWindows) := by
  have accepted : block.tree.Accepted deviceName compatibleName :=
    nodes.imp fun _ _ => Device.Conforming.accepted
  have conforming : ∀ lineage ∈ block.tree.matching deviceName compatibleName,
      Lineage.All Device.Conforming lineage := fun _ member => nodes.of_mem_matching trivial member
  let search := image.search deviceName compatibleName image.blob.whole.stepBound
  have whole : Serialises image.blob.whole search.parser block := serial
  have taken : block.tree.Accepted search.deviceName search.compatibleName := accepted
  obtain ⟨found, agree, -, emits⟩ := emission_of_block whole taken (Nat.le_refl _) one
  refine ⟨by split <;> simp [cut, regMissing], image.blob.whole.stepBound, ?_⟩
  have emission : image.emission deviceName compatibleName image.blob.whole.stepBound = _ := emits
  rw [run_always, emission, if_pos untrailed]
  change List.Forall₂ _ found (block.tree.matching deviceName compatibleName) at agree
  generalize block.tree.matching deviceName compatibleName = lineages at agree conforming reportable ⊢
  have reports : List.Forall₂ (fun node lineage => image.blob.whole.report
      image.blob.whole.stepBound node = lineage.report) found lineages := by
    clear emits emission
    induction agree with
    | nil => exact .nil
    | cons stands _ ih =>
        refine .cons (report_of_optional_reg stands (conforming _ (by simp))
          (reportable _ (by simp)) (Nat.le_refl _)) (ih ?_ ?_)
        · exact fun lineage member => conforming lineage (by simp [member])
        · exact fun lineage member => reportable lineage (by simp [member])
  have counted := @Emission.each_of_takeWhile Lineage Window Failure Unit Lineage.report
    reportedWindows Lineage.hasReg regMissing lineages (fun _ _ given => if_pos given)
    (fun _ _ missing => if_neg missing) (.ok ())
  have emission := (Emission.each_eq_of_forall₂ reports (.ofExcept (.ok ()))).trans counted
  exact congrArg (fun emission => (emission.ending, emission.output)) emission

end Image

/-- The board with one UART, with another in front of it which has no `reg`. -/
def bareBoard : StructBlock :=
  { uartBoard with
    children := .node
      { name := "bare", padding := [0, 0, 0], nulFree := by decide, padded := by decide
        items := [pl011] } .nil uartBoard.children }

def bareImage : Image :=
  .assemble 0x80000 bareBoard.encode knownNames (by decide +kernel) (by decide +kernel)

/-- The image holds the board. -/
theorem bareImage_serialises : Serialises bareImage.blob.whole bareImage.parser bareBoard := by
  apply known_serialises
  simp [bareBoard, uartBoard, rootNode, uartNode, oneCell, pl011, uartReg, TokenForest.IsKnown,
    NodeToken.IsKnown, PropToken.isKnown_known]

/-- All its nodes conform. -/
theorem bareBoard_nodes : (Forest.node bareBoard.tree.root bareBoard.tree.children .nil).All
    Device.Conforming [] := by
  have compatible : ∀ ancestors, PropName.Conforming ancestors (utf8 "pl011" ++ [0])
      .compatible := fun _ => ⟨["pl011"], by decide, by decide⟩
  refine ⟨⟨by decide, ?_⟩, ⟨⟨by decide, ?_⟩, trivial, ⟨by decide, ?_⟩, trivial, trivial⟩, trivial⟩
  · intro property member
    rcases List.mem_singleton.mp member with rfl
    exact (rfl : (be32 1).length = 4)
  · intro property member
    rcases List.mem_singleton.mp member with rfl
    exact compatible _
  · intro property member
    rcases List.mem_cons.mp member with rfl | member
    · exact compatible _
    · rcases List.mem_singleton.mp member with rfl
      exact ⟨_, rfl, by decide⟩

/-- The UART is not reported. -/
theorem bareImage_stops :
    Serialises bareImage.blob.whole bareImage.parser bareBoard ∧
      (Forest.node bareBoard.tree.root bareBoard.tree.children .nil).All Device.Conforming [] ∧
      (∀ lineage ∈ bareBoard.tree.matching none (some "pl011"), lineage.hasReg →
        Reportable lineage) ∧
      ((bareBoard.tree.matching none (some "pl011")).filter Lineage.hasReg).flatMap
        reportedWindows = [(0x1000, 0x200)] ∧
      bareImage.Returns none (some "pl011") .always (.error regMissing) [] ∧
      ¬ bareImage.Returns none (some "pl011") .always (.ok ()) [(0x1000, 0x200)] := by
  have stops : bareImage.Returns none (some "pl011") .always (.error regMissing) [] :=
    ⟨by decide, 20, by decide +kernel⟩
  refine ⟨bareImage_serialises, bareBoard_nodes, by decide +kernel, by decide +kernel, stops, ?_⟩
  intro returns
  cases (stops.unique returns).1

/-- The search for it ends where a `reg` is missing. -/
theorem bareImage_returns :
    bareImage.Returns none (some "pl011") .always
      (if (bareBoard.tree.matching none (some "pl011")).all Lineage.hasReg then .ok ()
        else .error regMissing)
      (((bareBoard.tree.matching none (some "pl011")).takeWhile Lineage.hasReg).flatMap
        reportedWindows) :=
  Image.find_node_until_missing bareImage_serialises rfl (.inr ⟨rfl, rfl⟩) bareBoard_nodes
    (by decide +kernel)

end MissingReg

section SocBoard

/-- A bus on the board, at 0x1000000000 on the root's. -/
def socBus : NodeToken where
  name := "soc"
  padding := []
  nulFree := by decide
  padded := by decide
  items := [oneCell, .nop,
    .prop (.known .ranges (be32 0x7c000000 ++ (be32 0x10 ++ be32 0x7c000000) ++ be32 0x4000000)
      (by decide))]

/-- A UART on the bus, with two windows. -/
def socUart : NodeToken := uartNode
  [.prop (.known .compatible ((utf8 "pl011" ++ [0]) ++ (utf8 "primecell" ++ [0])) (by decide)),
    .prop (.known .reg ((be32 0x7d001000 ++ be32 0x200) ++ (be32 0x7d002000 ++ be32 0x100))
      (by decide))]

/-- A board with a bus, and a UART on the bus. -/
def socBoard : StructBlock where
  leading := 2
  root := rootNode []
  children := .node socBus (.nop (.node socUart .nil .nil)) (.nop .nil)
  trailing := 0

def socImage : Image :=
  .assemble 0x80000 socBoard.encode knownNames (by decide +kernel) (by decide +kernel)

/-- The image holds the board. -/
theorem socImage_serialises : Serialises socImage.blob.whole socImage.parser socBoard := by
  apply known_serialises
  simp [socBoard, socBus, socUart, rootNode, uartNode, oneCell, TokenForest.IsKnown,
    NodeToken.IsKnown, PropToken.isKnown_known]

/-- The board conforms. -/
theorem socBoard_conforming : socBoard.tree.Conforming none (some "pl011") := by
  refine ⟨⟨⟨by decide, ?_⟩, ⟨⟨by decide, ?_⟩, ⟨⟨by decide, ?_⟩, trivial, trivial⟩, trivial⟩,
    trivial⟩, ?_⟩
  · intro property member
    cases member
  · intro property member
    rcases List.mem_cons.mp member with rfl | member
    · exact (rfl : (be32 1).length = 4)
    · rcases List.mem_singleton.mp member with rfl
      exact List.cons_ne_nil _ _
  · intro property member
    rcases List.mem_cons.mp member with rfl | member
    · exact ⟨["pl011", "primecell"], by decide, by decide⟩
    · rcases List.mem_singleton.mp member with rfl
      exact ⟨_, rfl, by decide⟩
  · decide +kernel

/-- So its windows are reported, each translated to the root. -/
theorem socImage_reports :
    socImage.Returns none (some "pl011") .always (.ok ())
      ((socBoard.tree.matching none (some "pl011")).flatMap reportedWindows) := by
  have run := Image.find_node_reports socImage_serialises rfl (.inr ⟨rfl, rfl⟩) socBoard_conforming
  exact run

example : (socBoard.tree.matching none (some "pl011")).flatMap reportedWindows =
    [(0x107d001000, 0x200), (0x107d002000, 0x100)] := by
  decide +kernel

end SocBoard
end Rpi5.DeviceTree
