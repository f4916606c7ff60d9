import Rpi5.DeviceTree.Parser

/-!
# Device trees

What a device tree says, without any byte of its encoding but the values of its
properties: the cells a node gives its children, the nodes a search is for, the
windows of a `reg`, and the translation of a window through `ranges` up to the
root.

A node is considered together with its ancestors. A `Lineage` lists them, the
node itself first and the root last.
-/

namespace Rpi5.DeviceTree

open Rpi5.Logical

namespace PropName

/-- The name `parse_prop` knows the property by; any other name stands for the rest. -/
def text : PropName → String
  | .addressCells => "#address-cells"
  | .sizeCells => "#size-cells"
  | .compatible => "compatible"
  | .deviceName => "device_type"
  | .reg => "reg"
  | .ranges => "ranges"
  | .other => "model"

/-- The text of a known name gives the name. -/
@[simp] theorem ofName_text (name : PropName) : ofName name.text = name := by
  cases name <;> decide

/-- A property is of a kind exactly if it has the name of the kind. -/
theorem ofName_eq_iff {name : String} {kind : PropName} (known : kind ≠ .other) :
    ofName name = kind ↔ name = kind.text := by
  constructor
  · intro same
    subst same
    unfold ofName at known ⊢
    repeat' split
    all_goals simp_all [text]
  · rintro rfl
    exact ofName_text kind

end PropName

/-- A property of a node. -/
structure Property where
  name : String
  value : Bytes
deriving DecidableEq

/-- A node without its children. -/
structure Device where
  name : String
  properties : List Property
deriving DecidableEq

/-- A node and its ancestors, nearest first. -/
abbrev Lineage := List Device

/-- Siblings in document order, each with its children. -/
inductive Forest where
  | nil
  | node (device : Device) (children rest : Forest)

/-- A device tree is its root and what is below. -/
structure Tree where
  root : Device
  children : Forest

/-- An entry of `ranges`: a window of the children's bus and its place on the parent's. -/
structure RangeEntry where
  child : Nat
  parent : Nat
  len : Nat
deriving DecidableEq

namespace Device

variable (device : Device)

/-- The value of the last property of a name. -/
def value? (name : String) : Option Bytes :=
  device.properties.foldl
    (fun found property => if property.name = name then some property.value else found) none

/-- A value belongs to one of the properties of that name. -/
theorem mem_of_value? {name : String} {value : Bytes} (given : device.value? name = some value) :
    ∃ property ∈ device.properties, property.name = name ∧ property.value = value := by
  unfold value? at given
  generalize device.properties = properties at given ⊢
  induction properties using List.reverseRecOn with
  | nil => simp at given
  | append_singleton rest last ih =>
      rw [List.foldl_append, List.foldl_cons, List.foldl_nil] at given
      split at given
      case isTrue same => exact ⟨last, by simp, same, Option.some.inj given⟩
      case isFalse =>
        obtain ⟨property, member, found⟩ := ih given
        exact ⟨property, by simp [member], found⟩

/-- The number a cell property gives, or its default. -/
def cellsOr (name : String) (default : Nat) : Nat :=
  match device.value? name with
  | some value => beNat (value.take 4)
  | none => default

/-- The address cells of the children. -/
def addressCells : Nat := device.cellsOr "#address-cells" 2

/-- The size cells of the children. -/
def sizeCells : Nat := device.cellsOr "#size-cells" 1

/-- The bytes of one entry of a child's `reg`. -/
def stride : Nat := 4 * (device.addressCells + device.sizeCells)

/-- The window an entry of a child's `reg` gives. -/
def window (entry : Bytes) : Window :=
  (beNat (entry.take (4 * device.addressCells)),
    beNat ((entry.drop (4 * device.addressCells)).take (4 * device.sizeCells)))

/-- The windows of a child's `reg`. -/
def windows (value : Bytes) : List Window :=
  (List.range (value.length / device.stride)).map fun index =>
    device.window ((value.drop (device.stride * index)).take device.stride)

/-- The bytes of one entry of `ranges` below the given parent. -/
def rangeStride (parent : Device) : Nat :=
  4 * (device.addressCells + parent.addressCells + device.sizeCells)

/-- The first entry of a `ranges` value below the given parent. -/
def rangeEntry (parent : Device) (value : Bytes) : RangeEntry where
  child := beNat (value.take (4 * device.addressCells))
  parent := beNat ((value.drop (4 * device.addressCells)).take (4 * parent.addressCells))
  len := beNat ((value.drop (4 * (device.addressCells + parent.addressCells))).take
    (4 * device.sizeCells))

end Device

/-- A property of each name makes its node match the search. -/
def PropName.isMatch (deviceName compatibleName : Option String) (value : Bytes) : PropName → Bool
  | .compatible => compatibleName.any fun name => utf8 name ∈ (cstrings value).1
  | .deviceName => deviceName.any fun name => (cstrings value).1.head? = some (utf8 name)
  | _ => false

/-- What the search asks of the value of a property of each name. -/
def PropName.Accepts (deviceName compatibleName : Option String) (ancestors : Lineage)
    (value : Bytes) : PropName → Prop
  | .addressCells => 4 ≤ value.length
  | .sizeCells => 4 ≤ value.length
  | .compatible => compatibleName.isSome →
      (cstrings value).2 = [] ∧ ∀ text ∈ (cstrings value).1, (decodeUtf8 text).isSome
  | .deviceName => deviceName.isSome →
      ∃ text ∈ (cstrings value).1.head?, (decodeUtf8 text).isSome
  | .reg => ∃ parent ∈ ancestors.head?, parent.stride ≤ value.length
  | .ranges => True
  | .other => True

instance {deviceName compatibleName : Option String} {ancestors : Lineage} {value : Bytes} :
    ∀ name : PropName, Decidable (name.Accepts deviceName compatibleName ancestors value)
  | .addressCells => inferInstanceAs (Decidable (4 ≤ value.length))
  | .sizeCells => inferInstanceAs (Decidable (4 ≤ value.length))
  | .compatible => inferInstanceAs (Decidable (compatibleName.isSome →
      (cstrings value).2 = [] ∧ ∀ text ∈ (cstrings value).1, (decodeUtf8 text).isSome))
  | .deviceName => inferInstanceAs (Decidable (deviceName.isSome →
      ∃ text ∈ (cstrings value).1.head?, (decodeUtf8 text).isSome))
  | .reg => inferInstanceAs (Decidable (∃ parent ∈ ancestors.head?, parent.stride ≤ value.length))
  | .ranges => inferInstanceAs (Decidable True)
  | .other => inferInstanceAs (Decidable True)

namespace Property

/-- A property makes its node match the search. -/
def isMatch (deviceName compatibleName : Option String) (property : Property) : Bool :=
  (PropName.ofName property.name).isMatch deviceName compatibleName property.value

/-- The length and the contents of a property are those the search relies on. -/
def Accepted (deviceName compatibleName : Option String) (ancestors : Lineage)
    (property : Property) : Prop :=
  (PropName.ofName property.name).Accepts deviceName compatibleName ancestors property.value

instance {deviceName compatibleName : Option String} {ancestors : Lineage} {property : Property} :
    Decidable (property.Accepted deviceName compatibleName ancestors) :=
  inferInstanceAs (Decidable (PropName.Accepts _ _ _ _ _))

end Property

namespace Device

/-- A node matches the search if one of its properties does. -/
def isMatch (deviceName compatibleName : Option String) (device : Device) : Bool :=
  device.properties.any (Property.isMatch deviceName compatibleName)

/-- All properties of a node are accepted. -/
def Accepted (deviceName compatibleName : Option String) (ancestors : Lineage)
    (device : Device) : Prop :=
  ∀ property ∈ device.properties, property.Accepted deviceName compatibleName ancestors

instance {deviceName compatibleName : Option String} {ancestors : Lineage} {device : Device} :
    Decidable (device.Accepted deviceName compatibleName ancestors) :=
  inferInstanceAs (Decidable (∀ property ∈ device.properties, property.Accepted _ _ _))

end Device

/-- A property of nodes with their ancestors holds of a node and all its ancestors. -/
def Lineage.All (holds : Lineage → Device → Prop) : Lineage → Prop
  | [] => True
  | device :: ancestors => holds ancestors device ∧ Lineage.All holds ancestors

namespace Forest

/-- The matching nodes in document order, each with its ancestors. -/
def matching (deviceName compatibleName : Option String) (ancestors : Lineage) :
    Forest → List Lineage
  | .nil => []
  | .node device children rest =>
      (if device.isMatch deviceName compatibleName then [device :: ancestors] else []) ++
        children.matching deviceName compatibleName (device :: ancestors) ++
        rest.matching deviceName compatibleName ancestors

/-- A property of nodes with their ancestors holds of all nodes. -/
def All (holds : Lineage → Device → Prop) : Lineage → Forest → Prop
  | _, .nil => True
  | ancestors, .node device children rest =>
      holds ancestors device ∧ children.All holds (device :: ancestors) ∧ rest.All holds ancestors

instance decidableAll (holds : Lineage → Device → Prop)
    [∀ ancestors device, Decidable (holds ancestors device)] :
    (ancestors : Lineage) → (forest : Forest) → Decidable (forest.All holds ancestors)
  | _, .nil => inferInstanceAs (Decidable True)
  | ancestors, .node device children rest =>
      have := decidableAll holds (device :: ancestors) children
      have := decidableAll holds ancestors rest
      inferInstanceAs (Decidable (holds ancestors device ∧ _ ∧ _))

/-- All nodes are accepted. -/
def Accepted (deviceName compatibleName : Option String) (ancestors : Lineage) (forest : Forest) :
    Prop :=
  forest.All (fun ancestors device => device.Accepted deviceName compatibleName ancestors) ancestors

instance {deviceName compatibleName : Option String} {ancestors : Lineage} {forest : Forest} :
    Decidable (forest.Accepted deviceName compatibleName ancestors) :=
  inferInstanceAs (Decidable (forest.All _ _))

/-- What holds of all nodes may be weakened. -/
theorem All.imp {holds other : Lineage → Device → Prop} {ancestors : Lineage} {forest : Forest}
    (all : forest.All holds ancestors)
    (step : ∀ ancestors device, holds ancestors device → other ancestors device) :
    forest.All other ancestors := by
  induction forest generalizing ancestors with
  | nil => trivial
  | node device children rest childrenAll restAll =>
      exact ⟨step _ _ all.1, childrenAll all.2.1, restAll all.2.2⟩

/-- What holds of all nodes holds along every matching lineage. -/
theorem All.of_mem_matching {holds : Lineage → Device → Prop}
    {deviceName compatibleName : Option String} {ancestors lineage : Lineage} {forest : Forest}
    (all : forest.All holds ancestors) (above : Lineage.All holds ancestors)
    (member : lineage ∈ forest.matching deviceName compatibleName ancestors) :
    Lineage.All holds lineage := by
  induction forest generalizing ancestors with
  | nil => simp [matching] at member
  | node device children rest childrenAll restAll =>
      obtain ⟨here, inside, after⟩ := all
      simp only [matching, List.mem_append] at member
      rcases member with (member | member) | member
      · split at member
        · simp only [List.mem_singleton] at member
          subst member
          exact ⟨here, above⟩
        · simp at member
      · exact childrenAll inside ⟨here, above⟩ member
      · exact restAll after above member

end Forest

namespace Tree

/-- The matching nodes of a tree. -/
def matching (deviceName compatibleName : Option String) (tree : Tree) : List Lineage :=
  (Forest.node tree.root tree.children .nil).matching deviceName compatibleName []

/-- All nodes of a tree are accepted. -/
def Accepted (deviceName compatibleName : Option String) (tree : Tree) : Prop :=
  (Forest.node tree.root tree.children .nil).Accepted deviceName compatibleName []

instance {deviceName compatibleName : Option String} {tree : Tree} :
    Decidable (tree.Accepted deviceName compatibleName) :=
  inferInstanceAs (Decidable (Forest.Accepted _ _ _ _))

end Tree

/-- The translation of a window by a node's own `ranges`: the offset in the entry is
kept. A node without `ranges` passes the window on unchanged. -/
def Device.shift (device parent : Device) (window : Window) : Window :=
  match device.value? "ranges" with
  | none => window
  | some value =>
      let entry := device.rangeEntry parent value
      (window.1 - entry.child + entry.parent, window.2)

/-- The translation of a window through the `ranges` of a lineage, up to the root. -/
def translate : Lineage → Window → Window
  | [], window => window
  | [_], window => window
  | device :: parent :: ancestors, window =>
      translate (parent :: ancestors) (device.shift parent window)

end Rpi5.DeviceTree
