import Rpi5.DeviceTree.Assembly
import Rpi5.DeviceTree.Reports
import Rpi5.DeviceTree.Steps

/-!
# The `ranges` of the node itself

The `ranges` of a node describes the bus of its children, its `reg` is a window on
the bus of its parent. `calculate_address_internal` starts at the node itself, so
the node's own `ranges` is applied to its own `reg`: a change of it leaves the
report alone exactly if the entries before and after take every window of `reg` to
the same place (`own_ranges_ignored_iff`).
-/

namespace Rpi5.DeviceTree

open Rpi5.Logical Rpi5.Semantics

section Injective

variable {device parent : Device} {lineage : Lineage} {entry : RangeEntry}
  {first second window : Window}

/-- An entry takes different windows to different places. -/
theorem RangeEntry.apply_injective (one : entry.apply first = .ok window)
    (other : entry.apply second = .ok window) : first = second := by
  unfold apply at one other
  split at one
  · cases one
  split at one
  · cases one
  split at one
  · cases one
  split at other
  · cases other
  split at other
  · cases other
  split at other
  · cases other
  simp only [Except.ok.injEq] at one other
  obtain ⟨place, size⟩ := Prod.ext_iff.mp (one.trans other.symm)
  simp only at place size
  apply Prod.ext
  · omega
  · exact size

/-- Different windows are translated to different ones. -/
theorem Device.translate_injective (one : device.translate parent first = .ok window)
    (other : device.translate parent second = .ok window) : first = second := by
  unfold translate at one other
  cases given : device.value? "ranges" with
  | none =>
      simp only [given, Except.ok.injEq] at one other
      rw [one, other]
  | some value =>
      simp only [given] at one other
      exact RangeEntry.apply_injective one other

/-- A lineage takes different windows to different places. -/
theorem climb_injective (one : climb lineage first = .ok window)
    (other : climb lineage second = .ok window) : first = second := by
  induction lineage generalizing first second with
  | nil => exact (Except.ok.inj one).trans (Except.ok.inj other).symm
  | cons device ancestors ih =>
      cases ancestors with
      | nil => exact (Except.ok.inj one).trans (Except.ok.inj other).symm
      | cons parent ancestors =>
          obtain ⟨middle, up, one⟩ := bind_eq_ok.mp one
          obtain ⟨middle', up', other⟩ := bind_eq_ok.mp other
          obtain rfl := ih one other
          exact Device.translate_injective up up'

end Injective

/-- Two translations of a window by a node itself agree: they take it to the same
place, or its ancestors refuse it both ways. -/
def SamePlace (ancestors : Lineage) (one other : Except Failure Window) : Prop :=
  (∃ place, one = .ok place ∧ other = .ok place) ∨
    (∀ place, (one >>= climb ancestors) ≠ .ok place) ∧
      ∀ place, (other >>= climb ancestors) ≠ .ok place

/-- They agree exactly if the whole translations do. -/
theorem samePlace_iff {ancestors : Lineage} {one other : Except Failure Window} :
    SamePlace ancestors one other ↔
      ∀ place, (one >>= climb ancestors) = .ok place ↔ (other >>= climb ancestors) = .ok place := by
  constructor
  · rintro (⟨window, rfl, rfl⟩ | ⟨refused, refused'⟩) place
    · rfl
    · exact ⟨fun same => absurd same (refused place), fun same => absurd same (refused' place)⟩
  · intro same
    by_cases reached : ∃ place, (one >>= climb ancestors) = .ok place
    · obtain ⟨place, whole⟩ := reached
      obtain ⟨window, rfl, up⟩ := bind_eq_ok.mp whole
      obtain ⟨window', rfl, up'⟩ := bind_eq_ok.mp ((same place).mp whole)
      obtain rfl := climb_injective up up'
      exact .inl ⟨window, rfl, rfl⟩
    · simp only [not_exists] at reached
      exact .inr ⟨reached, fun place whole => reached place ((same place).mpr whole)⟩

namespace Image

/-- The reports for the matching nodes, in document order. -/
def reports (image : Image) (deviceName compatibleName : Option String) (fuel : Nat) :
    List (Emission Window Failure Unit) :=
  (image.blob.whole.scan (image.search deviceName compatibleName fuel)).output.map
    (image.blob.whole.report fuel)

/-- How one of the matching nodes itself translates a window: by the entry at the
address of its `ranges`, in its cells and those of its parent. -/
def ownTranslation (image : Image) (block : StructBlock) (deviceName compatibleName : Option String)
    (index : Nat) (device owner : Device) : Window → Except Failure Window :=
  image.blob.whole.translateAt device owner
    (block.siteAt deviceName compatibleName image.parser.structStart index 0)

variable {image other : Image} {block changed : StructBlock}
  {deviceName compatibleName : Option String} {fuel index : Nat} {device device' owner : Device}
  {ancestors : Lineage}

/-- The report of one matching node whose ancestors have fitting `ranges`. -/
theorem report_at (serial : Serialises image.blob.whole image.parser block)
    (accepted : block.tree.Accepted deviceName compatibleName)
    (enough : image.blob.whole.stepBound ≤ fuel)
    (here : (block.tree.matching deviceName compatibleName)[index]? =
      some (device :: owner :: ancestors))
    (whole : RegWhole (device :: owner :: ancestors)) (fit : RangesFit (owner :: ancestors)) :
    (image.reports deviceName compatibleName fuel)[index]? =
      some (.emitAll ((asked (device :: owner :: ancestors)).map fun window => window >>= fun window =>
        image.ownTranslation block deviceName compatibleName index device owner window >>=
          climb (owner :: ancestors))) := by
  obtain ⟨node, found, stands, sites⟩ := @node_at image.blob.whole
    (image.search deviceName compatibleName fuel) block serial accepted enough index _ here
  obtain ⟨parent, -, above, step⟩ := stands.translation
  have own : block.siteAt deviceName compatibleName image.parser.structStart index 0 =
      node.ranges := by
    have sites : (block.sites deviceName compatibleName image.parser.structStart)[index]? =
        some node.sites := sites
    rw [StructBlock.siteAt, sites, node.sites_eq]
    rfl
  have same : image.blob.whole.translation node = fun window =>
      image.ownTranslation block deviceName compatibleName index device owner window >>=
        climb (owner :: ancestors) := by
    funext window
    rw [step, ownTranslation, own]
    congr 1
    funext window
    exact translation_of_stands above fit
  rw [reports, List.getElem?_map, found, Option.map_some, report_of_stands stands whole enough, same]

/-- A report stays unharmed: the same windows, and no error where there was none. -/
def Unharmed (before after : Emission Window Failure Unit) : Prop :=
  after.output = before.output ∧ (before.ending = .ok () → after.ending = .ok ())

/-- Of as many attempts the report is unharmed exactly if they agree. -/
theorem unharmed_iff_agree {before after : List (Except Failure Window)}
    (same : before.length = after.length) :
    Unharmed (.emitAll before) (.emitAll after) ↔ Emission.Agree before after := by
  unfold Unharmed
  rw [Emission.agree_iff_output same]
  constructor
  · intro unharmed
    exact unharmed.1.symm
  · intro output
    exact ⟨output.symm, ((Emission.agree_iff_output same).mpr output).ending.mp⟩

/-- A change of the `ranges` or the cells of a matching node leaves its report unharmed
exactly if both ways each next window of its `reg` is taken to the same place by the node
itself, or refused. -/
theorem own_ranges_ignored_iff (serial : Serialises image.blob.whole image.parser block)
    (serial' : Serialises other.blob.whole other.parser changed)
    (accepted : block.tree.Accepted deviceName compatibleName)
    (accepted' : changed.tree.Accepted deviceName compatibleName)
    (here : (block.tree.matching deviceName compatibleName)[index]? =
      some (device :: owner :: ancestors))
    (there : (changed.tree.matching deviceName compatibleName)[index]? =
      some (device' :: owner :: ancestors))
    (sameReg : device'.value? "reg" = device.value? "reg")
    (whole : RegWhole (device :: owner :: ancestors)) (fit : RangesFit (owner :: ancestors))
    (enough : image.blob.whole.stepBound ≤ fuel) (enough' : other.blob.whole.stepBound ≤ fuel) :
    (∃ before ∈ (image.reports deviceName compatibleName fuel)[index]?,
      ∃ after ∈ (other.reports deviceName compatibleName fuel)[index]?, Unharmed before after) ↔
    ∀ earlier window later,
      asked (device :: owner :: ancestors) = earlier ++ .ok window :: later →
        (∀ first ∈ earlier, ∃ place, (first >>= fun first =>
          image.ownTranslation block deviceName compatibleName index device owner first >>=
            climb (owner :: ancestors)) = .ok place) →
        SamePlace (owner :: ancestors)
          (image.ownTranslation block deviceName compatibleName index device owner window)
          (other.ownTranslation changed deviceName compatibleName index device' owner window) := by
  have whole' : RegWhole (device' :: owner :: ancestors) := by
    simp only [RegWhole, sameReg] at whole ⊢
    exact whole
  have sameAsked : asked (device' :: owner :: ancestors) = asked (device :: owner :: ancestors) := by
    simp only [asked, sameReg]
  rw [report_at serial accepted enough here whole fit,
    report_at serial' accepted' enough' there whole' fit, sameAsked]
  simp only [Option.mem_def, Option.some.injEq, exists_eq_left', samePlace_iff]
  rw [unharmed_iff_agree (by simp), Emission.agree_map_iff]
  constructor
  · intro agree earlier window later split fine
    exact agree earlier (.ok window) later split fine
  · intro agree earlier item later split fine
    cases item with
    | error reason => exact fun _ => Iff.rfl
    | ok window => exact agree earlier window later split fine

end Image

section Bridge

/-- The board with one UART which has a bus of its own, mapped elsewhere. -/
def bridgeBoard : StructBlock :=
  { uartBoard with
    children := .node
      (uartNode [pl011, uartReg,
        .prop (.known .ranges (be32 0 ++ be32 0 ++ be32 0x80000000 ++ be32 0x10000) (by decide))])
      .nil .nil }

def bridgeImage : Image :=
  .assemble 0x80000 bridgeBoard.encode knownNames (by decide +kernel) (by decide +kernel)

/-- The image holds the board. -/
theorem bridgeImage_serialises :
    Serialises bridgeImage.blob.whole bridgeImage.parser bridgeBoard := by
  apply known_serialises
  simp [bridgeBoard, uartBoard, rootNode, uartNode, oneCell, pl011, uartReg, TokenForest.IsKnown,
    NodeToken.IsKnown, PropToken.isKnown_known]

/-- The UART with and without its `ranges`, on the board with one UART. -/
def plainUart : Device :=
  ⟨"uart", [⟨"compatible", utf8 "pl011" ++ [0]⟩, ⟨"reg", be32 0x1000 ++ be32 0x200⟩]⟩

def bridgeUart : Device := { plainUart with
  properties := plainUart.properties ++
    [⟨"ranges", be32 0 ++ be32 0 ++ be32 0x80000000 ++ be32 0x10000⟩] }

/-- With its own `ranges` the UART is reported elsewhere. -/
theorem bridgeImage_differs :
    Serialises uartImage.blob.whole uartImage.parser uartBoard ∧
      Serialises bridgeImage.blob.whole bridgeImage.parser bridgeBoard ∧
      uartBoard.tree.WellFormed none (some "pl011") ∧
      bridgeBoard.tree.WellFormed none (some "pl011") ∧
      uartBoard.tree.matching none (some "pl011") = [[plainUart, uartBoard.root.device]] ∧
      bridgeBoard.tree.matching none (some "pl011") = [[bridgeUart, uartBoard.root.device]] ∧
      uartImage.Returns none (some "pl011") .always (.ok ()) [(0x1000, 0x200)] ∧
      bridgeImage.Returns none (some "pl011") .always (.ok ()) [(0x80001000, 0x200)] := by
  refine ⟨uartImage_serialises, bridgeImage_serialises,
    ⟨by decide +kernel, by decide +kernel, by decide +kernel⟩,
    ⟨by decide +kernel, by decide +kernel, by decide +kernel⟩, by decide +kernel, by decide +kernel,
    ⟨by decide, 20, by decide +kernel⟩, ⟨by decide, 20, by decide +kernel⟩⟩

/-- The report about the bridge is unharmed exactly if its own entry maps nothing. -/
theorem bridgeImage_iff :
    (∃ before ∈ (uartImage.reports none (some "pl011") (2 ^ 33))[0]?,
      ∃ after ∈ (bridgeImage.reports none (some "pl011") (2 ^ 33))[0]?,
        Image.Unharmed before after) ↔
    ∀ earlier window later,
      asked [plainUart, uartBoard.root.device] = earlier ++ .ok window :: later →
        (∀ first ∈ earlier, ∃ place, (first >>= fun first =>
          uartImage.ownTranslation uartBoard none (some "pl011") 0 plainUart uartBoard.root.device
            first >>= climb [uartBoard.root.device]) = .ok place) →
        SamePlace [uartBoard.root.device]
          (uartImage.ownTranslation uartBoard none (some "pl011") 0 plainUart uartBoard.root.device
            window)
          (bridgeImage.ownTranslation bridgeBoard none (some "pl011") 0 bridgeUart
            uartBoard.root.device window) :=
  Image.own_ranges_ignored_iff uartImage_serialises bridgeImage_serialises (by decide +kernel)
    (by decide +kernel) (by decide +kernel) (by decide +kernel) (by decide +kernel)
    (by decide +kernel) (by decide +kernel) (by decide +kernel) (by decide +kernel)

end Bridge
end Rpi5.DeviceTree
