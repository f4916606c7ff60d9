import Rpi5.DeviceTree.Edits
import Rpi5.DeviceTree.OwnRanges

/-!
# Empty `ranges`

An empty `ranges` means that a bus is mapped to itself, like a missing one. The walk
remembers only the address of its value and decodes an entry from the bytes which
happen to follow. So giving a node an empty `ranges` changes no search exactly if that
entry takes every window arriving at the node to itself, or the search fails the same
way both times (`empty_ranges_ignored_iff`).
-/

namespace Rpi5.DeviceTree

open Rpi5.Logical Rpi5.Semantics

/-- The translation of a window by the nodes below a node, up to its bus. -/
def ascend : List Device → Device → Window → Except Failure Window
  | [], _, window => .ok window
  | device :: lower, next, window => do
      let window ← device.translate (lower.headD next) window
      ascend lower next window

/-- A window is translated by the lower nodes first. -/
theorem climb_append (lower : List Device) (device : Device) (upper : Lineage) (window : Window) :
    climb (lower ++ device :: upper) window = (do
      let window ← ascend lower device window
      climb (device :: upper) window) := by
  induction lower generalizing window with
  | nil => rfl
  | cons first lower ih =>
      have head : ∃ rest, lower ++ device :: upper = lower.headD device :: rest := by
        cases lower <;> exact ⟨_, rfl⟩
      obtain ⟨rest, split⟩ := head
      simp only [ascend, List.cons_append, bind_assoc, ← ih]
      rw [split, climb, ← split]

/-- A node without `ranges` passes windows on. -/
theorem climb_through {lower : List Device} {device parent : Device} {upper : Lineage}
    (absent : device.value? "ranges" = none) (window : Window) :
    climb (lower ++ device :: parent :: upper) window = (do
      let window ← ascend lower device window
      climb (parent :: upper) window) := by
  have pass : climb (device :: parent :: upper) = climb (parent :: upper) := by
    funext window
    rw [climb, Device.translate, absent, ok_bind]
  rw [climb_append, pass]

section Through

variable {memory : Memory} {node : SimpleDeviceNode} {old new parent : Device} {upper : Lineage}

/-- The translation by a node looks at the address cells of its parent only. -/
theorem Device.translate_congr {device owner other : Device}
    (cells : owner.addressCells = other.addressCells) :
    device.translate owner = device.translate other := by
  funext window
  unfold translate rangeEntry
  rw [cells]

/-- A node below the edited one translates a window as before up to that node, then by
the entry at the address of the empty `ranges`, and from there on as before. -/
theorem translation_through {lower : List Device}
    (stands : Stands memory (some node) (lower ++ new :: parent :: upper))
    (gives : old.GivenEmptyRanges new) (fit : RangesFit (lower ++ old :: parent :: upper))
    (window : Window) :
    memory.translation node window = (do
      let window ← ascend lower old window
      let window ← memory.translateAt new parent (node.sites[lower.length]?).join window
      climb (parent :: upper) window) := by
  induction lower generalizing node window with
  | nil =>
      obtain ⟨next, -, above, step⟩ := stands.translation
      have site : (node.sites[([] : List Device).length]?).join = node.ranges := by
        rw [node.sites_eq]
        rfl
      rw [step, ascend, ok_bind, site]
      congr 1
      funext window
      exact translation_of_stands above fit.2
  | cons device lower ih =>
      have heads : ∃ rest rest' head, lower ++ new :: parent :: upper = head :: rest ∧
          lower ++ old :: parent :: upper = lower.headD old :: rest' ∧
          head.addressCells = (lower.headD old).addressCells := by
        cases lower with
        | nil => exact ⟨_, _, _, rfl, rfl, gives.addressCells⟩
        | cons => exact ⟨_, _, _, rfl, rfl, rfl⟩
      obtain ⟨rest, rest', head, split, split', cells⟩ := heads
      rw [List.cons_append, split] at stands
      rw [List.cons_append, split'] at fit
      obtain ⟨next, owned, above, step⟩ := stands.translation
      have long : ∀ value ∈ device.value? "ranges", device.rangeStride head ≤ value.length := by
        simp only [Device.rangeStride, cells]
        exact fit.1
      have sites : node.sites[(device :: lower).length]? = next.sites[lower.length]? := by
        rw [node.sites_eq, owned]
        rfl
      rw [step, stands.level.translateAt long, Device.translate_congr cells, sites, ascend, bind_assoc]
      congr 1
      funext window
      exact ih (split ▸ above) (split' ▸ fit.2) window

end Through

section Asking

/-- All windows asked for by lineages, with the lineages and their places. -/
def askedAll : Nat → List Lineage → List (Nat × Lineage × Except Failure Window)
  | _, [] => []
  | index, lineage :: rest =>
      (asked lineage).map (fun window => (index, lineage, window)) ++ askedAll (index + 1) rest

/-- What is asked for comes from the lineage at its place. -/
theorem mem_askedAll {start : Nat} {lineages : List Lineage}
    {item : Nat × Lineage × Except Failure Window} (member : item ∈ askedAll start lineages) :
    ∃ index, item.1 = start + index ∧ lineages[index]? = some item.2.1 ∧
      item.2.2 ∈ asked item.2.1 := by
  induction lineages generalizing start with
  | nil => cases member
  | cons lineage rest ih =>
      rcases List.mem_append.mp member with member | member
      · obtain ⟨window, present, rfl⟩ := List.mem_map.mp member
        exact ⟨0, rfl, rfl, present⟩
      · obtain ⟨index, place, found, present⟩ := ih member
        exact ⟨index + 1, by omega, found, present⟩

/-- Reports of lineages are translations of all windows asked for. -/
theorem each_askedAll {τ : Type} {report : τ → Emission Window Failure Unit}
    {translation : Nat → Lineage → Window → Except Failure Window} {events : List τ}
    {lineages : List Lineage} {start : Nat} (same : events.length = lineages.length)
    (reports : ∀ index event lineage, events[index]? = some event →
      lineages[index]? = some lineage → report event =
        .emitAll ((asked lineage).map fun window => window >>= translation (start + index) lineage))
    (last : Emission Window Failure Unit) :
    Emission.each report events last =
      Emission.emitAll ((askedAll start lineages).map fun item =>
        item.2.2 >>= translation item.1 item.2.1) >>= fun _ => last := by
  induction events generalizing start lineages with
  | nil =>
      obtain rfl := List.length_eq_zero_iff.mp same.symm
      exact (pure_bind () fun _ => last).symm
  | cons event events ih =>
      cases lineages with
      | nil => cases same
      | cons lineage rest =>
          have head := reports 0 event lineage rfl rfl
          have tail := @ih rest (start + 1) (Nat.succ.inj same) fun index event lineage here there => by
            have later := reports (index + 1) event lineage here there
            rwa [← Nat.add_assoc, Nat.add_right_comm] at later
          rw [Emission.each, head, tail, askedAll, List.map_append, Emission.emitAll_append, bind_assoc,
            List.map_map]
          rfl

end Asking

section Uncut

/-- A translation to the root does not run out of its bound. -/
theorem uncut_climb (lineage : Lineage) (window : Window) : Uncut (climb lineage window) := by
  have apply : ∀ (entry : RangeEntry) (window : Window), Uncut (entry.apply window) := by
    intro entry window
    unfold RangeEntry.apply
    split
    · exact nofun
    · split
      · exact nofun
      · split <;> exact nofun
  induction lineage generalizing window with
  | nil => exact uncut_ok _
  | cons device ancestors ih =>
      cases ancestors with
      | nil => exact uncut_ok _
      | cons parent ancestors =>
          refine Uncut.bind ?_ fun _ _ => ih _
          unfold Device.translate
          split
          · exact uncut_ok _
          · exact apply _ _

/-- Nor does anything that is asked for. -/
theorem uncut_of_mem_asked {lineage : Lineage} {window : Except Failure Window}
    (member : window ∈ asked lineage) : Uncut window := by
  unfold asked Device.asked at member
  split at member
  · split at member
    · obtain rfl := List.mem_singleton.mp member
      exact nofun
    · split at member
      · cases member
      · split at member
        · obtain rfl := List.mem_singleton.mp member
          exact nofun
        · obtain ⟨_, -, rfl⟩ := List.mem_map.mp member
          exact uncut_ok _
  · obtain rfl := List.mem_singleton.mp member
    exact nofun

/-- A search is not cut if no attempt is. -/
theorem uncut_emitAll {attempts : List (Except Failure Window)} {last : Except Failure Unit}
    (each : ∀ attempt ∈ attempts, Uncut attempt) (ending : Uncut last) :
    Uncut (Emission.emitAll attempts >>= fun _ => .ofExcept last :
      Emission Window Failure Unit).ending := by
  induction attempts with
  | nil => exact ending
  | cons attempt rest ih =>
      cases attempt with
      | error reason =>
          rw [Emission.emitAll, Emission.ofExcept_error_bind]
          intro same
          cases same
          exact each (.error (.stopped .outOfFuel)) (by simp) rfl
      | ok window =>
          have ended : (Emission.emit window : Emission Window Failure Unit).ending = .ok () := rfl
          rw [Emission.emitAll, bind_assoc, Emission.bind_of_ok ended]
          exact ih fun attempt member => each attempt (by simp [member])

end Uncut

/-- What a node does with a window which arrives at it changes nothing: the window
stays where it is, or the nodes above fail with the same error. -/
def Transparent (above : Lineage) (translation : Window → Except Failure Window)
    (window : Window) : Prop :=
  translation window = .ok window ∨
    ∃ reason, climb above window = .error reason ∧
      (translation window >>= climb above) = .error reason

/-- A bus is transparent if translating through it is going on with the window. -/
theorem transparent_iff {above : Lineage} {translation : Window → Except Failure Window}
    {window : Window} :
    Transparent above translation window ↔
      climb above window = (translation window >>= climb above) := by
  unfold Transparent
  constructor
  · rintro (same | ⟨reason, failed, failed'⟩)
    · rw [same, ok_bind]
    · rw [failed, failed']
  · intro same
    rcases ok_or_error (climb above window) with ⟨place, reached⟩ | ⟨reason, failed⟩
    · rw [reached] at same
      obtain ⟨other, translated, reached'⟩ := bind_eq_ok.mp same.symm
      obtain rfl := climb_injective reached reached'
      exact .inl translated
    · exact .inr ⟨reason, failed, by rw [← same, failed]⟩

namespace Image

variable {image other : Image} {block emptied : StructBlock}
  {deviceName compatibleName : Option String} {old new parent : Device} {upper : Lineage}

/-- How a node whose `ranges` is read translates a window: by the entry at the address of
its value, wherever its value ends. The node is the given number of levels above one
of the matching nodes. -/
def translationAt (image : Image) (block : StructBlock) (deviceName compatibleName : Option String)
    (index depth : Nat) (device parent : Device) : Window → Except Failure Window :=
  image.blob.whole.translateAt device parent
    (block.siteAt deviceName compatibleName image.parser.structStart index depth)

/-- The condition on the entries decoded in the place of the empty `ranges`: the next
window which arrives there, as long as the search goes on, is not affected. -/
def EmptyRangesIgnored (other : Image) (block emptied : StructBlock)
    (deviceName compatibleName : Option String) (old new parent : Device) (upper : Lineage) : Prop :=
  ∀ before index lower window after,
    askedAll 0 (block.tree.matching deviceName compatibleName) =
      before ++ (index, lower ++ old :: parent :: upper, .ok window) :: after →
    (emptied.tree.matching deviceName compatibleName)[index]? =
      some (lower ++ new :: parent :: upper) →
    (∀ earlier ∈ before, ∃ place, (earlier.2.2 >>= climb earlier.2.1) = .ok place) →
    ∀ arriving, ascend lower old window = .ok arriving →
      Transparent (parent :: upper)
        (other.translationAt emptied deviceName compatibleName index lower.length new parent) arriving

/-- The translation of the windows of one of the nodes found in the edited blob: as
before, or through the entry in the place of the empty `ranges`. -/
theorem translation_emptied {lineage lineage' : Lineage} {node : SimpleDeviceNode} {index : Nat}
    (replaced : Replaced old new (parent :: upper) lineage lineage')
    (gives : old.GivenEmptyRanges new) (fit : RangesFit lineage)
    (stands : Stands other.blob.whole (some node) lineage')
    (sites : (emptied.sites deviceName compatibleName other.parser.structStart)[index]? =
      some node.sites) (window : Window) :
    (∀ lower, lineage' = lower ++ new :: parent :: upper → lineage = lower ++ old :: parent :: upper →
      ∀ arriving, ascend lower old window = .ok arriving → Transparent (parent :: upper)
        (other.translationAt emptied deviceName compatibleName index lower.length new parent)
        arriving) ↔
      climb lineage window = other.blob.whole.translation node window := by
  rcases replaced with rfl | ⟨lower, rfl, rfl⟩
  · constructor
    · intro _
      exact (translation_of_stands stands fit).symm
    · intro _ lower split split'
      have heads := List.append_cancel_left (split.symm.trans split')
      exact absurd (List.cons.inj heads).1 gives.ne
  · have site : (node.sites[lower.length]?).join =
        emptied.siteAt deviceName compatibleName other.parser.structStart index lower.length := by
      rw [StructBlock.siteAt, sites]
      rfl
    rw [climb_through gives.absent, translation_through stands gives fit, site]
    constructor
    · intro ignored
      rcases ok_or_error (ascend lower old window) with ⟨arriving, up⟩ | ⟨reason, failed⟩
      · rw [up]
        exact transparent_iff.mp (ignored lower rfl rfl arriving up)
      · rw [failed]
        rfl
    · rintro same below - split' arriving up
      obtain rfl := List.append_cancel_right split'
      rw [up] at same
      exact transparent_iff.mpr same

/-- The node found in the edited blob in the place of a lineage of the original tree. -/
structure Counterpart (other : Image) (emptied : StructBlock)
    (deviceName compatibleName : Option String) (old new : Device) (above : Lineage)
    (nodes : List SimpleDeviceNode) (index : Nat) (lineage lineage' : Lineage)
    (node : SimpleDeviceNode) : Prop where
  there : (emptied.tree.matching deviceName compatibleName)[index]? = some lineage'
  found : nodes[index]? = some node
  replaced : Replaced old new above lineage lineage'
  stands : Stands other.blob.whole (some node) lineage'
  sites : (emptied.sites deviceName compatibleName other.parser.structStart)[index]? =
    some node.sites

/-- The translation by the node in some place of a list. -/
def translationBy (other : Image) (nodes : List SimpleDeviceNode) (index : Nat) (window : Window) :
    Except Failure Window :=
  nodes[index]?.elim (.ok window) fun node => other.blob.whole.translation node window

/-- The translation of a node is that of the memory at its place. -/
theorem translationBy_found {nodes : List SimpleDeviceNode} {index : Nat} {node : SimpleDeviceNode}
    (found : nodes[index]? = some node) :
    other.translationBy nodes index = other.blob.whole.translation node := by
  funext window
  rw [translationBy, found, Option.elim_some]

/-- The search in the original blob translates all windows asked for. -/
theorem emission_asked {fuel : Nat} (serial : Serialises image.blob.whole image.parser block)
    (wellFormed : block.tree.WellFormed deviceName compatibleName)
    (one : OneName deviceName compatibleName) (enough : image.blob.whole.stepBound ≤ fuel) :
    image.emission deviceName compatibleName fuel =
      (.emitAll ((askedAll 0 (block.tree.matching deviceName compatibleName)).map fun item =>
        item.2.2 >>= climb item.2.1) >>= fun _ =>
          .ofExcept (if block.trailing = 0 then .ok () else .error parseIncomplete)) := by
  rw [emission_of_tree serial wellFormed one enough, Tree.emission]
  apply @each_askedAll _ lineageReport (fun _ => climb) _ _ 0 rfl
  intro index lineage lineage' here there
  rw [here] at there
  cases there
  rfl

/-- The search in the edited blob translates the same windows, by the nodes found there. -/
theorem emission_emptied {fuel : Nat} (serial' : Serialises other.blob.whole other.parser emptied)
    (edited : Edited old new (parent :: upper) []
      (.node block.tree.root block.tree.children .nil)
      (.node emptied.tree.root emptied.tree.children .nil))
    (gives : old.GivenEmptyRanges new)
    (wellFormed : block.tree.WellFormed deviceName compatibleName)
    (one : OneName deviceName compatibleName) (enough' : other.blob.whole.stepBound ≤ fuel) :
    ∃ nodes, other.emission deviceName compatibleName fuel =
        (.emitAll ((askedAll 0 (block.tree.matching deviceName compatibleName)).map fun item =>
          item.2.2 >>= other.translationBy nodes item.1) >>= fun _ =>
            .ofExcept (if emptied.trailing = 0 then .ok () else .error parseIncomplete)) ∧
      ∀ (index : Nat) (lineage : Lineage),
        (block.tree.matching deviceName compatibleName)[index]? = some lineage →
        ∃ lineage' node, Counterpart other emptied deviceName compatibleName old new
          (parent :: upper) nodes index lineage lineage' node := by
  have pairs : List.Forall₂ (Replaced old new (parent :: upper))
      (block.tree.matching deviceName compatibleName)
      (emptied.tree.matching deviceName compatibleName) := edited.matching gives
  obtain ⟨nodes, agree, sites, second⟩ := other.emission_of_block serial'
    (edited.accepted gives wellFormed.accepted) enough' one
  have counterparts : ∀ (index : Nat) (lineage : Lineage),
      (block.tree.matching deviceName compatibleName)[index]? = some lineage →
      ∃ lineage' node, Counterpart other emptied deviceName compatibleName old new
        (parent :: upper) nodes index lineage lineage' node := by
    intro index lineage here
    obtain ⟨lineage', there, replaced⟩ := exists_of_forall₂ pairs.flip here
    obtain ⟨node, found, stands⟩ := exists_of_forall₂ agree there
    exact ⟨lineage', node, there, found, replaced, stands, sites index node found⟩
  refine ⟨nodes, ?_, counterparts⟩
  rw [second]
  apply @each_askedAll _ (other.blob.whole.report fuel)
    (fun index _ => other.translationBy nodes index) _ _ 0
    (agree.length_eq.trans pairs.length_eq.symm)
  intro index node lineage found here
  obtain ⟨lineage', node', _, found', replaced, stands, -⟩ := counterparts index lineage here
  rw [found] at found'
  cases found'
  have whole := replaced.regWhole gives (wellFormed.whole lineage (List.mem_of_getElem? here))
  simp only [Nat.zero_add]
  rw [report_of_stands stands whole enough', replaced.asked gives, translationBy_found found]

section Attempts

variable {nodes : List SimpleDeviceNode}
  (counterparts : ∀ (index : Nat) (lineage : Lineage),
    (block.tree.matching deviceName compatibleName)[index]? = some lineage →
    ∃ lineage' node, Counterpart other emptied deviceName compatibleName old new
      (parent :: upper) nodes index lineage lineage' node)

include counterparts

/-- The attempts in both blobs are the same as long as the search goes on exactly if the
decoded entries are ignored. -/
theorem attempts_emptied_iff (gives : old.GivenEmptyRanges new)
    (fits : ∀ lineage ∈ block.tree.matching deviceName compatibleName, RangesFit lineage) :
    (∀ before item after,
        askedAll 0 (block.tree.matching deviceName compatibleName) = before ++ item :: after →
        (∀ earlier ∈ before, ∃ place, (earlier.2.2 >>= climb earlier.2.1) = .ok place) →
        (item.2.2 >>= climb item.2.1) = (item.2.2 >>= other.translationBy nodes item.1)) ↔
      EmptyRangesIgnored other block emptied deviceName compatibleName old new parent upper := by
  constructor
  · intro same before index lower window after split there fine arriving up
    obtain ⟨_, place, here, -⟩ :=
      mem_askedAll (split ▸ List.mem_append_right before List.mem_cons_self)
    rw [Nat.zero_add] at place
    obtain rfl : index = _ := place
    obtain ⟨lineage', node, there', found, replaced, stands, sites⟩ := counterparts _ _ here
    rw [there] at there'
    cases there'
    have equal := same before _ after split fine
    rw [translationBy_found found, ok_bind, ok_bind] at equal
    exact (translation_emptied replaced gives (fits _ (List.mem_of_getElem? here)) stands sites
      window).mpr equal lower rfl rfl arriving up
  · intro ignored before item after split fine
    obtain ⟨index, lineage, window⟩ := item
    obtain ⟨_, place, here, -⟩ :=
      mem_askedAll (split ▸ List.mem_append_right before List.mem_cons_self)
    rw [Nat.zero_add] at place
    obtain rfl : index = _ := place
    obtain ⟨lineage', node, there, found, replaced, stands, sites⟩ := counterparts _ _ here
    rw [translationBy_found found]
    cases window with
    | error reason => rfl
    | ok window =>
        refine (translation_emptied replaced gives (fits _ (List.mem_of_getElem? here)) stands sites
          window).mp ?_
        rintro lower rfl rfl arriving up
        exact ignored before _ lower window after split there fine arriving up

/-- No attempt in the edited blob is cut. -/
theorem uncut_emptied (attempt : Except Failure Window)
    (member : attempt ∈ (askedAll 0 (block.tree.matching deviceName compatibleName)).map
      fun item => item.2.2 >>= other.translationBy nodes item.1) : Uncut attempt := by
  obtain ⟨item, present, rfl⟩ := List.mem_map.mp member
  obtain ⟨index, place, here, asked⟩ := mem_askedAll present
  obtain ⟨lineage', node, -, found, -⟩ := counterparts _ _ here
  rw [Nat.zero_add] at place
  rw [place, translationBy_found found]
  exact (uncut_of_mem_asked asked).bind fun window _ => uncut_calculateAddressInternal window

end Attempts

/-- With enough steps the emissions agree exactly under this condition. -/
theorem emission_emptied_iff {fuel : Nat}
    (serial : Serialises image.blob.whole image.parser block)
    (serial' : Serialises other.blob.whole other.parser emptied)
    (edited : Edited old new (parent :: upper) []
      (.node block.tree.root block.tree.children .nil)
      (.node emptied.tree.root emptied.tree.children .nil))
    (gives : old.GivenEmptyRanges new)
    (wellFormed : block.tree.WellFormed deviceName compatibleName)
    (trailing : emptied.trailing = block.trailing) (one : OneName deviceName compatibleName)
    (enough : image.blob.whole.stepBound ≤ fuel) (enough' : other.blob.whole.stepBound ≤ fuel) :
    (image.emission deviceName compatibleName fuel = other.emission deviceName compatibleName fuel ↔
      EmptyRangesIgnored other block emptied deviceName compatibleName old new parent upper) ∧
    Uncut (image.emission deviceName compatibleName fuel).ending ∧
    Uncut (other.emission deviceName compatibleName fuel).ending := by
  have first := emission_asked serial wellFormed one enough
  obtain ⟨nodes, second, counterparts⟩ := emission_emptied serial' edited gives wellFormed one enough'
  have ending : Uncut (if block.trailing = 0 then .ok () else .error parseIncomplete :
      Except Failure Unit) := by
    split <;> exact nofun
  rw [first, second, trailing]
  refine ⟨?_, uncut_emitAll ?_ ending, uncut_emitAll (uncut_emptied counterparts) ending⟩
  · exact Emission.emitAll_map_eq_iff.trans
      (attempts_emptied_iff counterparts gives wellFormed.fit)
  · intro attempt member
    obtain ⟨item, present, rfl⟩ := List.mem_map.mp member
    obtain ⟨_, -, -, asked⟩ := mem_askedAll present
    exact (uncut_of_mem_asked asked).bind fun window _ => uncut_climb _ window

/-- Giving a node an empty `ranges` leaves every search as it is exactly if the entries
decoded in its place are ignored. -/
theorem empty_ranges_ignored_iff (serial : Serialises image.blob.whole image.parser block)
    (serial' : Serialises other.blob.whole other.parser emptied)
    (edited : Edited old new (parent :: upper) []
      (.node block.tree.root block.tree.children .nil)
      (.node emptied.tree.root emptied.tree.children .nil))
    (gives : old.GivenEmptyRanges new)
    (wellFormed : block.tree.WellFormed deviceName compatibleName)
    (trailing : emptied.trailing = block.trailing) :
    (∀ callback result calls, image.Returns deviceName compatibleName callback result calls ↔
        other.Returns deviceName compatibleName callback result calls) ↔
      (OneName deviceName compatibleName →
        EmptyRangesIgnored other block emptied deviceName compatibleName old new parent upper) := by
  have enough := Nat.le_max_left image.blob.whole.stepBound other.blob.whole.stepBound
  have enough' := Nat.le_max_right image.blob.whole.stepBound other.blob.whole.stepBound
  constructor
  · intro equal one
    obtain ⟨iff, uncut, uncut'⟩ := emission_emptied_iff serial serial' edited gives wellFormed
      trailing one enough enough'
    exact iff.mp (emission_eq_of_returns uncut uncut' (equal .always))
  · intro ignored callback result calls
    apply @returns_congr image deviceName compatibleName callback result calls other
      (max image.blob.whole.stepBound other.blob.whole.stepBound)
    intro fuel large
    by_cases one : OneName deviceName compatibleName
    · exact (emission_emptied_iff serial serial' edited gives wellFormed trailing one
        (enough.trans large) (enough'.trans large)).1.mpr (ignored one)
    · exact (emission_of_no_name one).trans (emission_of_no_name one).symm

end Image

section Bus

/-- A bus with the cells of its parent. -/
def plainBus : NodeToken where
  name := "bus"
  padding := []
  nulFree := by decide
  padded := by decide
  items := [oneCell]

/-- The same bus, mapped to itself. -/
def mappedBus : NodeToken := { plainBus with
  items := plainBus.items ++ [.prop (.known .ranges [] (by decide))] }

/-- The board with one UART, behind a bus. -/
def busBoard (bus : NodeToken) : StructBlock :=
  { uartBoard with children := .node bus uartBoard.children .nil }

def plainBusImage : Image :=
  .assemble 0x80000 (busBoard plainBus).encode knownNames (by decide +kernel) (by decide +kernel)

def mappedBusImage : Image :=
  .assemble 0x80000 (busBoard mappedBus).encode knownNames (by decide +kernel) (by decide +kernel)

/-- The image of the plain bus holds its board. -/
theorem plainBusImage_serialises :
    Serialises plainBusImage.blob.whole plainBusImage.parser (busBoard plainBus) := by
  apply known_serialises
  simp [busBoard, plainBus, uartBoard, rootNode, uartNode, oneCell, pl011, uartReg,
    TokenForest.IsKnown, NodeToken.IsKnown, PropToken.isKnown_known]

/-- And that of the mapped one. -/
theorem mappedBusImage_serialises :
    Serialises mappedBusImage.blob.whole mappedBusImage.parser (busBoard mappedBus) := by
  apply known_serialises
  simp [busBoard, mappedBus, plainBus, uartBoard, rootNode, uartNode, oneCell, pl011, uartReg,
    TokenForest.IsKnown, NodeToken.IsKnown, PropToken.isKnown_known]

/-- The mapped bus is the plain one with an empty `ranges`. -/
theorem plainBus_given : plainBus.device.GivenEmptyRanges mappedBus.device where
  absent := by decide
  given := ⟨plainBus.device.properties, [], by decide, by decide⟩

/-- So the boards differ in it only. -/
theorem busBoard_edited :
    Edited plainBus.device mappedBus.device [uartBoard.root.device] []
      (.node (busBoard plainBus).tree.root (busBoard plainBus).tree.children .nil)
      (.node (busBoard mappedBus).tree.root (busBoard mappedBus).tree.children .nil) :=
  .inside .here

/-- The board is well formed. -/
theorem busBoard_wellFormed : (busBoard plainBus).tree.WellFormed none (some "pl011") :=
  ⟨by decide +kernel, by decide +kernel, by decide +kernel⟩

/-- With an empty `ranges` on the bus the UART behind it is no longer found. -/
theorem mappedBusImage_differs :
    Serialises plainBusImage.blob.whole plainBusImage.parser (busBoard plainBus) ∧
      Serialises mappedBusImage.blob.whole mappedBusImage.parser (busBoard mappedBus) ∧
      Edited plainBus.device mappedBus.device [uartBoard.root.device] []
        (.node (busBoard plainBus).tree.root (busBoard plainBus).tree.children .nil)
        (.node (busBoard mappedBus).tree.root (busBoard mappedBus).tree.children .nil) ∧
      plainBus.device.GivenEmptyRanges mappedBus.device ∧
      plainBus.device.addressCells = uartBoard.root.device.addressCells ∧
      plainBus.device.sizeCells = uartBoard.root.device.sizeCells ∧
      (busBoard plainBus).tree.WellFormed none (some "pl011") ∧
      plainBusImage.Returns none (some "pl011") .always (.ok ()) [(0x1000, 0x200)] ∧
      mappedBusImage.Returns none (some "pl011") .always
        (.error (.stopped (.err "ranges size overflow"))) [] := by
  refine ⟨plainBusImage_serialises, mappedBusImage_serialises, busBoard_edited, plainBus_given,
    by decide, by decide, busBoard_wellFormed, ⟨by decide, 20, ?_⟩, ⟨by decide, 20, ?_⟩⟩
  · decide +kernel
  · decide +kernel

/-- So the two images behave alike exactly if the empty value is ignored there. -/
theorem mappedBusImage_iff :
    (∀ callback result calls, plainBusImage.Returns none (some "pl011") callback result calls ↔
        mappedBusImage.Returns none (some "pl011") callback result calls) ↔
      (OneName none (some "pl011") → Image.EmptyRangesIgnored mappedBusImage (busBoard plainBus)
        (busBoard mappedBus) none (some "pl011") plainBus.device mappedBus.device
        uartBoard.root.device []) :=
  Image.empty_ranges_ignored_iff plainBusImage_serialises mappedBusImage_serialises busBoard_edited
    plainBus_given busBoard_wellFormed rfl

end Bus
end Rpi5.DeviceTree
