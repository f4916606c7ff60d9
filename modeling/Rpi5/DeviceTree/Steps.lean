import Rpi5.DeviceTree.Scan

/-!
# The bound on the steps

A larger bound only takes a search further: `findNode_extends` orders the
searches with different bounds. So a search which is not cut by its bound has
one result, whatever the bound; `Image.Returns` is that result, and a search
without one runs forever.
-/

namespace Rpi5.DeviceTree

open Rpi5.Logical Rpi5.Semantics

section Extends

variable {parser : DtbParser} {deviceName compatibleName : Option String} {fuel further : Nat}

/-- The order of programs by their bounds. -/
abbrev Reaches {W B α : Type} (first second : Dialogue Request Bytes W B Stop α) : Prop :=
  Dialogue.Extends .outOfFuel first second

/-- With more steps the strings of `compatible` are read further. -/
theorem compatibleLoop_extends (name : String) {steps more : Nat} (grows : steps ≤ more)
    (iter : CharStringIter) (result : Bool) :
    Reaches (SimpleDeviceNode.compatibleLoop name steps iter result)
      (SimpleDeviceNode.compatibleLoop name more iter result) := by
  induction steps generalizing more iter result with
  | zero => exact .limit
  | succ steps ih =>
      obtain ⟨more, rfl⟩ : ∃ rest, more = rest + 1 := ⟨more - 1, by omega⟩
      unfold SimpleDeviceNode.compatibleLoop
      apply Dialogue.Extends.bind (.refl _)
      rintro (_ | ⟨text, later⟩)
      · exact .refl _
      · exact ih (by omega) later _

/-- So is a property. -/
theorem parseProp_extends (grows : fuel ≤ further) (node : SimpleDeviceNode) (address : Nat) :
    Reaches (node.parseProp ⟨parser, deviceName, compatibleName, fuel⟩ address)
      (node.parseProp ⟨parser, deviceName, compatibleName, further⟩ address) := by
  have arm : ∀ address propertyLen name,
      Reaches (node.propArm ⟨parser, deviceName, compatibleName, fuel⟩ address propertyLen name)
        (node.propArm ⟨parser, deviceName, compatibleName, further⟩ address propertyLen name) := by
    intro address propertyLen name
    cases name with
    | compatible =>
        cases compatibleName with
        | none => exact .refl _
        | some name =>
            exact (compatibleLoop_extends name grows _ _).bind fun _ => .refl _
    | _ => exact .refl _
  unfold SimpleDeviceNode.parseProp
  refine .bind (.refl _) fun _ => .bind (.refl _) fun _ => .bind (.refl _) fun _ =>
    .bind (.refl _) fun _ => .bind (.refl _) fun _ => .bind (.refl _) fun _ => ?_
  exact (arm _ _ _).bind fun _ => .refl _

/-- And a list of properties. -/
theorem propLoop_extends (grows : fuel ≤ further) {steps more : Nat} (longer : steps ≤ more)
    (prop : SimpleDeviceNode) (found : Bool) (pointer : Nat) :
    Reaches (DtbParser.propLoop ⟨parser, deviceName, compatibleName, fuel⟩ steps prop found pointer)
      (DtbParser.propLoop ⟨parser, deviceName, compatibleName, further⟩ more prop found pointer) := by
  induction steps generalizing more prop found pointer with
  | zero => exact .limit
  | succ steps ih =>
      obtain ⟨more, rfl⟩ : ∃ rest, more = rest + 1 := ⟨more - 1, by omega⟩
      unfold DtbParser.propLoop
      apply Dialogue.Extends.bind (.refl _)
      intro token
      cases token with
      | nop => exact .bind (.refl _) fun _ => ih (by omega) _ _ _
      | prop => exact (parseProp_extends grows _ _).bind fun _ => ih (by omega) _ _ _
      | _ => exact .refl _

/-- And the head of a node. -/
theorem openNode_extends (grows : fuel ≤ further) (nodeInfo : Option SimpleDeviceNode)
    (pointer : Nat) :
    Reaches (DtbParser.openNode ⟨parser, deviceName, compatibleName, fuel⟩ nodeInfo pointer)
      (DtbParser.openNode ⟨parser, deviceName, compatibleName, further⟩ nodeInfo pointer) := by
  unfold DtbParser.openNode
  apply Dialogue.Extends.bind (.refl _)
  intro token
  cases token with
  | beginNode =>
      refine .bind (.refl _) fun _ => .bind (.refl _) fun _ => .bind (.refl _) fun _ =>
        .bind (.refl _) fun _ => ?_
      exact propLoop_extends grows grows _ _ _
  | _ => exact .refl _

/-- More addresses are reported. -/
theorem addressLoop_extends {steps more : Nat} (longer : steps ≤ more) (iter : DeviceAddressIter) :
    Reaches (DtbParser.addressLoop steps iter) (DtbParser.addressLoop more iter) := by
  induction steps generalizing more iter with
  | zero => exact .limit
  | succ steps ih =>
      obtain ⟨more, rfl⟩ : ∃ rest, more = rest + 1 := ⟨more - 1, by omega⟩
      unfold DtbParser.addressLoop
      apply Dialogue.Extends.bind (.refl _)
      rintro ⟨_ | window, later⟩
      · exact .refl _
      · apply Dialogue.Extends.bind (.refl _)
        intro flow
        cases flow with
        | Break => exact .refl _
        | Continue => exact ih (by omega) later

/-- Both mutual functions at once, by induction on the smaller bound. -/
theorem walk_extends (grows : fuel ≤ further) (steps : Nat) :
    (∀ more, steps ≤ more → ∀ nodeInfo pointer,
      Reaches
        (DtbParser.findNodeRecursive ⟨parser, deviceName, compatibleName, fuel⟩ steps nodeInfo pointer)
        (DtbParser.findNodeRecursive ⟨parser, deviceName, compatibleName, further⟩ more nodeInfo
          pointer)) ∧
    ∀ more, steps ≤ more → ∀ prop pointer,
      Reaches (DtbParser.childLoop ⟨parser, deviceName, compatibleName, fuel⟩ steps prop pointer)
        (DtbParser.childLoop ⟨parser, deviceName, compatibleName, further⟩ more prop pointer) := by
  induction steps with
  | zero =>
      constructor <;> intro more _ _ pointer
      · exact .limit
      · exact .limit
  | succ steps ih =>
      constructor <;> intro more longer
      · intro nodeInfo pointer
        obtain ⟨more, rfl⟩ : ∃ rest, more = rest + 1 := ⟨more - 1, by omega⟩
        unfold DtbParser.findNodeRecursive
        apply Dialogue.Extends.bind (Inquiry.lift_extends (openNode_extends grows _ _))
        rintro ⟨prop, found, later⟩
        cases found with
        | false => exact ih.2 more (by omega) prop later
        | true =>
            apply Dialogue.Extends.bind (addressLoop_extends grows _)
            intro flow
            cases flow with
            | Break => exact .refl _
            | Continue => exact ih.2 more (by omega) prop later
      · intro prop pointer
        obtain ⟨more, rfl⟩ : ∃ rest, more = rest + 1 := ⟨more - 1, by omega⟩
        unfold DtbParser.childLoop
        apply Dialogue.Extends.bind (.refl _)
        intro token
        cases token with
        | nop => exact .bind (.refl _) fun later => ih.2 more (by omega) prop later
        | beginNode =>
            apply (ih.1 more (by omega) (some prop) pointer).bind
            rintro ⟨flow, later⟩
            cases flow with
            | Break => exact .refl _
            | Continue => exact ih.2 more (by omega) prop later
        | _ => exact .refl _

/-- And more tokens skipped in front of the root. -/
theorem skipNop_extends {steps more : Nat} (longer : steps ≤ more) (address : Nat) :
    Reaches (DtbParser.skipNop parser steps address) (DtbParser.skipNop parser more address) := by
  induction steps generalizing more address with
  | zero => exact .limit
  | succ steps ih =>
      obtain ⟨more, rfl⟩ : ∃ rest, more = rest + 1 := ⟨more - 1, by omega⟩
      unfold DtbParser.skipNop
      apply Dialogue.Extends.bind (.refl _)
      intro limit
      by_cases inside : address < limit
      · simp only [inside, ↓reduceIte]
        apply Dialogue.Extends.bind (.refl _)
        intro token
        cases token with
        | nop => exact .bind (.refl _) fun later => ih (by omega) later
        | _ => exact .refl _
      · simp only [inside, ↓reduceIte]
        exact .refl _

/-- A larger bound takes a search at least as far. -/
theorem findNode_extends (grows : fuel ≤ further) :
    Reaches (parser.findNode deviceName compatibleName fuel)
      (parser.findNode deviceName compatibleName further) := by
  unfold DtbParser.findNode
  split
  · exact .refl _
  · refine .bind ?_ fun _ => .refl _
    unfold DtbParser.walkStruct
    exact .bind (.refl _) fun start => .bind (Inquiry.lift_extends (skipNop_extends grows start))
      fun pointer => (walk_extends grows fuel).1 further grows none pointer

end Extends

section Uncut

variable {α β : Type} {answer : Request → Option Bytes}

/-- A run which was not cut by its bound. -/
def Uncut (ending : Except Failure α) : Prop := ending ≠ .error (.stopped .outOfFuel)

/-- A value is not cut. -/
@[simp] theorem uncut_ok (value : α) : Uncut (.ok value) := nofun

/-- Nor is a message. -/
@[simp] theorem uncut_err (text : String) :
    Uncut (.error (.stopped (.err text)) : Except Failure α) := nofun

/-- A sequence is uncut if its parts are. -/
theorem Uncut.bind {first : Except Failure α} {next : α → Except Failure β} (one : Uncut first)
    (other : ∀ value, first = .ok value → Uncut (next value)) : Uncut (first >>= next) := by
  cases first with
  | ok value => exact other value rfl
  | error reason =>
      intro same
      cases same
      exact one rfl

/-- A result which is no `Err` and was not cut: the code may only panic. -/
def OnlyPanics (result : Except Failure α) : Prop :=
  ∀ reason, result = .error (.stopped reason) → reason = .overflow ∨ reason = .unwrapNone

/-- A panic is not a cut. -/
theorem OnlyPanics.uncut {result : Except Failure α} (panics : OnlyPanics result) : Uncut result := by
  intro same
  simpa using panics _ same

/-- A value is no error at all. -/
theorem onlyPanics_ok (value : α) : OnlyPanics (.ok value) := by
  rintro reason ⟨⟩

/-- A sequence fails only by panics if its parts do. -/
theorem OnlyPanics.bind {first : Except Failure α} {next : α → Except Failure β}
    (one : OnlyPanics first) (other : ∀ value, OnlyPanics (next value)) :
    OnlyPanics (first >>= next) := by
  cases first with
  | ok value => exact other value
  | error failure =>
      rintro reason ⟨⟩
      exact one reason rfl

/-- A question may be left without an answer. -/
theorem onlyPanics_ask (request : Request) : OnlyPanics (Inquiry.eval answer (ask request)) := by
  rw [eval_ask]
  cases answer request with
  | none => rintro reason ⟨⟩
  | some bytes => exact onlyPanics_ok bytes

/-- A check may overflow. -/
theorem onlyPanics_checked {fits : Prop} [Decidable fits] (value : Nat) :
    OnlyPanics (Inquiry.eval answer (if fits then pure value else .stop .overflow)) := by
  by_cases holds : fits
  · rw [if_pos holds]
    exact onlyPanics_ok value
  · rw [if_neg holds]
    rintro reason ⟨⟩
    exact .inl rfl

/-- So may a sum. -/
theorem onlyPanics_checkedAdd (width first second : Nat) :
    OnlyPanics (Inquiry.eval answer (checkedAdd width first second)) := onlyPanics_checked _

/-- So a question is not cut. -/
theorem uncut_ask (request : Request) : Uncut (Inquiry.eval answer (ask request)) :=
  (onlyPanics_ask request).uncut

/-- Nor is a sum. -/
theorem uncut_checkedAdd (width first second : Nat) :
    Uncut (Inquiry.eval answer (checkedAdd width first second)) :=
  (onlyPanics_checkedAdd width first second).uncut

/-- Nor is a product. -/
theorem uncut_checkedMul (width first second : Nat) :
    Uncut (Inquiry.eval answer (checkedMul width first second)) := (onlyPanics_checked _).uncut

/-- Nor is a difference. -/
theorem uncut_checkedSub (first second : Nat) :
    Uncut (Inquiry.eval answer (checkedSub first second)) := (onlyPanics_checked _).uncut

/-- Cells are read without an `Err`. -/
theorem onlyPanics_readRegs (address cells : Nat) :
    OnlyPanics (Inquiry.eval answer (Dtb.readRegs address cells)) := by
  have loop : ∀ result consumed,
      OnlyPanics (Inquiry.eval answer (Dtb.readRegsLoop address cells result consumed)) := by
    induction cells with
    | zero => exact fun _ _ => onlyPanics_ok _
    | succ cells ih =>
        intro result consumed
        unfold Dtb.readRegsLoop Dtb.readU32FromPtr
        simp only [Inquiry.eval_bind, bind_assoc]
        refine (onlyPanics_checkedAdd _ _ _).bind fun place => (onlyPanics_ask _).bind fun word => ?_
        refine (onlyPanics_ok _).bind fun number => ?_
        refine (onlyPanics_checkedAdd _ _ _).bind fun result => ?_
        exact (onlyPanics_checkedAdd _ _ _).bind fun consumed => ih _ _
  exact loop 0 0

variable {node : SimpleDeviceNode}

/-- The reader of `ranges` has no `Err`. -/
theorem onlyPanics_readRoundInternal :
    OnlyPanics (Inquiry.eval answer node.readRoundInternal) := by
  unfold SimpleDeviceNode.readRoundInternal
  cases node.ranges with
  | none => exact onlyPanics_ok _
  | some start =>
      simp only [Inquiry.eval_bind]
      refine (onlyPanics_readRegs _ _).bind fun child => ?_
      refine (onlyPanics_checkedAdd _ _ _).bind fun second => ?_
      cases node.parent with
      | none =>
          rintro reason ⟨⟩
          exact .inr rfl
      | some parent =>
          simp only [Inquiry.eval_bind]
          refine (onlyPanics_readRegs _ _).bind fun place => ?_
          refine (onlyPanics_checkedAdd _ _ _).bind fun third => ?_
          exact (onlyPanics_readRegs _ _).bind fun len => onlyPanics_ok _

/-- Neither has the reader of `reg`, unless there are too many cells. -/
theorem onlyPanics_readRegInternal {parent : SimpleDeviceNode} {offset : Nat}
    (above : node.parent = some parent) (few : parent.addressCells ≤ 2 ∧ parent.sizeCells ≤ 2) :
    OnlyPanics (Inquiry.eval answer (node.readRegInternal offset)) := by
  unfold SimpleDeviceNode.readRegInternal
  cases node.reg with
  | none => exact onlyPanics_ok _
  | some place =>
      obtain ⟨start, length⟩ := place
      simp only [above]
      rw [if_neg (by omega)]
      simp only [Inquiry.eval_bind]
      refine (onlyPanics_checkedAdd _ _ _).bind fun entry => ?_
      refine (onlyPanics_readRegs _ _).bind fun address => ?_
      refine (onlyPanics_checkedAdd _ _ _).bind fun second => ?_
      exact (onlyPanics_readRegs _ _).bind fun size => onlyPanics_ok _

/-- Reading a window takes no steps that are counted. -/
theorem uncut_readRegInternal (offset : Nat) :
    Uncut (Inquiry.eval answer (node.readRegInternal offset)) := by
  unfold SimpleDeviceNode.readRegInternal
  split
  · split
    · exact nofun
    · split
      · exact nofun
      · simp only [Inquiry.eval_bind]
        refine (uncut_checkedAdd _ _ _).bind fun _ _ => ?_
        refine (onlyPanics_readRegs _ _).uncut.bind fun _ _ => ?_
        refine (uncut_checkedAdd _ _ _).bind fun _ _ => ?_
        refine (onlyPanics_readRegs _ _).uncut.bind fun _ _ => ?_
        exact uncut_ok _
  · exact uncut_ok _

/-- Nor does translating one by the entries around a node. -/
theorem uncut_addressChild (window : Window) :
    Uncut (Inquiry.eval answer (node.addressChild window)) := by
  unfold SimpleDeviceNode.addressChild
  split
  · rw [Inquiry.eval_bind]
    refine onlyPanics_readRoundInternal.uncut.bind fun entry _ => ?_
    rcases entry with _ | ⟨child, parent, len⟩
    · exact nofun
    · simp only [Inquiry.eval_bind]
      refine (uncut_checkedAdd _ _ _).bind fun _ _ => (uncut_checkedAdd _ _ _).bind fun _ _ => ?_
      split
      · exact nofun
      · simp only [Inquiry.eval_bind]
        refine (uncut_checkedSub _ _).bind fun _ _ => (uncut_checkedAdd _ _ _).bind fun _ _ => ?_
        exact uncut_ok _
  · exact uncut_ok _

/-- The translation of a window has no loop which needs a bound. -/
theorem uncut_calculateAddressInternal (window : Window) :
    Uncut (Inquiry.eval answer (node.calculateAddressInternal window)) := by
  induction node, window using SimpleDeviceNode.calculateAddressInternal.induct with
  | case1 addressCells sizeCells reg ranges window => exact uncut_addressChild _
  | case2 parent addressCells sizeCells reg ranges window ih =>
      rw [SimpleDeviceNode.calculateAddressInternal, Inquiry.eval_bind]
      exact (uncut_addressChild _).bind fun _ _ => ih _

/-- Neither has one step of the iteration over `reg`. -/
theorem uncut_nextInternal (iter : DeviceAddressIter) :
    Uncut (Inquiry.eval answer iter.nextInternal) := by
  unfold DeviceAddressIter.nextInternal
  split
  · exact nofun
  · simp only
    split
    · exact uncut_ok _
    · simp only [Inquiry.eval_bind]
      refine (uncut_checkedSub _ _).bind fun _ _ => (uncut_readRegInternal _).bind fun entry _ => ?_
      cases entry with
      | none => exact nofun
      | some window =>
          simp only [Inquiry.eval_bind]
          refine (uncut_calculateAddressInternal _).bind fun _ _ => ?_
          split
          · exact nofun
          · simp only [Inquiry.eval_bind]
            refine (uncut_checkedAdd _ _ _).bind fun _ _ => (uncut_checkedMul _ _ _).bind fun _ _ => ?_
            exact (uncut_checkedSub _ _).bind fun _ _ => uncut_ok _

end Uncut

namespace Image

variable {image : Image} {deviceName compatibleName : Option String} {callback : Callback}
  {result other : Except Failure Unit} {calls otherCalls : List Window} {fuel further : Nat}

/-- The ending of a run which was cut by its bound. -/
def cut : Except Failure Unit := .error (.stopped .outOfFuel)

/-- A run with a larger bound is the same, or goes on where the other was cut. -/
theorem run_extends (grows : fuel ≤ further) :
    image.run deviceName compatibleName callback fuel =
        image.run deviceName compatibleName callback further ∨
      (image.run deviceName compatibleName callback fuel).1 = cut ∧
        (image.run deviceName compatibleName callback fuel).2 <+:
          (image.run deviceName compatibleName callback further).2 :=
  (findNode_extends grows).exec image.blob.whole.answer callback []

/-- `find_node` stops after finitely many steps with this result and these calls. -/
def Returns (image : Image) (deviceName compatibleName : Option String) (callback : Callback)
    (result : Except Failure Unit) (calls : List Window) : Prop :=
  result ≠ cut ∧ ∃ fuel, image.run deviceName compatibleName callback fuel = (result, calls)

/-- Once a search returns it does so with every larger bound. -/
theorem Returns.eventually
    (returns : image.Returns deviceName compatibleName callback result calls) :
    ∃ enough, ∀ fuel, enough ≤ fuel →
      image.run deviceName compatibleName callback fuel = (result, calls) := by
  obtain ⟨whole, enough, run⟩ := returns
  refine ⟨enough, fun fuel grows => ?_⟩
  rcases @run_extends image deviceName compatibleName callback _ _ grows with same | ⟨early, -⟩
  · rw [← same, run]
  · rw [run] at early
    exact absurd early whole

/-- A search has at most one result. -/
theorem Returns.unique
    (one : image.Returns deviceName compatibleName callback result calls)
    (two : image.Returns deviceName compatibleName callback other otherCalls) :
    result = other ∧ calls = otherCalls := by
  obtain ⟨enough, first⟩ := one.eventually
  obtain ⟨enough', second⟩ := two.eventually
  have same := first (max enough enough') (Nat.le_max_left _ _)
  rw [second (max enough enough') (Nat.le_max_right _ _)] at same
  exact ⟨(Prod.mk.inj same).1.symm, (Prod.mk.inj same).2.symm⟩

/-- A search which is never broken returns its emission. -/
theorem returns_always
    (whole : (image.emission deviceName compatibleName fuel).ending ≠ cut) :
    image.Returns deviceName compatibleName .always
      (image.emission deviceName compatibleName fuel).ending
      (image.emission deviceName compatibleName fuel).output :=
  ⟨whole, fuel, image.run_always deviceName compatibleName⟩

/-- Where the results of searches which are never broken are the same, the emissions are. -/
theorem emission_eq_of_returns {other : Image}
    (whole : (image.emission deviceName compatibleName fuel).ending ≠ cut)
    (whole' : (other.emission deviceName compatibleName further).ending ≠ cut)
    (equal : ∀ result calls, image.Returns deviceName compatibleName .always result calls ↔
      other.Returns deviceName compatibleName .always result calls) :
    image.emission deviceName compatibleName fuel =
      other.emission deviceName compatibleName further := by
  have results := ((equal _ _).mp (returns_always whole)).unique (returns_always whole')
  exact Emission.ext results.2 results.1

/-- Searches with the same emissions have the same results. -/
theorem returns_congr {other : Image} {bound : Nat}
    (same : ∀ fuel, bound ≤ fuel →
      image.emission deviceName compatibleName fuel = other.emission deviceName compatibleName fuel) :
    image.Returns deviceName compatibleName callback result calls ↔
      other.Returns deviceName compatibleName callback result calls := by
  have run : ∀ fuel, bound ≤ fuel → image.run deviceName compatibleName callback fuel =
      other.run deviceName compatibleName callback fuel := by
    intro fuel large
    rw [run_eq, run_eq, same fuel large]
  constructor
  · intro returns
    obtain ⟨enough, runs⟩ := returns.eventually
    refine ⟨returns.1, max enough bound, ?_⟩
    rw [← run _ (Nat.le_max_right _ _), runs _ (Nat.le_max_left _ _)]
  · intro returns
    obtain ⟨enough, runs⟩ := returns.eventually
    refine ⟨returns.1, max enough bound, ?_⟩
    rw [run _ (Nat.le_max_right _ _), runs _ (Nat.le_max_left _ _)]

end Image
end Rpi5.DeviceTree
