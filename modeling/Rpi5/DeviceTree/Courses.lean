import Mathlib.Data.Prod.Lex
import Rpi5.DeviceTree.Places
import Rpi5.DeviceTree.Visits

/-!
# The course of a search

The cursor of a search is always at a token (`place_of_comesTo`). Every step goes upwards
(`rises_of_goes`): the cursor moves on behind its token, or the search goes on to another
kind of stage, or it makes a call. So a search never comes to a stage twice with the same
calls, and what it does at a stage can be told from the stages it comes to and from what it
returns (`step_twins`).
-/

namespace Rpi5.DeviceTree

open Rpi5.Logical Rpi5.Semantics

/-- The order of the stages which a search comes to at one token. -/
@[simp] def Stage.phase : Stage → Nat
  | .starting => 0
  | .leading _ => 1
  | .properties _ _ _ _ => 2
  | .reporting _ _ _ _ => 3
  | .children _ _ _ => 4
  | .opening _ _ => 5
  | .behind _ => 6

/-- The stage behind a report: the children of the node, unless a callback breaks off or there
may be more windows. -/
def Stage.reported (callback : Callback) (calls : List Window) (outer : List SimpleDeviceNode)
    (node : SimpleDeviceNode) (place : Nat) : Option Window × DeviceAddressIter → Stage
  | (none, _) => .children outer node place
  | (some window, iter) =>
      match callback calls window with
      | .Break => .behind place
      | .Continue => .reporting outer node iter place

namespace Image

variable (image : Image)

/-- Where the cursor of a stage is. -/
def cursor : Stage → Nat
  | .starting => image.parser.structStart
  | .leading place => place
  | .opening _ place => place
  | .properties _ _ _ place => place
  | .reporting _ _ _ place => place
  | .children _ _ place => place
  | .behind place => place

/-- How far a search is: by its cursor, by the stage there, and by its calls. -/
def rank (now : Stage × List Window) : Nat ×ₗ Nat ×ₗ Nat :=
  toLex (image.cursor now.1, toLex (now.1.phase, now.2.length))

/-- The cursor moves on behind the token it is at. -/
def Moves (place next : Nat) : Prop :=
  ∃ width, image.tokenWidth place = some width ∧ next = place + width

end Image

section Tokens

variable {image : Image} {search : Search} {pointer : Nat}

/-- Every token stands behind the start of the blob. -/
theorem base_le_of_place (here : image.Place pointer) : image.blob.base ≤ pointer := by
  induction here with
  | start =>
      unfold DtbParser.structStart
      rw [address_of_init image.loaded]
      exact Nat.le_add_right _ _
  | after _ _ ih => exact ih.trans (Nat.le_add_right _ _)

/-- Every token has bytes. -/
theorem tokenWidth_pos {width : Nat} (token : image.tokenWidth pointer = some width) :
    0 < width := by
  unfold Image.tokenWidth at token
  split at token
  · cases token
    omega
  · cases token
    omega
  · obtain ⟨name, -, rfl⟩ := Option.map_eq_some_iff.mp token
    omega
  · split at token
    · cases token
      omega
    · cases token
  · cases token

/-- The bytes of a node's token and its name. -/
theorem moves_of_beginNode {name : String}
    (token : image.reads (DtbParser.getTypes pointer) = .ok .beginNode)
    (named : image.reads (Dtb.readCharStr .struct (pointer + 4)) = .ok name) :
    image.Moves pointer
      (pointer + (4 + (name.utf8ByteSize + 1 + padLength (name.utf8ByteSize + 1)))) := by
  refine ⟨_, ?_, rfl⟩
  obtain ⟨free, present⟩ := eval_readCharStr_eq_ok.mp named
  have read : image.blob.whole.readText .struct (pointer + 4) = some (utf8 name) :=
    Memory.readText_eq_some.mpr ⟨free, present⟩
  unfold Image.tokenWidth
  rw [token]
  dsimp only
  rw [read]
  rfl

/-- The bytes of a token which is all there is. -/
theorem moves_of_single (token : image.reads (DtbParser.getTypes pointer) = .ok .nop ∨
    image.reads (DtbParser.getTypes pointer) = .ok .endNode) :
    image.Moves pointer (pointer + 4) := by
  refine ⟨4, ?_, rfl⟩
  unfold Image.tokenWidth
  rcases token with token | token <;> rw [token]

/-- The bytes of a property. -/
theorem moves_of_parseProp {node after : SimpleDeviceNode} {found : Bool} {next : Nat}
    (token : image.reads (DtbParser.getTypes pointer) = .ok .prop)
    (parsed : image.reads (node.parseProp search pointer) = .ok (found, after, next)) :
    image.Moves pointer next := by
  unfold Image.reads SimpleDeviceNode.parseProp at parsed
  simp only [Inquiry.eval_bind, bind_eq_ok, eval_checkedAdd_eq_ok, eval_nextMultipleOf_eq_ok,
    Inquiry.eval_pure, Except.ok.injEq, Prod.mk.injEq] at parsed
  obtain ⟨_, ⟨-, rfl⟩, property, header, _, ⟨-, rfl⟩, _, -, _, -, name, -, ⟨_, stored, required⟩, -,
    -, -, _, ⟨-, rfl⟩, _, ⟨-, rfl⟩, -, -, rfl⟩ := parsed
  refine ⟨12 + (property.propertyLen + padLength property.propertyLen), ?_, by omega⟩
  unfold Image.tokenWidth
  rw [token]
  dsimp only
  rw [show image.reads (FdtProperty.read (pointer + 4)) = .ok property from header]

section Reports

variable {callback : Callback} {outer : List SimpleDeviceNode} {node : SimpleDeviceNode}
  {iter : DeviceAddressIter} {place : Nat} {calls : List Window}

/-- Behind a call the search is over, or there may be more windows. -/
theorem reported_some (callback : Callback) (calls : List Window) (outer : List SimpleDeviceNode)
    (node : SimpleDeviceNode) (place : Nat) (window : Window) (later : DeviceAddressIter) :
    Stage.reported callback calls outer node place (some window, later) = .behind place ∨
      Stage.reported callback calls outer node place (some window, later) =
        .reporting outer node later place := by
  unfold Stage.reported
  dsimp only
  cases callback calls window with
  | Break => exact .inl rfl
  | Continue => exact .inr rfl

/-- A report fails if the iterator does. -/
theorem exec_report_of_error {reason : Failure}
    (failed : image.finds iter.nextInternal = .error reason) :
    (debug (Stage.report outer node iter place)).exec image.blob.whole.answer callback calls =
      (.error reason, calls) := by
  unfold Stage.report
  rw [debug, Dialogue.checked_bind, Dialogue.exec_bind, exec_liftM, failed]

/-- Otherwise a window is a call, and the callback says how the search goes on. -/
theorem exec_report_of_ok {taken : Option Window × DeviceAddressIter}
    (found : image.finds iter.nextInternal = .ok taken) :
    (debug (Stage.report outer node iter place)).exec image.blob.whole.answer callback calls =
      (.ok (.inl (Stage.reported callback calls outer node place taken)),
        calls ++ taken.1.toList) := by
  unfold Stage.report
  rw [debug, Dialogue.checked_bind, Dialogue.exec_bind, exec_liftM, found]
  rcases taken with ⟨_ | window, later⟩
  · simp [Stage.reported]
  · simp only [Dialogue.checked_bind, Dialogue.checked_call, Dialogue.checked_done,
      Dialogue.call_bind, Dialogue.exec, Stage.reported]
    cases callback calls window <;> rfl

end Reports

variable {deviceName compatibleName : Option String} {callback : Callback}

/-- Every step goes upwards: the cursor moves on, or another kind of stage follows, or there is
one more call. -/
theorem goes_upwards {fuel : Nat} {stage next : Stage} {calls later : List Window}
    (taken : (image.debugStep deviceName compatibleName fuel stage).exec image.blob.whole.answer
      callback calls = (.ok (.inl next), later)) :
    image.Moves (image.cursor stage) (image.cursor next) ∨
      image.cursor next = image.cursor stage ∧ (stage.phase < next.phase ∨
        stage.phase = next.phase ∧ calls.length < later.length) := by
  have read {reading : Reading (Stage ⊕ Unit)}
      (taken : (debug (liftM reading : Walking (Stage ⊕ Unit))).exec image.blob.whole.answer
        callback calls = (.ok (.inl next), later)) :
      Inquiry.eval image.blob.whole.answer reading = .ok (.inl next) := by
    rw [exec_liftM] at taken
    exact reads_of_finds (Prod.mk.inj taken).1
  unfold Image.debugStep Stage.step at taken
  cases stage with
  | starting =>
      have found := read taken
      unfold Stage.start at found
      split at found
      · cases found
      · simp only [Inquiry.eval_bind, bind_eq_ok, Inquiry.eval_pure, Except.ok.injEq,
          Sum.inl.injEq] at found
        obtain ⟨_, begins, rfl⟩ := found
        exact .inr ⟨(eval_checkedAdd_eq_ok.mp begins).2.symm, .inl (by simp)⟩
  | leading place =>
      have found := read taken
      unfold Stage.skip at found
      simp only [Inquiry.eval_bind, bind_eq_ok] at found
      obtain ⟨limit, -, found⟩ := found
      split at found
      · simp only [Inquiry.eval_bind, bind_eq_ok] at found
        obtain ⟨token, seen, found⟩ := found
        cases token with
        | nop =>
            simp only [Inquiry.eval_bind, bind_eq_ok, eval_checkedAdd_eq_ok, Inquiry.eval_pure,
              Except.ok.injEq, Sum.inl.injEq] at found
            obtain ⟨_, ⟨-, rfl⟩, rfl⟩ := found
            exact .inl (moves_of_single (.inl seen))
        | _ =>
            cases found
            exact .inr ⟨rfl, .inl (by simp)⟩
      · cases found
        exact .inr ⟨rfl, .inl (by simp)⟩
  | opening outer place =>
      have found := read taken
      unfold Stage.enter at found
      simp only [Inquiry.eval_bind, bind_eq_ok] at found
      obtain ⟨token, seen, found⟩ := found
      cases token with
      | beginNode =>
          simp only [Inquiry.eval_bind, bind_eq_ok, eval_checkedAdd_eq_ok,
            eval_nextMultipleOf_eq_ok, Inquiry.eval_pure, Except.ok.injEq, Sum.inl.injEq] at found
          obtain ⟨_, ⟨-, rfl⟩, name, named, _, ⟨-, rfl⟩, _, ⟨-, rfl⟩, rfl⟩ := found
          have moved := moves_of_beginNode seen named
          rw [← Nat.add_assoc] at moved
          exact .inl moved
      | _ => cases found
  | properties outer node matched place =>
      have found := read taken
      unfold Stage.read at found
      simp only [Inquiry.eval_bind, bind_eq_ok] at found
      obtain ⟨token, seen, found⟩ := found
      cases token with
      | nop =>
          simp only [Inquiry.eval_bind, bind_eq_ok, eval_checkedAdd_eq_ok, Inquiry.eval_pure,
            Except.ok.injEq, Sum.inl.injEq] at found
          obtain ⟨_, ⟨-, rfl⟩, rfl⟩ := found
          exact .inl (moves_of_single (.inl seen))
      | prop =>
          simp only [Inquiry.eval_bind, bind_eq_ok, Inquiry.eval_pure, Except.ok.injEq,
            Sum.inl.injEq] at found
          obtain ⟨⟨_, _, _⟩, parsed, rfl⟩ := found
          exact .inl (moves_of_parseProp seen parsed)
      | beginNode | endNode =>
          cases found
          cases matched <;> exact .inr ⟨rfl, .inl (by simp)⟩
      | fdtEnd | unknown => cases found
  | reporting outer node iter place =>
      rcases ending : image.finds iter.nextInternal with reason | ⟨_ | window, later⟩
      · rw [exec_report_of_error ending] at taken
        cases taken
      · rw [exec_report_of_ok ending] at taken
        cases taken
        exact .inr ⟨rfl, .inl (by simp [Stage.reported])⟩
      · rw [exec_report_of_ok ending] at taken
        cases taken
        rcases reported_some callback calls outer node place window later with same | same
        · rw [same]
          exact .inr ⟨rfl, .inl (by simp)⟩
        · rw [same]
          exact .inr ⟨rfl, .inr ⟨rfl, by simp⟩⟩
  | children outer node place =>
      have found := read taken
      unfold Stage.descend at found
      simp only [Inquiry.eval_bind, bind_eq_ok] at found
      obtain ⟨token, seen, found⟩ := found
      cases token with
      | nop =>
          simp only [Inquiry.eval_bind, bind_eq_ok, eval_checkedAdd_eq_ok, Inquiry.eval_pure,
            Except.ok.injEq, Sum.inl.injEq] at found
          obtain ⟨_, ⟨-, rfl⟩, rfl⟩ := found
          exact .inl (moves_of_single (.inl seen))
      | beginNode =>
          cases found
          exact .inr ⟨rfl, .inl (by simp)⟩
      | endNode =>
          simp only [Inquiry.eval_bind, bind_eq_ok, eval_checkedAdd_eq_ok, Inquiry.eval_pure,
            Except.ok.injEq, Sum.inl.injEq] at found
          obtain ⟨_, ⟨-, rfl⟩, rfl⟩ := found
          have moved := moves_of_single (.inr seen)
          cases outer <;> exact .inl moved
      | _ => cases found
  | behind place =>
      have found := read taken
      unfold Stage.finish at found
      simp [bind_eq_ok] at found

/-- So wherever a search comes to the cursor is at a token. -/
theorem place_of_comesTo {stage : Stage} {calls : List Window}
    (visited : image.ComesTo deviceName compatibleName callback stage calls) :
    image.Place (image.cursor stage) := by
  obtain ⟨fuel, reached⟩ := visited
  induction reached with
  | start => exact .start
  | next _ taken ih =>
      rcases goes_upwards taken with ⟨width, token, moved⟩ | ⟨same, -⟩
      · rw [moved]
        exact ih.after token
      · rwa [same]

/-- No step leads to where the search has been before. -/
theorem rank_lt_of_goes {now next : Stage × List Window}
    (goes : Dialogue.Goes image.blob.whole.answer callback
      (image.debugStep deviceName compatibleName) now next) : image.rank now < image.rank next := by
  obtain ⟨fuel, taken⟩ := goes
  unfold Image.rank
  simp only [Prod.Lex.toLex_lt_toLex]
  rcases goes_upwards taken with ⟨width, token, moved⟩ | ⟨same, further⟩
  · have wide := tokenWidth_pos token
    exact .inl (by omega)
  · exact .inr ⟨same.symm, further⟩

end Tokens

end Rpi5.DeviceTree
