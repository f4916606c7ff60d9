import Mathlib.Algebra.Order.BigOperators.Group.List
import Rpi5.DeviceTree.Steps
import Rpi5.DeviceTree.Nodes

/-!
# Progress of the cursor

Whatever the bytes of the blob are, every loop over the structure block moves the
cursor forward, takes a string off a value, or ends. So no such loop needs more
steps than `Memory.stepBound` (`uncut_scan`), and the `reg` values of the nodes
found lie one after another inside the blob (`scan_advances`).
-/

namespace Rpi5.DeviceTree

open Rpi5.Logical Rpi5.Semantics

/-- The bytes of the structure block which can be seen from a place on. -/
def Memory.left (memory : Memory) (pointer : Nat) : Nat :=
  memory.high .struct - max (memory.low .struct) pointer

/-- No more is left than the whole blob. -/
theorem Memory.left_le (memory : Memory) (pointer : Nat) :
    memory.left pointer ≤ memory.blob.bytes.length := by
  have base := memory.base_le .struct
  have limit := memory.le_limit .struct
  unfold Blob.limit at limit
  unfold left
  omega

/-- Moving past what was read leaves less. -/
theorem Memory.left_add {memory : Memory} {pointer later size : Nat}
    (above : memory.low .struct ≤ pointer) (below : pointer + size ≤ memory.high .struct)
    (past : pointer + size ≤ later) : memory.left later + size ≤ memory.left pointer := by
  unfold left
  omega

/-- The length of a node's `reg`, zero without one. -/
def SimpleDeviceNode.regSize (node : SimpleDeviceNode) : Nat :=
  match node.reg with
  | some (_, size) => size
  | none => 0

/-- If the node has a `reg`, its value fits between two places, and its address a `usize`. -/
def SimpleDeviceNode.RegFits (node : SimpleDeviceNode) (low high : Nat) : Prop :=
  ∀ start size, node.reg = some (start, size) → start < 2 ^ 64 ∧ low + size ≤ high

/-- A `reg` which fits does so in a larger part. -/
theorem SimpleDeviceNode.RegFits.mono {node : SimpleDeviceNode} {low high further : Nat}
    (fits : node.RegFits low high) (grows : high ≤ further) : node.RegFits low further := by
  intro start size given
  obtain ⟨small, inside⟩ := fits start size given
  exact ⟨small, inside.trans grows⟩

/-- So its size is no more than that of the part. -/
theorem SimpleDeviceNode.RegFits.regSize_le {node : SimpleDeviceNode} {low high : Nat}
    (fits : node.RegFits low high) (ordered : low ≤ high) : low + node.regSize ≤ high := by
  unfold regSize
  split
  case h_1 start size given => exact (fits start size given).2
  case h_2 => exact ordered

section Cursor

variable {answer : Request → Option Bytes} {memory : Memory} {search : Search}
  {node after : SimpleDeviceNode} {found matched : Bool} {address pointer next steps : Nat}

/-- The arm of `reg` stores where the value stands; every other arm keeps `reg`. -/
theorem reg_of_propArm {propertyLen : Nat} {kind : PropName} {required : Option Nat}
    (done : (node.propArm search address propertyLen kind).eval answer =
      .ok (found, after, required)) :
    after.reg = node.reg ∨ after.reg = some (address, propertyLen) := by
  unfold SimpleDeviceNode.propArm at done
  cases kind with
  | reg =>
      right
      cases parent : node.parent with
      | none => simp [parent] at done
      | some owner =>
          simp only [parent, Inquiry.eval_bind, bind_eq_ok, Inquiry.eval_pure, Except.ok.injEq,
            Prod.mk.injEq] at done
          obtain ⟨_, -, -, rfl, -⟩ := done
          rfl
  | compatible =>
      left
      cases name : search.compatibleName <;>
        simp only [name, Inquiry.eval_bind, bind_eq_ok, Inquiry.eval_pure, Except.ok.injEq,
          Prod.mk.injEq] at done
      · rw [← done.2.1]
      · obtain ⟨_, -, -, rfl, -⟩ := done
        rfl
  | deviceName =>
      left
      cases name : search.deviceName <;>
        simp only [name, Inquiry.eval_bind, bind_eq_ok, Inquiry.eval_pure, Except.ok.injEq,
          Prod.mk.injEq] at done
      · rw [← done.2.1]
      · obtain ⟨_, -, -, rfl, -⟩ := done
        rfl
  | addressCells | sizeCells =>
      left
      simp only [Inquiry.eval_bind, bind_eq_ok, Inquiry.eval_pure, Except.ok.injEq,
        Prod.mk.injEq] at done
      obtain ⟨_, -, -, rfl, -⟩ := done
      rfl
  | ranges | other =>
      left
      simp only [Inquiry.eval_pure, Except.ok.injEq, Prod.mk.injEq] at done
      rw [← done.2.1]

/-- A property moves the cursor over its header and its value. -/
theorem parseProp_advances
    (done : (node.parseProp search address).eval answer = .ok (found, after, next)) :
    address + 12 ≤ next ∧
      ∀ low ≤ address, node.RegFits low address → after.RegFits low next := by
  unfold SimpleDeviceNode.parseProp at done
  simp only [Inquiry.eval_bind, bind_eq_ok, eval_checkedAdd_eq_ok, eval_nextMultipleOf_eq_ok,
    Inquiry.eval_pure, Except.ok.injEq, Prod.mk.injEq] at done
  obtain ⟨_, ⟨-, rfl⟩, property, -, _, ⟨small, rfl⟩, _, -, _, -, name, -, ⟨_, stored, required⟩, arm,
    -, -, _, ⟨-, rfl⟩, _, ⟨-, rfl⟩, -, rfl, rfl⟩ := done
  refine ⟨by omega, fun low ordered fits => ?_⟩
  rcases reg_of_propArm arm with kept | placed
  · intro start size given
    obtain ⟨below, inside⟩ := fits start size (by rw [← kept, given])
    exact ⟨below, by omega⟩
  · intro start size given
    rw [placed] at given
    cases given
    exact ⟨small, by omega⟩

/-- The property loop goes on, and the `reg` fits into what it has passed. -/
theorem propLoop_advances
    (done : (DtbParser.propLoop search steps node found pointer).eval memory.answer =
      .ok (after, matched, next)) {low : Nat} (fits : node.RegFits low pointer)
    (ordered : low ≤ pointer) : pointer ≤ next ∧ after.RegFits low next := by
  induction steps generalizing node found pointer with
  | zero => simp [DtbParser.propLoop] at done
  | succ steps ih =>
      unfold DtbParser.propLoop at done
      rw [Inquiry.eval_bind, bind_eq_ok] at done
      obtain ⟨token, -, rest⟩ := done
      cases token with
      | beginNode | endNode =>
          simp only [Inquiry.eval_pure, Except.ok.injEq, Prod.mk.injEq] at rest
          obtain ⟨rfl, -, rfl⟩ := rest
          exact ⟨Nat.le_refl _, fits⟩
      | nop =>
          simp only [Inquiry.eval_bind, bind_eq_ok, eval_checkedAdd_eq_ok] at rest
          obtain ⟨_, ⟨-, rfl⟩, rest⟩ := rest
          obtain ⟨further, inside⟩ := ih rest (fits.mono (by omega)) (by omega)
          exact ⟨by omega, inside⟩
      | prop =>
          simp only [Inquiry.eval_bind, bind_eq_ok] at rest
          obtain ⟨⟨_, stored, later⟩, parsed, rest⟩ := rest
          dsimp only at rest
          obtain ⟨past, stays⟩ := parseProp_advances parsed
          obtain ⟨further, inside⟩ := ih rest (stays low ordered fits) (by omega)
          exact ⟨by omega, inside⟩
      | fdtEnd | unknown => simp at rest

/-- Where the token of a node is read, its four bytes can be seen. -/
theorem AtNode.inside (atNode : AtNode memory pointer) : pointer + 4 ≤ memory.high .struct := by
  rcases atNode with read | read <;> exact (inside_of_getTypes read).2

/-- Opening a node takes the cursor past its token, its name and its `reg`, to another token. -/
theorem openNode_advances {nodeInfo : Option SimpleDeviceNode}
    (done : (DtbParser.openNode search nodeInfo pointer).eval memory.answer =
      .ok (after, matched, next)) :
    memory.low .struct ≤ pointer ∧ pointer + 4 ≤ next ∧ next + 4 ≤ memory.high .struct ∧
      after.RegFits (pointer + 4) next := by
  have atNode := openNode_atNode done
  unfold DtbParser.openNode at done
  rw [Inquiry.eval_bind, bind_eq_ok] at done
  obtain ⟨token, read, rest⟩ := done
  cases token with
  | beginNode =>
      simp only [Inquiry.eval_bind, bind_eq_ok, eval_checkedAdd_eq_ok,
        eval_nextMultipleOf_eq_ok] at rest
      obtain ⟨_, ⟨-, rfl⟩, name, -, _, ⟨-, rfl⟩, _, ⟨-, rfl⟩, rest⟩ := rest
      have fresh : ∀ place, (SimpleDeviceNode.new nodeInfo).RegFits (pointer + 4) place := nofun
      obtain ⟨further, inside⟩ := propLoop_advances rest (fresh _) (by omega)
      exact ⟨(inside_of_getTypes read).1, by omega, atNode.inside, inside⟩
  | _ => simp at rest

end Cursor

section Uncut

variable {answer : Request → Option Bytes} {memory : Memory} {search : Search}
  {node : SimpleDeviceNode} {found : Bool} {address pointer steps : Nat}

/-- Padding takes no steps that are counted. -/
theorem uncut_nextMultipleOf (width value factor : Nat) :
    Uncut (Inquiry.eval answer (nextMultipleOf width value factor)) := by
  unfold nextMultipleOf
  split
  · exact uncut_ok _
  · exact uncut_checkedAdd _ _ _

/-- Nor does a string. -/
theorem uncut_readCharStr (block : Block) :
    Uncut (Inquiry.eval answer (Dtb.readCharStr block address)) := by
  unfold Dtb.readCharStr
  rw [Inquiry.eval_bind]
  refine (uncut_ask _).bind fun text _ => ?_
  cases decodeUtf8 text with
  | none => exact nofun
  | some name => exact uncut_ok _

/-- Nor does a cell. -/
theorem uncut_readU32FromPtr : Uncut (Inquiry.eval answer (Dtb.readU32FromPtr address)) := by
  unfold Dtb.readU32FromPtr
  rw [Inquiry.eval_bind]
  exact (uncut_ask _).bind fun _ _ => uncut_ok _

/-- Nor does a token. -/
theorem uncut_getTypes : Uncut (Inquiry.eval answer (DtbParser.getTypes pointer)) := by
  unfold DtbParser.getTypes
  rw [Inquiry.eval_bind]
  exact (uncut_ask _).bind fun _ _ => uncut_ok _

/-- One string is taken off the value, so the rest of it is shorter. -/
theorem uncut_next (iter : CharStringIter) :
    Uncut (Inquiry.eval answer iter.next) ∧
      ∀ text later, iter.next.eval answer = .ok (some (text, later)) →
        later.remainSize < iter.remainSize := by
  unfold CharStringIter.next CharStringIter.nextInternal
  by_cases empty : iter.remainSize = 0
  · simp [empty]
  · simp only [empty, ↓reduceIte, Inquiry.eval_bind]
    constructor
    · refine Uncut.bind ?_ fun _ _ => uncut_ok _
      refine (uncut_readCharStr _).bind fun _ _ => (uncut_checkedAdd _ _ _).bind fun _ _ => ?_
      split
      · exact nofun
      · split
        · exact nofun
        · exact uncut_ok _
    · intro text later done
      simp only [bind_eq_ok, Inquiry.eval_pure, Except.ok.injEq, Option.some.injEq] at done
      obtain ⟨_, ⟨name, -, _, -, checked⟩, rfl⟩ := done
      split at checked
      · simp at checked
      · split at checked
        · simp at checked
        · simp only [Inquiry.eval_pure, Except.ok.injEq, Prod.mk.injEq] at checked
          rw [← checked.2]
          dsimp only
          omega

/-- A list of strings is not cut by a bound above its length. -/
theorem uncut_compatibleLoop (name : String) {iter : CharStringIter}
    (longer : iter.remainSize < steps) (result : Bool) :
    Uncut (Inquiry.eval answer (SimpleDeviceNode.compatibleLoop name steps iter result)) := by
  induction steps generalizing iter result with
  | zero => omega
  | succ steps ih =>
      unfold SimpleDeviceNode.compatibleLoop
      rw [Inquiry.eval_bind]
      refine (uncut_next iter).1.bind fun taken done => ?_
      rcases taken with _ | ⟨text, later⟩
      · exact uncut_ok _
      · have shorter := (uncut_next iter).2 text later done
        exact ih (by omega) _

/-- Nor is an arm of the property match. -/
theorem uncut_propArm {propertyLen : Nat} (longer : propertyLen < search.fuel) (kind : PropName) :
    Uncut (Inquiry.eval answer (node.propArm search address propertyLen kind)) := by
  unfold SimpleDeviceNode.propArm
  cases kind with
  | addressCells | sizeCells =>
      simp only [Inquiry.eval_bind]
      exact uncut_readU32FromPtr.bind fun _ _ => uncut_ok _
  | compatible =>
      cases search.compatibleName with
      | none => exact uncut_ok _
      | some name =>
          simp only [Inquiry.eval_bind]
          exact (uncut_compatibleLoop name longer _).bind fun _ _ => uncut_ok _
  | deviceName =>
      cases search.deviceName with
      | none => exact uncut_ok _
      | some name =>
          simp only [Inquiry.eval_bind]
          exact (uncut_readCharStr _).bind fun _ _ => uncut_ok _
  | reg =>
      cases node.parent with
      | none => exact nofun
      | some parent =>
          simp only [Inquiry.eval_bind]
          exact (uncut_checkedAdd _ _ _).bind fun _ _ => uncut_ok _
  | ranges | other => exact uncut_ok _

/-- No property is longer than 32 bits say, so none is cut by such a bound. -/
theorem uncut_parseProp (enough : 2 ^ 32 ≤ search.fuel) :
    Uncut ((node.parseProp search address).eval memory.answer) := by
  have readProperty : ∀ address, Uncut (Inquiry.eval memory.answer (FdtProperty.read address)) := by
    intro address
    unfold FdtProperty.read
    rw [Inquiry.eval_bind]
    exact (uncut_ask _).bind fun _ _ => uncut_ok _
  have length : ∀ length required,
      Uncut (Inquiry.eval memory.answer (SimpleDeviceNode.checkLength length required)) := by
    intro length required
    unfold SimpleDeviceNode.checkLength
    split
    · split
      · exact nofun
      · exact uncut_ok _
    · exact uncut_ok _
  unfold SimpleDeviceNode.parseProp
  simp only [Inquiry.eval_bind]
  refine (uncut_checkedAdd _ _ _).bind fun _ _ => (readProperty _).bind fun property read => ?_
  have short := (eval_readProperty_eq_ok.mp read).2.1
  refine (uncut_checkedAdd _ _ _).bind fun _ _ => (uncut_checkedAdd _ _ _).bind fun _ _ => ?_
  refine (uncut_checkedAdd _ _ _).bind fun _ _ => (uncut_readCharStr _).bind fun _ _ => ?_
  refine (uncut_propArm (by omega) _).bind fun _ _ => ?_
  refine (length _ _).bind fun _ _ => (uncut_nextMultipleOf _ _ _).bind fun _ _ => ?_
  exact (uncut_checkedAdd _ _ _).bind fun _ _ => uncut_ok _

/-- Each step of the property loop reads a token and moves the cursor past it. -/
theorem uncut_propLoop (enough : 2 ^ 32 ≤ search.fuel)
    (longer : memory.left pointer < steps) :
    Uncut ((DtbParser.propLoop search steps node found pointer).eval memory.answer) := by
  induction steps generalizing node found pointer with
  | zero => omega
  | succ steps ih =>
      unfold DtbParser.propLoop
      rw [Inquiry.eval_bind]
      refine uncut_getTypes.bind fun token read => ?_
      obtain ⟨above, below⟩ := inside_of_getTypes read
      cases token with
      | nop =>
          simp only [Inquiry.eval_bind]
          refine (uncut_checkedAdd _ _ _).bind fun later moved => ih ?_
          have less := Memory.left_add above below (eval_checkedAdd_eq_ok.mp moved).2.le
          omega
      | prop =>
          simp only [Inquiry.eval_bind]
          refine (uncut_parseProp enough).bind ?_
          rintro ⟨_, _, later⟩ done
          have past := (parseProp_advances done).1
          have less := @Memory.left_add memory _ later 4 above below (by omega)
          apply ih
          dsimp only
          omega
      | beginNode | endNode => exact uncut_ok _
      | fdtEnd | unknown => exact uncut_err _

/-- The properties of a node are not cut by the bound of the memory. -/
theorem uncut_openNode (enough : memory.stepBound ≤ search.fuel)
    (nodeInfo : Option SimpleDeviceNode) :
    Uncut ((DtbParser.openNode search nodeInfo pointer).eval memory.answer) := by
  unfold Memory.stepBound at enough
  unfold DtbParser.openNode
  rw [Inquiry.eval_bind]
  refine uncut_getTypes.bind fun token _ => ?_
  cases token with
  | beginNode =>
      simp only [Inquiry.eval_bind]
      refine (uncut_checkedAdd _ _ _).bind fun _ _ => (uncut_readCharStr _).bind fun _ _ => ?_
      refine (uncut_nextMultipleOf _ _ _).bind fun _ _ => ?_
      refine (uncut_checkedAdd _ _ _).bind fun later _ => ?_
      have left := memory.left_le later
      exact uncut_propLoop (by omega) (by omega)
  | _ => exact uncut_err _

/-- Nor are the tokens in front of the root. -/
theorem uncut_skipNop {parser : DtbParser} (longer : memory.left pointer < steps) :
    Uncut ((DtbParser.skipNop parser steps pointer).eval memory.answer) := by
  induction steps generalizing pointer with
  | zero => omega
  | succ steps ih =>
      have ends : Uncut (parser.dtbHeader.getStructEndAddress.eval memory.answer) := by
        unfold Dtb.getStructEndAddress Dtb.getStructStartAddress
        rw [Inquiry.eval_bind]
        exact (uncut_checkedAdd _ _ _).bind fun _ _ => uncut_checkedAdd _ _ _
      unfold DtbParser.skipNop
      rw [Inquiry.eval_bind]
      refine ends.bind fun limit _ => ?_
      split
      · rw [Inquiry.eval_bind]
        refine uncut_getTypes.bind fun token read => ?_
        obtain ⟨above, below⟩ := inside_of_getTypes read
        cases token with
        | nop =>
            simp only [Inquiry.eval_bind]
            refine (uncut_checkedAdd _ _ _).bind fun later moved => ih ?_
            have less := Memory.left_add above below (eval_checkedAdd_eq_ok.mp moved).2.le
            omega
        | _ => exact uncut_ok _
      · exact uncut_ok _

end Uncut

section Scan

variable {memory : Memory} {search : Search} {node : SimpleDeviceNode} {pointer later : Nat}

/-- The bytes of the `reg` values of some nodes together. -/
def regBytes (nodes : List SimpleDeviceNode) : Nat := (nodes.map SimpleDeviceNode.regSize).sum

/-- Each `reg` counts for the sum of them. -/
theorem regSize_le_regBytes {nodes : List SimpleDeviceNode} (member : node ∈ nodes) :
    node.regSize ≤ regBytes nodes :=
  List.single_le_sum (fun _ _ => Nat.zero_le _) _ (List.mem_map_of_mem member)

/-- A scan from a place on: the `reg` values of the nodes it finds are disjoint parts of
the bytes from there to its end. -/
structure Advances (memory : Memory) (pointer : Nat)
    (emission : Emission SimpleDeviceNode Failure Nat) : Prop where
  past : ∀ stop, emission.ending = .ok stop →
    pointer + 4 + regBytes emission.output ≤ stop ∧ stop ≤ memory.high .struct
  bytes : regBytes emission.output ≤ memory.left pointer
  places : ∀ node ∈ emission.output, ∀ place ∈ node.reg, place.1 < 2 ^ 64

/-- A scan which finds nothing. -/
theorem advances_ofExcept {ending : Except Failure Nat}
    (past : ∀ stop, ending = .ok stop → pointer + 4 ≤ stop ∧ stop ≤ memory.high .struct) :
    Advances memory pointer (.ofExcept ending) where
  past stop ended := past stop ended
  bytes := Nat.zero_le _
  places _ member := by simp at member

/-- An error reports nothing. -/
theorem advances_error (reason : Failure) : Advances memory pointer (.ofExcept (.error reason)) := by
  apply advances_ofExcept
  intro stop ended
  cases ended

/-- Reading reports nothing either. -/
theorem advances_after_reading {α : Type} {reading : Reading α}
    {next : α → Emission SimpleDeviceNode Failure Nat}
    (other : ∀ value, reading.eval memory.answer = .ok value → Advances memory pointer (next value)) :
    Advances memory pointer (memory.observe reading >>= next) := by
  cases read : reading.eval memory.answer with
  | ok value =>
      rw [Memory.observe, read, Emission.ofExcept_ok_bind]
      exact other value read
  | error reason =>
      rw [Memory.observe, read, Emission.ofExcept_error_bind]
      exact advances_error _

/-- What is past a later cursor is past an earlier one. -/
theorem Advances.mono {emission : Emission SimpleDeviceNode Failure Nat}
    (advances : Advances memory later emission) (ordered : pointer ≤ later) :
    Advances memory pointer emission where
  past stop ended := by
    have past := advances.past stop ended
    omega
  bytes := by
    have bytes := advances.bytes
    unfold Memory.left at bytes ⊢
    omega
  places := advances.places

/-- The second part advances from where the first one has stopped. -/
theorem Advances.bind {first : Emission SimpleDeviceNode Failure Nat}
    {next : Nat → Emission SimpleDeviceNode Failure Nat} (above : memory.low .struct ≤ pointer)
    (one : Advances memory pointer first) (other : ∀ stop, Advances memory stop (next stop)) :
    Advances memory pointer (first >>= next) := by
  cases ended : first.ending with
  | error reason =>
      rw [Emission.bind_of_error ended]
      exact ⟨nofun, one.bytes, one.places⟩
  | ok stop =>
      obtain ⟨begun, below⟩ := one.past stop ended
      have less := @Memory.left_add memory pointer stop (regBytes first.output) above (by omega)
        (by omega)
      have rest := (other stop).bytes
      have total : regBytes (first.output ++ (next stop).output) =
          regBytes first.output + regBytes (next stop).output := by simp [regBytes]
      rw [Emission.bind_of_ok ended]
      constructor
      · intro final ended
        have past := (other stop).past final ended
        rw [total]
        omega
      · rw [total]
        omega
      · intro node member
        rcases List.mem_append.mp member with member | member
        · exact one.places node member
        · exact (other stop).places node member

/-- A node which was opened, in front of the nodes below it. -/
theorem Advances.opened {emission : Emission SimpleDeviceNode Failure Nat}
    (above : memory.low .struct ≤ pointer) (further : pointer + 4 ≤ later)
    (inside : later + 4 ≤ memory.high .struct) (fits : node.RegFits (pointer + 4) later)
    (advances : Advances memory later emission) :
    Advances memory pointer (.emit node >>= fun _ => emission) := by
  have whole : (.emit node >>= fun _ => emission : Emission SimpleDeviceNode Failure Nat) =
      ⟨node :: emission.output, emission.ending⟩ := Emission.bind_of_ok rfl _
  have size := fits.regSize_le further
  have rest := advances.bytes
  have less := @Memory.left_add memory pointer later node.regSize above (by omega) (by omega)
  have total : regBytes (node :: emission.output) = node.regSize + regBytes emission.output := by
    simp [regBytes]
  rw [whole]
  constructor
  · intro stop ended
    have past := advances.past stop ended
    rw [total]
    omega
  · rw [total]
    omega
  · intro other member
    rcases List.mem_cons.mp member with rfl | member
    · rintro ⟨start, size⟩ given
      exact (fits start size given).1
    · exact advances.places other member

/-- Both mutual functions at once, by induction on the steps. -/
theorem scanNode_advances (search : Search) (steps : Nat) :
    (∀ nodeInfo pointer,
      Advances memory pointer (memory.scanNode search steps nodeInfo pointer)) ∧
    ∀ prop pointer, Advances memory pointer (memory.scanChildren search steps prop pointer) := by
  induction steps with
  | zero =>
      constructor <;> intro _ pointer
      · exact advances_error _
      · exact advances_error _
  | succ steps ih =>
      constructor
      · intro nodeInfo pointer
        unfold Memory.scanNode
        apply advances_after_reading
        rintro ⟨prop, found, next⟩ opened
        obtain ⟨above, further, inside, fits⟩ := openNode_advances opened
        cases found with
        | false => exact (ih.2 prop next).mono (by omega)
        | true => exact Advances.opened above further inside fits (ih.2 prop next)
      · intro prop pointer
        unfold Memory.scanChildren
        apply advances_after_reading
        intro token read
        obtain ⟨above, below⟩ := inside_of_getTypes read
        cases token with
        | nop =>
            apply advances_after_reading
            intro next moved
            have past := (eval_checkedAdd_eq_ok.mp moved).2
            exact (ih.2 prop next).mono (by omega)
        | beginNode => exact (ih.1 (some prop) pointer).bind above fun stop => ih.2 prop stop
        | endNode =>
            apply advances_ofExcept
            intro stop moved
            have past := (eval_checkedAdd_eq_ok.mp moved).2
            omega
        | prop | fdtEnd | unknown => exact advances_error _

/-- The `reg` values found in the whole structure block fit the blob, and their addresses a
`usize`. -/
theorem scan_advances (search : Search) :
    regBytes (memory.scan search).output ≤ memory.blob.bytes.length ∧
      ∀ node ∈ (memory.scan search).output, ∀ place ∈ node.reg, place.1 < 2 ^ 64 := by
  unfold Memory.scan Memory.observe
  rcases ok_or_error (search.parser.dtbHeader.getStructStartAddress.eval memory.answer) with
    ⟨start, read⟩ | ⟨reason, read⟩
  case inr => simp [read, regBytes]
  rw [read, Emission.ofExcept_ok_bind]
  rcases ok_or_error ((DtbParser.skipNop search.parser search.fuel start).eval memory.answer) with
    ⟨pointer, read⟩ | ⟨reason, read⟩
  case inr => simp [read, regBytes]
  rw [read, Emission.ofExcept_ok_bind]
  have advances := (@scanNode_advances memory search search.fuel).1 none pointer
  exact ⟨advances.bytes.trans (memory.left_le pointer), advances.places⟩

/-- A sequence is uncut if its parts are. -/
theorem Uncut.sequence {ω α β : Type} {first : Emission ω Failure α}
    {next : α → Emission ω Failure β} (one : Uncut first.ending)
    (other : ∀ value, first.ending = .ok value → Uncut (next value).ending) :
    Uncut (first >>= next).ending := by
  cases ended : first.ending with
  | ok value =>
      rw [Emission.bind_of_ok ended]
      exact other value ended
  | error reason =>
      rw [Emission.bind_of_error ended]
      intro same
      cases same
      exact one ended

/-- A call for a node moves the cursor past its token, so the steps last for the bytes
left; the loop over the children needs one more. -/
theorem uncut_scanNode (enough : memory.stepBound ≤ search.fuel) (steps : Nat) :
    (∀ nodeInfo pointer, memory.left pointer ≤ steps → 0 < steps →
      Uncut (memory.scanNode search steps nodeInfo pointer).ending) ∧
    ∀ prop pointer, memory.left pointer < steps →
      Uncut (memory.scanChildren search steps prop pointer).ending := by
  induction steps with
  | zero =>
      constructor
      · omega
      · omega
  | succ steps ih =>
      constructor
      · intro nodeInfo pointer longer _
        unfold Memory.scanNode
        refine (uncut_openNode enough nodeInfo).sequence ?_
        rintro ⟨prop, found, next⟩ opened
        obtain ⟨above, further, inside, -⟩ := openNode_advances opened
        have less := Memory.left_add above (by omega) further
        have below := ih.2 prop next (by omega)
        cases found with
        | false => exact below
        | true => exact Uncut.sequence (uncut_ok ()) fun _ _ => below
      · intro prop pointer longer
        unfold Memory.scanChildren
        refine uncut_getTypes.sequence fun token read => ?_
        obtain ⟨above, below⟩ := inside_of_getTypes read
        cases token with
        | nop =>
            refine (uncut_checkedAdd _ _ _).sequence fun next moved => ih.2 prop next ?_
            have less := Memory.left_add above below (eval_checkedAdd_eq_ok.mp moved).2.le
            omega
        | beginNode =>
            have here := @Memory.left_add memory pointer (pointer + 4) 4 above below (by omega)
            refine (ih.1 (some prop) pointer (by omega) (by omega)).sequence fun stop ended => ?_
            have past := ((scanNode_advances search steps).1 (some prop) pointer).past stop ended
            have less := @Memory.left_add memory pointer stop 4 above below (by omega)
            exact ih.2 prop stop (by omega)
        | endNode => exact uncut_checkedAdd _ _ _
        | prop | fdtEnd | unknown => exact uncut_err _

/-- The last check takes no steps that are counted. -/
theorem uncut_checkEnd : Uncut ((DtbParser.checkEnd pointer).eval memory.answer) := by
  unfold DtbParser.checkEnd
  rw [Inquiry.eval_bind]
  refine uncut_getTypes.bind fun token _ => ?_
  cases token with
  | fdtEnd => exact uncut_ok ()
  | _ => exact uncut_err _

/-- With the bound of the blob the scan comes to its end. -/
theorem uncut_scan (enough : memory.stepBound ≤ search.fuel) :
    Uncut (memory.scan search).ending := by
  have large : memory.blob.bytes.length < search.fuel := by
    unfold Memory.stepBound at enough
    omega
  unfold Memory.scan
  refine Uncut.sequence (uncut_checkedAdd _ _ _) fun start _ => ?_
  have left := memory.left_le start
  refine Uncut.sequence (uncut_skipNop (by omega)) fun pointer _ => ?_
  have left := memory.left_le pointer
  exact (uncut_scanNode enough search.fuel).1 none pointer (by omega) (by omega)

end Scan

end Rpi5.DeviceTree
