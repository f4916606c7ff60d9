import Rpi5.DeviceTree.Steps
import Rpi5.Semantics.Machine

/-!
# The search as a machine

`find_node_recursive` calls itself for every child, and its loops are inside each other. The
same search taken apart is a machine with an explicit stack: a `Stage` says where the cursor
is, what is being read there, and which nodes are around it. Each step looks at one token, or
makes one call.

A search of every bound is extended by a number of steps of the machine (`findNode_le_steps`)
and every number of steps by a search (`steps_le_findNode`), so that both do the same. What
holds of each stage a search comes to therefore holds of the search.
-/

namespace Rpi5.DeviceTree

open Rpi5.Logical Rpi5.Semantics

/-- Where a search is, and the nodes around the cursor, the innermost first. -/
inductive Stage where
  /-- Before it looks at anything. -/
  | starting
  /-- At the tokens in front of the root. -/
  | leading (place : Nat)
  /-- Where a node has to begin. -/
  | opening (outer : List SimpleDeviceNode) (place : Nat)
  /-- At the properties of a node, with what they have said so far. -/
  | properties (outer : List SimpleDeviceNode) (node : SimpleDeviceNode) (found : Bool) (place : Nat)
  /-- Making the calls for a matching node, whose properties end at the cursor. -/
  | reporting (outer : List SimpleDeviceNode) (node : SimpleDeviceNode) (iter : DeviceAddressIter)
      (place : Nat)
  /-- At the children of a node. -/
  | children (outer : List SimpleDeviceNode) (node : SimpleDeviceNode) (place : Nat)
  /-- Behind the root, or where a callback has broken off. -/
  | behind (place : Nat)

/-- The same search with another bound. -/
abbrev Search.within (search : Search) (fuel : Nat) : Search :=
  ⟨search.parser, search.deviceName, search.compatibleName, fuel⟩

namespace Stage

/-- Behind the end of a node the search is at the children of the node around it. -/
def after : List SimpleDeviceNode → Nat → Stage
  | [], place => .behind place
  | node :: outer, place => .children outer node place

section Steps

variable (search : Search)

/-- The first lines of `find_node`. -/
def start : Reading (Stage ⊕ Unit) :=
  if search.deviceName.isSome ∧ search.compatibleName.isSome ∨
      search.deviceName.isNone ∧ search.compatibleName.isNone then
    err "device name and compatible name cannot be searched for at the same time"
  else do
    return .inl (.leading (← search.parser.dtbHeader.getStructStartAddress))

/-- A turn of `skip_nop`. -/
def skip (place : Nat) : Reading (Stage ⊕ Unit) := do
  if place < (← search.parser.dtbHeader.getStructEndAddress) then
    match ← DtbParser.getTypes place with
    | .nop => return .inl (.leading (← checkedAdd 64 place 4))
    | _ => return .inl (.opening [] place)
  else
    return .inl (.opening [] place)

/-- `find_node_recursive` up to its property loop. -/
def enter (outer : List SimpleDeviceNode) (place : Nat) : Reading (Stage ⊕ Unit) := do
  match ← DtbParser.getTypes place with
  | .beginNode =>
      let place ← checkedAdd 64 place 4
      let nodeName ← Dtb.readCharStr .struct place
      let padded ← nextMultipleOf 64 (nodeName.utf8ByteSize + 1) 4
      return .inl (.properties outer (.new outer.head?) false (← checkedAdd 64 place padded))
  | _ => err "pointer is not begin node"

/-- A turn of the property loop. -/
def read (outer : List SimpleDeviceNode) (node : SimpleDeviceNode) (found : Bool) (place : Nat) :
    Reading (Stage ⊕ Unit) := do
  match ← DtbParser.getTypes place with
  | .nop => return .inl (.properties outer node found (← checkedAdd 64 place 4))
  | .prop =>
      let (matched, node, place) ← node.parseProp search place
      return .inl (.properties outer node (found || matched) place)
  | .beginNode | .endNode =>
      return .inl (if found then .reporting outer node (.new node) place
        else .children outer node place)
  | _ => err "Unexpected token inside node"

/-- A turn of the loop over the addresses of a matching node. -/
def report (outer : List SimpleDeviceNode) (node : SimpleDeviceNode) (iter : DeviceAddressIter)
    (place : Nat) : Walking (Stage ⊕ Unit) := do
  match ← iter.nextInternal with
  | (none, _) => return .inl (.children outer node place)
  | (some address, iter) =>
      match ← (Dialogue.call address .done : Walking ControlFlow) with
      | .Break => return .inl (.behind place)
      | .Continue => return .inl (.reporting outer node iter place)

/-- A turn of the loop over the children of a node. -/
def descend (outer : List SimpleDeviceNode) (node : SimpleDeviceNode) (place : Nat) :
    Reading (Stage ⊕ Unit) := do
  match ← DtbParser.getTypes place with
  | .nop => return .inl (.children outer node (← checkedAdd 64 place 4))
  | .beginNode => return .inl (.opening (node :: outer) place)
  | .endNode => return .inl (after outer (← checkedAdd 64 place 4))
  | _ => err "find an unknown or unexpected token while parsing the DTB"

/-- The last check of `find_node`. -/
def finish (place : Nat) : Reading (Stage ⊕ Unit) := do
  DtbParser.checkEnd place
  return .inr ()

/-- One step of a search: the next stage, or its end. -/
def step : Stage → Walking (Stage ⊕ Unit)
  | .starting => liftM (start search)
  | .leading place => liftM (skip search place)
  | .opening outer place => liftM (enter outer place)
  | .properties outer node found place => liftM (read search outer node found place)
  | .reporting outer node iter place => report outer node iter place
  | .children outer node place => liftM (descend outer node place)
  | .behind place => liftM (finish place)

/-- A number of steps from a stage on. -/
def steps (bound : Nat) (stage : Stage) : Walking Unit :=
  Dialogue.iterate .outOfFuel (step search) bound stage

/-- How a number of steps goes on. -/
def going (bound : Nat) : Stage ⊕ Unit → Walking Unit
  | .inl next => steps search bound next
  | .inr value => return value

end Steps

variable {search : Search} {bound more : Nat} {stage : Stage}

/-- The first of a number of steps. -/
theorem steps_succ : steps search (bound + 1) stage = step search stage >>= going search bound := by
  unfold steps Dialogue.iterate
  congr 1
  funext next
  cases next <;> rfl

/-- More steps go further. -/
theorem steps_mono (longer : bound ≤ more) :
    Reaches (steps search bound stage) (steps search more stage) :=
  Dialogue.iterate_mono longer stage

section Unrolled

variable {rest : Nat → Walking Unit} {place : Nat} {outer : List SimpleDeviceNode}
  {node : SimpleDeviceNode}

/-- The tokens in front of the root take one step each. -/
theorem skipNop_le_steps (onward : ∀ place, Reaches (rest place) (steps search more (.opening [] place)))
    (bound place : Nat) :
    Reaches (liftM (DtbParser.skipNop search.parser bound place) >>= rest)
      (steps search (bound + more) (.leading place)) := by
  induction bound generalizing place with
  | zero => exact .limit
  | succ bound ih =>
      have opened : ∀ place, Reaches (rest place) (steps search (bound + more) (.opening [] place)) :=
        fun place => (onward place).trans (steps_mono (Nat.le_add_left _ _))
      rw [Nat.add_right_comm, steps_succ]
      unfold DtbParser.skipNop step skip
      simp only [Inquiry.liftM_bind, bind_assoc]
      refine .bind (.refl _) fun limit => ?_
      split
      · simp only [Inquiry.liftM_bind, bind_assoc]
        refine .bind (.refl _) fun token => ?_
        cases token with
        | nop =>
            simp only [Inquiry.liftM_bind, bind_assoc]
            exact .bind (.refl _) fun place => ih place
        | _ => exact opened _
      · exact opened _

/-- So do the properties of a node. -/
theorem propLoop_le_steps {rest : SimpleDeviceNode × Bool × Nat → Walking Unit}
    (onward : ∀ node found place, Reaches (rest (node, found, place)) (steps search more
      (if found then .reporting outer node (.new node) place else .children outer node place)))
    (bound : Nat) (node : SimpleDeviceNode) (found : Bool) (place : Nat) :
    Reaches (liftM (DtbParser.propLoop search bound node found place) >>= rest)
      (steps search (bound + more) (.properties outer node found place)) := by
  induction bound generalizing node found place with
  | zero => exact .limit
  | succ bound ih =>
      have ended := (onward node found place).trans (steps_mono (Nat.le_add_left more bound))
      rw [Nat.add_right_comm, steps_succ]
      unfold DtbParser.propLoop step read
      simp only [Inquiry.liftM_bind, bind_assoc]
      refine .bind (.refl _) fun token => ?_
      cases token with
      | nop =>
          simp only [Inquiry.liftM_bind, bind_assoc]
          exact .bind (.refl _) fun place => ih node found place
      | prop =>
          simp only [Inquiry.liftM_bind, bind_assoc]
          refine .bind (.refl _) ?_
          rintro ⟨matched, node, place⟩
          exact ih node (found || matched) place
      | beginNode | endNode => exact ended
      | fdtEnd | unknown => exact .stop

/-- And the addresses of a matching node. -/
theorem addressLoop_le_steps {rest : ControlFlow → Walking Unit} {place : Nat}
    (broken : Reaches (rest .Break) (steps search more (.behind place)))
    (onward : Reaches (rest .Continue) (steps search more (.children outer node place)))
    (bound : Nat) (iter : DeviceAddressIter) :
    Reaches (DtbParser.addressLoop bound iter >>= rest)
      (steps search (bound + more) (.reporting outer node iter place)) := by
  induction bound generalizing iter with
  | zero => exact .limit
  | succ bound ih =>
      rw [Nat.add_right_comm, steps_succ]
      unfold DtbParser.addressLoop step report
      simp only [bind_assoc]
      refine .bind (.refl _) fun taken => ?_
      rcases taken with ⟨_ | address, iter⟩
      · exact onward.trans (steps_mono (Nat.le_add_left _ _))
      · simp only [bind_assoc]
        refine .bind (.refl _) fun flow => ?_
        cases flow with
        | Break => exact broken.trans (steps_mono (Nat.le_add_left _ _))
        | Continue => exact ih iter

/-- The machine behind the walk over a node. -/
def resume (search : Search) (bound : Nat) (outer : List SimpleDeviceNode) :
    ControlFlow × Nat → Walking Unit
  | (.Break, place) => steps search bound (.behind place)
  | (.Continue, place) => steps search bound (after outer place)

/-- The recursion takes no more than some number of steps: both mutual functions at once, by
induction on their bound. -/
theorem walk_le_steps (search : Search) (depth : Nat) :
    (∃ bound, ∀ more outer place,
      Reaches (DtbParser.findNodeRecursive search depth outer.head? place >>=
          resume search more outer)
        (steps search (bound + more) (.opening outer place))) ∧
    ∃ bound, ∀ more outer node place,
      Reaches (DtbParser.childLoop search depth node place >>= resume search more outer)
        (steps search (bound + more) (.children outer node place)) := by
  induction depth with
  | zero => exact ⟨⟨0, fun _ _ _ => .limit⟩, 0, fun _ _ _ _ => .limit⟩
  | succ depth ih =>
      obtain ⟨⟨bound, walk⟩, further, loop⟩ := ih
      constructor
      · refine ⟨search.fuel + (search.fuel + further) + 1, fun more outer place => ?_⟩
        have total : search.fuel + (search.fuel + further) + 1 + more =
            search.fuel + (search.fuel + (further + more)) + 1 := by omega
        rw [total, steps_succ]
        unfold DtbParser.findNodeRecursive DtbParser.openNode step enter
        simp only [Inquiry.liftM_bind, bind_assoc]
        refine .bind (.refl _) fun token => ?_
        cases token with
        | beginNode =>
            simp only [Inquiry.liftM_bind, bind_assoc]
            refine .bind (.refl _) fun place => .bind (.refl _) fun name =>
              .bind (.refl _) fun padded => .bind (.refl _) fun place => ?_
            apply propLoop_le_steps
            intro node found place
            cases found with
            | false =>
                exact (loop more outer node place).trans (steps_mono (Nat.le_add_left _ _))
            | true =>
                simp only [↓reduceIte, bind_assoc]
                refine addressLoop_le_steps ?_ (loop more outer node place) search.fuel (.new node)
                exact steps_mono (Nat.le_add_left _ _)
        | _ => exact .stop
      · refine ⟨bound + further + 1, fun more outer node place => ?_⟩
        have total : bound + further + 1 + more = bound + (further + more) + 1 := by omega
        rw [total, steps_succ]
        unfold DtbParser.childLoop step descend
        simp only [Inquiry.liftM_bind, bind_assoc]
        refine .bind (.refl _) fun token => ?_
        cases token with
        | nop =>
            simp only [Inquiry.liftM_bind, bind_assoc]
            refine .bind (.refl _) fun place => ?_
            exact (loop more outer node place).trans (steps_mono (Nat.le_add_left _ _))
        | beginNode =>
            refine Dialogue.Extends.trans ?_ (walk (further + more) (node :: outer) place)
            simp only [bind_assoc]
            refine .bind (.refl _) ?_
            rintro ⟨_ | _, place⟩
            · exact loop more outer node place
            · exact steps_mono (Nat.le_add_left _ _)
        | endNode =>
            simp only [Inquiry.liftM_bind, bind_assoc]
            refine .bind (.refl _) fun place => ?_
            exact steps_mono (by omega)
        | _ => exact .stop

/-- A search goes no further than some number of steps. -/
theorem findNode_le_steps (search : Search) : ∃ bound,
    Reaches (search.parser.findNode search.deviceName search.compatibleName search.fuel)
      (steps search bound .starting) := by
  obtain ⟨⟨bound, walk⟩, -⟩ := walk_le_steps search search.fuel
  refine ⟨search.fuel + (bound + 1) + 1, ?_⟩
  rw [steps_succ]
  unfold DtbParser.findNode DtbParser.walkStruct step start
  split
  · exact .stop
  · simp only [Inquiry.liftM_bind, bind_assoc]
    refine .bind (.refl _) fun place => ?_
    apply skipNop_le_steps
    intro place
    refine Dialogue.Extends.trans ?_ (walk 1 [] place)
    have checked (place : Nat) :
        Reaches (liftM (DtbParser.checkEnd place)) (steps search 1 (.behind place)) := by
      rw [steps_succ, ← bind_pure (liftM (DtbParser.checkEnd place))]
      unfold step finish
      simp only [Inquiry.liftM_bind, bind_assoc]
      exact .bind (.refl _) fun _ => .refl _
    refine .bind (.refl _) ?_
    rintro ⟨_ | _, place⟩ <;> exact checked place

end Unrolled

section Remaining

variable (search : Search) (fuel : Nat)

/-- What is left of `find_node` behind the walk over a node: the children of the nodes around
it, and the last check. -/
def unwind : List SimpleDeviceNode → ControlFlow × Nat → Walking Unit
  | _, (.Break, place) => liftM (DtbParser.checkEnd place)
  | [], (.Continue, place) => liftM (DtbParser.checkEnd place)
  | node :: outer, (.Continue, place) => do
      unwind outer (← DtbParser.childLoop (search.within fuel) fuel node place)

/-- What is left of it behind the properties of a node and the calls for it: its children. -/
def conclude (outer : List SimpleDeviceNode) (node : SimpleDeviceNode) (place : Nat) :
    ControlFlow → Walking Unit
  | .Break => unwind search fuel outer (.Break, place)
  | .Continue => do
      unwind search fuel outer (← DtbParser.childLoop (search.within fuel) fuel node place)

/-- What is left of it behind the properties of a node. -/
def settle (outer : List SimpleDeviceNode) : SimpleDeviceNode × Bool × Nat → Walking Unit
  | (node, true, place) => do
      conclude search fuel outer node place (← DtbParser.addressLoop fuel (.new node))
  | (node, false, place) => conclude search fuel outer node place .Continue

/-- What is left of `find_node` at a stage. -/
def remaining : Stage → Walking Unit
  | .starting => search.parser.findNode search.deviceName search.compatibleName fuel
  | .leading place => do
      let place ← DtbParser.skipNop search.parser fuel place
      unwind search fuel [] (← DtbParser.findNodeRecursive (search.within fuel) fuel none place)
  | .opening outer place => do
      unwind search fuel outer
        (← DtbParser.findNodeRecursive (search.within fuel) fuel outer.head? place)
  | .properties outer node found place => do
      settle search fuel outer
        (← DtbParser.propLoop (search.within fuel) fuel node found place)
  | .reporting outer node iter place => do
      conclude search fuel outer node place (← DtbParser.addressLoop fuel iter)
  | .children outer node place => conclude search fuel outer node place .Continue
  | .behind place => liftM (DtbParser.checkEnd place)

variable {search fuel} {further : Nat}

/-- With a larger bound the rest goes further. -/
theorem unwind_mono (grows : fuel ≤ further) (outer : List SimpleDeviceNode)
    (result : ControlFlow × Nat) :
    Reaches (unwind search fuel outer result) (unwind search further outer result) := by
  induction outer generalizing result with
  | nil =>
      obtain ⟨flow, place⟩ := result
      cases flow <;> exact .refl _
  | cons node outer ih =>
      obtain ⟨flow, place⟩ := result
      cases flow with
      | Break => exact .refl _
      | Continue => exact ((walk_extends grows fuel).2 further grows node place).bind ih

/-- So does what is left behind the calls for a node. -/
theorem conclude_mono (grows : fuel ≤ further) (outer : List SimpleDeviceNode)
    (node : SimpleDeviceNode) (place : Nat) (flow : ControlFlow) :
    Reaches (conclude search fuel outer node place flow)
      (conclude search further outer node place flow) := by
  cases flow with
  | Break => exact unwind_mono grows outer _
  | Continue =>
      exact ((walk_extends grows fuel).2 further grows node place).bind (unwind_mono grows outer)

/-- And behind its properties. -/
theorem settle_mono (grows : fuel ≤ further) (outer : List SimpleDeviceNode)
    (opened : SimpleDeviceNode × Bool × Nat) :
    Reaches (settle search fuel outer opened) (settle search further outer opened) := by
  obtain ⟨node, found, place⟩ := opened
  cases found with
  | false => exact conclude_mono grows outer node place .Continue
  | true => exact (addressLoop_extends grows _).bind (conclude_mono grows outer node place)

/-- The walk over a root, and the last check. -/
theorem root_mono (grows : fuel ≤ further) (place : Nat) :
    Reaches
      (DtbParser.findNodeRecursive (search.within fuel) fuel none place >>= unwind search fuel [])
      (DtbParser.findNodeRecursive (search.within further) further none place >>=
        unwind search further []) :=
  ((walk_extends grows fuel).1 further grows none place).bind (unwind_mono grows [])

/-- A stage goes on with what is left at the next one. -/
def onward (search : Search) (fuel : Nat) : Stage ⊕ Unit → Walking Unit
  | .inl next => remaining search fuel next
  | .inr value => return value

/-- The walk over a node whose bound is spent on its children goes on like one with the next
bound. -/
theorem children_le (outer : List SimpleDeviceNode) (node : SimpleDeviceNode) (place : Nat) :
    Reaches (conclude search fuel outer node place .Continue)
      (DtbParser.childLoop (search.within (fuel + 1)) fuel node place >>=
        unwind search (fuel + 1) outer) :=
  ((walk_extends (Nat.le_succ fuel) fuel).2 fuel le_rfl node place).bind
    (unwind_mono (Nat.le_succ fuel) outer)

/-- A step, and what is left behind it, goes no further than what is left before it. -/
theorem step_le_remaining (stage : Stage) :
    Reaches (step (search.within fuel) stage >>= onward search fuel)
      (remaining search (fuel + 1) stage) := by
  have grows : fuel ≤ fuel + 1 := Nat.le_succ fuel
  cases stage with
  | starting =>
      unfold step start remaining DtbParser.findNode DtbParser.walkStruct
      dsimp only
      split
      · exact .stop
      · simp only [Inquiry.liftM_bind, bind_assoc]
        refine .bind (.refl _) fun place =>
          (Inquiry.lift_extends (skipNop_extends grows place)).bind fun place => ?_
        refine (root_mono grows place).trans (.bind (.refl _) ?_)
        rintro ⟨_ | _, place⟩ <;> exact .refl _
  | leading place =>
      unfold step skip remaining DtbParser.skipNop
      simp only [Inquiry.liftM_bind, bind_assoc]
      refine .bind (.refl _) fun limit => ?_
      split
      · simp only [Inquiry.liftM_bind, bind_assoc]
        refine .bind (.refl _) fun token => ?_
        cases token with
        | nop =>
            simp only [Inquiry.liftM_bind, bind_assoc]
            exact .bind (.refl _) fun place => .bind (.refl _) fun place => root_mono grows place
        | _ => exact root_mono grows _
      · exact root_mono grows _
  | opening outer place =>
      unfold step enter remaining DtbParser.findNodeRecursive DtbParser.openNode
      simp only [Inquiry.liftM_bind, bind_assoc]
      refine .bind (.refl _) fun token => ?_
      cases token with
      | beginNode =>
          simp only [Inquiry.liftM_bind, bind_assoc]
          refine .bind (.refl _) fun place => .bind (.refl _) fun name =>
            .bind (.refl _) fun padded => .bind (.refl _) fun place => ?_
          refine (Inquiry.lift_extends (propLoop_extends grows grows _ _ _)).bind ?_
          rintro ⟨node, _ | _, place⟩
          · exact children_le outer node place
          · simp only [↓reduceIte, bind_assoc]
            refine (addressLoop_extends grows _).bind fun flow => ?_
            cases flow with
            | Break => exact unwind_mono grows outer _
            | Continue => exact children_le outer node place
      | _ => exact .stop
  | properties outer node found place =>
      unfold step read remaining DtbParser.propLoop
      simp only [Inquiry.liftM_bind, bind_assoc]
      refine .bind (.refl _) fun token => ?_
      have turned (node : SimpleDeviceNode) (found : Bool) (place : Nat) :
          Reaches (remaining search fuel (.properties outer node found place))
            (liftM (DtbParser.propLoop (search.within (fuel + 1)) fuel node found place) >>=
              settle search (fuel + 1) outer) :=
        (Inquiry.lift_extends (propLoop_extends grows (le_refl fuel) node found place)).bind
          (settle_mono grows outer)
      cases token with
      | nop =>
          simp only [Inquiry.liftM_bind, bind_assoc]
          exact .bind (.refl _) fun place => turned node found place
      | prop =>
          simp only [Inquiry.liftM_bind, bind_assoc]
          refine (Inquiry.lift_extends (parseProp_extends grows node place)).bind ?_
          rintro ⟨matched, node, place⟩
          exact turned node (found || matched) place
      | beginNode | endNode =>
          cases found with
          | false => exact conclude_mono grows outer node place .Continue
          | true => exact settle_mono grows outer (node, true, place)
      | fdtEnd | unknown => exact .stop
  | reporting outer node iter place =>
      unfold step report remaining DtbParser.addressLoop
      simp only [bind_assoc]
      refine .bind (.refl _) fun taken => ?_
      rcases taken with ⟨_ | address, iter⟩
      · exact conclude_mono grows outer node place .Continue
      · simp only [bind_assoc]
        refine .bind (.refl _) fun flow => ?_
        cases flow with
        | Break => cases outer <;> exact .refl _
        | Continue => exact (addressLoop_extends le_rfl iter).bind (conclude_mono grows outer node place)
  | children outer node place =>
      unfold step descend remaining conclude DtbParser.childLoop
      simp only [Inquiry.liftM_bind, bind_assoc]
      refine .bind (.refl _) fun token => ?_
      cases token with
      | nop =>
          simp only [Inquiry.liftM_bind, bind_assoc]
          exact .bind (.refl _) fun place => children_le outer node place
      | beginNode =>
          simp only [bind_assoc]
          refine ((walk_extends grows fuel).1 fuel le_rfl (some node) place).bind ?_
          rintro ⟨_ | _, place⟩
          · exact children_le outer node place
          · cases outer <;> exact .refl _
      | endNode =>
          simp only [Inquiry.liftM_bind, bind_assoc]
          refine .bind (.refl _) fun place => ?_
          cases outer with
          | nil => exact .refl _
          | cons node outer => exact conclude_mono grows outer node place .Continue
      | _ => exact .stop
  | behind place =>
      change Reaches (liftM (finish place) >>= onward search fuel)
        (liftM (DtbParser.checkEnd place))
      unfold finish
      rw [← bind_pure (liftM (DtbParser.checkEnd place))]
      simp only [Inquiry.liftM_bind, bind_assoc]
      exact .bind (.refl _) fun _ => .refl _

/-- A step goes further with a larger bound. -/
theorem step_extends (grows : fuel ≤ further) (stage : Stage) :
    Reaches (step (search.within fuel) stage) (step (search.within further) stage) := by
  cases stage with
  | properties outer node found place =>
      refine Inquiry.lift_extends (.bind (.refl _) fun token => ?_)
      cases token with
      | prop => exact (parseProp_extends grows node place).bind fun _ => .refl _
      | _ => exact .refl _
  | _ => exact .refl _

/-- A number of steps goes no further than what is left with some bound. -/
theorem steps_le_remaining (bound : Nat) (stage : Stage) :
    Reaches (steps (search.within fuel) bound stage) (remaining search (fuel + bound) stage) := by
  induction bound generalizing stage with
  | zero => exact .limit
  | succ bound ih =>
      rw [steps_succ]
      refine Dialogue.Extends.trans ?_ (step_le_remaining stage)
      refine (step_extends (Nat.le_add_right _ _) stage).bind fun next => ?_
      cases next with
      | inl next => exact ih next
      | inr value => exact .refl _

/-- So a number of steps goes no further than a search. -/
theorem steps_le_findNode (bound : Nat) :
    Reaches (steps (search.within fuel) bound .starting)
      (search.parser.findNode search.deviceName search.compatibleName (fuel + bound)) :=
  steps_le_remaining bound .starting

end Remaining

end Stage
end Rpi5.DeviceTree
