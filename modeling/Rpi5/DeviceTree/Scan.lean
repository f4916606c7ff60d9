import Rpi5.DeviceTree.Parser
import Rpi5.Semantics.Emission

/-!
# The walk without its callback

The walk looks at its callback only to stop at a `Break`. `scanNode` is the walk
over the structure alone: it reports the matching nodes in document order.
`addresses` is the loop over one node's `reg`. Putting the second in the place of
every node of the first gives `emission`, all the calls a callback receives
which always continues, and how such a search ends.

`findNode_exec` derives the run with an arbitrary callback from it: the callback
hears the emission up to its first `Break`, and a `Break` ends the search with
the error of an incomplete parse.
-/

namespace Rpi5.DeviceTree

open Rpi5.Logical Rpi5.Semantics

/-- A blob which passed `DtbParser::init`, with its parser. -/
structure Image where
  blob : Blob
  parser : DtbParser
  loaded : (DtbParser.init blob.base).eval blob.whole.answer = .ok parser

/-- A run of `find_node` on a loaded blob: its result and the calls it made. -/
def Image.run (image : Image) (deviceName compatibleName : Option String) (callback : Callback)
    (fuel : Nat) : Except Failure Unit × List Window :=
  (image.parser.findNode deviceName compatibleName fuel).exec image.blob.whole.answer callback []

/-- The message of a search which does not end at `FDT_END`. -/
def parseIncomplete : Failure := .stopped (.err "failed to parse all of the dtb node")

/-- The callback which never breaks. -/
def Callback.always : Callback := fun _ _ => .Continue

/-- Where a callback breaks. -/
def Callback.stops (callback : Callback) (before : List Window) (window : Window) : Bool :=
  callback before window == .Break

namespace Memory

variable (memory : Memory)

/-- What comes out of reading code, without output. -/
def observe {ω α : Type} (reading : Reading α) : Emission ω Failure α :=
  .ofExcept (reading.eval memory.answer)

/-- The addresses an iterator yields, in at most the given number of steps. -/
def addresses : Nat → DeviceAddressIter → Emission Window Failure Unit
  | 0, _ => .ofExcept (.error (.stopped .outOfFuel))
  | steps + 1, iter => do
      match ← memory.observe iter.nextInternal with
      | (none, _) => return ()
      | (some window, iter) =>
          .emit window
          addresses steps iter

/-- What is reported for one matching node. -/
def report (fuel : Nat) (node : SimpleDeviceNode) : Emission Window Failure Unit :=
  memory.addresses fuel (.new node)

mutual

/-- The matching nodes of a node and all below it, and the cursor after it. -/
def scanNode (search : Search) :
    Nat → Option SimpleDeviceNode → Nat → Emission SimpleDeviceNode Failure Nat
  | 0, _, _ => .ofExcept (.error (.stopped .outOfFuel))
  | steps + 1, nodeInfo, pointer => do
      let (prop, found, pointer) ← memory.observe (DtbParser.openNode search nodeInfo pointer)
      if found then
        .emit prop
        scanChildren search steps prop pointer
      else
        scanChildren search steps prop pointer

/-- The matching nodes below a node from some child on. -/
def scanChildren (search : Search) :
    Nat → SimpleDeviceNode → Nat → Emission SimpleDeviceNode Failure Nat
  | 0, _, _ => .ofExcept (.error (.stopped .outOfFuel))
  | steps + 1, prop, pointer => do
      match ← memory.observe (DtbParser.getTypes pointer) with
      | .nop => scanChildren search steps prop (← memory.observe (checkedAdd 64 pointer 4))
      | .beginNode =>
          let pointer ← scanNode search steps (some prop) pointer
          scanChildren search steps prop pointer
      | .endNode => memory.observe (checkedAdd 64 pointer 4)
      | _ => memory.observe (err "find an unknown or unexpected token while parsing the DTB")

end

/-- The scan of the whole structure block. -/
def scan (search : Search) : Emission SimpleDeviceNode Failure Nat := do
  let start ← memory.observe search.parser.dtbHeader.getStructStartAddress
  let pointer ← memory.observe (DtbParser.skipNop search.parser search.fuel start)
  memory.scanNode search search.fuel none pointer

/-- All calls of a search whose callback always continues, and its ending. -/
def emission (search : Search) : Emission Window Failure Unit :=
  if search.deviceName.isSome ∧ search.compatibleName.isSome ∨
      search.deviceName.isNone ∧ search.compatibleName.isNone then
    memory.observe (err "device name and compatible name cannot be searched for at the same time")
  else do
    let pointer ← (memory.scan search).expand (memory.report search.fuel)
    memory.observe (DtbParser.checkEnd pointer)

end Memory

section Following

variable {memory : Memory}

/-- The cursor is at a token where a property loop ends. -/
def AtNode (memory : Memory) (pointer : Nat) : Prop :=
  (DtbParser.getTypes pointer).eval memory.answer = .ok .beginNode ∨
    (DtbParser.getTypes pointer).eval memory.answer = .ok .endNode

/-- A walk follows an emission: it makes its calls up to the first `Break`, and
without a `Break` it continues with its ending. -/
def Follows (memory : Memory) (walk : Walking (ControlFlow × Nat))
    (emission : Emission Window Failure Nat) : Prop :=
  ∀ (callback : Callback) (calls : List Window),
    if interrupted callback.stops calls emission.output then
      ∃ pointer, AtNode memory pointer ∧ walk.exec memory.answer callback calls =
        (.ok (.Break, pointer), calls ++ heard callback.stops calls emission.output)
    else
      walk.exec memory.answer callback calls =
        (emission.ending.map fun pointer => (.Continue, pointer), calls ++ emission.output)

/-- A walk which only reads follows what it reads. -/
theorem follows_reading {walk : Walking (ControlFlow × Nat)} {ending : Except Failure Nat}
    (run : ∀ callback calls, walk.exec memory.answer callback calls =
      (ending.map fun pointer => (.Continue, pointer), calls)) :
    Follows memory walk (.ofExcept ending) := by
  intro callback calls
  simp [run]

/-- Reading first does not change what is followed afterwards. -/
theorem Follows.after_reading {α : Type} {reading : Reading α}
    {walk : α → Walking (ControlFlow × Nat)} {emission : α → Emission Window Failure Nat}
    (follows : ∀ value, reading.eval memory.answer = .ok value →
      Follows memory (walk value) (emission value)) :
    Follows memory (liftM reading >>= walk) (memory.observe reading >>= emission) := by
  cases read : reading.eval memory.answer with
  | ok value =>
      intro callback calls
      have continued := follows value read callback calls
      simpa only [Memory.observe, read, Emission.ofExcept_ok_bind, Dialogue.exec_bind,
        Inquiry.exec_liftM] using continued
  | error reason =>
      simp only [Memory.observe, read, Emission.ofExcept_error_bind]
      apply follows_reading
      intro callback calls
      simp only [Dialogue.exec_bind, Inquiry.exec_liftM, read]
      rfl

/-- Two walks in sequence, the second only if the first was not broken. -/
theorem Follows.bind {first : Walking (ControlFlow × Nat)}
    {next : Nat → Walking (ControlFlow × Nat)} {emission : Emission Window Failure Nat}
    {later : Nat → Emission Window Failure Nat} (one : Follows memory first emission)
    (other : ∀ pointer, Follows memory (next pointer) (later pointer)) :
    Follows memory (first >>= fun result =>
        match result with
        | (.Break, pointer) => return (.Break, pointer)
        | (.Continue, pointer) => next pointer) (emission >>= later) := by
  intro callback calls
  have start := one callback calls
  split at start
  case isTrue broken =>
    obtain ⟨pointer, atNode, run⟩ := start
    have whole : interrupted callback.stops calls (emission >>= later).output = true ∧
        heard callback.stops calls (emission >>= later).output =
          heard callback.stops calls emission.output := by
      cases ended : emission.ending with
      | ok value =>
          simp [Emission.bind_of_ok ended, interrupted_append, heard_append, broken]
      | error reason => simp [Emission.bind_of_error ended, broken]
    rw [if_pos whole.1, whole.2]
    refine ⟨pointer, atNode, ?_⟩
    simp [Dialogue.exec_bind, run]
  case isFalse quiet =>
    cases ended : emission.ending with
    | error reason =>
        rw [Emission.bind_of_error ended, if_neg quiet]
        simp [Dialogue.exec_bind, start, ended, Except.map]
    | ok value =>
        have continued := other value callback (calls ++ emission.output)
        rw [Emission.bind_of_ok ended]
        simp only [Dialogue.exec_bind, start, ended, Except.map, interrupted_append, heard_append,
          quiet, Bool.false_or, Bool.false_eq_true, ↓reduceIte] at continued ⊢
        split at continued
        case isTrue broken =>
          obtain ⟨pointer, atNode, run⟩ := continued
          rw [if_pos broken]
          exact ⟨pointer, atNode, by rw [run, List.append_assoc]⟩
        case isFalse still => rw [if_neg still, continued, List.append_assoc]

/-- The address loop calls back for the addresses of the iterator, up to a `Break`. -/
theorem addressLoop_exec (callback : Callback) (steps : Nat) (iter : DeviceAddressIter)
    (calls : List Window) :
    (DtbParser.addressLoop steps iter).exec memory.answer callback calls =
      if interrupted callback.stops calls (memory.addresses steps iter).output then
        (.ok .Break, calls ++ heard callback.stops calls (memory.addresses steps iter).output)
      else
        ((memory.addresses steps iter).ending.map fun _ => .Continue,
          calls ++ (memory.addresses steps iter).output) := by
  induction steps generalizing iter calls with
  | zero => simp [DtbParser.addressLoop, Memory.addresses, Except.map]
  | succ steps ih =>
      unfold DtbParser.addressLoop Memory.addresses
      simp only [Dialogue.exec_bind, Inquiry.exec_liftM, Memory.observe]
      rcases ok_or_error (iter.nextInternal.eval memory.answer) with ⟨step, read⟩ | ⟨reason, read⟩
      · rcases step with ⟨_ | window, later⟩
        · simp [read, Except.map]
        · simp only [read, Emission.ofExcept_ok_bind, Dialogue.exec_bind, Dialogue.exec_call,
              Dialogue.exec_done]
          have ended : (Emission.emit window : Emission Window Failure Unit).ending = .ok () := rfl
          rw [Emission.bind_of_ok ended]
          simp only [Emission.output_emit, List.singleton_append, interrupted, heard]
          cases answer : callback calls window with
          | Break =>
              have stopped : callback.stops calls window = true := by
                simp [Callback.stops, answer]
              simp [stopped]
          | Continue =>
              have quiet : callback.stops calls window = false := by
                simp [Callback.stops, answer]
              simp only [ih, quiet, Bool.false_or, Bool.false_eq_true, ↓reduceIte,
                List.append_assoc, List.singleton_append]
      · simp [read, Except.map]

/-- The report of a matching node, in front of what follows it. -/
theorem Follows.after_addresses {steps : Nat} {iter : DeviceAddressIter} {pointer : Nat}
    {walk : Walking (ControlFlow × Nat)} {emission : Emission Window Failure Nat}
    (atNode : AtNode memory pointer) (follows : Follows memory walk emission) :
    Follows memory (DtbParser.addressLoop steps iter >>= fun flow =>
        match flow with
        | .Break => return (.Break, pointer)
        | .Continue => walk) (memory.addresses steps iter >>= fun _ => emission) := by
  -- The loop followed by its cursor is a walk like the one of a child node.
  have loop : Follows memory (DtbParser.addressLoop steps iter >>= fun flow => return (flow, pointer))
      (memory.addresses steps iter >>= fun _ => pure pointer) := by
    intro callback calls
    have run := @addressLoop_exec memory callback steps iter calls
    cases ended : (memory.addresses steps iter).ending with
    | error reason =>
        rw [Emission.bind_of_error ended]
        simp only [Dialogue.exec_bind, run]
        split
        · exact ⟨pointer, atNode, rfl⟩
        · simp [ended, Except.map]
    | ok _ =>
        rw [Emission.bind_of_ok ended]
        simp only [Dialogue.exec_bind, run, Emission.output_pure, List.append_nil]
        split
        · exact ⟨pointer, atNode, rfl⟩
        · simp [ended, Except.map]
  have whole := @Follows.bind memory _ (fun _ => walk) _ (fun _ => emission) loop fun _ => follows
  simp only [bind_assoc, pure_bind] at whole
  intro callback calls
  have run := whole callback calls
  have same : (DtbParser.addressLoop steps iter >>= fun flow =>
        match flow with
        | .Break => return (.Break, pointer)
        | .Continue => walk) =
      (DtbParser.addressLoop steps iter >>= fun flow =>
        match (flow, pointer) with
        | (.Break, pointer) => return (.Break, pointer)
        | (.Continue, _) => walk) := by
    congr 1
    funext flow
    cases flow <;> rfl
  rw [same]
  exact run

/-- A property loop ends at the token of a node. -/
theorem propLoop_atNode {search : Search} {steps : Nat} {node : SimpleDeviceNode} {found : Bool}
    {pointer : Nat} {result : SimpleDeviceNode × Bool × Nat}
    (done : (DtbParser.propLoop search steps node found pointer).eval memory.answer = .ok result) :
    AtNode memory result.2.2 := by
  induction steps generalizing node found pointer with
  | zero => simp [DtbParser.propLoop] at done
  | succ steps ih =>
      unfold DtbParser.propLoop at done
      rw [Inquiry.eval_bind, bind_eq_ok] at done
      obtain ⟨token, read, rest⟩ := done
      cases token with
      | beginNode =>
          simp only [Inquiry.eval_pure, Except.ok.injEq] at rest
          rw [← rest]
          exact .inl read
      | endNode =>
          simp only [Inquiry.eval_pure, Except.ok.injEq] at rest
          rw [← rest]
          exact .inr read
      | nop =>
          simp only [Inquiry.eval_bind, bind_eq_ok] at rest
          obtain ⟨_, _, rest⟩ := rest
          exact ih rest
      | prop =>
          simp only [Inquiry.eval_bind, bind_eq_ok] at rest
          obtain ⟨_, _, rest⟩ := rest
          exact ih rest
      | fdtEnd => simp at rest
      | unknown => simp at rest

/-- So an opened node leaves the cursor at the token of a node. -/
theorem openNode_atNode {search : Search} {nodeInfo : Option SimpleDeviceNode} {pointer : Nat}
    {result : SimpleDeviceNode × Bool × Nat}
    (done : (DtbParser.openNode search nodeInfo pointer).eval memory.answer = .ok result) :
    AtNode memory result.2.2 := by
  unfold DtbParser.openNode at done
  rw [Inquiry.eval_bind, bind_eq_ok] at done
  obtain ⟨token, _, rest⟩ := done
  cases token with
  | beginNode =>
      simp only [Inquiry.eval_bind, bind_eq_ok] at rest
      obtain ⟨_, _, _, _, _, _, _, _, rest⟩ := rest
      exact propLoop_atNode rest
  | _ => simp at rest

/-- The recursion follows the scan with every node replaced by its report: both
mutual functions at once, by induction on the steps. -/
theorem walk_follows (search : Search) (steps : Nat) :
    (∀ nodeInfo pointer, Follows memory (DtbParser.findNodeRecursive search steps nodeInfo pointer)
      ((memory.scanNode search steps nodeInfo pointer).expand (memory.report search.fuel))) ∧
    ∀ prop pointer, Follows memory (DtbParser.childLoop search steps prop pointer)
      ((memory.scanChildren search steps prop pointer).expand (memory.report search.fuel)) := by
  induction steps with
  | zero =>
      constructor <;> intro _ pointer
      · unfold DtbParser.findNodeRecursive Memory.scanNode
        exact follows_reading fun _ _ => rfl
      · unfold DtbParser.childLoop Memory.scanChildren
        exact follows_reading fun _ _ => rfl
  | succ steps ih =>
      constructor
      · intro nodeInfo pointer
        unfold DtbParser.findNodeRecursive Memory.scanNode
        rw [Emission.expand_bind]
        apply Follows.after_reading
        rintro ⟨prop, found, pointer⟩ opened
        cases found with
        | false => exact ih.2 prop pointer
        | true =>
            simp only [↓reduceIte, Emission.expand_bind, Emission.expand_emit]
            exact Follows.after_addresses (openNode_atNode opened) (ih.2 prop pointer)
      · intro prop pointer
        unfold DtbParser.childLoop Memory.scanChildren
        rw [Emission.expand_bind]
        apply Follows.after_reading
        intro token _
        cases token with
        | nop =>
            simp only [Emission.expand_bind]
            exact Follows.after_reading fun later _ => ih.2 prop later
        | beginNode =>
            simp only [Emission.expand_bind]
            exact (ih.1 (some prop) pointer).bind fun later => ih.2 prop later
        | endNode =>
            apply follows_reading
            intro callback calls
            simp only [Dialogue.exec_bind, Inquiry.exec_liftM]
            cases stepped : (checkedAdd 64 pointer 4).eval memory.answer <;>
              simp [Memory.observe, stepped, Except.map]
        | _ => exact follows_reading fun _ _ => rfl

/-- The walk over the structure block follows the scan with its reports. -/
theorem walkStruct_follows (search : Search) :
    Follows memory (DtbParser.walkStruct search)
      ((memory.scan search).expand (memory.report search.fuel)) := by
  unfold Memory.scan
  rw [Emission.expand_bind]
  apply Follows.after_reading
  intro start _
  rw [Emission.expand_bind]
  exact Follows.after_reading fun pointer _ => (walk_follows search search.fuel).1 none pointer

/-- A `Break` leaves the cursor at a token other than `FDT_END`. -/
theorem AtNode.checkEnd {pointer : Nat} (atNode : AtNode memory pointer) :
    (DtbParser.checkEnd pointer).eval memory.answer = .error parseIncomplete := by
  unfold DtbParser.checkEnd
  rw [Inquiry.eval_bind]
  rcases atNode with read | read <;> simp [read, parseIncomplete]

/-- A search hears its emission up to the first `Break`, which fails it. -/
theorem findNode_exec (search : Search) (callback : Callback) :
    (search.parser.findNode search.deviceName search.compatibleName search.fuel).exec memory.answer
        callback [] =
      if interrupted callback.stops [] (memory.emission search).output then
        (.error parseIncomplete, heard callback.stops [] (memory.emission search).output)
      else ((memory.emission search).ending, (memory.emission search).output) := by
  unfold DtbParser.findNode Memory.emission
  by_cases clash : search.deviceName.isSome ∧ search.compatibleName.isSome ∨
      search.deviceName.isNone ∧ search.compatibleName.isNone
  · simp only [clash, ↓reduceIte, Inquiry.exec_lift]
    rfl
  · simp only [clash, ↓reduceIte, Dialogue.exec_bind]
    have run := @walkStruct_follows memory search callback []
    generalize (memory.scan search).expand (memory.report search.fuel) = emission at run ⊢
    split at run
    case isTrue broken =>
      obtain ⟨pointer, atNode, run⟩ := run
      rw [run]
      cases ended : emission.ending with
      | ok value =>
          simp [Emission.bind_of_ok ended, broken, atNode.checkEnd, Memory.observe]
      | error reason => simp [Emission.bind_of_error ended, broken, atNode.checkEnd]
    case isFalse quiet =>
      rw [run]
      cases ended : emission.ending with
      | ok value => simp [Emission.bind_of_ok ended, quiet, Except.map, Memory.observe]
      | error reason => simp [Emission.bind_of_error ended, quiet, Except.map]

end Following

namespace Callback

/-- A callback which always goes on interrupts nothing. -/
@[simp] theorem interrupted_always (before events : List Window) :
    interrupted always.stops before events = false := by
  induction events generalizing before with
  | nil => rfl
  | cons event rest ih => simp [interrupted, ih, stops, always]

/-- To stop is to break. -/
@[simp] theorem stops_eq_true {callback : Callback} {before : List Window} {window : Window} :
    callback.stops before window = true ↔ callback before window = .Break := by
  simp [stops]

end Callback

namespace Image

variable (image : Image) (deviceName compatibleName : Option String)

/-- The search a run makes. -/
def search (fuel : Nat) : Search := ⟨image.parser, deviceName, compatibleName, fuel⟩

/-- What a callback is given which always continues, and how its search ends. -/
def emission (fuel : Nat) : Emission Window Failure Unit :=
  image.blob.whole.emission (image.search deviceName compatibleName fuel)

/-- Every run is its emission, heard by the callback. -/
theorem run_eq (callback : Callback) (fuel : Nat) :
    image.run deviceName compatibleName callback fuel =
      if interrupted callback.stops [] (image.emission deviceName compatibleName fuel).output then
        (.error parseIncomplete,
          heard callback.stops [] (image.emission deviceName compatibleName fuel).output)
      else ((image.emission deviceName compatibleName fuel).ending,
        (image.emission deviceName compatibleName fuel).output) :=
  findNode_exec (image.search deviceName compatibleName fuel) callback

/-- A search which is never broken shows its emission. -/
@[simp] theorem run_always :
    image.run deviceName compatibleName .always fuel =
      ((image.emission deviceName compatibleName fuel).ending,
        (image.emission deviceName compatibleName fuel).output) := by
  simp [run_eq]

end Image
end Rpi5.DeviceTree
