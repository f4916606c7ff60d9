import Rpi5.DeviceTree.Steps
import Rpi5.DeviceTree.Nodes
import Rpi5.DeviceTree.Assembly

/-!
# The grammar of the structure block

The converse of reading: what the walk reads to its end is a structure block
(`block_of_scan`). Together with `scan_of_block` this characterises the blobs
which a search without matches accepts (`returns_iff_grammar`). The walk itself decides
on tokens only at the places of the grammar; bytes of values are never looked at
as tokens, since the grammar steps over them by their length.
-/

namespace Rpi5.DeviceTree

open Rpi5.Logical Rpi5.Semantics

section Reading

variable {memory : Memory} {search : Search}

/-- An opened node stands there and is accepted. -/
theorem head_of_openNode {nodeInfo : Option SimpleDeviceNode} {ancestors : Lineage}
    {node : SimpleDeviceNode} {found : Bool} {pointer next : Nat}
    (opened : (DtbParser.openNode search nodeInfo pointer).eval memory.answer =
      .ok (node, found, next))
    (stands : Stands memory nodeInfo ancestors) (unnamed : search.deviceName = none)
    (enough : memory.stepBound ≤ search.fuel) :
    ∃ head : NodeToken, memory.Holds .struct pointer head.encode ∧
      head.Named memory search.parser.stringStart ∧
      head.device.Accepted search.deviceName search.compatibleName ancestors ∧
      next = pointer + head.encode.length ∧ Stands memory (some node) (head.device :: ancestors) := by
  have atNode := openNode_atNode opened
  unfold Memory.stepBound at enough
  unfold DtbParser.openNode at opened
  rw [Inquiry.eval_bind, bind_eq_ok] at opened
  obtain ⟨token, read, opened⟩ := opened
  cases token with
  | beginNode =>
      simp only [Inquiry.eval_bind, bind_eq_ok, eval_checkedAdd_eq_ok, eval_readCharStr_eq_ok,
        eval_nextMultipleOf_eq_ok] at opened
      obtain ⟨_, ⟨-, rfl⟩, name, ⟨free, text⟩, _, ⟨-, rfl⟩, _, ⟨-, rfl⟩, run⟩ := opened
      have size : name.utf8ByteSize = (utf8 name).length := rfl
      rw [size] at run
      obtain ⟨_, follows⟩ := getTypes_of_propLoop run
      obtain ⟨items, holds, named, accepted, rfl, fewer⟩ :=
        items_of_propLoop run stands unnamed (by omega)
      have begins := (eval_getTypes_eq_ok (by decide)).mp read
      have above := (inside_of_getTypes read).1
      have inside := (inside_of_getTypes follows).2
      obtain ⟨padding, length, pad⟩ : ∃ bytes : Bytes,
          bytes.length = padLength ((utf8 name).length + 1) ∧
            memory.Holds .struct (pointer + 4 + (utf8 name ++ [0]).length) bytes :=
        Memory.exists_holds (by omega) (by
          rw [List.length_append, List.length_singleton]
          omega)
      let head : NodeToken :=
        { name := name, padding := padding, items := items, nulFree := free, padded := length }
      have place : pointer + 4 + ((utf8 name).length + 1 + padLength ((utf8 name).length + 1)) =
          pointer + (DtbParser.fdtBeginNode ++ ((utf8 name ++ [0]) ++ padding)).length := by
        simp only [DtbParser.fdtBeginNode, List.length_append, List.length_cons, List.length_nil,
          length]
        omega
      have run' := @propLoop_of_items memory search ancestors items (.new nodeInfo) name [] false _ _
        holds named accepted atNode (.fresh name nodeInfo) stands (by omega) fewer
      obtain ⟨after, again, parent, level, -⟩ := run'
      rw [again] at run
      simp only [Except.ok.injEq, Prod.mk.injEq] at run
      obtain ⟨rfl, -, -⟩ := run
      refine ⟨head, ?_, named, accepted, ?_, .inner level (by rwa [parent])⟩
      · unfold NodeToken.encode
        rw [Memory.holds_append, Memory.holds_append, Memory.holds_append]
        exact ⟨⟨begins, text, pad⟩, place ▸ holds⟩
      · have whole : head.encode = (DtbParser.fdtBeginNode ++ ((utf8 name ++ [0]) ++ padding)) ++
            encodeItems items := rfl
        rw [whole, List.length_append]
        omega
  | _ => simp at opened

/-- A scanned node and a scanned list of children stand there and are accepted: both
at once, by induction on the steps. -/
theorem forest_of_scan (unnamed : search.deviceName = none)
    (enough : memory.stepBound ≤ search.fuel) (steps : Nat) :
    (∀ nodeInfo pointer next ancestors,
      (memory.scanNode search steps nodeInfo pointer).ending = .ok next →
      Stands memory nodeInfo ancestors →
      ∃ (head : NodeToken) (children : TokenForest),
        memory.Holds .struct pointer (head.encode ++ children.encode) ∧
        head.Named memory search.parser.stringStart ∧
        children.Named memory search.parser.stringStart ∧
        head.device.Accepted search.deviceName search.compatibleName ancestors ∧
        children.forest.Accepted search.deviceName search.compatibleName
          (head.device :: ancestors) ∧
        next = pointer + (head.encode ++ children.encode).length) ∧
    ∀ prop pointer next lineage,
      (memory.scanChildren search steps prop pointer).ending = .ok next →
      Stands memory (some prop) lineage →
      ∃ forest : TokenForest, memory.Holds .struct pointer forest.encode ∧
        forest.Named memory search.parser.stringStart ∧
        forest.forest.Accepted search.deviceName search.compatibleName lineage ∧
        next = pointer + forest.encode.length := by
  induction steps with
  | zero =>
      constructor
      · intro nodeInfo pointer next ancestors ended
        unfold Memory.scanNode at ended
        cases ended
      · intro prop pointer next lineage ended
        unfold Memory.scanChildren at ended
        cases ended
  | succ steps ih =>
      constructor
      · intro nodeInfo pointer next ancestors ended stands
        unfold Memory.scanNode at ended
        rw [Emission.bind_ending_ok] at ended
        obtain ⟨⟨node, found, cursor⟩, opened, ended⟩ := ended
        obtain ⟨head, holds, named, accepted, rfl, level⟩ :=
          head_of_openNode opened stands unnamed enough
        have children : (memory.scanChildren search steps node
            (pointer + head.encode.length)).ending = .ok next := by
          cases found with
          | false => exact ended
          | true =>
              simp only [↓reduceIte] at ended
              rw [Emission.bind_ending_ok] at ended
              obtain ⟨_, _, ended⟩ := ended
              exact ended
        obtain ⟨forest, below, forestNamed, forestAccepted, rfl⟩ := ih.2 _ _ _ _ children level
        refine ⟨head, forest, Memory.holds_append.mpr ⟨holds, below⟩, named, forestNamed, accepted,
          forestAccepted, ?_⟩
        rw [List.length_append, Nat.add_assoc]
      · intro prop pointer next lineage ended stands
        unfold Memory.scanChildren at ended
        rw [Emission.bind_ending_ok] at ended
        obtain ⟨token, read, ended⟩ := ended
        have read : (DtbParser.getTypes pointer).eval memory.answer = .ok token := read
        cases token with
        | nop =>
            simp only at ended
            rw [Emission.bind_ending_ok] at ended
            obtain ⟨later, stepped, ended⟩ := ended
            obtain ⟨-, rfl⟩ := eval_checkedAdd_eq_ok.mp stepped
            obtain ⟨forest, holds, named, accepted, rfl⟩ := ih.2 _ _ _ _ ended stands
            have first := (eval_getTypes_eq_ok (by decide)).mp read
            refine ⟨.nop forest, Memory.holds_append.mpr ⟨first, holds⟩, named, accepted, ?_⟩
            rw [forest.length_encode_nop, Nat.add_assoc]
        | beginNode =>
            simp only at ended
            rw [Emission.bind_ending_ok] at ended
            obtain ⟨later, scanned, ended⟩ := ended
            obtain ⟨head, children, first, headNamed, childrenNamed, headAccepted, childrenAccepted,
              rfl⟩ := ih.1 _ _ _ _ scanned stands
            obtain ⟨rest, holds, named, accepted, rfl⟩ := ih.2 _ _ _ _ ended stands
            refine ⟨.node head children rest, Memory.holds_append.mpr ⟨first, holds⟩,
              ⟨headNamed, childrenNamed, named⟩, ⟨headAccepted, childrenAccepted, accepted⟩, ?_⟩
            simp only [TokenForest.encode, List.length_append, Nat.add_assoc]
        | endNode =>
            obtain ⟨-, rfl⟩ := eval_checkedAdd_eq_ok.mp ended
            exact ⟨.nil, (eval_getTypes_eq_ok (by decide)).mp read, trivial, trivial, rfl⟩
        | _ => cases ended

/-- What `skip_nop` skipped are `FDT_NOP` tokens starting inside the block. -/
theorem nops_of_skipNop {parser : DtbParser} {steps pointer next : Nat}
    (skipped : (DtbParser.skipNop parser steps pointer).eval memory.answer = .ok next)
    (inside : pointer < parser.structEnd + 4)
    (follows : ∃ token, (DtbParser.getTypes next).eval memory.answer = .ok token) :
    ∃ count, memory.Holds .struct pointer (nops count) ∧ next = pointer + 4 * count ∧
      next < parser.structEnd + 4 ∧ parser.structEnd < 2 ^ 64 := by
  induction steps generalizing pointer with
  | zero => simp [DtbParser.skipNop] at skipped
  | succ steps ih =>
      unfold DtbParser.skipNop at skipped
      rw [Inquiry.eval_bind, bind_eq_ok] at skipped
      obtain ⟨limit, ends, skipped⟩ := skipped
      obtain ⟨addressable, rfl⟩ : parser.structEnd < 2 ^ 64 ∧ parser.structEnd = limit := by
        unfold Dtb.getStructEndAddress Dtb.getStructStartAddress at ends
        rw [Inquiry.eval_bind, bind_eq_ok] at ends
        obtain ⟨start, started, ends⟩ := ends
        obtain ⟨-, rfl⟩ := eval_checkedAdd_eq_ok.mp started
        exact eval_checkedAdd_eq_ok.mp ends
      have stop : pointer = next → ∃ count, memory.Holds .struct pointer (nops count) ∧
          next = pointer + 4 * count ∧ next < parser.structEnd + 4 ∧ parser.structEnd < 2 ^ 64 := by
        rintro rfl
        obtain ⟨_, read⟩ := follows
        have seen := inside_of_getTypes read
        refine ⟨0, ⟨seen.1, ?_, List.nil_prefix⟩, rfl, inside, addressable⟩
        rw [length_nops]
        omega
      by_cases within : pointer < parser.structEnd
      · rw [if_pos within, Inquiry.eval_bind, bind_eq_ok] at skipped
        obtain ⟨token, read, rest⟩ := skipped
        cases token with
        | nop =>
            simp only [Inquiry.eval_bind, bind_eq_ok, eval_checkedAdd_eq_ok] at rest
            obtain ⟨_, ⟨-, rfl⟩, rest⟩ := rest
            obtain ⟨count, holds, rfl, bound, fits⟩ := ih rest (by omega)
            have first := (eval_getTypes_eq_ok (by decide)).mp read
            exact ⟨count + 1, Memory.holds_append.mpr ⟨first, holds⟩, by omega, bound, fits⟩
        | _ => exact stop (Except.ok.inj rest)
      · rw [if_neg within] at skipped
        exact stop (Except.ok.inj skipped)

/-- The last check passes only at an `FDT_END`. -/
theorem fdtEnd_of_checkEnd {pointer : Nat}
    (ended : (DtbParser.checkEnd pointer).eval memory.answer = .ok ()) :
    memory.Holds .struct pointer DtbParser.fdtEnd := by
  unfold DtbParser.checkEnd at ended
  rw [Inquiry.eval_bind, bind_eq_ok] at ended
  obtain ⟨token, read, ended⟩ := ended
  cases token with
  | fdtEnd => exact (eval_getTypes_eq_ok (by decide)).mp read
  | _ => simp at ended

/-- A scan which ends at `FDT_END` has read a structure block. -/
theorem block_of_scan {stop : Nat} (unnamed : search.deviceName = none)
    (enough : memory.stepBound ≤ search.fuel)
    (scanned : (memory.scan search).ending = .ok stop)
    (ended : (DtbParser.checkEnd stop).eval memory.answer = .ok ()) :
    ∃ block : StructBlock, Serialises memory search.parser block ∧ block.trailing = 0 ∧
      block.tree.Accepted search.deviceName search.compatibleName := by
  unfold Memory.scan at scanned
  rw [Emission.bind_ending_ok] at scanned
  obtain ⟨start, started, scanned⟩ := scanned
  obtain ⟨-, rfl⟩ := eval_checkedAdd_eq_ok.mp started
  rw [Emission.bind_ending_ok] at scanned
  obtain ⟨pointer, skipped, scanned⟩ := scanned
  obtain ⟨root, children, tree, rootNamed, named, rootAccepted, childrenAccepted, rfl⟩ :=
    (forest_of_scan unnamed enough search.fuel).1 _ _ _ _ scanned .root
  have bytes := tree
  obtain ⟨count, leading, rfl, covered, addressable⟩ := nops_of_skipNop skipped
    (Nat.lt_of_le_of_lt (Nat.le_add_right _ _) (Nat.lt_add_of_pos_right (by decide)))
    ⟨_, NodeToken.begins tree⟩
  let block : StructBlock := ⟨count, root, children, 0⟩
  refine ⟨block, ⟨?_, rootNamed, named, covered, addressable⟩, rfl,
    ⟨rootAccepted, childrenAccepted, trivial⟩⟩
  have encoded : block.encode = nops count ++ (root.encode ++ children.encode) ++ DtbParser.fdtEnd :=
    rfl
  rw [encoded, Memory.holds_append, Memory.holds_append, length_nops, List.length_append,
    length_nops, ← Nat.add_assoc]
  exact ⟨⟨leading, tree⟩, fdtEnd_of_checkEnd ended⟩

end Reading

namespace Image

variable (image : Image) (name : String) (callback : Callback)

/-- A search for a `compatible` name which no node has returns `Ok` exactly on
the blobs whose structure block is one of the grammar, with accepted properties
and nothing between the root and `FDT_END`. -/
theorem returns_iff_grammar
    (unmatched : ∀ block : StructBlock, Serialises image.blob.whole image.parser block →
      block.tree.Accepted none (some name) → block.tree.matching none (some name) = []) :
    (∃ calls, image.Returns none (some name) callback (.ok ()) calls) ↔
      ∃ block : StructBlock, Serialises image.blob.whole image.parser block ∧
        block.trailing = 0 ∧ block.tree.Accepted none (some name) := by
  constructor
  · rintro ⟨calls, returns⟩
    obtain ⟨enough, run⟩ := returns.eventually
    have run := run (max enough image.blob.whole.stepBound) (Nat.le_max_left _ _)
    rw [run_eq] at run
    split at run
    case isTrue => cases (Prod.mk.inj run).1
    case isFalse =>
      have ending := (Prod.mk.inj run).1
      rw [emission, emission_eq (.inr ⟨rfl, rfl⟩), Emission.bind_ending_ok] at ending
      obtain ⟨stop, expanded, ended⟩ := ending
      exact @block_of_scan image.blob.whole (image.search none (some name) _) stop rfl
        (Nat.le_max_right _ _) (Emission.ending_of_expand expanded) ended
  · rintro ⟨block, serial, untrailed, accepted⟩
    obtain ⟨nodes, agree, -, emits⟩ := emission_of_block serial accepted (Nat.le_refl _)
      (.inr ⟨rfl, rfl⟩)
    rw [unmatched block serial accepted] at agree
    obtain rfl := List.forall₂_nil_right_iff.mp agree
    refine ⟨[], by decide, image.blob.whole.stepBound, ?_⟩
    rw [run_eq, emits, if_pos untrailed]
    rfl

end Image

end Rpi5.DeviceTree
