import Mathlib.Computability.StateTransition
import Mathlib.Tactic.Common

/-!
# A fragment of A64

Machines which run a few A64 instructions: literal loads, a comparison, branches
and the post-indexed store of a zero double word. A store faults at an address
which is not a multiple of eight, as it does in the device memory a processor sees
before its translation tables are set up; a machine which faults, or comes to an
address without code, takes no step.

`Leads` is total correctness over any transition function: from every state of the
one kind, some state of the other kind is reached.
-/

namespace Rpi5.Semantics

section Leads

open StateTransition

variable {σ : Type} {f : σ → Option σ} {p q r : σ → Prop}

/-- From every state as in `p` a state as in `q` is reached. -/
def Leads (f : σ → Option σ) (p q : σ → Prop) : Prop :=
  ∀ state, p state → ∃ final, Reaches f state final ∧ q final

/-- No step at all leads from a condition to itself. -/
theorem leads_refl (f : σ → Option σ) (p : σ → Prop) : Leads f p p :=
  fun state holds => ⟨state, .refl, holds⟩

/-- The first step is taken by itself. -/
theorem reaches_head {state next : σ} (taken : next ∈ f state)
    (rest : ∃ final, Reaches f next final ∧ q final) : ∃ final, Reaches f state final ∧ q final := by
  obtain ⟨final, reached, holds⟩ := rest
  exact ⟨final, .head taken reached, holds⟩

/-- Leading somewhere composes. -/
theorem Leads.trans (first : Leads f p q) (second : Leads f q r) : Leads f p r := by
  intro state holds
  obtain ⟨middle, one, between⟩ := first state holds
  obtain ⟨final, other, after⟩ := second middle between
  exact ⟨final, one.trans other, after⟩

/-- The loop rule: so many rounds, each from one stage to the next. -/
theorem leads_rounds {stage : Nat → σ → Prop} {rounds : Nat}
    (round : ∀ count < rounds, Leads f (stage count) (stage (count + 1))) :
    Leads f (stage 0) (stage rounds) := by
  induction rounds with
  | zero => exact leads_refl f (stage 0)
  | succ rounds ih =>
      have before := ih fun count below => round count (Nat.lt_succ_of_lt below)
      exact before.trans (round rounds (Nat.lt_succ_self rounds))

/-- The invariant rule: what every step keeps holds of every state reached. -/
theorem invariant_of_reaches {state final : σ} (reached : Reaches f state final)
    (keeps : ∀ before after, after ∈ f before → p before → p after) (holds : p state) :
    p final := by
  induction reached with
  | refl => exact holds
  | tail _ taken ih => exact keeps _ _ taken ih

end Leads

namespace A64

/-- The general-purpose registers `x0` to `x30`. -/
abbrev Register := Fin 31

abbrev x0 : Register := 0

abbrev x1 : Register := 1

/-- The instructions, with the values of their literals and the addresses of their labels. -/
inductive Instruction where
  | ldr (target : Register) (literal : BitVec 64)
  | movSp (source : Register)
  | cmp (left right : Register)
  | beq (label : BitVec 64)
  | strXzr (base : Register) (advance : BitVec 64)
  | b (label : BitVec 64)
  | bl (label : BitVec 64)
  | wfe
deriving DecidableEq, Repr

/-- What the instructions read and change; of the condition flags only `Z` is used. -/
structure Machine where
  registers : Register → BitVec 64
  sp : BitVec 64
  zero : Bool
  pc : BitVec 64
  memory : BitVec 64 → UInt8

/-- The memory after so many bytes from an address on are cleared. -/
def cleared (memory : BitVec 64 → UInt8) (start : BitVec 64) (count : Nat) :
    BitVec 64 → UInt8 :=
  fun address => if (address - start).toNat < count then 0 else memory address

/-- Clearing no bytes changes nothing. -/
@[simp] theorem cleared_zero (memory : BitVec 64 → UInt8) (start : BitVec 64) :
    cleared memory start 0 = memory := by
  funext address
  simp [cleared]

/-- Clearing goes on where it stopped. -/
theorem cleared_cleared (memory : BitVec 64 → UInt8) (start : BitVec 64)
    (count more : Nat) :
    cleared (cleared memory start count) (start + BitVec.ofNat 64 count) more =
      cleared memory start (count + more) := by
  funext address
  simp only [cleared, ← BitVec.sub_sub]
  generalize address - start = distance
  have small := distance.isLt
  by_cases before : distance.toNat < count
  · simp [before, Nat.lt_add_right more before]
  · have offset : (distance - BitVec.ofNat 64 count).toNat = distance.toNat - count := by
      rw [BitVec.toNat_sub_of_le (by rw [BitVec.le_def, BitVec.toNat_ofNat]; omega),
        BitVec.toNat_ofNat, Nat.mod_eq_of_lt (by omega)]
    rw [offset, if_neg before]
    exact if_congr (by omega) rfl rfl

/-- What is between two addresses is cleared, and nothing else. -/
theorem cleared_between (memory : BitVec 64 → UInt8) {start stop : BitVec 64} (le : start ≤ stop)
    (address : BitVec 64) :
    cleared memory start (stop.toNat - start.toNat) address =
      if start.toNat ≤ address.toNat ∧ address.toNat < stop.toNat then 0 else memory address := by
  have between : (address - start).toNat < stop.toNat - start.toNat ↔
      start.toNat ≤ address.toNat ∧ address.toNat < stop.toNat := by
    bv_omega
  exact if_congr between rfl rfl

namespace Machine

def set (machine : Machine) (target : Register) (value : BitVec 64) : Machine :=
  { machine with registers := Function.update machine.registers target value }

def goto (machine : Machine) (label : BitVec 64) : Machine := { machine with pc := label }

def next (machine : Machine) : Machine := machine.goto (machine.pc + 4#64)

section Fields

variable (machine : Machine) (target : Register) (value label : BitVec 64)

/-- Setting a register changes that register. -/
@[simp] theorem set_registers :
    (machine.set target value).registers = Function.update machine.registers target value := rfl

/-- It leaves the stack pointer as it was. -/
@[simp] theorem set_sp : (machine.set target value).sp = machine.sp := rfl

/-- And the flag. -/
@[simp] theorem set_zero : (machine.set target value).zero = machine.zero := rfl

/-- And the program counter. -/
@[simp] theorem set_pc : (machine.set target value).pc = machine.pc := rfl

/-- And the memory. -/
@[simp] theorem set_memory : (machine.set target value).memory = machine.memory := rfl

/-- A jump leaves the registers as they were. -/
@[simp] theorem goto_registers : (machine.goto label).registers = machine.registers := rfl

/-- And the stack pointer. -/
@[simp] theorem goto_sp : (machine.goto label).sp = machine.sp := rfl

/-- And the flag. -/
@[simp] theorem goto_zero : (machine.goto label).zero = machine.zero := rfl

/-- It goes on at its label. -/
@[simp] theorem goto_pc : (machine.goto label).pc = label := rfl

/-- It does not write to memory. -/
@[simp] theorem goto_memory : (machine.goto label).memory = machine.memory := rfl

/-- Going on to the next instruction leaves the registers as they were. -/
@[simp] theorem next_registers : machine.next.registers = machine.registers := rfl

/-- And the stack pointer. -/
@[simp] theorem next_sp : machine.next.sp = machine.sp := rfl

/-- And the flag. -/
@[simp] theorem next_zero : machine.next.zero = machine.zero := rfl

/-- The next instruction is four bytes further. -/
@[simp] theorem next_pc : machine.next.pc = machine.pc + 4#64 := rfl

/-- Going on does not write to memory. -/
@[simp] theorem next_memory : machine.next.memory = machine.memory := rfl

end Fields

/-- One instruction, unless it faults. -/
def execute (machine : Machine) : Instruction → Option Machine
  | .ldr target literal => some (machine.set target literal).next
  | .movSp source => some { machine with sp := machine.registers source }.next
  | .cmp left right =>
      some { machine with zero := machine.registers left == machine.registers right }.next
  | .beq label => some (if machine.zero then machine.goto label else machine.next)
  | .strXzr base advance =>
      let address := machine.registers base
      if 8 ∣ address.toNat then
        some ({ machine with memory := cleared machine.memory address 8 }.set base
          (address + advance)).next
      else
        none
  | .b label => some (machine.goto label)
  | .bl label => some ((machine.set 30 (machine.pc + 4#64)).goto label)
  | .wfe => some machine.next

section Execute

variable {machine : Machine} {base : Register} {advance target : BitVec 64}

/-- With the flag set `b.eq` jumps. -/
theorem execute_beq_taken (equal : machine.zero = true) :
    machine.execute (.beq target) = some (machine.goto target) := by
  rw [execute, equal, if_pos rfl]

/-- With the flag clear it goes on. -/
theorem execute_beq_passed (unequal : machine.zero = false) :
    machine.execute (.beq target) = some machine.next := by
  rw [execute, unequal, if_neg Bool.false_ne_true]

/-- An aligned store of `xzr` clears eight bytes and moves its base register. -/
theorem execute_strXzr (aligned : 8 ∣ (machine.registers base).toNat) :
    machine.execute (.strXzr base advance) =
      some ({ machine with memory := cleared machine.memory (machine.registers base) 8 }.set base
        (machine.registers base + advance)).next :=
  if_pos aligned

/-- At an address which is not aligned it faults. -/
theorem execute_strXzr_fault (unaligned : ¬ 8 ∣ (machine.registers base).toNat) :
    machine.execute (.strXzr base advance) = none :=
  if_neg unaligned

end Execute
end Machine

/-- One step of a machine: the instruction its program counter is at. -/
def step (code : BitVec 64 → Option Instruction) (machine : Machine) : Option Machine :=
  (code machine.pc).bind machine.execute

/-- The address of an instruction, at four bytes each. -/
def label (start : BitVec 64) (index : Nat) : BitVec 64 := start + BitVec.ofNat 64 (4 * index)

/-- Labels of consecutive instructions are four bytes apart. -/
@[simp] theorem label_next (start : BitVec 64) (index : Nat) :
    label start index + 4#64 = label start (index + 1) := by
  rw [label, label, Nat.mul_succ, BitVec.ofNat_add, BitVec.add_assoc]

/-- The first label is the start of the program. -/
theorem label_zero (start : BitVec 64) : label start 0 = start := BitVec.add_zero start

/-- The distance of a label to the start says which instruction it is at. -/
theorem label_sub (start : BitVec 64) {index : Nat} (small : 4 * index < 2 ^ 64) :
    (label start index - start).toNat = 4 * index := by
  rw [label, BitVec.add_comm, BitVec.add_sub_cancel, BitVec.toNat_ofNat, Nat.mod_eq_of_lt small]

/-- A program, from an address on. -/
def placed (start : BitVec 64) (program : List Instruction) (pc : BitVec 64) : Option Instruction :=
  if (pc - start).toNat % 4 = 0 then program[(pc - start).toNat / 4]? else none

section Placed

variable {start : BitVec 64} {program : List Instruction} {index : Nat}
  {instruction : Instruction} {machine after : Machine}

/-- At a label of the program stands the instruction with this index. -/
theorem placed_label (small : 4 * index < 2 ^ 64) :
    placed start program (label start index) = program[index]? := by
  rw [placed, label_sub start small, if_pos (Nat.mul_mod_right 4 index),
    Nat.mul_div_cancel_left index (by decide)]

/-- The step at a label is the instruction there. -/
theorem step_label (short : 4 * program.length ≤ 2 ^ 64) (at' : machine.pc = label start index)
    (fetch : program[index]? = some instruction) :
    step (placed start program) machine = machine.execute instruction := by
  obtain ⟨below, -⟩ := List.getElem?_eq_some_iff.mp fetch
  rw [step, at', placed_label (by omega), fetch, Option.bind_some]

end Placed
end A64
end Rpi5.Semantics
