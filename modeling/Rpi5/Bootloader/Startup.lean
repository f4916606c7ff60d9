import Rpi5.Logical.Placement
import Rpi5.Semantics.A64

/-!
# From `_start` to `main`

The linker script places the sections of the kernel and defines the three symbols
the start-up code reads. That code sets the stack pointer, clears the double words
from `_BSS_START` on, and calls `main`; its loop ends when the pointer is equal to
`_BSS_END`, so that an unaligned symbol would keep it from ever coming there.
-/

namespace Rpi5.Bootloader

open Rpi5.Logical Rpi5.Semantics Rpi5.Semantics.A64 StateTransition

/-- The input sections which the linker script collects; one of `.text.boot` only. -/
structure Objects where
  boot : Input
  text : List Input
  rodata : List Input
  data : List Input
  bss : List Input
deriving DecidableEq, Repr

/-- The output sections and `_STACK_TOP`. -/
structure Kernel where
  boot : Output
  text : Output
  rodata : Output
  data : Output
  bss : Output
  stackTop : Nat
deriving DecidableEq, Repr

/-- `aarch64.lds`. The location counter is set to `_STACK_TOP` behind `.bss` wherever that ends,
so that a kernel is also linked if its `.bss` goes on beyond the symbol. -/
def Objects.kernel (objects : Objects) : Kernel :=
  let boot := output 2 0 0x200000 [objects.boot]
  let text := output 3 3 boot.stop objects.text
  let rodata := output 3 3 text.stop objects.rodata
  let data := output 3 3 rodata.stop objects.data
  let bss := output 3 3 data.stop objects.bss
  { boot, text, rodata, data, bss, stackTop := 0x4000000 }

/-- The sections which are loaded with contents. -/
def Kernel.loaded (kernel : Kernel) : List Output := [kernel.boot, kernel.text, kernel.rodata, kernel.data]

section Link

variable {objects : Objects}

/-- The output sections are in their order. -/
theorem kernel_ordered (objects : Objects) :
    ∀ output ∈ objects.kernel.loaded, output.stop ≤ objects.kernel.bss.start := by
  have boot : objects.kernel.boot.stop ≤ objects.kernel.text.start := le_output_start
  have text : objects.kernel.text.start ≤ objects.kernel.text.stop := output_start_le_stop
  have textRodata : objects.kernel.text.stop ≤ objects.kernel.rodata.start := le_output_start
  have rodata : objects.kernel.rodata.start ≤ objects.kernel.rodata.stop := output_start_le_stop
  have rodataData : objects.kernel.rodata.stop ≤ objects.kernel.data.start := le_output_start
  have data : objects.kernel.data.start ≤ objects.kernel.data.stop := output_start_le_stop
  have dataBss : objects.kernel.data.stop ≤ objects.kernel.bss.start := le_output_start
  intro output member
  simp only [Kernel.loaded, List.mem_cons, List.not_mem_nil, or_false] at member
  rcases member with rfl | rfl | rfl | rfl <;> omega

/-- The input sections are inside their output sections. -/
theorem kernel_within (objects : Objects) :
    ∀ output ∈ objects.kernel.loaded, ∀ placed ∈ output.inputs,
      placed.1 + placed.2.size ≤ output.stop := by
  intro output member placed within
  simp only [Kernel.loaded, List.mem_cons, List.not_mem_nil, or_false] at member
  rcases member with rfl | rfl | rfl | rfl <;> exact (output_within within).2

/-- `_start` is at the kernel address of `config.txt`. -/
theorem kernel_start (power : objects.boot.power ≤ 21) :
    objects.kernel.boot.start = 0x200000 := by
  apply alignTo_of_dvd
  have strictest : max 2 objects.boot.power ≤ 21 := max_le (by decide) power
  exact (Nat.pow_dvd_pow 2 strictest).trans (by decide)

end Link

/-- The addresses which the start-up code refers to. -/
structure Symbols where
  start : BitVec 64
  bssStart : BitVec 64
  bssEnd : BitVec 64
  stackTop : BitVec 64
  main : BitVec 64
deriving DecidableEq, Repr

/-- `_start`, with `clear_bss` at the index 2, `clear_bss_loop` at 4, `clear_bss_end` at 8
and `loop` at 9. -/
def startCode (symbols : Symbols) : List Instruction :=
  [ .ldr x0 symbols.stackTop,
    .movSp x0,
    .ldr x0 symbols.bssStart,
    .ldr x1 symbols.bssEnd,
    .cmp x0 x1,
    .beq (label symbols.start 8),
    .strXzr x0 8,
    .b (label symbols.start 4),
    .bl symbols.main,
    .wfe,
    .b (label symbols.start 9) ]

/-- The processor at the start-up code. -/
def starting (symbols : Symbols) : Machine → Option Machine :=
  step (placed symbols.start (startCode symbols))

section Step

variable {symbols : Symbols} {index : Nat} {instruction : Instruction} {machine after : Machine}

/-- What the start-up code does at each of its instructions. -/
theorem starting_eq (at' : machine.pc = label symbols.start index)
    (fetch : (startCode symbols)[index]? = some instruction) :
    starting symbols machine = machine.execute instruction := by
  have short : (startCode symbols).length = 11 := rfl
  exact step_label (by rw [short]; decide) at' fetch

/-- One instruction, and the way on from behind it. -/
theorem starting_head {q : Machine → Prop} (index : Nat)
    (at' : machine.pc = label symbols.start index)
    (fetch : (startCode symbols)[index]? = some instruction)
    (done : machine.execute instruction = some after)
    (rest : ∃ final, Reaches (starting symbols) after final ∧ q final) :
    ∃ final, Reaches (starting symbols) machine final ∧ q final := by
  apply reaches_head _ rest
  rw [starting_eq at' fetch, done]
  rfl

end Step

section Clearing

variable {symbols : Symbols} {initial machine : Machine}

/-- At `clear_bss_loop`, with so many double words cleared. -/
structure Clearing (symbols : Symbols) (initial : Machine) (count : Nat) (machine : Machine) :
    Prop where
  pc : machine.pc = label symbols.start 4
  sp : machine.sp = symbols.stackTop
  pointer : machine.registers 0 = symbols.bssStart + BitVec.ofNat 64 (8 * count)
  bound : machine.registers 1 = symbols.bssEnd
  memory : machine.memory = cleared initial.memory symbols.bssStart (8 * count)

/-- At `main`, with so many bytes cleared. -/
structure Entered (symbols : Symbols) (initial : Machine) (count : Nat) (machine : Machine) :
    Prop where
  pc : machine.pc = symbols.main
  sp : machine.sp = symbols.stackTop
  link : machine.registers 30 = label symbols.start 9
  memory : machine.memory = cleared initial.memory symbols.bssStart count

/-- Four instructions to the loop. -/
theorem clearing_of_start (at' : initial.pc = label symbols.start 0) :
    Leads (starting symbols) (· = initial) (Clearing symbols initial 0) := by
  rintro state rfl
  refine starting_head 0 at' rfl rfl ?_
  refine starting_head 1 (by simp [at']) rfl rfl ?_
  refine starting_head 2 (by simp [at']) rfl rfl ?_
  refine starting_head 3 (by simp [at']) rfl rfl ?_
  exact ⟨_, .refl, by simp [at'], by simp, by simp, by simp, by simp⟩

/-- A round of the loop clears one double word, whose address is a multiple of eight. -/
theorem clearing_round {count : Nat} (aligned : 8 ∣ symbols.bssStart.toNat)
    (before : symbols.bssStart + BitVec.ofNat 64 (8 * count) ≠ symbols.bssEnd) :
    Leads (starting symbols) (Clearing symbols initial count)
      (Clearing symbols initial (count + 1)) := by
  intro machine clearing
  have fits : 8 ∣ (machine.registers 0).toNat := by
    rw [clearing.pointer, BitVec.toNat_add, BitVec.toNat_ofNat]
    omega
  have unequal : (machine.registers 0 == machine.registers 1) = false := by
    rwa [clearing.pointer, clearing.bound, beq_eq_false_iff_ne]
  refine starting_head 4 clearing.pc rfl rfl ?_
  refine starting_head 5 (by simp [clearing.pc]) rfl (Machine.execute_beq_passed unequal) ?_
  refine starting_head 6 (by simp [clearing.pc]) rfl (Machine.execute_strXzr fits) ?_
  refine starting_head 7 (by simp [clearing.pc]) rfl rfl ?_
  refine ⟨_, .refl, by simp, by simp [clearing.sp], ?_, by simp [clearing.bound], ?_⟩
  · simp [clearing.pointer, Nat.mul_succ, BitVec.add_assoc, BitVec.ofNat_add]
  · simp [clearing.memory, clearing.pointer, cleared_cleared, Nat.mul_succ]

/-- Behind the last double word the loop is left for `main`. -/
theorem entered_of_clearing {count : Nat}
    (last : symbols.bssStart + BitVec.ofNat 64 (8 * count) = symbols.bssEnd) :
    Leads (starting symbols) (Clearing symbols initial count)
      (Entered symbols initial (8 * count)) := by
  intro machine clearing
  have equal : (machine.registers 0 == machine.registers 1) = true := by
    rw [clearing.pointer, clearing.bound, last, beq_self_eq_true]
  refine starting_head 4 clearing.pc rfl rfl ?_
  refine starting_head 5 (by simp [clearing.pc]) rfl (Machine.execute_beq_taken equal) ?_
  refine starting_head 8 (by simp) rfl rfl ?_
  exact ⟨_, .refl, by simp, by simp [clearing.sp], by simp, by simp [clearing.memory]⟩

/-- With aligned symbols in order the start-up code clears what is between them, and
enters `main`. -/
theorem entered_of_start (at' : initial.pc = label symbols.start 0)
    (ordered : symbols.bssStart ≤ symbols.bssEnd) (startAligned : 8 ∣ symbols.bssStart.toNat)
    (endAligned : 8 ∣ symbols.bssEnd.toNat) :
    Leads (starting symbols) (· = initial)
      (Entered symbols initial (symbols.bssEnd.toNat - symbols.bssStart.toNat)) := by
  obtain ⟨words, length⟩ : ∃ words, symbols.bssEnd.toNat - symbols.bssStart.toNat = 8 * words :=
    Nat.dvd_sub endAligned startAligned
  have bound := symbols.bssEnd.isLt
  have below : symbols.bssStart.toNat ≤ symbols.bssEnd.toNat := ordered
  have pointer : ∀ count ≤ words, (symbols.bssStart + BitVec.ofNat 64 (8 * count)).toNat =
      symbols.bssStart.toNat + 8 * count := by
    intro count within
    rw [BitVec.toNat_add, BitVec.toNat_ofNat, Nat.add_mod_mod, Nat.mod_eq_of_lt (by omega)]
  rw [length]
  refine ((clearing_of_start at').trans (leads_rounds fun count within => ?_)).trans
    (entered_of_clearing ?_)
  · refine clearing_round startAligned fun equal => ?_
    have same := congrArg BitVec.toNat equal
    rw [pointer count within.le] at same
    omega
  · apply BitVec.eq_of_toNat_eq
    rw [pointer words le_rfl]
    omega

/-- An empty `.bss` is never cleared, wherever it is. -/
theorem entered_of_empty (at' : initial.pc = label symbols.start 0)
    (empty : symbols.bssStart = symbols.bssEnd) :
    Leads (starting symbols) (· = initial) (Entered symbols initial 0) := by
  have last : symbols.bssStart + BitVec.ofNat 64 (8 * 0) = symbols.bssEnd := by
    simpa using empty
  exact (clearing_of_start at').trans (entered_of_clearing last)

end Clearing

section Stuck

variable {symbols : Symbols} {machine after initial : Machine}

/-- The pointer of the loop has not been advanced, or only from aligned addresses on. -/
def Pointed (symbols : Symbols) (pointer : BitVec 64) : Prop :=
  pointer = symbols.bssStart ∨ 8 ∣ pointer.toNat ∧ 8 ∣ symbols.bssStart.toNat

/-- On the way to the loop and in it, with what is known at each instruction. -/
inductive Looping (symbols : Symbols) (machine : Machine) : Prop where
  | ldrStack (at' : machine.pc = label symbols.start 0)
  | movSp (at' : machine.pc = label symbols.start 1)
  | ldrStart (at' : machine.pc = label symbols.start 2)
  | ldrEnd (at' : machine.pc = label symbols.start 3)
      (pointer : machine.registers 0 = symbols.bssStart)
  | cmp (at' : machine.pc = label symbols.start 4) (pointed : Pointed symbols (machine.registers 0))
      (bound : machine.registers 1 = symbols.bssEnd)
  | beq (at' : machine.pc = label symbols.start 5) (pointed : Pointed symbols (machine.registers 0))
      (bound : machine.registers 1 = symbols.bssEnd) (unequal : machine.zero = false)
  | str (at' : machine.pc = label symbols.start 6) (pointed : Pointed symbols (machine.registers 0))
      (bound : machine.registers 1 = symbols.bssEnd)
  | b (at' : machine.pc = label symbols.start 7) (pointed : Pointed symbols (machine.registers 0))
      (bound : machine.registers 1 = symbols.bssEnd)

/-- A pointer of the loop is never equal to an end which the loop cannot come to. -/
theorem Pointed.ne_end {pointer : BitVec 64} (pointed : Pointed symbols pointer)
    (nonempty : symbols.bssStart ≠ symbols.bssEnd)
    (unaligned : ¬ (8 ∣ symbols.bssStart.toNat ∧ 8 ∣ symbols.bssEnd.toNat)) :
    pointer ≠ symbols.bssEnd := by
  rintro rfl
  rcases pointed with same | ⟨here, start⟩
  · exact nonempty same.symm
  · exact unaligned ⟨start, here⟩

/-- Past a store which did not fault. -/
theorem Pointed.advance {pointer : BitVec 64} (pointed : Pointed symbols pointer)
    (aligned : 8 ∣ pointer.toNat) : Pointed symbols (pointer + 8#64) := by
  refine .inr ⟨?_, ?_⟩
  · rw [BitVec.toNat_add, BitVec.toNat_ofNat]
    omega
  · rcases pointed with rfl | ⟨-, start⟩
    · exact aligned
    · exact start

/-- A step on the way to the loop or in it does not leave it. -/
theorem Looping.step (nonempty : symbols.bssStart ≠ symbols.bssEnd)
    (unaligned : ¬ (8 ∣ symbols.bssStart.toNat ∧ 8 ∣ symbols.bssEnd.toNat))
    (taken : after ∈ starting symbols machine) (looping : Looping symbols machine) :
    Looping symbols after := by
  cases looping with
  | ldrStack at' =>
      cases (starting_eq at' rfl).symm.trans taken
      exact .movSp (by simp [at'])
  | movSp at' =>
      cases (starting_eq at' rfl).symm.trans taken
      exact .ldrStart (by simp [at'])
  | ldrStart at' =>
      cases (starting_eq at' rfl).symm.trans taken
      exact .ldrEnd (by simp [at']) (by simp)
  | ldrEnd at' pointer =>
      cases (starting_eq at' rfl).symm.trans taken
      exact .cmp (by simp [at']) (.inl (by simpa using pointer)) (by simp)
  | cmp at' pointed bound =>
      have unequal := pointed.ne_end nonempty unaligned
      cases (starting_eq at' rfl).symm.trans taken
      exact .beq (by simp [at']) (by simpa using pointed) (by simpa using bound)
        (by simpa [bound] using unequal)
  | beq at' pointed bound unequal =>
      cases ((starting_eq at' rfl).trans (Machine.execute_beq_passed unequal)).symm.trans taken
      exact .str (by simp [at']) (by simpa using pointed) (by simpa using bound)
  | str at' pointed bound =>
      by_cases aligned : 8 ∣ (machine.registers 0).toNat
      · cases ((starting_eq at' rfl).trans (Machine.execute_strXzr aligned)).symm.trans taken
        exact .b (by simp [at']) (by simpa using pointed.advance aligned) (by simpa using bound)
      · cases ((starting_eq at' rfl).trans (Machine.execute_strXzr_fault aligned)).symm.trans taken
  | b at' pointed bound =>
      cases (starting_eq at' rfl).symm.trans taken
      exact .cmp (by simp) pointed bound

/-- Code elsewhere is not run from the loop. -/
theorem Looping.pc_ne {pc : BitVec 64} (elsewhere : 44 ≤ (pc - symbols.start).toNat)
    (looping : Looping symbols machine) : machine.pc ≠ pc := by
  have index : ∃ index < 8, machine.pc = label symbols.start index := by
    cases looping with
    | ldrStack at' => exact ⟨0, by decide, at'⟩
    | movSp at' => exact ⟨1, by decide, at'⟩
    | ldrStart at' => exact ⟨2, by decide, at'⟩
    | ldrEnd at' => exact ⟨3, by decide, at'⟩
    | cmp at' => exact ⟨4, by decide, at'⟩
    | beq at' => exact ⟨5, by decide, at'⟩
    | str at' => exact ⟨6, by decide, at'⟩
    | b at' => exact ⟨7, by decide, at'⟩
  obtain ⟨index, small, at'⟩ := index
  rintro rfl
  rw [at', label_sub symbols.start (by omega)] at elsewhere
  omega

/-- From symbols in order `main` is entered if and only if there is nothing to clear or
both symbols are aligned. -/
theorem main_entered_iff (at' : initial.pc = symbols.start)
    (ordered : symbols.bssStart ≤ symbols.bssEnd)
    (elsewhere : 44 ≤ (symbols.main - symbols.start).toNat) :
    (∃ final, Reaches (starting symbols) initial final ∧ final.pc = symbols.main) ↔
      symbols.bssStart = symbols.bssEnd ∨
        8 ∣ symbols.bssStart.toNat ∧ 8 ∣ symbols.bssEnd.toNat := by
  have first : initial.pc = label symbols.start 0 := by
    rw [at', label_zero]
  constructor
  · rintro ⟨final, reached, entered⟩
    by_contra neither
    obtain ⟨nonempty, unaligned⟩ := not_or.mp neither
    have looping : Looping symbols final := by
      apply invariant_of_reaches reached _ (.ldrStack first)
      intro before after taken
      exact Looping.step nonempty unaligned taken
    exact looping.pc_ne elsewhere entered
  · rintro (empty | ⟨startAligned, endAligned⟩)
    · obtain ⟨final, reached, entered⟩ := entered_of_empty first empty initial rfl
      exact ⟨final, reached, entered.pc⟩
    · obtain ⟨final, reached, entered⟩ :=
        entered_of_start first ordered startAligned endAligned initial rfl
      exact ⟨final, reached, entered.pc⟩

/-- An end which is not aligned is stepped over. -/
theorem main_never_entered : ¬ ∃ final,
    Reaches (starting ⟨0x200000, 0x210000, 0x210004, 0x4000000, 0x200100⟩)
      ⟨fun _ => 0, 0, false, 0x200000, fun _ => 0xff⟩ final ∧ final.pc = 0x200100 := by
  intro entered
  exact absurd ((main_entered_iff rfl (by decide) (by decide)).mp entered) (by decide)

end Stuck

section Boot

/-- The symbols of a kernel, with `main` somewhere in it. -/
def Kernel.symbols (kernel : Kernel) (main : Nat) : Symbols where
  start := BitVec.ofNat 64 kernel.boot.start
  bssStart := BitVec.ofNat 64 kernel.bss.start
  bssEnd := BitVec.ofNat 64 kernel.bss.stop
  stackTop := BitVec.ofNat 64 kernel.stackTop
  main := BitVec.ofNat 64 main

/-- `main` is entered with the whole stack, every zero-initialised section cleared, and
all other memory as it was loaded. -/
structure Booted (kernel : Kernel) (main : Nat) (initial final : Machine) : Prop where
  pc : final.pc = BitVec.ofNat 64 main
  sp : final.sp = 0x4000000
  bss : ∀ placed ∈ kernel.bss.inputs, ∀ address : BitVec 64, placed.1 ≤ address.toNat →
    address.toNat < placed.1 + placed.2.size → final.memory address = 0
  loaded : ∀ output ∈ kernel.loaded, ∀ placed ∈ output.inputs, ∀ address : BitVec 64,
    placed.1 ≤ address.toNat → address.toNat < placed.1 + placed.2.size →
      final.memory address = initial.memory address
  above : ∀ address : BitVec 64, 0x4000000 ≤ address.toNat →
    final.memory address = initial.memory address

/-- From the `kernel_address` the start-up code clears `.bss` and enters `main`. -/
theorem entered_of_link (objects : Objects)
    (below : objects.kernel.bss.stop ≤ objects.kernel.stackTop)
    (power : objects.boot.power ≤ 21) (main : Nat) {initial : Machine}
    (at' : initial.pc = 0x200000) :
    ∃ final, Reaches (starting (objects.kernel.symbols main)) initial final ∧
      final.pc = BitVec.ofNat 64 main ∧ final.sp = 0x4000000 ∧
        ∀ address : BitVec 64, final.memory address =
          if objects.kernel.bss.start ≤ address.toNat ∧ address.toNat < objects.kernel.bss.stop
          then 0 else initial.memory address := by
  have fits : objects.kernel.bss.stop ≤ 0x4000000 := below
  have ordered : objects.kernel.bss.start ≤ objects.kernel.bss.stop := output_start_le_stop
  have startAligned : 2 ^ 3 ∣ objects.kernel.bss.start := output_start_aligned
  have endAligned : 2 ^ 3 ∣ objects.kernel.bss.stop := output_stop_aligned
  have start : (objects.kernel.symbols main).bssStart.toNat = objects.kernel.bss.start :=
    Nat.mod_eq_of_lt (by omega)
  have stop : (objects.kernel.symbols main).bssEnd.toNat = objects.kernel.bss.stop :=
    Nat.mod_eq_of_lt (by omega)
  have le : (objects.kernel.symbols main).bssStart ≤ (objects.kernel.symbols main).bssEnd := by
    rwa [BitVec.le_def, start, stop]
  have first : initial.pc = label (objects.kernel.symbols main).start 0 := by
    rw [at', label_zero, Kernel.symbols, kernel_start power]
    rfl
  obtain ⟨final, reached, entered⟩ :=
    entered_of_start first le (by rwa [start]) (by rwa [stop]) initial rfl
  refine ⟨final, reached, entered.pc, entered.sp, fun address => ?_⟩
  rw [entered.memory, cleared_between initial.memory le, start, stop]

/-- Every kernel whose `.bss` ends below its stack boots: from the `kernel_address` `main` is
entered. -/
theorem booted_of_link (objects : Objects)
    (below : objects.kernel.bss.stop ≤ objects.kernel.stackTop)
    (power : objects.boot.power ≤ 21) (main : Nat) {initial : Machine}
    (at' : initial.pc = 0x200000) :
    ∃ final, Reaches (starting (objects.kernel.symbols main)) initial final ∧
      Booted objects.kernel main initial final := by
  obtain ⟨final, reached, entered, stack, memory⟩ := entered_of_link objects below power main at'
  have fits : objects.kernel.bss.stop ≤ 0x4000000 := below
  refine ⟨final, reached, entered, stack, ?_, ?_, ?_⟩
  · intro placed member address after before
    have within : objects.kernel.bss.start ≤ placed.1 ∧
        placed.1 + placed.2.size ≤ objects.kernel.bss.stop := output_within member
    rw [memory, if_pos (by omega)]
  · intro output loaded placed member address after before
    have below := kernel_ordered objects output loaded
    have within := kernel_within objects output loaded placed member
    rw [memory, if_neg (by omega)]
  · intro address above
    rw [memory, if_neg (by omega)]

/-- Sections of a few bytes, two of them zero-initialised and one of these unaligned. -/
def fewSections : Objects := ⟨⟨72, 3⟩, [⟨1000, 2⟩], [⟨37, 0⟩], [⟨8, 3⟩], [⟨1, 0⟩, ⟨17, 3⟩]⟩

/-- They are below the stack. -/
theorem fewSections_booted : ∃ final,
    Reaches (starting (fewSections.kernel.symbols 0x200100))
      ⟨fun _ => 0, 0, false, 0x200000, fun _ => 0xff⟩ final ∧
    Booted fewSections.kernel 0x200100 ⟨fun _ => 0, 0, false, 0x200000, fun _ => 0xff⟩ final :=
  booted_of_link fewSections (by decide) (by decide) 0x200100 rfl

end Boot
end Rpi5.Bootloader
