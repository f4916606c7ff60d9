import Rpi5.Mutex.RWLock

/-!
# The word counts the guards

In every state of the lock its word is the number of read guards, and the write
flag on top of it is set for one thread which is writing. So a write guard is alone.
The invariant is `Balanced`; what it means for the guards is `Represents`.
-/

namespace Rpi5.Mutex

open Rpi5.Semantics

section Words

variable {word : Word}

/-- The flag is the highest bit. -/
theorem toNat_writeFlag : writeFlag.toNat = 2 ^ 63 := by decide

/-- The mask of the count is all bits below it. -/
theorem toNat_not_writeFlag : (~~~writeFlag).toNat = 2 ^ 63 - 1 := by decide

/-- The flag as a power of two. -/
theorem writeFlag_eq : writeFlag = BitVec.twoPow 64 63 := by decide

/-- The flag is clear exactly in small words. -/
theorem and_writeFlag_eq_zero : word &&& writeFlag = 0 ↔ word.toNat < 2 ^ 63 := by
  have top : word.getLsbD 63 = decide (2 ^ 63 ≤ word.toNat) := word.msb_eq_decide
  have nonzero : BitVec.twoPow 64 63 ≠ 0#64 := by decide
  rw [writeFlag_eq, BitVec.and_twoPow, top]
  by_cases large : 2 ^ 63 ≤ word.toNat
  · rw [decide_eq_true large, if_pos rfl]
    exact ⟨fun zero => absurd zero nonzero, fun small => absurd large (Nat.not_le.mpr small)⟩
  · rw [decide_eq_false large, if_neg Bool.false_ne_true]
    exact ⟨fun _ => Nat.not_le.mp large, fun _ => rfl⟩

/-- The rest of a word is its number of readers. -/
theorem toNat_count (word : Word) : (word &&& ~~~writeFlag).toNat = word.toNat % 2 ^ 63 := by
  rw [BitVec.toNat_and, toNat_not_writeFlag, Nat.and_two_pow_sub_one_eq_mod]

/-- No guards are counted if the low bits are 0. -/
theorem count_eq_zero : word &&& ~~~writeFlag = 0 ↔ word.toNat % 2 ^ 63 = 0 := by
  rw [← BitVec.toNat_inj, toNat_count]
  rfl

/-- Setting a clear flag adds it. -/
theorem toNat_set (clear : word &&& writeFlag = 0) :
    (word ||| writeFlag).toNat = word.toNat + 2 ^ 63 := by
  have small := and_writeFlag_eq_zero.mp clear
  rw [BitVec.toNat_or, toNat_writeFlag, Nat.or_two_pow_eq_add_of_lt small]

end Words

namespace RWLock

variable {ι : Type} [Fintype ι]

/-- The invariant: the word counts readers and writers, there is at most one writer,
no write guard is alive beside a read guard, and loaded values to be exchanged have
the flag clear. -/
structure Balanced (lock : RWLock ι) : Prop where
  word : lock.shared.toNat = lock.readers + 2 ^ 63 * lock.writing
  single : lock.writing ≤ 1
  apart : 0 < lock.writers → lock.readers = 0
  clear : ∀ thread, (lock.threads thread).place.Clear

/-- A new lock is balanced. -/
theorem balanced_new : (new : RWLock ι).Balanced := by
  have readers : (new : RWLock ι).readers = 0 := (total_eq_zero _).mpr fun _ => rfl
  have writers : (new : RWLock ι).writers = 0 := (total_eq_zero _).mpr fun _ => rfl
  have writing : (new : RWLock ι).writing = 0 := (total_eq_zero _).mpr fun _ => rfl
  refine ⟨?_, by omega, by omega, fun _ => trivial⟩
  rw [readers, writing]
  rfl

/-- A live write guard belongs to a thread which is writing. -/
theorem writers_le_writing (lock : RWLock ι) : lock.writers ≤ lock.writing :=
  Finset.sum_le_sum fun _ _ => Nat.le_add_left _ _

variable [DecidableEq ι]

/-- A step is one of a thread, which alone changes the counts. -/
theorem moved_of_step {before after : RWLock ι} {thread : ι} {action : Action}
    (taken : before.step act thread action = some after) :
    (∀ other, other ≠ thread → after.threads other = before.threads other) ∧
      Moved before.shared (before.threads thread) after.shared (after.threads thread) ∧
      after.readers + (before.threads thread).readGuards =
        before.readers + (after.threads thread).readGuards ∧
      after.writers + (before.threads thread).writeGuards =
        before.writers + (after.threads thread).writeGuards ∧
      after.writing + (before.threads thread).writing =
        before.writing + (after.threads thread).writing := by
  obtain ⟨acted, others⟩ := Config.acted_of_step taken
  exact ⟨others, moved_of_act acted, total_of_others _ others, total_of_others _ others,
    total_of_others _ others⟩

/-- A step of one thread keeps the invariant. Also where the guards cannot be counted:
`2 ^ 63` readers look like the flag, and no further one enters. -/
theorem Balanced.step {before after : RWLock ι} {thread : ι} {action : Action}
    (balanced : before.Balanced) (taken : before.step act thread action = some after) :
    after.Balanced := by
  obtain ⟨unchanged, moved, readers, writers, writing⟩ := moved_of_step taken
  obtain ⟨counted, single, apart, clear⟩ := balanced
  have here := clear thread
  have less := before.writers_le_writing
  have mine : (before.threads thread).readGuards ≤ before.readers := le_total _ _ _
  have also : (before.threads thread).writing ≤ before.writing := le_total _ _ _
  have others : (after.threads thread).place.Clear → ∀ other, (after.threads other).place.Clear := by
    intro fine other
    by_cases self : other = thread
    · rwa [self]
    · rw [unchanged other self]
      exact clear other
  have bounded := before.shared.isLt
  clear unchanged
  generalize before.threads thread = old at *
  generalize after.threads thread = own at *
  generalize now : after.shared = word at moved
  cases moved with
  | @quiet place waits fine =>
      have same : (old.goto place).writing = old.writing := by
        by_cases place = .writeDrain <;> simp_all [Thread.writing, Thread.goto]
      rw [same] at writing
      simp only [Thread.goto] at readers writers
      exact ⟨by rw [now]; omega, by omega, by omega, others fine⟩
  | enterRead place =>
      rw [place] at here
      have small := and_writeFlag_eq_zero.mp here
      have next : (before.shared + 1).toNat = before.shared.toNat + 1 :=
        BitVec.toNat_add_of_lt (by simp; omega)
      simp [place, Thread.writing, Thread.takeRead] at readers writers writing
      exact ⟨by rw [now]; omega, by omega, by omega, others trivial⟩
  | enterWrite place empty =>
      rw [place] at here
      have small := and_writeFlag_eq_zero.mp here
      have next := toNat_set here
      have zero := count_eq_zero.mp empty
      simp [place, Thread.writing, Thread.takeWrite] at readers writers writing
      exact ⟨by rw [now]; omega, by omega, by omega, others trivial⟩
  | setFlag place =>
      rw [place] at here
      have small := and_writeFlag_eq_zero.mp here
      have next := toNat_set here
      simp [place, Thread.writing, Thread.goto] at readers writers writing
      exact ⟨by rw [now]; omega, by omega, by omega, others trivial⟩
  | drained place empty =>
      have zero := count_eq_zero.mp empty
      simp [place, Thread.writing, Thread.takeWrite] at readers writers writing also
      exact ⟨by rw [now]; omega, by omega, by omega, others trivial⟩
  | leaveRead place held =>
      have next : (before.shared - 1).toNat = before.shared.toNat - 1 :=
        BitVec.toNat_sub_of_le (by simp [BitVec.le_def]; omega)
      simp [place, Thread.writing, Thread.dropRead] at readers writers writing
      exact ⟨by rw [now]; omega, by omega, by omega,
        others (by simp [Thread.dropRead, place, Place.Clear])⟩
  | leaveWrite place held =>
      have next := toNat_count before.shared
      simp [place, Thread.writing, Thread.dropWrite] at readers writers writing
      exact ⟨by rw [now]; omega, by omega, by omega,
        others (by simp [Thread.dropWrite, place, Place.Clear])⟩

/-- In every state of every run the invariant holds. -/
theorem balanced_of_runs {allowed : RWLock ι → Prop} {events : List (ι × Action)} {lock : RWLock ι}
    (runs : Runs act allowed new events lock) : lock.Balanced :=
  runs.invariant balanced_new fun _ _ _ _ balanced taken _ => balanced.step taken

omit [DecidableEq ι] in
/-- A new lock is countable. -/
theorem countable_new : (new : RWLock ι).Countable := by
  have empty : (new : RWLock ι).readers = 0 := (total_eq_zero _).mpr fun _ => rfl
  unfold Countable
  omega

section Representation

variable {lock : RWLock ι}

/-- At most one thread writes. -/
theorem Balanced.unique (balanced : lock.Balanced) {one other : ι}
    (first : (lock.threads one).Writes) (second : (lock.threads other).Writes) : one = other := by
  by_contra differ
  have both : (lock.threads one).writing + (lock.threads other).writing ≤ lock.writing :=
    add_le_total _ _ differ
  have single := balanced.single
  have first := Thread.writing_pos.mpr first
  have second := Thread.writing_pos.mpr second
  omega

omit [DecidableEq ι] in
/-- The flag is set exactly if some thread writes. -/
theorem Balanced.flag (balanced : lock.Balanced) (countable : lock.Countable) :
    lock.shared.msb = true ↔ ∃ thread, (lock.threads thread).Writes := by
  have word := balanced.word
  have single := balanced.single
  unfold Countable at countable
  rw [BitVec.msb_eq_decide, decide_eq_true_eq]
  constructor
  · intro large
    have some : 0 < total Thread.writing lock.threads := by
      change 0 < lock.writing
      omega
    obtain ⟨thread, writes⟩ := exists_of_total_pos Thread.writing some
    exact ⟨thread, Thread.writing_pos.mp writes⟩
  · rintro ⟨thread, writes⟩
    have some : (lock.threads thread).writing ≤ lock.writing := le_total _ _ _
    have positive := Thread.writing_pos.mpr writes
    omega

end Representation

/-- What the word says about the guards. -/
structure Represents (lock : RWLock ι) : Prop where
  /-- The low bits count the live read guards. -/
  count : lock.shared.toNat % 2 ^ 63 = lock.readers
  /-- The flag is set exactly if one thread writes, and only one. -/
  flag : lock.shared.msb = true ↔ ∃! thread, (lock.threads thread).Writes
  single : ∀ one other, (lock.threads one).Writes → (lock.threads other).Writes → one = other
  /-- A live write guard is the only guard. -/
  alone : ∀ thread, 0 < (lock.threads thread).writeGuards →
    (lock.threads thread).writeGuards = 1 ∧ (∀ other, (lock.threads other).readGuards = 0) ∧
      ∀ other, other ≠ thread → (lock.threads other).writeGuards = 0
  /-- Without guards and without a writer which waits the word is zero. -/
  free : (∀ thread, (lock.threads thread).readGuards = 0 ∧ ¬ (lock.threads thread).Writes) →
    lock.shared = 0

/-- In every state of a run in which the read guards can be counted, the word says
which guards are alive, and a write guard is alone. -/
theorem represents_of_runs {events : List (ι × Action)} {lock : RWLock ι}
    (runs : Runs act Countable new events lock) : lock.Represents := by
  have balanced := balanced_of_runs runs
  have countable := runs.fine countable_new
  have word := balanced.word
  have single := balanced.single
  have less := lock.writers_le_writing
  have flag := balanced.flag countable
  unfold Countable at countable
  refine ⟨by omega, ?_, fun _ _ => balanced.unique, ?_, ?_⟩
  · rw [flag]
    constructor
    · rintro ⟨thread, writes⟩
      exact ⟨thread, writes, fun other also => balanced.unique also writes⟩
    · rintro ⟨thread, writes, -⟩
      exact ⟨thread, writes⟩
  · intro thread held
    have mine : (lock.threads thread).writeGuards ≤ lock.writers := le_total _ _ _
    refine ⟨by omega, (total_eq_zero _).mp (balanced.apart (by omega)), ?_⟩
    intro other differs
    have both : (lock.threads other).writeGuards + (lock.threads thread).writeGuards ≤
        lock.writers := add_le_total _ _ differs
    omega
  · intro idle
    have readers : lock.readers = 0 := (total_eq_zero _).mpr fun thread => (idle thread).1
    have writing : lock.writing = 0 := (total_eq_zero _).mpr fun thread => by
      by_contra some
      exact (idle thread).2 (Thread.writing_pos.mp (Nat.pos_of_ne_zero some))
    rw [← BitVec.toNat_inj, word, readers, writing]
    rfl

/-- A reader enters, and a writer sets the flag and waits for it. -/
def waitingWriter {τ : Type} (reader writer : τ) : List (τ × Action) :=
  [(reader, .read), (writer, .write), (writer, .load 0), (writer, .fail), (reader, .load 0),
    (reader, .exchange), (writer, .load 1), (writer, .exchange)]

/-- A writer waiting for one reader: the word is the flag and a count of one. -/
theorem waitingWriter_represents : ∃ lock : RWLock (Fin 2), lock.shared = writeFlag + 1 ∧
    (lock.threads 1).place = .writeDrain ∧ lock.Represents := by
  obtain ⟨lock, run, facts⟩ : ∃ lock, Runs act Countable (new : RWLock (Fin 2)) (waitingWriter 0 1) lock ∧
      decide (lock.shared = writeFlag + 1 ∧ (lock.threads 1).place = .writeDrain) = true :=
    exists_run_of_exec (by decide)
  obtain ⟨word, waits⟩ := of_decide_eq_true facts
  exact ⟨lock, word, waits, represents_of_runs run⟩

end RWLock
end Rpi5.Mutex
