import Rpi5.Mutex.Exclusion

/-!
# The writer is preferred

A writer whose exchange has set the flag keeps everybody else out, first while it
waits for the readers and then while it holds its guard. Whatever the others have
loaded before, the flag was clear in it, so that their exchange fails.
-/

namespace Rpi5.Mutex

open Rpi5.Semantics

namespace RWLock

variable {ι : Type} [Fintype ι] [DecidableEq ι]

omit [DecidableEq ι] in
/-- While a thread writes, the flag is set in the word. -/
theorem Balanced.flag_set {lock : RWLock ι} {writer : ι} (balanced : lock.Balanced)
    (writes : (lock.threads writer).Writes) : ¬ lock.shared &&& writeFlag = 0 := by
  have word := balanced.word
  have mine : (lock.threads writer).writing ≤ lock.writing := le_total _ _ _
  have positive := Thread.writing_pos.mpr writes
  rw [and_writeFlag_eq_zero]
  omega

omit [DecidableEq ι] in
/-- While a thread writes, no exchange of a loaded value succeeds. -/
theorem Balanced.not_loaded {lock : RWLock ι} {writer : ι} (balanced : lock.Balanced)
    (writes : (lock.threads writer).Writes) (thread : ι) :
    (lock.threads thread).place ≠ .readExchange lock.shared ∧
      (lock.threads thread).place ≠ .writeExchange lock.shared := by
  have clear := balanced.clear thread
  have set := balanced.flag_set writes
  constructor
  · intro here
    rw [here] at clear
    exact set clear
  · intro here
    rw [here] at clear
    exact set clear

/-- What a step does to the guards of all threads but the write guard of one. -/
structure Shrinks (writer : ι) (lock next : RWLock ι) : Prop where
  /-- No `read` returns. -/
  read : ∀ other, (next.threads other).readGuards ≤ (lock.threads other).readGuards
  /-- No other `write` returns. -/
  write : ∀ other, other ≠ writer →
    (next.threads other).writeGuards ≤ (lock.threads other).writeGuards
  readers : next.readers ≤ lock.readers

/-- What the steps from a state do to the guards while one thread writes. -/
structure Preferred (lock : RWLock ι) (writer : ι) : Prop where
  shrinks : ∀ thread action next, lock.step act thread action = some next →
    Shrinks writer lock next
  /-- When the readers have left, the next load of a writer which waits lets it in. -/
  enters : lock.readers = 0 → (lock.threads writer).place = .writeDrain →
    (lock.step act writer (.load lock.shared)).isSome = true ∧
      ∀ action next, lock.step act writer action = some next →
        next.threads writer = (lock.threads writer).takeWrite

/-- While one thread writes, no step gives a guard to another thread or to a reader. -/
theorem Balanced.shrinks {lock next : RWLock ι} {writer thread : ι} {action : Action}
    (balanced : lock.Balanced) (writes : (lock.threads writer).Writes)
    (taken : lock.step act thread action = some next) : Shrinks writer lock next := by
  obtain ⟨others, moved, readers, -, -⟩ := moved_of_step taken
  obtain ⟨notRead, notWrite⟩ := balanced.not_loaded writes thread
  -- A thread which is not the writer does not wait for the readers.
  have drains : (lock.threads thread).place = .writeDrain → thread = writer :=
    fun waits => balanced.unique (.inl waits) writes
  have less : (next.threads thread).readGuards ≤ (lock.threads thread).readGuards ∧
      (thread ≠ writer → (next.threads thread).writeGuards ≤ (lock.threads thread).writeGuards) := by
    generalize (next.shared : Word) = word at moved
    generalize next.threads thread = own at moved
    cases moved with
    | quiet => exact ⟨Nat.le_refl _, fun _ => Nat.le_refl _⟩
    | enterRead here => exact absurd here notRead
    | enterWrite here => exact absurd here notWrite
    | setFlag here => exact absurd here notWrite
    | drained here => exact ⟨Nat.le_refl _, fun differs => absurd (drains here) differs⟩
    | leaveRead => exact ⟨Nat.sub_le _ _, fun _ => Nat.le_refl _⟩
    | leaveWrite => exact ⟨Nat.le_refl _, fun _ => Nat.sub_le _ _⟩
  refine ⟨?_, ?_, by omega⟩
  · intro other
    by_cases self : other = thread
    · rw [self]
      exact less.1
    · rw [others other self]
  · intro other differs
    by_cases self : other = thread
    · rw [self]
      exact less.2 (self ▸ differs)
    · rw [others other self]

/-- While one thread writes it is preferred. -/
theorem Balanced.preferred {lock : RWLock ι} {writer : ι} (balanced : lock.Balanced)
    (writes : (lock.threads writer).Writes) : lock.Preferred writer := by
  refine ⟨fun _ _ _ taken => balanced.shrinks writes taken, ?_⟩
  intro gone waits
  have word := balanced.word
  have empty : lock.shared &&& ~~~writeFlag = 0 := count_eq_zero.mpr (by omega)
  constructor
  · simp [Config.step, act, waits, writeStep, empty]
  · intro action next taken
    obtain ⟨acted, -⟩ := Config.acted_of_step taken
    unfold act at acted
    rw [waits] at acted
    cases action with
    | load n =>
        simp only [writeStep, Option.ite_none_right_eq_some] at acted
        obtain ⟨rfl, acted⟩ := acted
        rw [if_neg (not_not.mpr empty), Option.some.injEq, Prod.mk.injEq] at acted
        exact acted.2.symm
    | _ => simp [writeStep] at acted

/-- The states from the exchange which sets the flag to the drop of the guard. -/
abbrev WrittenBy (writer : ι) (lock : RWLock ι) : Prop := (lock.threads writer).Writes

instance (writer : ι) : DecidablePred (WrittenBy writer) :=
  fun _ => inferInstanceAs (Decidable (_ ∨ _))

/-- The invariant along a run in which one thread goes on writing: it is preferred, and
the readers only become fewer. -/
theorem Balanced.preferred_of_runs {set lock : RWLock ι} {writer : ι}
    {events : List (ι × Action)} (balanced : set.Balanced) (writes : set.WrittenBy writer)
    (runs : Runs act (WrittenBy writer) set events lock) :
    lock.Balanced ∧ lock.WrittenBy writer ∧ lock.readers ≤ set.readers := by
  apply runs.invariant
  · exact ⟨balanced, writes, Nat.le_refl _⟩
  · rintro before thread action after ⟨held, written, fewer⟩ taken still
    exact ⟨held.step taken, still,
      Nat.le_trans (held.shrinks written taken).readers fewer⟩

/-- From the step with which a `write` sets the flag to the drop of its guard, no other
call returns, the live read guards only become fewer, and when there are none the
next load of the writer lets it in. The bound on the guards is not needed. -/
theorem writer_preferred {before set middle lock : RWLock ι} {writer : ι}
    {earlier later latest : List (ι × Action)}
    (prior : Runs act (fun _ => True) new earlier before)
    (sets : before.step act writer .exchange = some set) (writes : set.WrittenBy writer)
    (first : Runs act (WrittenBy writer) set later middle)
    (second : Runs act (WrittenBy writer) middle latest lock) :
    lock.Preferred writer ∧ lock.readers ≤ middle.readers := by
  have balanced : set.Balanced := (balanced_of_runs prior).step sets
  obtain ⟨kept, written, -⟩ := balanced.preferred_of_runs writes first
  obtain ⟨last, still, fewer⟩ := kept.preferred_of_runs written second
  exact ⟨last.preferred still, fewer⟩

/-- One thread reads, and another has loaded the word to read it as well. The writer is
about to set the flag. -/
def aboutToSet {τ : Type} (reader other writer : τ) : List (τ × Action) :=
  [(reader, .read), (reader, .load 0), (reader, .exchange), (other, .read), (other, .load 1),
    (writer, .write), (writer, .load 1)]

/-- A reader about to increment beside a writer which has just set the flag. -/
theorem aboutToSet_preferred : ∃ lock : RWLock (Fin 3), lock.readers = 0 ∧
    (lock.threads 1).place = .writeDrain ∧ (lock.threads 2).place = .readExchange 1 ∧
    lock.Preferred 1 := by
  obtain ⟨before, prior, facts⟩ : ∃ before,
      Runs act (fun _ => True) (new : RWLock (Fin 3)) (aboutToSet 0 2 1) before ∧
        (before.step act 1 .exchange).any (fun set => WrittenBy 1 set ∧
          (set.exec act (WrittenBy 1) [(0, .dropRead)]).any fun lock =>
            readers lock = 0 ∧ (lock.threads 1).place = .writeDrain ∧
              (lock.threads 2).place = .readExchange 1) = true :=
    exists_run_of_exec (by decide)
  obtain ⟨set, sets, facts⟩ := (Option.any_eq_true _ _).mp facts
  obtain ⟨writes, facts⟩ := of_decide_eq_true facts
  obtain ⟨lock, left, facts⟩ := exists_run_of_exec facts
  obtain ⟨empty, waits, loaded⟩ := of_decide_eq_true facts
  have preferred := writer_preferred prior sets writes .refl left
  exact ⟨lock, empty, waits, loaded, preferred.1⟩

end RWLock
end Rpi5.Mutex
