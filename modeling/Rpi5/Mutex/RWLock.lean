import Rpi5.Semantics.Threads

/-!
# The readers-writer lock

`RWLock` of the source, as the atomic steps of any number of threads on its one
word. A thread is at a place inside `read` or `write`, or outside both, and holds
guards. Every atomic access of the source is a step of its own:

* a `load` in front of an exchange gives any value, so it may be arbitrarily stale;
* `compare_exchange_weak` fails at any time, and succeeds only on the value loaded;
* the loop which waits for the readers loads the value the word has.

A guard is dropped by the thread which took it, outside `read` and `write`.
-/

namespace Rpi5.Mutex

open Rpi5.Semantics

/-- The type of `read_count_write_lock_flag`. -/
abbrev Word := BitVec 64

/-- `RWLock::WRITE_FLAG`. -/
def writeFlag : Word := 1#64 <<< (64 - 1)

/-- The place of a thread in the code of the lock. -/
inductive Place where
  | outside
  | readLoad
  | readExchange (n : Word)
  | writeLoad
  | writeExchange (n : Word)
  | writeDrain
deriving DecidableEq, Repr

/-- A thread: where it is, and the guards it holds. -/
structure Thread where
  place : Place
  readGuards : Nat
  writeGuards : Nat
deriving DecidableEq, Repr

/-- The choices of a thread. -/
inductive Action where
  | read
  | write
  | load (n : Word)
  | exchange
  | fail
  | dropRead
  | dropWrite
deriving DecidableEq, Repr

namespace Thread

/-- A thread which has not used the lock. -/
def fresh : Thread := ⟨.outside, 0, 0⟩

/-- The thread at another place. -/
def goto (thread : Thread) (place : Place) : Thread := { thread with place := place }

/-- `read` returns. -/
def takeRead (thread : Thread) : Thread :=
  { thread with place := .outside, readGuards := thread.readGuards + 1 }

/-- `write` returns. -/
def takeWrite (thread : Thread) : Thread :=
  { thread with place := .outside, writeGuards := thread.writeGuards + 1 }

/-- The drop of a read guard. -/
def dropRead (thread : Thread) : Thread := { thread with readGuards := thread.readGuards - 1 }

/-- The drop of a write guard. -/
def dropWrite (thread : Thread) : Thread := { thread with writeGuards := thread.writeGuards - 1 }

/-- From its successful exchange in `write` to the drop of its guard a thread writes. -/
def Writes (thread : Thread) : Prop := thread.place = .writeDrain ∨ 0 < thread.writeGuards

/-- How often a thread writes. -/
def writing (thread : Thread) : Nat :=
  (if thread.place = .writeDrain then 1 else 0) + thread.writeGuards

/-- That is at least once exactly if it writes. -/
theorem writing_pos {thread : Thread} : 0 < thread.writing ↔ thread.Writes := by
  unfold writing Writes
  by_cases waits : thread.place = .writeDrain <;> simp [waits]

end Thread

/-- The loop of `RWLock::read`. -/
def readStep (word : Word) (thread : Thread) : Place → Action → Option (Word × Thread)
  | .readLoad, .load n =>
      if n &&& writeFlag = 0 then some (word, thread.goto (.readExchange n))
      else some (word, thread.goto .readLoad)
  | .readExchange n, .exchange => if word = n then some (n + 1, thread.takeRead) else none
  | .readExchange _, .fail => some (word, thread.goto .readLoad)
  | _, _ => none

/-- The loop of `RWLock::write`, and in it the loop which waits for the readers. -/
def writeStep (word : Word) (thread : Thread) : Place → Action → Option (Word × Thread)
  | .writeLoad, .load n =>
      if n &&& writeFlag ≠ 0 then some (word, thread.goto .writeLoad)
      else some (word, thread.goto (.writeExchange n))
  | .writeExchange n, .exchange =>
      if word = n then
        if word &&& ~~~writeFlag = 0 then some (n ||| writeFlag, thread.takeWrite)
        else some (n ||| writeFlag, thread.goto .writeDrain)
      else none
  | .writeExchange _, .fail => some (word, thread.goto .writeLoad)
  | .writeDrain, .load n =>
      if n = word then
        if n &&& ~~~writeFlag ≠ 0 then some (word, thread.goto .writeDrain)
        else some (word, thread.takeWrite)
      else none
  | _, _ => none

/-- Outside `read` and `write` a thread calls one of them or drops a guard. -/
def outsideStep (word : Word) (thread : Thread) : Action → Option (Word × Thread)
  | .read => some (word, thread.goto .readLoad)
  | .write => some (word, thread.goto .writeLoad)
  | .dropRead => if 0 < thread.readGuards then some (word - 1, thread.dropRead) else none
  | .dropWrite =>
      if 0 < thread.writeGuards then some (word &&& ~~~writeFlag, thread.dropWrite) else none
  | _ => none

/-- The steps of a thread. -/
def act : Acting Word Thread Action := fun word thread action =>
  match thread.place with
  | .outside => outsideStep word thread action
  | .readLoad => readStep word thread .readLoad action
  | .readExchange n => readStep word thread (.readExchange n) action
  | .writeLoad => writeStep word thread .writeLoad action
  | .writeExchange n => writeStep word thread (.writeExchange n) action
  | .writeDrain => writeStep word thread .writeDrain action

/-- A loaded value which is exchanged had the flag clear. -/
def Place.Clear : Place → Prop
  | .readExchange n => n &&& writeFlag = 0
  | .writeExchange n => n &&& writeFlag = 0
  | _ => True

/-- What a step of a thread does to the word and to its guards. -/
inductive Moved (word : Word) (thread : Thread) : Word → Thread → Prop where
  /-- A call, a load or a failed exchange. -/
  | quiet {place} (waits : thread.place = .writeDrain ↔ place = .writeDrain) (clear : place.Clear) :
      Moved word thread word (thread.goto place)
  | enterRead (here : thread.place = .readExchange word) : Moved word thread (word + 1) thread.takeRead
  | enterWrite (here : thread.place = .writeExchange word) (empty : word &&& ~~~writeFlag = 0) :
      Moved word thread (word ||| writeFlag) thread.takeWrite
  | setFlag (here : thread.place = .writeExchange word) :
      Moved word thread (word ||| writeFlag) (thread.goto .writeDrain)
  | drained (here : thread.place = .writeDrain) (empty : word &&& ~~~writeFlag = 0) :
      Moved word thread word thread.takeWrite
  | leaveRead (here : thread.place = .outside) (held : 0 < thread.readGuards) :
      Moved word thread (word - 1) thread.dropRead
  | leaveWrite (here : thread.place = .outside) (held : 0 < thread.writeGuards) :
      Moved word thread (word &&& ~~~writeFlag) thread.dropWrite

/-- Every step is one of these. -/
theorem moved_of_act {word after : Word} {thread own : Thread} {action : Action}
    (taken : act word thread action = some (after, own)) : Moved word thread after own := by
  unfold act at taken
  cases here : thread.place with
  | outside =>
      rw [here] at taken
      cases action with
      | read =>
          obtain ⟨rfl, rfl⟩ := by simpa [outsideStep] using taken
          exact .quiet (by simp [here]) trivial
      | write =>
          obtain ⟨rfl, rfl⟩ := by simpa [outsideStep] using taken
          exact .quiet (by simp [here]) trivial
      | dropRead =>
          obtain ⟨held, rfl, rfl⟩ := by simpa [outsideStep] using taken
          exact .leaveRead here held
      | dropWrite =>
          obtain ⟨held, rfl, rfl⟩ := by simpa [outsideStep] using taken
          exact .leaveWrite here held
      | load n => simp [outsideStep] at taken
      | exchange => simp [outsideStep] at taken
      | fail => simp [outsideStep] at taken
  | readLoad =>
      rw [here] at taken
      cases action with
      | load n =>
          by_cases clear : n &&& writeFlag = 0
          · obtain ⟨rfl, rfl⟩ := by simpa [readStep, clear] using taken
            exact .quiet (by simp [here]) clear
          · simp only [readStep, if_neg clear, Option.some.injEq, Prod.mk.injEq] at taken
            obtain ⟨rfl, rfl⟩ := taken
            exact .quiet (by simp [here]) trivial
      | _ => simp [readStep] at taken
  | readExchange n =>
      rw [here] at taken
      cases action with
      | exchange =>
          obtain ⟨rfl, rfl, rfl⟩ := by simpa [readStep] using taken
          exact .enterRead here
      | fail =>
          obtain ⟨rfl, rfl⟩ := by simpa [readStep] using taken
          exact .quiet (by simp [here]) trivial
      | _ => simp [readStep] at taken
  | writeLoad =>
      rw [here] at taken
      cases action with
      | load n =>
          by_cases clear : n &&& writeFlag = 0
          · obtain ⟨rfl, rfl⟩ := by simpa [writeStep, clear] using taken
            exact .quiet (by simp [here]) clear
          · simp only [writeStep, if_pos clear, Option.some.injEq, Prod.mk.injEq] at taken
            obtain ⟨rfl, rfl⟩ := taken
            exact .quiet (by simp [here]) trivial
      | _ => simp [writeStep] at taken
  | writeExchange n =>
      rw [here] at taken
      cases action with
      | exchange =>
          by_cases empty : word &&& ~~~writeFlag = 0
          · obtain ⟨rfl, rfl, rfl⟩ := by simpa [writeStep, empty] using taken
            exact .enterWrite here empty
          · simp only [writeStep, if_neg empty, Option.ite_none_right_eq_some, Option.some.injEq,
              Prod.mk.injEq] at taken
            obtain ⟨rfl, rfl, rfl⟩ := taken
            exact .setFlag here
      | fail =>
          obtain ⟨rfl, rfl⟩ := by simpa [writeStep] using taken
          exact .quiet (by simp [here]) trivial
      | _ => simp [writeStep] at taken
  | writeDrain =>
      rw [here] at taken
      cases action with
      | load n =>
          by_cases empty : n &&& ~~~writeFlag = 0
          · obtain ⟨rfl, rfl, rfl⟩ := by simpa [writeStep, empty] using taken
            exact .drained here empty
          · simp only [writeStep, if_pos empty, Option.ite_none_right_eq_some, Option.some.injEq,
              Prod.mk.injEq] at taken
            obtain ⟨rfl, rfl, rfl⟩ := taken
            exact .quiet (by simp [here]) trivial
      | _ => simp [writeStep] at taken

/-- A lock and its threads. -/
abbrev RWLock (ι : Type) := Config ι Word Thread

namespace RWLock

variable {ι : Type}

/-- `RWLock::new`, with threads which have not used it. -/
def new : RWLock ι := ⟨0, fun _ => .fresh⟩

section Counts

variable [Fintype ι] (lock : RWLock ι)

/-- The number of live read guards. -/
def readers : Nat := total Thread.readGuards lock.threads

/-- The number of live write guards. -/
def writers : Nat := total Thread.writeGuards lock.threads

/-- The number of threads writing, with those which wait for the readers. -/
def writing : Nat := total Thread.writing lock.threads

/-- Fewer read guards are alive than the word can count. -/
def Countable : Prop := lock.readers < 2 ^ 63

instance : Decidable lock.Countable := inferInstanceAs (Decidable (_ < _))

end Counts
end RWLock
end Rpi5.Mutex
