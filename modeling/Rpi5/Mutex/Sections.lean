import Rpi5.Mutex.Exclusion
import Rpi5.Semantics.Sections

/-!
# The sections under a readers-writer lock are serialisable

A thread which takes one guard after another is seen at one `Status` of the lock. No
guard is held beside a write guard, so that the sections of any number of threads are
as if the changes had been made one after another.
-/

namespace Rpi5.Mutex

open Rpi5.Semantics

/-- The kind of guard a thread at a place has called for. -/
def Place.calls : Place → Option Kind
  | .outside => none
  | .readLoad => some .read
  | .readExchange _ => some .read
  | .writeLoad => some .write
  | .writeExchange _ => some .write
  | .writeDrain => some .write

/-- Where the lock sees a thread with at most one guard. -/
def Thread.status (thread : Thread) : Option Status :=
  match thread.place.calls, thread.readGuards, thread.writeGuards with
  | none, 0, 0 => some .outside
  | none, 1, 0 => some (.inside .read)
  | none, 0, 1 => some (.inside .write)
  | some kind, 0, 0 => some (.entering kind)
  | _, _, _ => none

/-- The call for a guard returns. -/
def Thread.take (thread : Thread) : Kind → Thread
  | .read => thread.takeRead
  | .write => thread.takeWrite

namespace RWLock

/-- The calls of the lock. -/
def call : Kind → Action
  | .read => .read
  | .write => .write

/-- The drops of its guards. -/
def drop : Kind → Action
  | .read => .dropRead
  | .write => .dropWrite

end RWLock

section Statuses

variable {thread : Thread} {kind : Kind}

/-- A thread is outside exactly if it has no guard and makes no call. -/
theorem status_outside : thread.status = some .outside ↔ thread = .fresh := by
  obtain ⟨place, reads, writes⟩ := thread
  unfold Thread.status Thread.fresh
  cases place <;> rcases reads with _ | _ | reads <;> rcases writes with _ | _ | writes <;>
    simp [Place.calls]

/-- It is entering exactly if it makes a call and has no guard. -/
theorem status_entering : thread.status = some (.entering kind) ↔
    thread.place.calls = some kind ∧ thread.readGuards = 0 ∧ thread.writeGuards = 0 := by
  obtain ⟨place, reads, writes⟩ := thread
  unfold Thread.status
  cases place <;> rcases reads with _ | _ | reads <;> rcases writes with _ | _ | writes <;>
    simp [Place.calls]

/-- It is inside exactly if it has one guard and makes no call. -/
theorem status_inside : thread.status = some (.inside kind) ↔ thread = Thread.fresh.take kind := by
  obtain ⟨place, reads, writes⟩ := thread
  unfold Thread.status
  cases kind <;> cases place <;> rcases reads with _ | _ | reads <;>
    rcases writes with _ | _ | writes <;>
    simp [Place.calls, Thread.fresh, Thread.take, Thread.takeRead, Thread.takeWrite]

end Statuses

/-- What a step does to a thread inside the call for a guard. -/
inductive Called (word : Word) (thread : Thread) (kind : Kind) : Word → Thread → Prop where
  /-- A load or a failed exchange. -/
  | spin {place : Place} (calls : place.calls = some kind) (clear : place.Clear)
      (waits : thread.place = .writeDrain ↔ place = .writeDrain)
      (busy : thread.place = .writeDrain → ¬ word &&& ~~~writeFlag = 0) :
      Called word thread kind word (thread.goto place)
  | setFlag (asks : kind = .write) (here : thread.place = .writeExchange word) :
      Called word thread kind (word ||| writeFlag) (thread.goto .writeDrain)
  | take {after} (here : thread.place = .readExchange word ∨ thread.place = .writeExchange word ∨
      thread.place = .writeDrain ∧ word &&& ~~~writeFlag = 0) :
      Called word thread kind after (thread.take kind)

/-- Inside `read` and `write` every step is one of these. -/
theorem called_of_act {word after : Word} {thread own : Thread} {action : Action} {kind : Kind}
    (taken : act word thread action = some (after, own)) (calls : thread.place.calls = some kind) :
    Called word thread kind after own := by
  unfold act at taken
  cases here : thread.place with
  | outside => simp [here, Place.calls] at calls
  | readLoad =>
      rw [here] at taken calls
      obtain rfl := Option.some.inj calls
      cases action with
      | load n =>
          by_cases clear : n &&& writeFlag = 0
          · obtain ⟨rfl, rfl⟩ := by simpa [readStep, clear] using taken
            exact .spin rfl clear (by simp [here]) (by simp [here])
          · simp only [readStep, if_neg clear, Option.some.injEq, Prod.mk.injEq] at taken
            obtain ⟨rfl, rfl⟩ := taken
            exact .spin rfl trivial (by simp [here]) (by simp [here])
      | _ => simp [readStep] at taken
  | readExchange n =>
      rw [here] at taken calls
      obtain rfl := Option.some.inj calls
      cases action with
      | exchange =>
          obtain ⟨rfl, rfl, rfl⟩ := by simpa [readStep] using taken
          exact .take (.inl here)
      | fail =>
          obtain ⟨rfl, rfl⟩ := by simpa [readStep] using taken
          exact .spin rfl trivial (by simp [here]) (by simp [here])
      | _ => simp [readStep] at taken
  | writeLoad =>
      rw [here] at taken calls
      obtain rfl := Option.some.inj calls
      cases action with
      | load n =>
          by_cases clear : n &&& writeFlag = 0
          · obtain ⟨rfl, rfl⟩ := by simpa [writeStep, clear] using taken
            exact .spin rfl clear (by simp [here]) (by simp [here])
          · simp only [writeStep, if_pos clear, Option.some.injEq, Prod.mk.injEq] at taken
            obtain ⟨rfl, rfl⟩ := taken
            exact .spin rfl trivial (by simp [here]) (by simp [here])
      | _ => simp [writeStep] at taken
  | writeExchange n =>
      rw [here] at taken calls
      obtain rfl := Option.some.inj calls
      cases action with
      | exchange =>
          by_cases empty : word &&& ~~~writeFlag = 0
          · obtain ⟨rfl, rfl, rfl⟩ := by simpa [writeStep, empty] using taken
            exact .take (.inr (.inl here))
          · simp only [writeStep, if_neg empty, Option.ite_none_right_eq_some, Option.some.injEq,
              Prod.mk.injEq] at taken
            obtain ⟨rfl, rfl, rfl⟩ := taken
            exact .setFlag rfl here
      | fail =>
          obtain ⟨rfl, rfl⟩ := by simpa [writeStep] using taken
          exact .spin rfl trivial (by simp [here]) (by simp [here])
      | _ => simp [writeStep] at taken
  | writeDrain =>
      rw [here] at taken calls
      obtain rfl := Option.some.inj calls
      cases action with
      | load n =>
          by_cases empty : n &&& ~~~writeFlag = 0
          · obtain ⟨rfl, rfl, rfl⟩ := by simpa [writeStep, empty] using taken
            exact .take (.inr (.inr ⟨here, empty⟩))
          · simp only [writeStep, if_pos empty, Option.ite_none_right_eq_some, Option.some.injEq,
              Prod.mk.injEq] at taken
            obtain ⟨rfl, rfl, rfl⟩ := taken
            exact .spin rfl trivial (by simp [here]) fun _ => empty
      | _ => simp [writeStep] at taken

namespace RWLock

/-- The lock for one guard after another. -/
def protocol : Protocol Word Thread Action where
  act := act
  call := call
  drop := drop
  guard := id
  status := Thread.status
  guard_write := rfl
  called := by
    intro word own kind after next outside taken
    obtain rfl := status_outside.mp outside
    cases kind with
    | read =>
        obtain ⟨-, rfl⟩ := Prod.mk.inj (Option.some.inj taken)
        rfl
    | write =>
        obtain ⟨-, rfl⟩ := Prod.mk.inj (Option.some.inj taken)
        rfl
  entered := by
    intro word own kind action after next entering taken
    obtain ⟨calls, reads, writes⟩ := status_entering.mp entering
    cases called_of_act taken calls with
    | spin still => exact .inl (status_entering.mpr ⟨still, reads, writes⟩)
    | setFlag asks => exact .inl (status_entering.mpr ⟨asks ▸ rfl, reads, writes⟩)
    | take =>
        right
        rw [status_inside]
        cases kind with
        | read => simp [Thread.take, Thread.takeRead, Thread.fresh, reads, writes]
        | write => simp [Thread.take, Thread.takeWrite, Thread.fresh, reads, writes]
  dropped := by
    intro word own kind after next inside taken
    rw [status_inside] at inside
    rw [status_outside]
    cases kind with
    | read =>
        obtain rfl := inside
        obtain ⟨-, rfl⟩ := Prod.mk.inj (Option.some.inj taken)
        rfl
    | write =>
        obtain rfl := inside
        obtain ⟨-, rfl⟩ := Prod.mk.inj (Option.some.inj taken)
        rfl

variable {ι : Type} [Fintype ι] [DecidableEq ι]

/-- No guard is held beside a write guard. -/
theorem Balanced.exclusive {lock : RWLock ι} (balanced : lock.Balanced) : Exclusive protocol lock := by
  intro one other kind differ writes inside
  have single := balanced.single
  have less := lock.writers_le_writing
  have readers : (lock.threads other).readGuards ≤ lock.readers := le_total _ _ _
  have writers : (lock.threads one).writeGuards + (lock.threads other).writeGuards ≤ lock.writers :=
    add_le_total _ _ differ
  have mine : (lock.threads one).writeGuards = 1 := by rw [status_inside.mp writes]; rfl
  have apart := balanced.apart (by omega)
  have there := status_inside.mp inside
  cases kind with
  | read =>
      have held : (lock.threads other).readGuards = 1 := by rw [there]; rfl
      omega
  | write =>
      have held : (lock.threads other).writeGuards = 1 := by rw [there]; rfl
      omega

variable {δ : Type}

/-- For any programs of sections and any interleaving: a section which reads sees one
value, which the changes before it make, and in the end the data is what all changes make
in the order of their guards. So threads which all add one as often add up. -/
theorem sections_serialised {initial : δ} {programs : ι → List (CriticalSection δ)}
    {events : List (ι × Move Action δ)} {config : Config ι (Guarded ι Word δ) (Worker ι Thread δ)}
    (runs : Runs (critical protocol) (fun _ => True) (idle initial programs new) events config) :
    Serialised initial programs config ∧
      ∀ size : δ → Nat, ∀ times,
        (∀ thread, (changes (programs thread)).length = times ∧
          ∀ change ∈ changes (programs thread), ∀ data, size (change data) = size data + 1) →
        (∀ thread, (config.threads thread).stage = .between ∧ (config.threads thread).program = []) →
        size config.shared.data = size initial + Fintype.card ι * times := by
  have exclusive : ∀ events lock, Runs act (fun _ => True) new events lock →
      Exclusive protocol (lock : RWLock ι) := by
    intro events lock run
    exact (balanced_of_runs run).exclusive
  have serialised : Serialised initial programs config :=
    serialised_of_runs protocol (fun _ => rfl) exclusive runs
  refine ⟨serialised, ?_⟩
  intro size times adds finished
  exact serialised.counts finished (fun thread => (adds thread).1) fun thread => (adds thread).2

/-- Two threads add one, and the first then reads. -/
def adding : Fin 2 → List (CriticalSection Nat)
  | 0 => [.write (· + 1), .read]
  | 1 => [.write (· + 1)]

/-- Both have loaded the same word, and the exchange of the second fails. -/
def addingMoves {τ : Type} (first second : τ) : List (τ × Move Action Nat) :=
  [(first, .start), (first, .lock (.load 0)), (second, .start), (second, .lock (.load 0)),
    (first, .lock .exchange), (second, .lock .fail), (first, .peek), (first, .tear 7),
    (first, .store), (first, .drop), (second, .lock (.load 0)), (second, .lock .exchange),
    (second, .peek), (second, .store), (second, .drop), (first, .start),
    (first, .lock (.load 0)), (first, .lock .exchange), (first, .peek), (first, .drop)]

/-- A worker has done all its sections. -/
def finished (worker : Worker (Fin 2) Thread Nat) : Bool :=
  match worker.stage, worker.program with
  | .between, [] => true
  | _, _ => false

/-- A worker is finished between two sections with nothing left to do. -/
theorem finished_iff {worker : Worker (Fin 2) Thread Nat} :
    finished worker ↔ worker.stage = .between ∧ worker.program = [] := by
  obtain ⟨name, own, stage, program⟩ := worker
  cases stage <;> cases program <;> simp [finished]

/-- Two threads which each add one to 3 end with 5. -/
theorem adding_serialised :
    ∃ config : Config (Fin 2) (Guarded (Fin 2) Word Nat) (Worker (Fin 2) Thread Nat),
      Serialised 3 adding config ∧ config.shared.data = 3 + Fintype.card (Fin 2) * 1 := by
  obtain ⟨config, run, facts⟩ : ∃ config,
      Runs (critical protocol) (fun _ => True) (idle 3 adding new) (addingMoves 0 1) config ∧
        decide (∀ thread, finished (config.threads thread) = true) = true :=
    exists_run_of_exec (by decide)
  obtain ⟨serialised, counted⟩ := sections_serialised run
  have once : ∀ thread, (changes (adding thread)).length = 1 ∧
      ∀ change ∈ changes (adding thread), ∀ data, id (change data) = id data + 1 := by
    intro thread
    match thread with
    | 0 => simp [adding, changes]
    | 1 => simp [adding, changes]
  exact ⟨config, serialised,
    counted id 1 once fun thread => finished_iff.mp (of_decide_eq_true facts thread)⟩

end RWLock

end Rpi5.Mutex
