import Rpi5.Semantics.Threads
import Mathlib.Algebra.BigOperators.Group.Finset.Piecewise

/-!
# Critical sections over a lock

Threads run sections under a lock, in steps of any interleaving. A section which reads
obtains a read guard, reads the shared data any number of times and drops the guard. A
section which writes obtains a write guard, reads the data once, stores a function of
what it has read and drops the guard; until the store is complete the data may be
anything.

The lock is a `Protocol`: the steps of its threads, and where a thread is in them. If no
guard is ever held beside a write guard, the sections are serialisable: what is read
and what remains in the end is as if the sections which write had run one after
another, in the order of their guards (`Sound.serialised`).
-/

namespace Rpi5.Semantics

/-- The kinds of guard. -/
inductive Kind where
  | read
  | write
deriving DecidableEq, Repr

/-- Where a thread is which uses one guard after another. -/
inductive Status where
  | outside
  | entering (kind : Kind)
  | inside (kind : Kind)
deriving DecidableEq, Repr

/-- A lock: the steps of its threads, and where a thread is, as long as it holds at most
one guard. A thread which only reads may get a write guard. -/
structure Protocol (σ τ α : Type) where
  act : Acting σ τ α
  call : Kind → α
  drop : Kind → α
  guard : Kind → Kind
  status : τ → Option Status
  guard_write : guard .write = .write
  called : ∀ {shared own kind after next}, status own = some .outside →
    act shared own (call kind) = some (after, next) → status next = some (.entering (guard kind))
  entered : ∀ {shared own kind action after next}, status own = some (.entering kind) →
    act shared own action = some (after, next) →
      status next = some (.entering kind) ∨ status next = some (.inside kind)
  dropped : ∀ {shared own kind after next}, status own = some (.inside (guard kind)) →
    act shared own (drop kind) = some (after, next) → status next = some .outside

/-- What a thread does under one guard. -/
inductive CriticalSection (δ : Type) where
  | read
  | write (change : δ → δ)

def CriticalSection.kind {δ : Type} : CriticalSection δ → Kind
  | .read => .read
  | .write _ => .write

/-- How far a thread is in its section. -/
inductive Stage (ι δ : Type) where
  | between
  | entering (task : CriticalSection δ)
  /-- What it has seen, and the history when it obtained its guard. -/
  | reading (seen : List δ) (entered : List (ι × (δ → δ)))
  | holding (change : δ → δ)
  | fetched (change : δ → δ) (value : δ)
  | stored

/-- The lock with the data, and the changes in the order of their write guards. -/
structure Guarded (ι σ δ : Type) where
  lock : σ
  data : δ
  history : List (ι × (δ → δ))

/-- A thread with the sections it has not begun. -/
structure Worker (ι τ δ : Type) where
  name : ι
  own : τ
  stage : Stage ι δ
  program : List (CriticalSection δ)

/-- The choices of a worker. -/
inductive Move (α δ : Type) where
  | start
  | lock (action : α)
  | peek
  | tear (value : δ)
  | store
  | drop

/-- The guard is there: a write guard is entered into the history. -/
def Worker.enter {ι σ τ δ : Type} (worker : Worker ι τ δ) (shared : Guarded ι σ δ) :
    CriticalSection δ → Guarded ι σ δ × Worker ι τ δ
  | .read => (shared, { worker with stage := .reading [] shared.history })
  | .write change =>
      ({ shared with history := shared.history ++ [(worker.name, change)] },
        { worker with stage := .holding change })

section Workers

variable {ι σ τ α δ : Type} (lock : Protocol σ τ α)

/-- The steps of a worker. -/
def critical : Acting (Guarded ι σ δ) (Worker ι τ δ) (Move α δ) := fun shared worker move =>
  match move, worker.stage, worker.program with
  | .start, .between, task :: rest =>
      (lock.act shared.lock worker.own (lock.call task.kind)).map fun (now, own) =>
        ({ shared with lock := now },
          { worker with own := own, stage := .entering task, program := rest })
  | .lock action, .entering task, _ =>
      (lock.act shared.lock worker.own action).map fun (now, own) =>
        if lock.status own = some (.inside (lock.guard task.kind)) then
          { worker with own := own }.enter { shared with lock := now } task
        else ({ shared with lock := now }, { worker with own := own, stage := .entering task })
  | .peek, .reading seen entered, _ =>
      some (shared, { worker with stage := .reading (seen ++ [shared.data]) entered })
  | .peek, .holding change, _ =>
      some (shared, { worker with stage := .fetched change shared.data })
  | .tear value, .fetched _ _, _ => some ({ shared with data := value }, worker)
  | .store, .fetched change value, _ =>
      some ({ shared with data := change value }, { worker with stage := .stored })
  | .drop, .reading _ _, _ =>
      (lock.act shared.lock worker.own (lock.drop .read)).map fun (now, own) =>
        ({ shared with lock := now }, { worker with own := own, stage := .between })
  | .drop, .stored, _ =>
      (lock.act shared.lock worker.own (lock.drop .write)).map fun (now, own) =>
        ({ shared with lock := now }, { worker with own := own, stage := .between })
  | _, _, _ => none

variable {lock}

/-- What a step of a worker does. -/
inductive Advance (lock : Protocol σ τ α) (shared : Guarded ι σ δ) (worker : Worker ι τ δ) :
    Guarded ι σ δ → Worker ι τ δ → Prop where
  | start {task rest now own} (here : worker.stage = .between) (program : worker.program = task :: rest)
      (taken : lock.act shared.lock worker.own (lock.call task.kind) = some (now, own)) :
      Advance lock shared worker { shared with lock := now }
        { worker with own := own, stage := .entering task, program := rest }
  | wait {task action now own} (here : worker.stage = .entering task)
      (taken : lock.act shared.lock worker.own action = some (now, own))
      (outside : lock.status own ≠ some (.inside (lock.guard task.kind))) :
      Advance lock shared worker { shared with lock := now }
        { worker with own := own, stage := .entering task }
  | enterRead {action now own} (here : worker.stage = .entering .read)
      (taken : lock.act shared.lock worker.own action = some (now, own))
      (inside : lock.status own = some (.inside (lock.guard .read))) :
      Advance lock shared worker { shared with lock := now }
        { worker with own := own, stage := .reading [] shared.history }
  | enterWrite {change action now own} (here : worker.stage = .entering (.write change))
      (taken : lock.act shared.lock worker.own action = some (now, own))
      (inside : lock.status own = some (.inside (lock.guard .write))) :
      Advance lock shared worker
        { shared with lock := now, history := shared.history ++ [(worker.name, change)] }
        { worker with own := own, stage := .holding change }
  | look {seen entered} (here : worker.stage = .reading seen entered) :
      Advance lock shared worker shared
        { worker with stage := .reading (seen ++ [shared.data]) entered }
  | fetch {change} (here : worker.stage = .holding change) :
      Advance lock shared worker shared { worker with stage := .fetched change shared.data }
  | tear {change value torn} (here : worker.stage = .fetched change value) :
      Advance lock shared worker { shared with data := torn } worker
  | store {change value} (here : worker.stage = .fetched change value) :
      Advance lock shared worker { shared with data := change value } { worker with stage := .stored }
  | dropRead {seen entered now own} (here : worker.stage = .reading seen entered)
      (taken : lock.act shared.lock worker.own (lock.drop .read) = some (now, own)) :
      Advance lock shared worker { shared with lock := now }
        { worker with own := own, stage := .between }
  | dropWrite {now own} (here : worker.stage = .stored)
      (taken : lock.act shared.lock worker.own (lock.drop .write) = some (now, own)) :
      Advance lock shared worker { shared with lock := now }
        { worker with own := own, stage := .between }

/-- Every step is one of these. -/
theorem advance_of_critical {shared after : Guarded ι σ δ} {worker next : Worker ι τ δ}
    {move : Move α δ} (taken : critical lock shared worker move = some (after, next)) :
    Advance lock shared worker after next := by
  cases move with
  | start =>
      cases here : worker.stage with
      | between =>
          cases program : worker.program with
          | nil => simp [critical, here, program] at taken
          | cons task rest =>
              simp only [critical, here, program, Option.map_eq_some_iff, Prod.exists,
                Prod.mk.injEq] at taken
              obtain ⟨now, own, taken, rfl, rfl⟩ := taken
              exact .start here program taken
      | _ => simp [critical, here] at taken
  | lock action =>
      cases here : worker.stage with
      | entering task =>
          simp only [critical, here, Option.map_eq_some_iff, Prod.exists] at taken
          obtain ⟨now, own, taken, same⟩ := taken
          by_cases inside : lock.status own = some (.inside (lock.guard task.kind))
          · rw [if_pos inside] at same
            cases task with
            | read =>
                obtain ⟨rfl, rfl⟩ := Prod.mk.inj same
                exact .enterRead here taken inside
            | write change =>
                obtain ⟨rfl, rfl⟩ := Prod.mk.inj same
                exact .enterWrite here taken inside
          · rw [if_neg inside] at same
            obtain ⟨rfl, rfl⟩ := Prod.mk.inj same
            exact .wait here taken inside
      | _ => simp [critical, here] at taken
  | peek =>
      cases here : worker.stage with
      | reading seen entered =>
          simp only [critical, here, Option.some.injEq, Prod.mk.injEq] at taken
          obtain ⟨rfl, rfl⟩ := taken
          exact .look here
      | holding change =>
          simp only [critical, here, Option.some.injEq, Prod.mk.injEq] at taken
          obtain ⟨rfl, rfl⟩ := taken
          exact .fetch here
      | _ => simp [critical, here] at taken
  | tear torn =>
      cases here : worker.stage with
      | fetched change value =>
          simp only [critical, here, Option.some.injEq, Prod.mk.injEq] at taken
          obtain ⟨rfl, rfl⟩ := taken
          exact .tear here
      | _ => simp [critical, here] at taken
  | store =>
      cases here : worker.stage with
      | fetched change value =>
          simp only [critical, here, Option.some.injEq, Prod.mk.injEq] at taken
          obtain ⟨rfl, rfl⟩ := taken
          exact .store here
      | _ => simp [critical, here] at taken
  | drop =>
      cases here : worker.stage with
      | reading seen entered =>
          simp only [critical, here, Option.map_eq_some_iff, Prod.exists, Prod.mk.injEq] at taken
          obtain ⟨now, own, taken, rfl, rfl⟩ := taken
          exact .dropRead here taken
      | stored =>
          simp only [critical, here, Option.map_eq_some_iff, Prod.exists, Prod.mk.injEq] at taken
          obtain ⟨now, own, taken, rfl, rfl⟩ := taken
          exact .dropWrite here taken
      | _ => simp [critical, here] at taken

/-- The steps of the workers are steps of the lock, or leave it as it is. -/
theorem critical_refines :
    Refines Guarded.lock Worker.own (critical lock : Acting (Guarded ι σ δ) (Worker ι τ δ) _)
      lock.act := by
  intro before own move after next taken
  cases advance_of_critical taken with
  | start _ _ acted => exact .inr ⟨_, acted⟩
  | wait _ acted => exact .inr ⟨_, acted⟩
  | enterRead _ acted => exact .inr ⟨_, acted⟩
  | enterWrite _ acted => exact .inr ⟨_, acted⟩
  | look => exact .inl ⟨rfl, rfl⟩
  | fetch => exact .inl ⟨rfl, rfl⟩
  | tear => exact .inl ⟨rfl, rfl⟩
  | store => exact .inl ⟨rfl, rfl⟩
  | dropRead _ acted => exact .inr ⟨_, acted⟩
  | dropWrite _ acted => exact .inr ⟨_, acted⟩

end Workers

section Histories

variable {ι δ : Type} (initial : δ)

/-- Apply changes one after another. -/
def replay (history : List (ι × (δ → δ))) : δ :=
  history.foldl (fun data entry => entry.2 data) initial

/-- The last change is applied last. -/
@[simp] theorem replay_concat (history : List (ι × (δ → δ))) (thread : ι) (change : δ → δ) :
    replay initial (history ++ [(thread, change)]) = change (replay initial history) := by
  simp [replay]

/-- The changes of a program. -/
def changes (program : List (CriticalSection δ)) : List (δ → δ) :=
  program.filterMap fun
    | .read => none
    | .write change => some change

/-- The changes of one thread. -/
def changesBy [DecidableEq ι] (thread : ι) (history : List (ι × (δ → δ))) : List (δ → δ) :=
  (history.filter fun entry => entry.1 = thread).map Prod.snd

variable [DecidableEq ι]

/-- A change counts for the thread that made it. -/
theorem changesBy_self (thread : ι) (history : List (ι × (δ → δ))) (change : δ → δ) :
    changesBy thread (history ++ [(thread, change)]) = changesBy thread history ++ [change] := by
  simp [changesBy]

/-- For no other one does it. -/
theorem changesBy_other {thread other : ι} (differ : other ≠ thread)
    (history : List (ι × (δ → δ))) (change : δ → δ) :
    changesBy other (history ++ [(thread, change)]) = changesBy other history := by
  simp [changesBy, differ.symm]

end Histories

namespace Stage

variable {ι δ : Type}

/-- Where the lock sees a thread at this stage. -/
def status (guard : Kind → Kind) : Stage ι δ → Status
  | .between => .outside
  | .entering task => .entering (guard task.kind)
  | .reading _ _ => .inside (guard .read)
  | .holding _ => .inside (guard .write)
  | .fetched _ _ => .inside (guard .write)
  | .stored => .inside (guard .write)

/-- The thread has a write guard for its change. -/
def Changes : Stage ι δ → Prop
  | .holding _ => True
  | .fetched _ _ => True
  | .stored => True
  | _ => False

/-- The thread has a guard. -/
def Inside (stage : Stage ι δ) : Prop := (∃ seen entered, stage = .reading seen entered) ∨ stage.Changes

/-- A change the thread has begun but which is not in the history. -/
def due : Stage ι δ → List (δ → δ)
  | .entering (.write change) => [change]
  | _ => []

/-- The last change of the history is not yet made. -/
def Busy : Stage ι δ → Prop
  | .holding _ => True
  | .fetched _ _ => True
  | _ => False

/-- What a thread at this stage knows of the data. -/
def Sees (initial : δ) (thread : ι) (data : δ) (history : List (ι × (δ → δ))) : Stage ι δ → Prop
  | .reading seen entered => entered = history ∧ ∀ value ∈ seen, value = replay initial history
  | .holding change => ∃ prior, history = prior ++ [(thread, change)] ∧ data = replay initial prior
  | .fetched change value =>
      ∃ prior, history = prior ++ [(thread, change)] ∧ value = replay initial prior
  | .stored => data = replay initial history
  | _ => True

/-- Outside its sections a thread knows nothing. -/
theorem sees_of_outside {initial data : δ} {thread : ι} {history : List (ι × (δ → δ))}
    {stage : Stage ι δ} (outside : ¬ stage.Inside) : stage.Sees initial thread data history := by
  cases stage with
  | between => trivial
  | entering => trivial
  | reading seen entered => exact absurd (.inl ⟨seen, entered, rfl⟩) outside
  | holding => exact absurd (.inr trivial) outside
  | fetched => exact absurd (.inr trivial) outside
  | stored => exact absurd (.inr trivial) outside

/-- A busy worker is one with a change to make. -/
theorem changes_of_busy {stage : Stage ι δ} (busy : stage.Busy) : stage.Changes := by
  cases stage with
  | holding => trivial
  | fetched => trivial
  | _ => exact busy.elim

variable {guard : Kind → Kind}

/-- A worker with a change to make holds the write guard. -/
theorem status_of_changes {stage : Stage ι δ} (changes : stage.Changes) :
    stage.status guard = .inside (guard .write) := by
  cases stage with
  | holding => rfl
  | fetched => rfl
  | stored => rfl
  | _ => exact changes.elim

/-- A worker inside a section holds its guard. -/
theorem status_of_inside {stage : Stage ι δ} (inside : stage.Inside) :
    ∃ kind, stage.status guard = .inside kind := by
  obtain ⟨seen, entered, rfl⟩ | changes := inside
  · exact ⟨_, rfl⟩
  · exact ⟨_, status_of_changes changes⟩

end Stage

section Serialisation

variable {ι σ τ α δ : Type} (lock : Protocol σ τ α) (initial : δ)
  (programs : ι → List (CriticalSection δ))

/-- Beside a write guard no other guard is held. -/
def Exclusive (config : Config ι σ τ) : Prop :=
  ∀ one other kind, one ≠ other → lock.status (config.threads one) = some (.inside .write) →
    lock.status (config.threads other) ≠ some (.inside kind)

/-- Workers which have not begun, at a lock and data nobody has used. -/
def idle (begin : Config ι σ τ) : Config ι (Guarded ι σ δ) (Worker ι τ δ) :=
  ⟨⟨begin.shared, initial, []⟩, fun thread => ⟨thread, begin.threads thread, .between, programs thread⟩⟩

/-- How one worker fits to the data and their history. -/
structure Fits [DecidableEq ι] (thread : ι) (data : δ) (history : List (ι × (δ → δ)))
    (worker : Worker ι τ δ) : Prop where
  named : worker.name = thread
  placed : lock.status worker.own = some (worker.stage.status lock.guard)
  order : changesBy thread history ++ worker.stage.due ++ changes worker.program =
    changes (programs thread)
  sees : worker.stage.Sees initial thread data history

/-- The invariant: every worker fits, and without a change under way the data is what the
history makes of the initial data. -/
structure Sound [DecidableEq ι] (config : Config ι (Guarded ι σ δ) (Worker ι τ δ)) : Prop where
  fits : ∀ thread, Fits lock initial programs thread config.shared.data config.shared.history
    (config.threads thread)
  settled : (∀ thread, ¬ (config.threads thread).stage.Busy) →
    config.shared.data = replay initial config.shared.history

variable {lock initial programs}

/-- The lock sees a worker at its stage after every step. -/
theorem Advance.placed {shared after : Guarded ι σ δ} {worker next : Worker ι τ δ}
    (advance : Advance lock shared worker after next)
    (placed : lock.status worker.own = some (worker.stage.status lock.guard)) :
    lock.status next.own = some (next.stage.status lock.guard) := by
  cases advance with
  | start here program taken =>
      rw [here] at placed
      exact lock.called placed taken
  | wait here taken outside =>
      rw [here] at placed
      exact (lock.entered placed taken).resolve_right outside
  | enterRead here taken inside => exact inside
  | enterWrite here taken inside => exact inside
  | look here =>
      rw [here] at placed
      exact placed
  | fetch here =>
      rw [here] at placed
      exact placed
  | tear => exact placed
  | store here =>
      rw [here] at placed
      exact placed
  | dropRead here taken =>
      rw [here] at placed
      exact lock.dropped placed taken
  | dropWrite here taken =>
      rw [here] at placed
      exact lock.dropped placed taken

/-- The worker which takes a step still fits, if the data is settled where it has a guard or
obtains a write guard, and no change under way. -/
theorem Fits.advance [DecidableEq ι] {thread : ι} {shared after : Guarded ι σ δ}
    {worker next : Worker ι τ δ}
    (fits : Fits lock initial programs thread shared.data shared.history worker)
    (advance : Advance lock shared worker after next)
    (calm : ¬ worker.stage.Busy → worker.stage.Inside ∨ next.stage.Changes →
      shared.data = replay initial shared.history) :
    Fits lock initial programs thread after.data after.history next := by
  have placed := advance.placed fits.placed
  obtain ⟨named, -, order, sees⟩ := fits
  cases advance with
  | @start task rest now own here program taken =>
      rw [here, program] at order
      refine ⟨named, placed, ?_, trivial⟩
      cases task with
      | read => simpa [changes, Stage.due] using order
      | write change => simpa [changes, Stage.due] using order
  | wait here taken outside =>
      rw [here] at order
      exact ⟨named, placed, order, trivial⟩
  | enterRead here taken inside =>
      rw [here] at order
      exact ⟨named, placed, order, rfl, by simp⟩
  | @enterWrite change action now own here taken inside =>
      have settled := calm (by simp [here, Stage.Busy]) (.inr trivial)
      rw [here] at order
      refine ⟨named, placed, ?_, shared.history, by rw [named], settled⟩
      subst named
      simpa [changesBy_self, Stage.due] using order
  | @look seen entered here =>
      have settled := calm (by simp [here, Stage.Busy]) (.inl (.inl ⟨_, _, here⟩))
      rw [here] at order sees
      obtain ⟨same, values⟩ := sees
      refine ⟨named, placed, order, same, ?_⟩
      intro value member
      obtain member | rfl : value ∈ seen ∨ value = shared.data := by simpa using member
      · exact values value member
      · exact settled
  | fetch here =>
      rw [here] at order sees
      obtain ⟨prior, last, data⟩ := sees
      exact ⟨named, placed, order, prior, last, data⟩
  | tear here =>
      refine ⟨named, placed, order, ?_⟩
      rw [here] at sees ⊢
      exact sees
  | @store change value here =>
      rw [here] at order sees
      obtain ⟨prior, last, rfl⟩ := sees
      refine ⟨named, placed, order, ?_⟩
      change change _ = replay initial shared.history
      rw [last, replay_concat]
  | dropRead here taken =>
      rw [here] at order
      exact ⟨named, placed, order, trivial⟩
  | dropWrite here taken =>
      rw [here] at order
      exact ⟨named, placed, order, trivial⟩

/-- Only a worker with a write guard changes the data or the history. -/
theorem Advance.changed {shared after : Guarded ι σ δ} {worker next : Worker ι τ δ}
    (advance : Advance lock shared worker after next) :
    (after.data = shared.data ∧ after.history = shared.history) ∨
      (worker.stage.Changes ∧ after.history = shared.history) ∨
      (next.stage.Changes ∧
        ∃ change, after.history = shared.history ++ [(worker.name, change)]) := by
  cases advance with
  | enterWrite => exact .inr (.inr ⟨trivial, _, rfl⟩)
  | tear here => exact .inr (.inl ⟨by rw [here]; trivial, rfl⟩)
  | store here => exact .inr (.inl ⟨by rw [here]; trivial, rfl⟩)
  | _ => exact .inl ⟨rfl, rfl⟩

/-- Without a change under way after a step there was none before it, or it is complete. -/
theorem Advance.settles {shared after : Guarded ι σ δ} {worker next : Worker ι τ δ}
    (advance : Advance lock shared worker after next) (quiet : ¬ next.stage.Busy) :
    next.stage = .stored ∨
      (¬ worker.stage.Busy ∧ after.data = shared.data ∧ after.history = shared.history) := by
  cases advance with
  | enterWrite => exact absurd trivial quiet
  | fetch => exact absurd trivial quiet
  | tear here => exact absurd (by rw [here]; trivial) quiet
  | store => exact .inl rfl
  | start here => exact .inr ⟨by simp [here, Stage.Busy], rfl, rfl⟩
  | wait here => exact .inr ⟨by simp [here, Stage.Busy], rfl, rfl⟩
  | enterRead here => exact .inr ⟨by simp [here, Stage.Busy], rfl, rfl⟩
  | look here => exact .inr ⟨by simp [here, Stage.Busy], rfl, rfl⟩
  | dropRead here => exact .inr ⟨by simp [here, Stage.Busy], rfl, rfl⟩
  | dropWrite here => exact .inr ⟨by simp [here, Stage.Busy], rfl, rfl⟩

/-- A worker outside its sections fits to whatever another one does. -/
theorem Fits.aside [DecidableEq ι] {thread other : ι} {data now : δ}
    {history later : List (ι × (δ → δ))} {worker : Worker ι τ δ} (differ : other ≠ thread)
    (fits : Fits lock initial programs other data history worker)
    (outside : ¬ worker.stage.Inside)
    (grown : later = history ∨ ∃ change, later = history ++ [(thread, change)]) :
    Fits lock initial programs other now later worker := by
  refine ⟨fits.named, fits.placed, ?_, Stage.sees_of_outside outside⟩
  obtain rfl | ⟨change, rfl⟩ := grown
  · exact fits.order
  · rw [changesBy_other differ]
    exact fits.order

variable [DecidableEq ι] {before after : Config ι (Guarded ι σ δ) (Worker ι τ δ)} {thread : ι}
  {move : Move α δ}

/-- The lock under the workers. -/
abbrev underlying (config : Config ι (Guarded ι σ δ) (Worker ι τ δ)) : Config ι σ τ :=
  config.lower Guarded.lock Worker.own

omit [DecidableEq ι] in
/-- Beside a worker with a write guard no other one has a guard. -/
theorem alone_of_exclusive {config : Config ι (Guarded ι σ δ) (Worker ι τ δ)}
    (exclusive : Exclusive lock (underlying config))
    (placed : ∀ thread, lock.status (config.threads thread).own =
      some ((config.threads thread).stage.status lock.guard))
    {one other : ι} (differ : other ≠ one) (writes : (config.threads one).stage.Changes) :
    ¬ (config.threads other).stage.Inside := by
  intro inside
  have writer := placed one
  have there := placed other
  obtain ⟨kind, inside⟩ := Stage.status_of_inside inside
  rw [Stage.status_of_changes writes, lock.guard_write] at writer
  rw [inside] at there
  exact exclusive one other kind differ.symm writer there

/-- A step of a worker keeps the invariant, if no guard is held beside a write guard
before and after it. -/
theorem Sound.step (sound : Sound lock initial programs before)
    (exclusive : Exclusive lock (underlying before)) (still : Exclusive lock (underlying after))
    (taken : before.step (critical lock) thread move = some after) :
    Sound lock initial programs after := by
  obtain ⟨acted, others⟩ := Config.acted_of_step taken
  have advance := advance_of_critical acted
  have fits := sound.fits thread
  have was : ∀ other, lock.status (before.threads other).own =
      some ((before.threads other).stage.status lock.guard) := fun other => (sound.fits other).placed
  have placed : ∀ other, lock.status (after.threads other).own =
      some ((after.threads other).stage.status lock.guard) := by
    intro other
    by_cases self : other = thread
    · rw [self]
      exact advance.placed fits.placed
    · rw [others other self]
      exact was other
  -- A worker with a write guard, before or after the step, is alone.
  have alone : (before.threads thread).stage.Changes ∨ (after.threads thread).stage.Changes →
      ∀ other, other ≠ thread → ¬ (before.threads other).stage.Inside := by
    rintro (writes | writes) other differs
    · exact alone_of_exclusive exclusive was differs writes
    · rw [← others other differs]
      exact alone_of_exclusive still placed differs writes
  have calm : ¬ (before.threads thread).stage.Busy →
      (before.threads thread).stage.Inside ∨ (after.threads thread).stage.Changes →
      before.shared.data = replay initial before.shared.history := by
    intro idle holds
    apply sound.settled
    intro other busy
    have writes := Stage.changes_of_busy busy
    by_cases self : other = thread
    · exact idle (self ▸ busy)
    · rcases holds with inside | obtains
      · exact alone_of_exclusive exclusive was (Ne.symm self) writes inside
      · exact alone (.inr obtains) other self (.inr writes)
  have advanced := fits.advance advance calm
  constructor
  · intro other
    by_cases self : other = thread
    · rw [self]
      exact advanced
    · rw [others other self]
      obtain ⟨data, history⟩ | ⟨writes, history⟩ | ⟨writes, change, history⟩ := advance.changed
      · rw [data, history]
        exact sound.fits other
      · exact (sound.fits other).aside self (alone (.inl writes) other self) (.inl history)
      · rw [fits.named] at history
        exact (sound.fits other).aside self (alone (.inr writes) other self) (.inr ⟨change, history⟩)
  · intro quiet
    obtain stored | ⟨idle, data, history⟩ := advance.settles (quiet thread)
    · have complete := advanced.sees
      rwa [stored] at complete
    · rw [data, history]
      apply sound.settled
      intro other
      by_cases self : other = thread
      · rwa [self]
      · exact others other self ▸ quiet other

/-- What the sections of the threads together do. -/
structure Serialised (initial : δ) (programs : ι → List (CriticalSection δ))
    (config : Config ι (Guarded ι σ δ) (Worker ι τ δ)) : Prop where
  /-- A section which reads sees the one value which the changes make whose guards were
  obtained before its own. -/
  read : ∀ thread seen entered, (config.threads thread).stage = .reading seen entered →
    ∀ value ∈ seen, value = replay initial entered
  /-- The changes of a thread are in the history once each, in its order, as far as it has
  obtained guards for them. -/
  order : ∀ thread, changesBy thread config.shared.history ++ (config.threads thread).stage.due ++
    changes (config.threads thread).program = changes (programs thread)
  /-- When all have finished, the data is what all changes make in the order of their guards. -/
  final : (∀ thread, (config.threads thread).stage = .between ∧ (config.threads thread).program = []) →
    config.shared.data = replay initial config.shared.history ∧
      ∀ thread, changesBy thread config.shared.history = changes (programs thread)

/-- Sound configurations are serialised. -/
theorem Sound.serialised {config : Config ι (Guarded ι σ δ) (Worker ι τ δ)}
    (sound : Sound lock initial programs config) : Serialised initial programs config := by
  refine ⟨?_, fun thread => (sound.fits thread).order, ?_⟩
  · intro thread seen entered here value member
    have sees := (sound.fits thread).sees
    rw [here] at sees
    obtain ⟨same, values⟩ := sees
    rw [same]
    exact values value member
  · intro finished
    constructor
    · apply sound.settled
      intro thread
      simp [(finished thread).1, Stage.Busy]
    · intro thread
      have order := (sound.fits thread).order
      obtain ⟨between, empty⟩ := finished thread
      rw [between, empty] at order
      simpa [changes, Stage.due] using order

/-- Under the workers the lock runs. -/
theorem underlying_runs (lock : Protocol σ τ α) (allowed : Config ι σ τ → Prop)
    {begin : Config ι σ τ} {events : List (ι × Move α δ)}
    {config : Config ι (Guarded ι σ δ) (Worker ι τ δ)}
    (runs : Runs (critical lock) (fun config => allowed (underlying config))
      (idle initial programs begin) events config) :
    ∃ below, Runs lock.act allowed begin below (underlying config) :=
  critical_refines.runs runs

/-- Over a lock whose runs never hold a guard beside a write guard, the sections are
serialisable in every interleaving. -/
theorem serialised_of_runs (lock : Protocol σ τ α) {allowed : Config ι σ τ → Prop} {begin : Config ι σ τ}
    (outside : ∀ thread, lock.status (begin.threads thread) = some .outside)
    (exclusive : ∀ events config, Runs lock.act allowed begin events config → Exclusive lock config)
    {events : List (ι × Move α δ)} {config : Config ι (Guarded ι σ δ) (Worker ι τ δ)}
    (runs : Runs (critical lock) (fun config => allowed (underlying config))
      (idle initial programs begin) events config) :
    Serialised initial programs config := by
  have reached : (∃ below, Runs lock.act allowed begin below (underlying config)) ∧
      Sound lock initial programs config := by
    apply runs.invariant
    · refine ⟨⟨[], .refl⟩, ?_, fun _ => rfl⟩
      intro thread
      exact ⟨rfl, outside thread, by simp [idle, changesBy, Stage.due], trivial⟩
    · rintro before thread move after ⟨⟨below, run⟩, sound⟩ taken fine
      obtain ⟨further, later⟩ : ∃ below, Runs lock.act allowed begin below (underlying after) := by
        obtain same | ⟨action, stepped⟩ := critical_refines.step taken
        · rw [underlying, same]
          exact ⟨below, run⟩
        · exact ⟨_, run.step stepped fine⟩
      exact ⟨⟨further, later⟩, sound.step (exclusive _ _ run) (exclusive _ _ later) taken⟩
  exact reached.2.serialised

end Serialisation

section Counters

variable {ι δ : Type}

/-- Changes which add one to a size add their number. -/
theorem size_replay {size : δ → Nat} {initial : δ} {history : List (ι × (δ → δ))}
    (adds : ∀ entry ∈ history, ∀ data, size (entry.2 data) = size data + 1) :
    size (replay initial history) = size initial + history.length := by
  induction history generalizing initial with
  | nil => rfl
  | cons entry rest ih =>
      obtain ⟨first, others⟩ := List.forall_mem_cons.mp adds
      change size (replay (entry.2 initial) rest) = _
      rw [ih others, first, List.length_cons]
      omega

variable [Fintype ι] [DecidableEq ι]

/-- Every entry of a history is of one thread. -/
theorem length_eq_sum (history : List (ι × (δ → δ))) :
    history.length = ∑ thread, (changesBy thread history).length := by
  induction history with
  | nil => simp [changesBy]
  | cons entry rest ih =>
      have more : ∀ thread, (changesBy thread (entry :: rest)).length =
          (changesBy thread rest).length + if entry.1 = thread then 1 else 0 := by
        intro thread
        by_cases self : entry.1 = thread <;> simp [changesBy, self]
      rw [Finset.sum_congr rfl fun thread _ => more thread, Finset.sum_add_distrib, ← ih,
        Finset.sum_ite_eq, if_pos (Finset.mem_univ _), List.length_cons]

/-- Where every change adds one to a size and every thread makes the same number of them, the
size has grown by all of them in the end. -/
theorem Serialised.counts {σ τ : Type} {initial : δ} {programs : ι → List (CriticalSection δ)}
    {config : Config ι (Guarded ι σ δ) (Worker ι τ δ)} (serialised : Serialised initial programs config)
    (finished : ∀ thread,
      (config.threads thread).stage = .between ∧ (config.threads thread).program = [])
    {size : δ → Nat} {times : Nat} (each : ∀ thread, (changes (programs thread)).length = times)
    (adds : ∀ thread, ∀ change ∈ changes (programs thread), ∀ data,
      size (change data) = size data + 1) :
    size config.shared.data = size initial + Fintype.card ι * times := by
  obtain ⟨data, order⟩ := serialised.final finished
  have grown : size (replay initial config.shared.history) =
      size initial + config.shared.history.length := by
    apply size_replay
    intro entry member
    apply adds entry.1
    rw [← order entry.1]
    simp only [changesBy, List.mem_map, List.mem_filter, decide_eq_true_eq]
    exact ⟨entry, ⟨member, rfl⟩, rfl⟩
  have total : ∑ thread, (changesBy thread config.shared.history).length =
      Fintype.card ι * times :=
    Finset.sum_const_nat fun thread _ => by rw [order, each]
  rw [data, grown, length_eq_sum, total]

end Counters
end Rpi5.Semantics
