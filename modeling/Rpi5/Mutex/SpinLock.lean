import Rpi5.Semantics.Sections

/-!
# The spin lock

`SpinLock` of the source, as the atomic steps of any number of threads on its flag.
`compare_exchange_weak` succeeds only where the flag is clear and may fail at any time.
At most one guard is alive, and the flag says whether one is; so the sections under the
lock are serialisable.
-/

namespace Rpi5.Mutex

open Rpi5.Semantics

/-- A thread: whether it is inside `SpinLock::lock`, and the guards it holds. -/
structure Spinner where
  spinning : Bool
  guards : Nat
deriving DecidableEq, Repr

/-- The choices of a thread. -/
inductive Spin where
  | lock
  | exchange
  | fail
  | drop
deriving DecidableEq, Repr

/-- A thread which has not used the lock. -/
def Spinner.fresh : Spinner := ⟨false, 0⟩

/-- The steps of a thread on the flag `locked`. -/
def spin : Acting Bool Spinner Spin := fun locked thread action =>
  match thread.spinning, action with
  | false, .lock => some (locked, { thread with spinning := true })
  | true, .exchange =>
      if locked = false then some (true, ⟨false, thread.guards + 1⟩) else none
  | true, .fail => some (locked, thread)
  | false, .drop =>
      if 0 < thread.guards then some (false, { thread with guards := thread.guards - 1 }) else none
  | _, _ => none

/-- A lock and its threads. -/
abbrev SpinLock (ι : Type) := Config ι Bool Spinner

namespace SpinLock

variable {ι : Type}

/-- `SpinLock::new`, with threads which have not used it. -/
def new : SpinLock ι := ⟨false, fun _ => .fresh⟩

/-- The number of live guards. -/
def guards [Fintype ι] (lock : SpinLock ι) : Nat := total Spinner.guards lock.threads

/-- What a step does to the flag and the guards. -/
inductive Spun (locked : Bool) (thread : Spinner) : Bool → Spinner → Prop where
  | quiet {spinning} : Spun locked thread locked { thread with spinning := spinning }
  | enter (free : locked = false) : Spun locked thread true ⟨false, thread.guards + 1⟩
  | leave (held : 0 < thread.guards) :
      Spun locked thread false { thread with guards := thread.guards - 1 }

/-- Each step of a spinning thread is one of those that `Spun` lists. -/
theorem spun_of_spin {locked after : Bool} {thread own : Spinner} {action : Spin}
    (taken : spin locked thread action = some (after, own)) : Spun locked thread after own := by
  obtain ⟨spinning, guards⟩ := thread
  cases spinning with
  | false =>
      cases action with
      | lock =>
          obtain ⟨rfl, rfl⟩ := Prod.mk.inj (Option.some.inj taken)
          exact .quiet
      | drop =>
          obtain ⟨held, same⟩ := Option.ite_none_right_eq_some.mp taken
          obtain ⟨rfl, rfl⟩ := Prod.mk.inj (Option.some.inj same)
          exact .leave held
      | exchange => cases taken
      | fail => cases taken
  | true =>
      cases action with
      | exchange =>
          obtain ⟨free, same⟩ := Option.ite_none_right_eq_some.mp taken
          obtain ⟨rfl, rfl⟩ := Prod.mk.inj (Option.some.inj same)
          exact .enter free
      | fail =>
          obtain ⟨rfl, rfl⟩ := Prod.mk.inj (Option.some.inj taken)
          exact .quiet
      | lock => cases taken
      | drop => cases taken

variable [Fintype ι] [DecidableEq ι]

/-- The invariant: at most one guard is alive, and the flag is set exactly if one is. -/
structure Flagged (lock : SpinLock ι) : Prop where
  single : lock.guards ≤ 1
  flag : lock.shared = true ↔ lock.guards = 1

omit [DecidableEq ι] in
/-- A new lock is flagged. -/
theorem flagged_new : (new : SpinLock ι).Flagged := by
  have empty : (new : SpinLock ι).guards = 0 := (total_eq_zero _).mpr fun _ => rfl
  refine ⟨by omega, ?_⟩
  rw [empty]
  exact ⟨fun set => (by cases set), fun one => (by cases one)⟩

/-- Every step keeps the flag right. -/
theorem Flagged.step {before after : SpinLock ι} {thread : ι} {action : Spin}
    (flagged : before.Flagged) (taken : before.step spin thread action = some after) :
    after.Flagged := by
  obtain ⟨acted, others⟩ := Config.acted_of_step taken
  have counted : after.guards + (before.threads thread).guards =
      before.guards + (after.threads thread).guards := total_of_others _ others
  have mine : (before.threads thread).guards ≤ before.guards := le_total _ _ _
  obtain ⟨single, flag⟩ := flagged
  clear others
  generalize before.threads thread = old at *
  generalize after.threads thread = own at *
  generalize now : after.shared = locked at acted
  cases spun_of_spin acted with
  | quiet =>
      have unchanged : after.guards = before.guards := by simpa using counted
      exact ⟨by omega, by rw [now, unchanged, flag]⟩
  | enter free =>
      have unlocked : ¬ before.guards = 1 := fun one => by simp [free] at flag; omega
      simp only at counted
      exact ⟨by omega, by rw [now]; simp; omega⟩
  | leave held =>
      simp only at counted
      exact ⟨by omega, by rw [now]; simp; omega⟩

/-- In every state of every run the flag says whether the one guard is alive. -/
theorem flagged_of_runs {allowed : SpinLock ι → Prop} {events : List (ι × Spin)} {lock : SpinLock ι}
    (runs : Runs spin allowed new events lock) : lock.Flagged :=
  runs.invariant flagged_new fun _ _ _ _ flagged taken _ => flagged.step taken

/-- Where the lock sees a thread with at most one guard. Every guard may change the data. -/
def status (thread : Spinner) : Option Status :=
  match thread.spinning, thread.guards with
  | false, 0 => some .outside
  | true, 0 => some (.entering .write)
  | false, 1 => some (.inside .write)
  | _, _ => none

/-- A thread is outside exactly if it has no guard and does not spin. -/
theorem status_outside {thread : Spinner} : status thread = some .outside ↔ thread = .fresh := by
  obtain ⟨spinning, guards⟩ := thread
  cases spinning <;> rcases guards with _ | _ | guards <;> simp [status, Spinner.fresh]

/-- It is entering exactly if it spins and has no guard. -/
theorem status_entering {thread : Spinner} {kind : Kind} :
    status thread = some (.entering kind) ↔ kind = .write ∧ thread = ⟨true, 0⟩ := by
  obtain ⟨spinning, guards⟩ := thread
  cases spinning <;> cases kind <;> rcases guards with _ | _ | guards <;> simp [status]

/-- It is inside exactly if it has the one guard. -/
theorem status_inside {thread : Spinner} {kind : Kind} :
    status thread = some (.inside kind) ↔ kind = .write ∧ thread = ⟨false, 1⟩ := by
  obtain ⟨spinning, guards⟩ := thread
  cases spinning <;> cases kind <;> rcases guards with _ | _ | guards <;> simp [status]

/-- The lock for one guard after another. -/
def protocol : Protocol Bool Spinner Spin where
  act := spin
  call _ := .lock
  drop _ := .drop
  guard _ := .write
  status := status
  guard_write := rfl
  called := by
    intro locked own kind after next outside taken
    obtain rfl := status_outside.mp outside
    obtain ⟨-, rfl⟩ := Prod.mk.inj (Option.some.inj taken)
    rfl
  entered := by
    intro locked own kind action after next entering taken
    obtain ⟨rfl, rfl⟩ := status_entering.mp entering
    cases action with
    | exchange =>
        obtain ⟨-, same⟩ := Option.ite_none_right_eq_some.mp taken
        obtain ⟨-, rfl⟩ := Prod.mk.inj (Option.some.inj same)
        exact .inr rfl
    | fail =>
        obtain ⟨-, rfl⟩ := Prod.mk.inj (Option.some.inj taken)
        exact .inl rfl
    | lock => cases taken
    | drop => cases taken
  dropped := by
    intro locked own kind after next inside taken
    obtain ⟨-, rfl⟩ := status_inside.mp inside
    obtain ⟨-, rfl⟩ := Prod.mk.inj (Option.some.inj taken)
    rfl

/-- No guard is held beside another. -/
theorem Flagged.exclusive {lock : SpinLock ι} (flagged : lock.Flagged) : Exclusive protocol lock := by
  intro one other kind differ writes inside
  have single := flagged.single
  have both : (lock.threads one).guards + (lock.threads other).guards ≤ lock.guards :=
    add_le_total _ _ differ
  have first : (lock.threads one).guards = 1 := by rw [(status_inside.mp writes).2]
  have second : (lock.threads other).guards = 1 := by rw [(status_inside.mp inside).2]
  omega

variable {δ : Type}

/-- For any programs of sections and any interleaving, at most one guard is alive in every
state, `locked` is true exactly if one is, and in the end the data is what the changes
make in the order of their guards, each of them once. -/
theorem flagged_serialised {initial : δ} {programs : ι → List (CriticalSection δ)}
    {events : List (ι × Move Spin δ)} {config : Config ι (Guarded ι Bool δ) (Worker ι Spinner δ)}
    (runs : Runs (critical protocol) (fun _ => True) (idle initial programs new) events config) :
    Flagged (underlying config) ∧ Serialised initial programs config := by
  have exclusive : ∀ events lock, Runs spin (fun _ => True) new events lock →
      Exclusive protocol (lock : SpinLock ι) := by
    intro events lock run
    exact (flagged_of_runs run).exclusive
  obtain ⟨below, run⟩ := underlying_runs protocol (fun _ => True) runs
  exact ⟨flagged_of_runs run, serialised_of_runs protocol (fun _ => rfl) exclusive runs⟩

/-- Two threads add one and double. -/
def changing : Fin 2 → List (CriticalSection Nat)
  | 0 => [.write (· + 1)]
  | 1 => [.write (2 * ·)]

/-- The first exchange fails spuriously, and the second thread spins meanwhile. -/
def changingMoves {τ : Type} (first second : τ) : List (τ × Move Spin Nat) :=
  [(first, .start), (first, .lock .fail), (second, .start), (first, .lock .exchange),
    (second, .lock .fail), (first, .peek), (first, .store), (first, .drop),
    (second, .lock .exchange), (second, .peek), (second, .store), (second, .drop)]

/-- Two threads which change 3 one after the other end with 8. -/
theorem changing_serialised :
    ∃ config : Config (Fin 2) (Guarded (Fin 2) Bool Nat) (Worker (Fin 2) Spinner Nat),
    config.shared.data = 8 ∧ Flagged (underlying config) ∧ Serialised 3 changing config := by
  obtain ⟨config, run, facts⟩ : ∃ config,
      Runs (critical protocol) (fun _ => True) (idle 3 changing new) (changingMoves 0 1) config ∧
        decide (config.shared.data = 8) = true :=
    exists_run_of_exec (by decide)
  exact ⟨config, of_decide_eq_true facts, flagged_serialised run⟩

end SpinLock
end Rpi5.Mutex
