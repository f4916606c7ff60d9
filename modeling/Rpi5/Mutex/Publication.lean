import Rpi5.Mutex.SpinLock
import Mathlib.Data.Finset.Range

/-!
# What threads know under the spin lock

The orderings of `SpinLock`: the successful exchange in `lock` is an `Acquire`, the store in
the drop of a guard a `Release`, a failed exchange is relaxed. A plain store leaves nothing
of what was published before, so only what the last thread to drop a guard knew is passed
on. As guards exclude each other that is everything: the accesses under the lock are
ordered, each is known to all later ones.
-/

namespace Rpi5.Mutex

open Rpi5.Semantics

/-- The flag with what is published at it, and the number of accesses to the data so far.
The accesses are numbered in their order. -/
structure Posted where
  locked : Bool
  known : Finset Nat
  accesses : Nat
deriving DecidableEq

/-- A thread with the accesses it knows of. -/
structure Informed where
  spinner : Spinner
  knows : Finset Nat
deriving DecidableEq

/-- The choices of a thread: a step on the flag, or an access to the data under a guard. -/
inductive Use where
  | spin (action : Spin)
  | access
deriving DecidableEq, Repr

namespace Posted

/-- What is published at the flag after a step. Only the drop of a guard stores it. -/
def publish (shared : Posted) (own : Informed) : Spin → Finset Nat
  | .drop => own.knows
  | _ => shared.known

end Posted

namespace Informed

/-- What a thread knows after a step. Only a successful exchange reads what is published. -/
def learn (own : Informed) (shared : Posted) : Spin → Finset Nat
  | .exchange => own.knows ∪ shared.known
  | _ => own.knows

end Informed

/-- The steps of a thread, with what it learns and publishes. -/
def publishing : Acting Posted Informed Use := fun shared own use => match use with
  | .spin action => (spin shared.locked own.spinner action).map fun (locked, spinner) =>
      (⟨locked, shared.publish own action, shared.accesses⟩, ⟨spinner, own.learn shared action⟩)
  | .access =>
      if own.spinner.spinning = false ∧ 0 < own.spinner.guards then
        some ({ shared with accesses := shared.accesses + 1 },
          { own with knows := insert shared.accesses own.knows })
      else none

/-- Every step is one of the lock, or leaves it as it is. -/
theorem publishing_refines : Refines Posted.locked Informed.spinner publishing spin := by
  intro shared own use after next taken
  cases use with
  | spin action =>
      obtain ⟨⟨locked, spinner⟩, spun, same⟩ := Option.map_eq_some_iff.mp taken
      obtain ⟨rfl, rfl⟩ := Prod.mk.inj same
      exact .inr ⟨action, spun⟩
  | access =>
      obtain ⟨-, same⟩ := Option.ite_none_right_eq_some.mp taken
      obtain ⟨rfl, rfl⟩ := Prod.mk.inj (Option.some.inj same)
      exact .inl ⟨rfl, rfl⟩

/-- What a step does to the lock and to what is known. -/
inductive Passed (shared : Posted) (own : Informed) : Posted → Informed → Prop where
  | quiet {spinning} :
      Passed shared own shared { own with spinner := { own.spinner with spinning := spinning } }
  | enter (free : shared.locked = false) :
      Passed shared own { shared with locked := true }
        ⟨⟨false, own.spinner.guards + 1⟩, own.knows ∪ shared.known⟩
  | leave (held : 0 < own.spinner.guards) :
      Passed shared own ⟨false, own.knows, shared.accesses⟩
        { own with spinner := { own.spinner with guards := own.spinner.guards - 1 } }
  | access (held : 0 < own.spinner.guards) :
      Passed shared own { shared with accesses := shared.accesses + 1 }
        { own with knows := insert shared.accesses own.knows }

/-- Each step of a thread with its knowledge is one of those that can pass. -/
theorem passed_of_publishing {shared after : Posted} {own next : Informed} {use : Use}
    (taken : publishing shared own use = some (after, next)) : Passed shared own after next := by
  cases use with
  | access =>
      obtain ⟨⟨-, held⟩, same⟩ := Option.ite_none_right_eq_some.mp taken
      obtain ⟨rfl, rfl⟩ := Prod.mk.inj (Option.some.inj same)
      exact .access held
  | spin action =>
      obtain ⟨⟨locked, spinner⟩, spun, same⟩ := Option.map_eq_some_iff.mp taken
      obtain ⟨rfl, rfl⟩ := Prod.mk.inj same
      obtain ⟨⟨spinning, guards⟩, knows⟩ := own
      -- The flag is only written by the exchange and the drop.
      cases spinning with
      | false =>
          cases action with
          | lock =>
              obtain ⟨rfl, rfl⟩ := Prod.mk.inj (Option.some.inj spun)
              exact .quiet
          | drop =>
              obtain ⟨held, given⟩ := Option.ite_none_right_eq_some.mp spun
              obtain ⟨rfl, rfl⟩ := Prod.mk.inj (Option.some.inj given)
              exact .leave held
          | exchange => cases spun
          | fail => cases spun
      | true =>
          cases action with
          | exchange =>
              obtain ⟨free, given⟩ := Option.ite_none_right_eq_some.mp spun
              obtain ⟨rfl, rfl⟩ := Prod.mk.inj (Option.some.inj given)
              exact .enter free
          | fail =>
              obtain ⟨rfl, rfl⟩ := Prod.mk.inj (Option.some.inj spun)
              exact .quiet
          | lock => cases spun
          | drop => cases spun

namespace SpinLock

variable {ι : Type} [Fintype ι] [DecidableEq ι]

/-- Nothing has been accessed, and nobody knows anything. -/
def unused : Config ι Posted Informed := ⟨⟨false, ∅, 0⟩, fun _ => ⟨.fresh, ∅⟩⟩

/-- The lock below. -/
def below (config : Config ι Posted Informed) : SpinLock ι :=
  config.lower Posted.locked Informed.spinner

/-- All accesses are published where the lock is free, and known to a thread with a guard. -/
structure Ordered (config : Config ι Posted Informed) : Prop where
  flagged : (below config).Flagged
  free : config.shared.locked = false → Finset.range config.shared.accesses ⊆ config.shared.known
  held : ∀ thread, 0 < (config.threads thread).spinner.guards →
    Finset.range config.shared.accesses ⊆ (config.threads thread).knows

omit [DecidableEq ι] in
/-- An unused lock is ordered. -/
theorem ordered_unused : Ordered (unused : Config ι Posted Informed) where
  flagged := flagged_new
  free _ := Finset.Subset.refl _
  held _ guard := absurd guard (Nat.lt_irrefl 0)

/-- Two threads never have guards. -/
theorem Ordered.alone {config : Config ι Posted Informed} (ordered : Ordered config) {one other : ι}
    (first : 0 < (config.threads one).spinner.guards)
    (second : 0 < (config.threads other).spinner.guards) : one = other := by
  by_contra differ
  have single := ordered.flagged.single
  have both : (config.threads one).spinner.guards + (config.threads other).spinner.guards ≤
      (below config).guards := add_le_total Spinner.guards (below config).threads differ
  omega

omit [DecidableEq ι] in
/-- A guard is there only while the flag is set. -/
theorem Ordered.locked_of_guard {config : Config ι Posted Informed} (ordered : Ordered config)
    {thread : ι} (guard : 0 < (config.threads thread).spinner.guards) : config.shared.locked = true := by
  have single := ordered.flagged.single
  have mine : (config.threads thread).spinner.guards ≤ (below config).guards :=
    le_total Spinner.guards (below config).threads thread
  exact ordered.flagged.flag.mpr (by omega)

/-- Every step keeps the order. -/
theorem Ordered.step {before after : Config ι Posted Informed} {thread : ι} {use : Use}
    (ordered : Ordered before) (taken : before.step publishing thread use = some after) :
    Ordered after := by
  have flagged : (below after).Flagged := by
    rcases publishing_refines.step taken with same | ⟨lower, stepped⟩
    · unfold below
      rw [same]
      exact ordered.flagged
    · exact ordered.flagged.step stepped
  obtain ⟨acted, others⟩ := Config.acted_of_step taken
  have passed := passed_of_publishing acted
  obtain ⟨shared, threads⟩ := after
  simp only at passed others
  -- What the other threads know does not change.
  have kept : ∀ other, other ≠ thread → 0 < (threads other).spinner.guards →
      Finset.range before.shared.accesses ⊆ (threads other).knows := by
    intro other differs guard
    rw [others other differs] at guard ⊢
    exact ordered.held other guard
  refine ⟨flagged, fun free => ?free, fun other guard => ?held⟩
  case free =>
    generalize threads thread = next at passed
    cases passed with
    | quiet => exact ordered.free free
    | enter => cases free
    | leave held => exact ordered.held thread held
    | access held =>
        have locked := ordered.locked_of_guard held
        rw [free] at locked
        cases locked
  case held =>
    by_cases mine : other = thread
    · subst mine
      simp only at guard ⊢
      generalize threads other = next at passed guard
      cases passed with
      | quiet => exact ordered.held other guard
      | enter free => exact (ordered.free free).trans Finset.subset_union_right
      | leave held => exact ordered.held other held
      | access held =>
          rw [Finset.range_add_one]
          exact Finset.insert_subset_insert _ (ordered.held other held)
    · have theirs : 0 < (before.threads other).spinner.guards := by
        rw [← others other mine]
        exact guard
      have known := kept other mine guard
      generalize threads thread = next at passed
      cases passed with
      | quiet => exact known
      | enter => exact known
      | leave => exact known
      | access held => exact absurd (ordered.alone theirs held) mine

/-- Whenever a thread has a guard, it knows of every access made to the data so far, by
whichever thread. -/
theorem informed_of_guard {events : List (ι × Use)} {config : Config ι Posted Informed}
    (runs : Runs publishing (fun _ => True) unused events config) (thread : ι)
    (guard : 0 < (config.threads thread).spinner.guards) :
    Finset.range config.shared.accesses ⊆ (config.threads thread).knows := by
  have ordered : Ordered config :=
    runs.invariant ordered_unused fun _ _ _ _ ordered taken _ => ordered.step taken
  exact ordered.held thread guard

/-- The second thread gets its guard after two accesses of the first, one of them under an
earlier guard. -/
def handing : List (Bool × Use) :=
  [(false, .spin .lock), (false, .spin .exchange), (false, .access), (true, .spin .lock),
    (true, .spin .fail), (false, .spin .drop), (false, .spin .lock), (false, .spin .exchange),
    (false, .access), (false, .spin .drop), (true, .spin .exchange)]

/-- Two accesses under the guard are known to the thread which takes it next. -/
theorem handing_informed : ∃ config : Config Bool Posted Informed,
    config.shared.accesses = 2 ∧ Finset.range 2 ⊆ (config.threads true).knows := by
  obtain ⟨config, run, facts⟩ : ∃ config, Runs publishing (fun _ => True) unused handing config ∧
      decide (config.shared.accesses = 2 ∧ 0 < (config.threads true).spinner.guards) = true :=
    exists_run_of_exec (by decide)
  obtain ⟨two, guard⟩ := of_decide_eq_true facts
  have known := informed_of_guard run true guard
  rw [two] at known
  exact ⟨config, two, known⟩

end SpinLock
end Rpi5.Mutex
