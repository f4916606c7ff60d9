import Mathlib.Algebra.Order.BigOperators.Group.Finset
import Mathlib.Tactic.Common

/-!
# Threads over a shared part

Any finite number of threads share one part of the state, and each has a part of
its own. `Acting` says what one thread can do, as a partial function of the choice
it makes; a run interleaves such steps in any order. `Runs` only follows states
which are allowed, so that a bound on the state can be an assumption about a run.

`total` adds up a measure of the threads. A step of one thread changes it by the
change of that thread (`total_of_others`).
-/

namespace Rpi5.Semantics

/-- A shared part and the own part of every thread. -/
@[ext]
structure Config (ι σ τ : Type) where
  shared : σ
  threads : ι → τ

/-- What a thread can do: its choice, if possible, gives the two parts after it. -/
abbrev Acting (σ τ α : Type) := σ → τ → α → Option (σ × τ)

section Running

variable {ι σ τ α : Type} [DecidableEq ι] {act : Acting σ τ α} {allowed : Config ι σ τ → Prop}

/-- One step of one thread. -/
def Config.step (act : Acting σ τ α) (config : Config ι σ τ) (thread : ι) (action : α) :
    Option (Config ι σ τ) :=
  (act config.shared (config.threads thread) action).map fun (shared, own) =>
    ⟨shared, Function.update config.threads thread own⟩

/-- A step is one of the thread on its own state and on what is shared. -/
theorem Config.step_eq_some {before after : Config ι σ τ} {thread : ι} {action : α} :
    before.step act thread action = some after ↔
      ∃ shared own, act before.shared (before.threads thread) action = some (shared, own) ∧
        after = ⟨shared, Function.update before.threads thread own⟩ := by
  unfold step
  simp only [Option.map_eq_some_iff, Prod.exists]
  constructor <;> rintro ⟨shared, own, taken, same⟩ <;> exact ⟨shared, own, taken, same.symm⟩

/-- A step acts on the part of its thread, and leaves those of the others. -/
theorem Config.acted_of_step {before after : Config ι σ τ} {thread : ι} {action : α}
    (taken : before.step act thread action = some after) :
    act before.shared (before.threads thread) action = some (after.shared, after.threads thread) ∧
      ∀ other, other ≠ thread → after.threads other = before.threads other := by
  obtain ⟨shared, own, acted, rfl⟩ := step_eq_some.mp taken
  have mine : Function.update before.threads thread own thread = own := Function.update_self _ _ _
  exact ⟨by simp only [acted, mine], fun other differs => Function.update_of_ne differs _ _⟩

/-- A run through allowed states, with the steps it takes. -/
inductive Runs (act : Acting σ τ α) (allowed : Config ι σ τ → Prop) (start : Config ι σ τ) :
    List (ι × α) → Config ι σ τ → Prop where
  | refl : Runs act allowed start [] start
  | step {events current thread action next} (prior : Runs act allowed start events current)
      (taken : current.step act thread action = some next) (fine : allowed next) :
      Runs act allowed start (events ++ [(thread, action)]) next

/-- What every step between allowed states preserves holds after every run. -/
theorem Runs.invariant {holds : Config ι σ τ → Prop} {start final : Config ι σ τ}
    {events : List (ι × α)} (runs : Runs act allowed start events final) (initially : holds start)
    (preserved : ∀ before thread action after, holds before →
      before.step act thread action = some after → allowed after → holds after) : holds final := by
  induction runs with
  | refl => exact initially
  | step _ taken fine ih => exact preserved _ _ _ _ ih taken fine

/-- A run ends in an allowed configuration if it starts in one. -/
theorem Runs.fine {start final : Config ι σ τ} {events : List (ι × α)}
    (runs : Runs act allowed start events final) (initially : allowed start) : allowed final :=
  runs.invariant initially fun _ _ _ _ _ _ fine => fine

/-- A run goes on with another. -/
theorem Runs.trans {start middle final : Config ι σ τ} {before after : List (ι × α)}
    (first : Runs act allowed start before middle) (second : Runs act allowed middle after final) :
    Runs act allowed start (before ++ after) final := by
  induction second with
  | refl => rwa [List.append_nil]
  | step _ taken fine ih =>
      rw [← List.append_assoc]
      exact ih.step taken fine

/-- Where every state which is not final has a run which lowers a measure, some run goes on
to a final state. -/
theorem exists_run_of_measure {holds final : Config ι σ τ → Prop} (measure : Config ι σ τ → Nat)
    (lower : ∀ config, holds config → ¬ final config → ∃ events next,
      Runs act allowed config events next ∧ holds next ∧ measure next < measure config)
    {config : Config ι σ τ} (initially : holds config) :
    ∃ events last, Runs act allowed config events last ∧ holds last ∧ final last := by
  induction bound : measure config using Nat.strong_induction_on generalizing config with
  | h bound ih =>
      subst bound
      by_cases done : final config
      · exact ⟨[], config, .refl, initially, done⟩
      · obtain ⟨events, next, runs, held, less⟩ := lower config initially done
        obtain ⟨more, last, rest, facts⟩ := ih (measure next) less held rfl
        exact ⟨events ++ more, last, runs.trans rest, facts⟩

/-- Take steps one after another, as long as they are possible and the states allowed. -/
def Config.exec (act : Acting σ τ α) (allowed : Config ι σ τ → Prop) [DecidablePred allowed]
    (config : Config ι σ τ) : List (ι × α) → Option (Config ι σ τ)
  | [] => some config
  | (thread, action) :: rest => do
      let next ← config.step act thread action
      if allowed next then next.exec act allowed rest else none

/-- Steps which can be taken are a run. -/
theorem Runs.exec [DecidablePred allowed] {start current final : Config ι σ τ}
    {before events : List (ι × α)} (prior : Runs act allowed start before current)
    (taken : current.exec act allowed events = some final) :
    Runs act allowed start (before ++ events) final := by
  induction events generalizing current before with
  | nil =>
      obtain rfl := Option.some.inj taken
      rwa [List.append_nil]
  | cons event rest ih =>
      obtain ⟨next, stepped, later⟩ := Option.bind_eq_some_iff.mp taken
      obtain ⟨fine, later⟩ := Option.ite_none_right_eq_some.mp later
      rw [List.append_cons]
      exact ih (prior.step stepped fine) later

/-- Where a check of the states succeeds after some steps, they are a run to such a state. -/
theorem exists_run_of_exec [DecidablePred allowed] {start : Config ι σ τ} {events : List (ι × α)}
    {check : Config ι σ τ → Bool} (found : (start.exec act allowed events).any check = true) :
    ∃ final, Runs act allowed start events final ∧ check final = true := by
  obtain ⟨final, taken, checked⟩ := (Option.any_eq_true _ _).mp found
  exact ⟨final, Runs.refl.exec taken, checked⟩

/-- A run all of whose steps meet a condition on the state before them. -/
inductive RunsMeeting (act : Acting σ τ α) (meets : Config ι σ τ → ι → α → Prop)
    (start : Config ι σ τ) : List (ι × α) → Config ι σ τ → Prop where
  | refl : RunsMeeting act meets start [] start
  | step {events current thread action next}
      (prior : RunsMeeting act meets start events current) (fine : meets current thread action)
      (taken : current.step act thread action = some next) :
      RunsMeeting act meets start (events ++ [(thread, action)]) next

/-- What every step which meets the condition preserves holds after every such run. -/
theorem RunsMeeting.invariant {meets : Config ι σ τ → ι → α → Prop} {holds : Config ι σ τ → Prop}
    {start final : Config ι σ τ} {events : List (ι × α)}
    (runs : RunsMeeting act meets start events final) (initially : holds start)
    (preserved : ∀ before thread action after, holds before → meets before thread action →
      before.step act thread action = some after → holds after) : holds final := by
  induction runs with
  | refl => exact initially
  | step _ fine taken ih => exact preserved _ _ _ _ ih fine taken

/-- Take steps one after another, as long as they are possible and meet the condition. -/
def Config.execMeeting (act : Acting σ τ α) (meets : Config ι σ τ → ι → α → Prop)
    [∀ config thread action, Decidable (meets config thread action)] (config : Config ι σ τ) :
    List (ι × α) → Option (Config ι σ τ)
  | [] => some config
  | (thread, action) :: rest =>
      if meets config thread action then
        (config.step act thread action).bind fun next => next.execMeeting act meets rest
      else none

/-- Executing further events goes on with the run. -/
theorem RunsMeeting.exec {meets : Config ι σ τ → ι → α → Prop}
    [∀ config thread action, Decidable (meets config thread action)]
    {start current final : Config ι σ τ} {before events : List (ι × α)}
    (prior : RunsMeeting act meets start before current)
    (taken : current.execMeeting act meets events = some final) :
    RunsMeeting act meets start (before ++ events) final := by
  induction events generalizing current before with
  | nil =>
      obtain rfl := Option.some.inj taken
      rwa [List.append_nil]
  | cons event rest ih =>
      obtain ⟨fine, taken⟩ := Option.ite_none_right_eq_some.mp taken
      obtain ⟨next, stepped, later⟩ := Option.bind_eq_some_iff.mp taken
      rw [List.append_cons]
      exact ih (prior.step fine stepped) later

end Running

section Alone

variable {ι σ τ α : Type} {act : Acting σ τ α}

/-- Steps of one thread with nobody else in between. -/
def alone (act : Acting σ τ α) : σ → τ → List α → Option (σ × τ)
  | shared, own, [] => some (shared, own)
  | shared, own, action :: rest =>
      (act shared own action).bind fun next => alone act next.1 next.2 rest

/-- A thread alone does the second part behind the first one. -/
theorem alone_append (shared : σ) (own : τ) (first second : List α) :
    alone act shared own (first ++ second) =
      (alone act shared own first).bind fun next => alone act next.1 next.2 second := by
  induction first generalizing shared own with
  | nil => rfl
  | cons action rest ih =>
      change (act shared own action).bind _ = ((act shared own action).bind _).bind _
      rw [Option.bind_assoc]
      exact congrArg _ (funext fun next => ih next.1 next.2)

/-- What every step of one thread preserves holds after its steps. -/
theorem alone_invariant {holds : σ → τ → Prop} {shared after : σ} {own next : τ} {actions : List α}
    (taken : alone act shared own actions = some (after, next)) (initially : holds shared own)
    (preserved : ∀ shared own action after next, holds shared own →
      act shared own action = some (after, next) → holds after next) : holds after next := by
  induction actions generalizing shared own with
  | nil =>
      obtain ⟨rfl, rfl⟩ := Prod.mk.inj (Option.some.inj taken)
      exact initially
  | cons action rest ih =>
      obtain ⟨⟨now, mine⟩, stepped, later⟩ := Option.bind_eq_some_iff.mp taken
      exact ih later (preserved _ _ _ _ _ initially stepped)

variable [DecidableEq ι]

/-- A run goes on with the steps of one thread. -/
theorem Runs.alone {start config : Config ι σ τ} {events : List (ι × α)} {thread : ι}
    {actions : List α} {after : σ} {next : τ} (prior : Runs act (fun _ => True) start events config)
    (taken : Semantics.alone act config.shared (config.threads thread) actions = some (after, next)) :
    Runs act (fun _ => True) start (events ++ actions.map (thread, ·))
      ⟨after, Function.update config.threads thread next⟩ := by
  induction actions generalizing config events with
  | nil =>
      obtain ⟨rfl, rfl⟩ := Prod.mk.inj (Option.some.inj taken)
      simpa using prior
  | cons action rest ih =>
      obtain ⟨⟨now, mine⟩, stepped, later⟩ := Option.bind_eq_some_iff.mp taken
      have further := prior.step (Config.step_eq_some.mpr ⟨now, mine, stepped, rfl⟩) trivial
      have here : Function.update config.threads thread mine thread = mine :=
        Function.update_self _ _ _
      have whole := ih further (by simpa only [here] using later)
      rwa [Function.update_idem, ← List.append_cons] at whole

/-- Threads which can take their steps alone take them one thread after another. -/
theorem exists_run_of_alone {start target : ι → τ} (shared : Finset ι → σ) (threads : Finset ι)
    (each : ∀ done thread, thread ∉ done → insert thread done ⊆ threads →
      ∃ actions, Semantics.alone act (shared done) (start thread) actions =
        some (shared (insert thread done), target thread)) :
    ∃ events, Runs act (fun _ => True) ⟨shared ∅, start⟩ events
      ⟨shared threads, fun thread => if thread ∈ threads then target thread else start thread⟩ := by
  suffices all : ∀ done ⊆ threads, ∃ events, Runs act (fun _ => True) ⟨shared ∅, start⟩ events
      ⟨shared done, fun thread => if thread ∈ done then target thread else start thread⟩ from
    all threads (Finset.Subset.refl _)
  intro done
  induction done using Finset.induction_on with
  | empty => exact fun _ => ⟨[], .refl⟩
  | insert thread done fresh ih =>
      intro within
      obtain ⟨events, runs⟩ := ih ((Finset.subset_insert _ _).trans within)
      obtain ⟨actions, taken⟩ := each done thread fresh within
      have here : (if thread ∈ done then target thread else start thread) = start thread :=
        if_neg fresh
      have further := runs.alone (here.symm ▸ taken)
      have same : Function.update (fun other => if other ∈ done then target other else start other)
          thread (target thread) =
          fun other => if other ∈ insert thread done then target other else start other := by
        ext1 other
        by_cases self : other = thread
        · simp [self]
        · simp [self, Finset.mem_insert]
      exact ⟨_, same ▸ further⟩

end Alone

section Layers

variable {ι σ τ α σ' τ' α' : Type} [DecidableEq ι] {high : Acting σ' τ' α'} {low : Acting σ τ α}
  {shared : σ' → σ} {own : τ' → τ}

/-- The state of the layer below. -/
def Config.lower (shared : σ' → σ) (own : τ' → τ) (config : Config ι σ' τ') : Config ι σ τ :=
  ⟨shared config.shared, fun thread => own (config.threads thread)⟩

/-- Every step of a thread is one in the layer below, or nothing changes there. -/
def Refines (shared : σ' → σ) (own : τ' → τ) (high : Acting σ' τ' α') (low : Acting σ τ α) :
    Prop :=
  ∀ before thread action after next, high before thread action = some (after, next) →
    (shared after = shared before ∧ own next = own thread) ∨
      ∃ lower, low (shared before) (own thread) lower = some (shared after, own next)

/-- A step of the upper level is a step of the lower one, or none. -/
theorem Refines.step (refines : Refines shared own high low) {before after : Config ι σ' τ'}
    {thread : ι} {action : α'} (taken : before.step high thread action = some after) :
    after.lower shared own = before.lower shared own ∨
      ∃ lower, (before.lower shared own).step low thread lower = some (after.lower shared own) := by
  obtain ⟨now, next, acted, rfl⟩ := Config.step_eq_some.mp taken
  have threads : (fun other => own (Function.update before.threads thread next other)) =
      Function.update (fun other => own (before.threads other)) thread (own next) :=
    Function.comp_update own before.threads thread next
  obtain ⟨same, still⟩ | ⟨lower, stepped⟩ := refines _ _ _ _ _ acted
  · left
    ext1
    · exact same
    · change (fun other => own (Function.update before.threads thread next other)) = _
      rw [threads, still]
      exact Function.update_eq_self thread _
  · right
    refine ⟨lower, Config.step_eq_some.mpr ⟨_, _, stepped, ?_⟩⟩
    ext1
    · rfl
    · exact threads

/-- A run of the upper layer is one of the lower layer. -/
theorem Refines.runs (refines : Refines shared own high low) {allowed : Config ι σ τ → Prop}
    {start final : Config ι σ' τ'} {events : List (ι × α')}
    (runs : Runs high (fun config => allowed (config.lower shared own)) start events final) :
    ∃ below, Runs low allowed (start.lower shared own) below (final.lower shared own) := by
  apply runs.invariant
  · exact ⟨[], .refl⟩
  · rintro before thread action after ⟨below, run⟩ taken fine
    obtain same | ⟨lower, stepped⟩ := refines.step taken
    · exact ⟨below, same ▸ run⟩
    · exact ⟨below ++ [(thread, lower)], run.step stepped fine⟩

end Layers

section Totals

variable {ι τ : Type} [Fintype ι] (measure : τ → Nat)

/-- The sum of a measure over all threads. -/
def total (threads : ι → τ) : Nat := ∑ thread, measure (threads thread)

/-- A thread counts at most as much as all of them. -/
theorem le_total (threads : ι → τ) (thread : ι) : measure (threads thread) ≤ total measure threads :=
  Finset.single_le_sum (f := fun thread => measure (threads thread)) (fun _ _ => Nat.zero_le _)
    (Finset.mem_univ thread)

/-- Two threads count at most as much as all of them. -/
theorem add_le_total [DecidableEq ι] (threads : ι → τ) {one other : ι} (differ : one ≠ other) :
    measure (threads one) + measure (threads other) ≤ total measure threads := by
  rw [← Finset.sum_pair (f := fun thread => measure (threads thread)) differ]
  exact Finset.sum_le_sum_of_subset (Finset.subset_univ _)

/-- A total is 0 only if each thread adds nothing. -/
theorem total_eq_zero {threads : ι → τ} :
    total measure threads = 0 ↔ ∀ thread, measure (threads thread) = 0 := by
  simp [total]

/-- Where the total is positive, some thread counts. -/
theorem exists_of_total_pos {threads : ι → τ} (positive : 0 < total measure threads) :
    ∃ thread, 0 < measure (threads thread) := by
  by_contra none
  have empty : total measure threads = 0 :=
    (total_eq_zero measure).mpr fun thread => by
      by_contra some
      exact none ⟨thread, Nat.pos_of_ne_zero some⟩
  omega

/-- Where one thread changes, the total changes as it does. -/
theorem total_of_others [DecidableEq ι] {before after : ι → τ} {thread : ι}
    (others : ∀ other, other ≠ thread → after other = before other) :
    total measure after + measure (before thread) =
      total measure before + measure (after thread) := by
  have rest : ∀ other ∈ Finset.univ.erase thread, measure (after other) = measure (before other) := by
    intro other member
    rw [others other (Finset.ne_of_mem_erase member)]
  have split : ∀ threads : ι → τ, total measure threads =
      measure (threads thread) + ∑ other ∈ Finset.univ.erase thread, measure (threads other) :=
    fun threads => (Finset.add_sum_erase _ (fun other => measure (threads other))
      (Finset.mem_univ thread)).symm
  rw [split before, split after, Finset.sum_congr rfl rest]
  omega

end Totals
end Rpi5.Semantics
