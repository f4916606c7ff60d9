import Rpi5.Mutex.Sections

/-!
# When threads block each other

Threads which run programs of lock sections, as the tests of the source do: a reader may
take a second read guard while it holds its first. A thread advances if it can, by its
own steps, do more than failing loads and failed exchanges.

A writer which sets its flag between the two acquisitions of such a reader waits for it,
and the reader waits for the writer. Besides that, `2 ^ 63` readers between their
acquisitions would look like a writer.
-/

namespace Rpi5.Mutex

open Rpi5.Semantics

/-- A section of a program. -/
inductive LockSection where
  | read
  /-- `lock.read().lock.read()`: a second read guard while the first is held. -/
  | nested
  | write
deriving DecidableEq, Repr

/-- The calls and drops of a section. -/
def LockSection.script : LockSection → List Action
  | .read => [.read, .dropRead]
  | .nested => [.read, .read, .dropRead, .dropRead]
  | .write => [.write, .dropWrite]

/-- The calls and drops of a program. -/
def script (program : List LockSection) : List Action := program.flatMap LockSection.script

/-- A thread with the calls and drops it has not begun. -/
structure Scripted where
  thread : Thread
  script : List Action
deriving DecidableEq, Repr

/-- The steps of a thread which follows its script: outside `read` and `write` it does what
comes next there. -/
def scripted : Acting Word Scripted Action := fun word own action =>
  if own.thread.place = .outside then
    match own.script with
    | [] => none
    | next :: rest =>
        if action = next then
          (act word own.thread action).map fun (word, thread) => (word, ⟨thread, rest⟩)
        else none
  else (act word own.thread action).map fun (word, thread) => (word, ⟨thread, own.script⟩)

/-- The steps which remain of a call. -/
def Place.work : Place → Nat
  | .outside => 0
  | .readLoad => 1
  | .readExchange _ => 1
  | .writeLoad => 2
  | .writeExchange _ => 2
  | .writeDrain => 1

namespace Scripted

/-- The calls, the drops and the successful exchanges which remain, with the end of a
waiting. -/
def work (own : Scripted) : Nat := 3 * own.script.length + own.thread.place.work

def Finished (own : Scripted) : Prop := own.thread.place = .outside ∧ own.script = []

/-- Some steps of the thread alone make progress. -/
def Advances (word : Word) (own : Scripted) : Prop :=
  ∃ actions after next, alone scripted word own actions = some (after, next) ∧ next.work < own.work

/-- The thread has finished or only repeats loads and failed exchanges. -/
def Blocked (word : Word) (own : Scripted) : Prop :=
  match own.thread.place with
  | .outside => own.script = []
  | .writeDrain => ¬ word &&& ~~~writeFlag = 0
  | place => (¬ word &&& writeFlag = 0) ∧ place.Clear

end Scripted

/-- The step of a thread outside the calls. -/
theorem scripted_outside {word : Word} {own : Scripted} {action next : Action} {rest : List Action}
    (here : own.thread.place = .outside) (comes : own.script = next :: rest) :
    scripted word own action = if action = next then
      (act word own.thread action).map fun (word, thread) => (word, ⟨thread, rest⟩) else none := by
  simp [scripted, here, comes]

/-- The step of a thread inside a call. -/
theorem scripted_inside {word : Word} {own : Scripted} {action : Action}
    (inside : own.thread.place ≠ .outside) :
    scripted word own action =
      (act word own.thread action).map fun (word, thread) => (word, ⟨thread, own.script⟩) := by
  simp [scripted, inside]

/-- Threads with a script move as threads without one. -/
theorem scripted_refines : Refines id Scripted.thread scripted act := by
  intro word own action after next taken
  right
  refine ⟨action, ?_⟩
  by_cases here : own.thread.place = .outside
  · cases comes : own.script with
    | nil => simp [scripted, here, comes] at taken
    | cons first rest =>
        rw [scripted_outside here comes] at taken
        obtain ⟨-, taken⟩ := Option.ite_none_right_eq_some.mp taken
        obtain ⟨⟨now, thread⟩, stepped, same⟩ := Option.map_eq_some_iff.mp taken
        obtain ⟨rfl, rfl⟩ := Prod.mk.inj same
        exact stepped
  · rw [scripted_inside here] at taken
    obtain ⟨⟨now, thread⟩, stepped, same⟩ := Option.map_eq_some_iff.mp taken
    obtain ⟨rfl, rfl⟩ := Prod.mk.inj same
    exact stepped

section Blocking

variable {word after : Word} {own next : Scripted} {action : Action}

/-- Places at which a thread does not wait for the readers. -/
theorem blocked_of_calls {kind : Kind} (calls : own.thread.place.calls = some kind)
    (quick : own.thread.place ≠ .writeDrain) :
    own.Blocked word ↔ (¬ word &&& writeFlag = 0) ∧ own.thread.place.Clear := by
  obtain ⟨⟨place, reads, writes⟩, script⟩ := own
  cases place with
  | outside => cases calls
  | writeDrain => exact absurd rfl quick
  | _ => exact Iff.rfl

/-- The work left in a call depends on its kind and on whether it drains. -/
theorem work_of_calls {place other : Place} {kind : Kind} (calls : place.calls = some kind)
    (also : other.calls = some kind) (waits : place = .writeDrain ↔ other = .writeDrain) :
    other.work = place.work := by
  cases kind <;> cases place <;> cases other <;> simp_all [Place.calls, Place.work]

/-- A thread inside a call is in one of the two. -/
theorem exists_calls {place : Place} (inside : place ≠ .outside) : ∃ kind, place.calls = some kind := by
  cases place with
  | outside => exact absurd rfl inside
  | _ => exact ⟨_, rfl⟩

/-- A step of a blocked thread is a load or a failed exchange, and leaves it blocked. -/
theorem Scripted.Blocked.step (blocked : own.Blocked word)
    (taken : scripted word own action = some (after, next)) :
    after = word ∧ next.Blocked word ∧ next.work = own.work := by
  by_cases outside : own.thread.place = .outside
  · simp only [Scripted.Blocked, outside] at blocked
    simp [scripted, outside, blocked] at taken
  · rw [scripted_inside outside] at taken
    obtain ⟨⟨now, moved⟩, stepped, same⟩ := Option.map_eq_some_iff.mp taken
    obtain ⟨rfl, rfl⟩ := Prod.mk.inj same
    obtain ⟨kind, calls⟩ := exists_calls outside
    cases called_of_act stepped calls with
    | @spin place still clear waits busy =>
        have equal : place.work = own.thread.place.work := work_of_calls calls still waits
        refine ⟨rfl, ?_, by simp [Scripted.work, Thread.goto, equal]⟩
        by_cases drains : place = .writeDrain
        · subst drains
          exact busy (waits.mpr rfl)
        · have flagged := (blocked_of_calls calls (drains ∘ waits.mp)).mp blocked
          exact (blocked_of_calls still drains).mpr ⟨flagged.1, clear⟩
    | setFlag asks here =>
        have flagged := (blocked_of_calls calls (by simp [here])).mp blocked
        rw [here] at flagged
        exact absurd flagged.2 flagged.1
    | take here =>
        obtain here | here | ⟨here, empty⟩ := here
        · have flagged := (blocked_of_calls calls (by simp [here])).mp blocked
          rw [here] at flagged
          exact absurd flagged.2 flagged.1
        · have flagged := (blocked_of_calls calls (by simp [here])).mp blocked
          rw [here] at flagged
          exact absurd flagged.2 flagged.1
        · simp only [Scripted.Blocked, here] at blocked
          exact absurd empty blocked

/-- A blocked thread does not advance. -/
theorem Scripted.Blocked.not_advances (blocked : own.Blocked word) : ¬ own.Advances word := by
  rintro ⟨actions, after, next, taken, less⟩
  have kept : after = word ∧ next.Blocked word ∧ next.work = own.work := by
    apply alone_invariant taken
    · exact ⟨rfl, blocked, rfl⟩
    · rintro _ before action later last ⟨rfl, still, same⟩ stepped
      obtain ⟨now, stays, equal⟩ := still.step stepped
      exact ⟨now, stays, equal.trans same⟩
  omega

end Blocking

/-- The kind of the guards of a section. -/
def LockSection.kind : LockSection → Kind
  | .read => .read
  | .nested => .read
  | .write => .write

/-- Where a thread is in its program. -/
inductive Located (program : List LockSection) : Scripted → Prop where
  | between {rest} (part : rest ⊆ program) : Located program ⟨.fresh, script rest⟩
  | calling {task rest place} (part : task :: rest ⊆ program) (calls : place.calls = some task.kind) :
      Located program ⟨⟨place, 0, 0⟩, task.script.tail ++ script rest⟩
  | first {rest} (part : .nested :: rest ⊆ program) :
      Located program ⟨⟨.outside, 1, 0⟩, .read :: .dropRead :: .dropRead :: script rest⟩
  | again {rest place} (part : .nested :: rest ⊆ program) (calls : place.calls = some .read) :
      Located program ⟨⟨place, 1, 0⟩, .dropRead :: .dropRead :: script rest⟩
  | both {rest} (part : rest ⊆ program) :
      Located program ⟨⟨.outside, 2, 0⟩, .dropRead :: .dropRead :: script rest⟩
  | reads {rest} (part : rest ⊆ program) :
      Located program ⟨⟨.outside, 1, 0⟩, .dropRead :: script rest⟩
  | writes {rest} (part : rest ⊆ program) :
      Located program ⟨⟨.outside, 0, 1⟩, .dropWrite :: script rest⟩

section Locating

variable {program : List LockSection} {word after : Word} {own next : Scripted} {action : Action}

/-- A thread outside makes no call. -/
theorem outside_of_calls {place : Place} {kind : Kind} (calls : place.calls = some kind) :
    place ≠ .outside := by
  rintro rfl
  cases calls

/-- A step keeps a thread in its program. -/
theorem Located.step (located : Located program own)
    (taken : scripted word own action = some (after, next)) : Located program next := by
  cases located with
  | @between rest part =>
      cases rest with
      | nil => cases taken
      | cons task rest =>
          cases task with
          | read =>
              obtain ⟨rfl, taken⟩ := Option.ite_none_right_eq_some.mp taken
              obtain ⟨rfl, rfl⟩ := Prod.mk.inj (Option.some.inj taken)
              exact .calling part rfl
          | nested =>
              obtain ⟨rfl, taken⟩ := Option.ite_none_right_eq_some.mp taken
              obtain ⟨rfl, rfl⟩ := Prod.mk.inj (Option.some.inj taken)
              exact .calling part rfl
          | write =>
              obtain ⟨rfl, taken⟩ := Option.ite_none_right_eq_some.mp taken
              obtain ⟨rfl, rfl⟩ := Prod.mk.inj (Option.some.inj taken)
              exact .calling part rfl
  | @calling task rest place part calls =>
      rw [scripted_inside (outside_of_calls calls)] at taken
      obtain ⟨⟨now, moved⟩, stepped, same⟩ := Option.map_eq_some_iff.mp taken
      obtain ⟨rfl, rfl⟩ := Prod.mk.inj same
      have later : rest ⊆ program := List.subset_of_cons_subset part
      cases called_of_act stepped calls with
      | spin still => exact .calling part still
      | setFlag asks => exact .calling part (asks ▸ rfl)
      | take =>
          cases task with
          | read => exact .reads later
          | nested => exact .first part
          | write => exact .writes later
  | first part =>
      obtain ⟨rfl, taken⟩ := Option.ite_none_right_eq_some.mp taken
      obtain ⟨rfl, rfl⟩ := Prod.mk.inj (Option.some.inj taken)
      exact .again part rfl
  | again part calls =>
      rw [scripted_inside (outside_of_calls calls)] at taken
      obtain ⟨⟨now, moved⟩, stepped, same⟩ := Option.map_eq_some_iff.mp taken
      obtain ⟨rfl, rfl⟩ := Prod.mk.inj same
      cases called_of_act stepped calls with
      | spin still => exact .again part still
      | setFlag asks => cases asks
      | take => exact .both (List.subset_of_cons_subset part)
  | both part =>
      obtain ⟨rfl, taken⟩ := Option.ite_none_right_eq_some.mp taken
      obtain ⟨rfl, rfl⟩ := Prod.mk.inj (Option.some.inj taken)
      exact .reads part
  | reads part =>
      obtain ⟨rfl, taken⟩ := Option.ite_none_right_eq_some.mp taken
      obtain ⟨rfl, rfl⟩ := Prod.mk.inj (Option.some.inj taken)
      exact .between part
  | writes part =>
      obtain ⟨rfl, taken⟩ := Option.ite_none_right_eq_some.mp taken
      obtain ⟨rfl, rfl⟩ := Prod.mk.inj (Option.some.inj taken)
      exact .between part

/-- No place has more work left than two steps. -/
theorem Place.work_le (place : Place) : place.work ≤ 2 := by
  cases place <;> simp [Place.work]

/-- A call or a drop leaves less work. -/
theorem work_lt_of_pop {first : Action} (here : own.thread.place = .outside)
    (pops : own.script = first :: next.script) : next.work < own.work := by
  have small := next.thread.place.work_le
  have outside : own.thread.place.work = 0 := by rw [here]; rfl
  unfold Scripted.work
  rw [outside, pops, List.length_cons]
  omega

/-- Outside the calls the next call or drop is always possible. -/
theorem Located.advances_outside (located : Located program own) (here : own.thread.place = .outside)
    (more : own.script ≠ []) : own.Advances word := by
  cases located with
  | @between rest part =>
      cases rest with
      | nil => exact absurd rfl more
      | cons task rest =>
          cases task with
          | read => exact ⟨[.read], _, _, rfl, work_lt_of_pop rfl rfl⟩
          | nested => exact ⟨[.read], _, _, rfl, work_lt_of_pop rfl rfl⟩
          | write => exact ⟨[.write], _, _, rfl, work_lt_of_pop rfl rfl⟩
  | calling part calls => exact absurd here (outside_of_calls calls)
  | first => exact ⟨[.read], _, _, rfl, work_lt_of_pop rfl rfl⟩
  | again part calls => exact absurd here (outside_of_calls calls)
  | both => exact ⟨[.dropRead], _, _, rfl, work_lt_of_pop rfl rfl⟩
  | reads => exact ⟨[.dropRead], _, _, rfl, work_lt_of_pop rfl rfl⟩
  | writes => exact ⟨[.dropWrite], _, _, rfl, work_lt_of_pop rfl rfl⟩

/-- A thread advances if it does so after a step which is no setback. -/
theorem Scripted.Advances.resume (later : next.Advances word)
    (taken : scripted word own action = some (word, next)) (same : next.work = own.work) :
    own.Advances word := by
  obtain ⟨actions, after, last, steps, less⟩ := later
  exact ⟨action :: actions, after, last, by simp [alone, taken, steps], same ▸ less⟩

/-- Without the flag a call comes forward: the word is loaded and exchanged. -/
theorem advances_of_load (here : own.thread.place = .readLoad ∨ own.thread.place = .writeLoad)
    (clear : word &&& writeFlag = 0) : own.Advances word := by
  obtain ⟨⟨place, reads, writes⟩, script⟩ := own
  obtain rfl | rfl := here
  · refine ⟨[.load word, .exchange], word + 1, ⟨⟨.outside, reads + 1, writes⟩, script⟩, ?_, ?_⟩
    · simp [alone, scripted, act, readStep, clear, Thread.goto, Thread.takeRead]
    · simp [Scripted.work, Place.work]
  · by_cases empty : word &&& ~~~writeFlag = 0
    · refine ⟨[.load word, .exchange], word ||| writeFlag, ⟨⟨.outside, reads, writes + 1⟩, script⟩,
        ?_, ?_⟩
      · simp [alone, scripted, act, writeStep, clear, empty, Thread.goto, Thread.takeWrite]
      · simp [Scripted.work, Place.work]
    · refine ⟨[.load word, .exchange], word ||| writeFlag, ⟨⟨.writeDrain, reads, writes⟩, script⟩,
        ?_, ?_⟩
      · simp [alone, scripted, act, writeStep, clear, Thread.goto]
        exact fun zero => absurd zero empty
      · simp [Scripted.work, Place.work]

/-- With the flag clear a call that does not drain advances. -/
theorem advances_of_clear {kind : Kind} (calls : own.thread.place.calls = some kind)
    (quick : own.thread.place ≠ .writeDrain) (clear : word &&& writeFlag = 0) :
    own.Advances word := by
  cases here : own.thread.place with
  | outside => exact absurd here (outside_of_calls calls)
  | readLoad => exact advances_of_load (.inl here) clear
  | writeLoad => exact advances_of_load (.inr here) clear
  | writeDrain => exact absurd here quick
  | readExchange n =>
      have again : Scripted.Advances word ⟨own.thread.goto .readLoad, own.script⟩ :=
        advances_of_load (.inl rfl) clear
      have failed : scripted word own .fail = some (word, ⟨own.thread.goto .readLoad, own.script⟩) := by
        simp [scripted, act, here, readStep]
      exact again.resume failed (by simp [Scripted.work, here, Thread.goto, Place.work])
  | writeExchange n =>
      have again : Scripted.Advances word ⟨own.thread.goto .writeLoad, own.script⟩ :=
        advances_of_load (.inr rfl) clear
      have failed : scripted word own .fail = some (word, ⟨own.thread.goto .writeLoad, own.script⟩) := by
        simp [scripted, act, here, writeStep]
      exact again.resume failed (by simp [Scripted.work, here, Thread.goto, Place.work])

/-- Without readers a waiting writer enters. -/
theorem advances_of_drained (here : own.thread.place = .writeDrain)
    (empty : word &&& ~~~writeFlag = 0) : own.Advances word := by
  obtain ⟨⟨place, reads, writes⟩, script⟩ := own
  obtain rfl := here
  refine ⟨[.load word], word, ⟨⟨.outside, reads, writes + 1⟩, script⟩, ?_, ?_⟩
  · simp [alone, scripted, act, writeStep, empty, Thread.takeWrite]
  · simp [Scripted.work, Place.work]

/-- A thread in its program advances or is blocked. -/
theorem Located.blocked (located : Located program own) (clear : own.thread.place.Clear)
    (stuck : ¬ own.Advances word) : own.Blocked word := by
  by_cases outside : own.thread.place = .outside
  · simp only [Scripted.Blocked, outside]
    by_contra more
    exact stuck (located.advances_outside outside more)
  · obtain ⟨kind, calls⟩ := exists_calls outside
    by_cases drains : own.thread.place = .writeDrain
    · simp only [Scripted.Blocked, drains]
      exact fun empty => stuck (advances_of_drained drains empty)
    · exact (blocked_of_calls calls drains).mpr
        ⟨fun free => stuck (advances_of_clear calls drains free), clear⟩

/-- A blocked thread holds no write guard, and a read guard only between its acquisitions. -/
theorem Located.guards (located : Located program own) (blocked : own.Blocked word) :
    own.thread.writeGuards = 0 ∧
      (own.thread.readGuards = 0 ∨
        own.thread.readGuards = 1 ∧ own.thread.place.calls = some .read ∧ .nested ∈ program) := by
  cases located with
  | between => exact ⟨rfl, .inl rfl⟩
  | calling => exact ⟨rfl, .inl rfl⟩
  | first => cases blocked
  | again part calls => exact ⟨rfl, .inr ⟨rfl, calls, part List.mem_cons_self⟩⟩
  | both => cases blocked
  | reads => cases blocked
  | writes => cases blocked

/-- A thread which waits for the readers is in a section which writes. -/
theorem Located.drains (located : Located program own) (here : own.thread.place = .writeDrain) :
    .write ∈ program := by
  cases located with
  | @calling task rest place part calls =>
      obtain rfl := here
      cases task with
      | write => exact part List.mem_cons_self
      | read => cases calls
      | nested => cases calls
  | again part calls =>
      obtain rfl := here
      cases calls
  | _ => cases here

end Locating

namespace RWLock

variable {ι : Type}

/-- The lock under threads with scripts. -/
abbrev plain (config : Config ι Word Scripted) : RWLock ι := config.lower id Scripted.thread

/-- A new lock, and threads about to run their programs. -/
def scripts (programs : ι → List LockSection) : Config ι Word Scripted :=
  ⟨0, fun thread => ⟨.fresh, script (programs thread)⟩⟩

variable [Fintype ι] [DecidableEq ι] {programs : ι → List LockSection}

/-- The invariant: the word counts the guards, and every thread is in its program. -/
theorem located_of_runs {events : List (ι × Action)} {config : Config ι Word Scripted}
    (runs : Runs scripted (fun _ => True) (scripts programs) events config) :
    Balanced (plain config) ∧ ∀ thread, Located (programs thread) (config.threads thread) := by
  apply runs.invariant
  · exact ⟨balanced_new, fun thread => .between (List.Subset.refl _)⟩
  · rintro before thread action after ⟨balanced, located⟩ taken -
    constructor
    · obtain same | ⟨lower, stepped⟩ := scripted_refines.step taken
      · rw [plain, same]
        exact balanced
      · exact balanced.step stepped
    · obtain ⟨acted, others⟩ := Config.acted_of_step taken
      intro other
      by_cases self : other = thread
      · rw [self]
        exact (located thread).step acted
      · rw [others other self]
        exact located other

/-- No thread may wait between two acquisitions for another one which writes, and too few
threads take two guards for the word to look as if one wrote. -/
structure Harmless (programs : ι → List LockSection) : Prop where
  apart : ∀ one other, one ≠ other → .nested ∈ programs one → .write ∉ programs other
  few : (Finset.univ.filter fun thread => .nested ∈ programs thread).card < 2 ^ 63

section AllBlocked

variable {config : Config ι Word Scripted} (harmless : Harmless programs)
  (located : ∀ thread, Located (programs thread) (config.threads thread))
  (blocked : ∀ thread, (config.threads thread).Blocked config.shared)

include harmless located blocked

omit [DecidableEq ι]

/-- A blocked writer would wait for a reader, and that one for the writer. -/
theorem Harmless.unwritten (balanced : (plain config).Balanced) (writer : ι) :
    ¬ ((plain config).threads writer).Writes := by
  intro writes
  have drains : (config.threads writer).thread.place = .writeDrain := by
    obtain drains | held := writes
    · exact drains
    · have none := ((located writer).guards (blocked writer)).1
      change 0 < (config.threads writer).thread.writeGuards at held
      omega
  have busy : ¬ config.shared &&& ~~~writeFlag = 0 := by
    have waiting := blocked writer
    simpa only [Scripted.Blocked, drains] using waiting
  have some : 0 < total Thread.readGuards (plain config).threads := by
    have mine : ((plain config).threads writer).writing ≤ writing (plain config) := le_total _ _ _
    have positive := Thread.writing_pos.mpr writes
    have single := balanced.single
    have word : config.shared.toNat = readers (plain config) + 2 ^ 63 * writing (plain config) :=
      balanced.word
    rw [count_eq_zero] at busy
    change 0 < readers (plain config)
    omega
  obtain ⟨reader, holds⟩ := exists_of_total_pos _ some
  change 0 < (config.threads reader).thread.readGuards at holds
  obtain none | ⟨-, calls, nested⟩ := ((located reader).guards (blocked reader)).2
  · omega
  · have differ : reader ≠ writer := by
      rintro rfl
      rw [drains] at calls
      cases calls
    exact harmless.apart reader writer differ nested ((located writer).drains drains)

/-- Only threads between two acquisitions have read guards. -/
theorem Harmless.readers_lt : readers (plain config) < 2 ^ 63 := by
  apply Nat.lt_of_le_of_lt _ harmless.few
  rw [Finset.card_filter]
  apply Finset.sum_le_sum
  intro thread _
  change (config.threads thread).thread.readGuards ≤ _
  obtain none | ⟨one, -, nested⟩ := ((located thread).guards (blocked thread)).2
  · omega
  · rw [if_pos nested, one]

/-- Nobody is left to set the flag, so all have finished. -/
theorem Harmless.finished (balanced : (plain config).Balanced) (thread : ι) :
    (config.threads thread).Finished := by
  have quiet := harmless.unwritten located blocked balanced
  have unwritten : writing (plain config) = 0 := (total_eq_zero _).mpr fun thread => by
    by_contra some
    exact quiet thread (Thread.writing_pos.mp (Nat.pos_of_ne_zero some))
  have few := harmless.readers_lt located blocked
  have word : config.shared.toNat = readers (plain config) + 2 ^ 63 * writing (plain config) :=
    balanced.word
  have clear : config.shared &&& writeFlag = 0 := and_writeFlag_eq_zero.mpr (by omega)
  have still := blocked thread
  by_cases outside : (config.threads thread).thread.place = .outside
  · simp only [Scripted.Blocked, outside] at still
    exact ⟨outside, still⟩
  · obtain ⟨kind, calls⟩ := exists_calls outside
    have quick : (config.threads thread).thread.place ≠ .writeDrain :=
      fun drains => quiet thread (.inl drains)
    exact absurd clear ((blocked_of_calls calls quick).mp still).1

end AllBlocked

/-- Under harmless programs some thread advances until all have finished. -/
theorem Harmless.advances (harmless : Harmless programs) {events : List (ι × Action)}
    {config : Config ι Word Scripted}
    (runs : Runs scripted (fun _ => True) (scripts programs) events config)
    (unfinished : ∃ thread, ¬ (config.threads thread).Finished) :
    ∃ thread, (config.threads thread).Advances config.shared := by
  obtain ⟨balanced, located⟩ := located_of_runs runs
  by_contra stuck
  have blocked : ∀ thread, (config.threads thread).Blocked config.shared := fun thread =>
    (located thread).blocked (balanced.clear thread) fun advances => stuck ⟨thread, advances⟩
  obtain ⟨thread, unfinished⟩ := unfinished
  exact unfinished (harmless.finished located blocked balanced thread)

section Reaching

omit [Fintype ι] [DecidableEq ι]

/-- A section of a thread alone at a free lock, and the lock is free again. -/
theorem alone_section (task : LockSection) (rest : List LockSection) :
    ∃ actions, alone scripted 0 ⟨.fresh, script (task :: rest)⟩ actions =
      some (0, ⟨.fresh, script rest⟩) := by
  cases task with
  | read =>
      refine ⟨[.read, .load 0, .exchange, .dropRead], ?_⟩
      simp [alone, scripted, script, LockSection.script, Thread.fresh, act, outsideStep, readStep,
        Thread.goto, Thread.takeRead, Thread.dropRead]
  | nested =>
      have one : 1#64 &&& writeFlag = 0#64 := by decide
      refine ⟨[.read, .load 0, .exchange, .read, .load 1, .exchange, .dropRead, .dropRead], ?_⟩
      simp [alone, scripted, script, LockSection.script, Thread.fresh, act, outsideStep, readStep,
        Thread.goto, Thread.takeRead, Thread.dropRead, one]
  | write =>
      have flag : writeFlag &&& ~~~writeFlag = 0#64 := by decide
      refine ⟨[.write, .load 0, .exchange, .dropWrite], ?_⟩
      simp [alone, scripted, script, LockSection.script, Thread.fresh, act, outsideStep, writeStep,
        Thread.goto, Thread.takeWrite, Thread.dropWrite, flag]

/-- A thread which is alone runs through its sections. -/
theorem alone_sections (done rest : List LockSection) :
    ∃ actions, alone scripted 0 ⟨.fresh, script (done ++ rest)⟩ actions =
      some (0, ⟨.fresh, script rest⟩) := by
  induction done with
  | nil => exact ⟨[], rfl⟩
  | cons task others ih =>
      obtain ⟨first, one⟩ := alone_section task (others ++ rest)
      obtain ⟨second, all⟩ := ih
      refine ⟨first ++ second, ?_⟩
      rw [alone_append, List.cons_append, one]
      exact all

/-- Between its acquisitions, with one more reader in the word. -/
theorem alone_first {word : Word} (clear : word &&& writeFlag = 0) (rest : List LockSection) :
    alone scripted word ⟨.fresh, script (.nested :: rest)⟩ [.read, .load word, .exchange, .read] =
      some (word + 1, ⟨⟨.readLoad, 1, 0⟩, .dropRead :: .dropRead :: script rest⟩) := by
  simp [alone, scripted, script, LockSection.script, Thread.fresh, act, outsideStep, readStep, clear,
    Thread.goto, Thread.takeRead]

/-- A writer which has set the flag while one reader is inside. -/
theorem alone_waits (rest : List LockSection) :
    alone scripted 1 ⟨.fresh, script (.write :: rest)⟩ [.write, .load 1, .exchange] =
      some (1 ||| writeFlag, ⟨⟨.writeDrain, 0, 0⟩, .dropWrite :: script rest⟩) := by
  have clear : 1#64 &&& writeFlag = 0#64 := by decide
  have busy : ¬ 1#64 &&& ~~~writeFlag = 0#64 := by decide
  simp [alone, scripted, script, LockSection.script, Thread.fresh, act, outsideStep, writeStep,
    Thread.goto, clear]
  exact fun zero => absurd zero busy

end Reaching

/-- All threads can be brought in front of a section of their programs, or to their ends. -/
theorem reach_sections (goals : ι → Option LockSection)
    (each : ∀ thread task, goals thread = some task → task ∈ programs thread) :
    ∃ events target, Runs scripted (fun _ => True) (scripts programs) events ⟨0, target⟩ ∧
      (∀ thread, goals thread = none → target thread = ⟨.fresh, []⟩) ∧
      ∀ thread task, goals thread = some task →
        ∃ rest, target thread = ⟨.fresh, script (task :: rest)⟩ := by
  have reach : ∀ thread, ∃ target actions,
      alone scripted 0 ⟨.fresh, script (programs thread)⟩ actions = some (0, target) ∧
      (goals thread = none → target = ⟨.fresh, []⟩) ∧
      ∀ task, goals thread = some task → ∃ rest, target = ⟨.fresh, script (task :: rest)⟩ := by
    intro thread
    cases goal : goals thread with
    | none =>
        obtain ⟨actions, taken⟩ := alone_sections (programs thread) []
        rw [List.append_nil] at taken
        exact ⟨_, actions, taken, fun _ => rfl, nofun⟩
    | some task =>
        obtain ⟨done, rest, split⟩ := List.append_of_mem (each thread task goal)
        obtain ⟨actions, taken⟩ := alone_sections done (task :: rest)
        refine ⟨_, actions, split ▸ taken, nofun, ?_⟩
        intro other same
        obtain rfl := Option.some.inj same
        exact ⟨rest, rfl⟩
  choose target actions taken ends starts using reach
  obtain ⟨events, runs⟩ := exists_run_of_alone (fun _ => (0 : Word)) Finset.univ
    (fun _ thread _ _ => ⟨actions thread, taken thread⟩)
  have all : (fun thread => if thread ∈ Finset.univ then target thread else
      ⟨.fresh, script (programs thread)⟩) = target := by
    ext1 thread
    exact if_pos (Finset.mem_univ thread)
  exact ⟨events, target, all ▸ runs, ends, starts⟩

omit [Fintype ι] [DecidableEq ι] in
/-- The threads are blocked and not all have finished. -/
structure Stuck (config : Config ι Word Scripted) : Prop where
  unfinished : ∃ thread, ¬ (config.threads thread).Finished
  blocked : ∀ thread, (config.threads thread).Blocked config.shared

/-- A writer which sets its flag between the two acquisitions of a reader. -/
theorem stuck_of_nested {one other : ι} (differ : one ≠ other) (nested : .nested ∈ programs one)
    (writes : .write ∈ programs other) :
    ∃ events config, Runs scripted (fun _ => True) (scripts programs) events config ∧ Stuck config := by
  let goals : ι → Option LockSection := fun thread =>
    if thread = one then some .nested else if thread = other then some .write else none
  have reader : goals one = some .nested := if_pos rfl
  have writer : goals other = some .write := by simp [goals, differ.symm]
  obtain ⟨events, target, runs, ends, starts⟩ := reach_sections goals (by
    intro thread task goal
    by_cases first : thread = one
    · subst first
      obtain rfl := Option.some.inj (reader.symm.trans goal)
      exact nested
    · by_cases second : thread = other
      · subst second
        obtain rfl := Option.some.inj (writer.symm.trans goal)
        exact writes
      · simp [goals, first, second] at goal)
  obtain ⟨later, between⟩ := starts one _ reader
  obtain ⟨final, before⟩ := starts other _ writer
  have clear : (0 : Word) &&& writeFlag = 0 := by decide
  have busy : ¬ (1 ||| writeFlag : Word) &&& ~~~writeFlag = 0 := by decide
  have inside := runs.alone (between ▸ alone_first clear later)
  have there : Function.update target one
      ⟨⟨.readLoad, 1, 0⟩, .dropRead :: .dropRead :: script later⟩ other = target other :=
    Function.update_of_ne differ.symm _ _
  have waits := inside.alone (there.trans before ▸ alone_waits final)
  refine ⟨_, _, waits, ⟨one, ?_⟩, ?_⟩
  · simp [Function.update_of_ne differ, Scripted.Finished]
  · intro thread
    by_cases second : thread = other
    · subst second
      simp only [Function.update_self]
      exact busy
    · by_cases first : thread = one
      · subst first
        simp only [Function.update_of_ne differ, Function.update_self]
        exact ⟨by decide, trivial⟩
      · simp only [Function.update_of_ne second, Function.update_of_ne first]
        rw [ends thread (by simp [goals, first, second])]
        rfl

/-- So many readers between their acquisitions that the word looks as if one wrote. -/
theorem stuck_of_many
    (many : 2 ^ 63 ≤ (Finset.univ.filter fun thread => .nested ∈ programs thread).card) :
    ∃ events config, Runs scripted (fun _ => True) (scripts programs) events config ∧ Stuck config := by
  obtain ⟨chosen, within, count⟩ := Finset.exists_subset_card_eq many
  let goals : ι → Option LockSection := fun thread => if thread ∈ chosen then some .nested else none
  obtain ⟨events, target, runs, ends, starts⟩ := reach_sections goals (by
    intro thread task goal
    by_cases member : thread ∈ chosen
    · obtain rfl : .nested = task := by simpa [goals, member] using goal
      exact (Finset.mem_filter.mp (within member)).2
    · simp [goals, member] at goal)
  have between : ∀ thread, ∃ rest, thread ∈ chosen →
      target thread = ⟨.fresh, script (.nested :: rest)⟩ := by
    intro thread
    by_cases member : thread ∈ chosen
    · obtain ⟨rest, same⟩ := starts thread .nested (if_pos member)
      exact ⟨rest, fun _ => same⟩
    · exact ⟨[], fun inside => absurd inside member⟩
  choose rest between using between
  let holding : ι → Scripted := fun thread =>
    ⟨⟨.readLoad, 1, 0⟩, .dropRead :: .dropRead :: script (rest thread)⟩
  have each : ∀ done thread, thread ∉ done → insert thread done ⊆ chosen →
      ∃ actions, alone scripted (BitVec.ofNat 64 done.card) (target thread) actions =
        some (BitVec.ofNat 64 (insert thread done).card, holding thread) := by
    intro done thread fresh inside
    have grown := Finset.card_le_card inside
    rw [Finset.card_insert_of_notMem fresh, count] at grown
    have small : BitVec.ofNat 64 done.card &&& writeFlag = 0 := by
      rw [and_writeFlag_eq_zero, BitVec.toNat_ofNat]
      omega
    have more : BitVec.ofNat 64 (insert thread done).card = BitVec.ofNat 64 done.card + 1 := by
      rw [Finset.card_insert_of_notMem fresh, BitVec.ofNat_add]
      rfl
    have taken := alone_first small (rest thread)
    rw [← between thread (inside (Finset.mem_insert_self _ _)), ← more] at taken
    exact ⟨_, taken⟩
  obtain ⟨later, entered⟩ := exists_run_of_alone (fun done => BitVec.ofNat 64 done.card) chosen each
  have flagged : ¬ BitVec.ofNat 64 chosen.card &&& writeFlag = 0 := by
    rw [count]
    decide
  obtain ⟨thread, member⟩ : chosen.Nonempty := Finset.card_pos.mp (by omega)
  refine ⟨_, _, runs.trans entered, ⟨thread, ?_⟩, ?_⟩
  · simp [member, holding, Scripted.Finished]
  · intro other
    by_cases inside : other ∈ chosen
    · simp only [if_pos inside]
      exact ⟨flagged, trivial⟩
    · simp only [if_neg inside]
      rw [ends other (if_neg inside)]
      rfl

/-- Every reachable state of harmless programs, and of no others, lets some thread advance
until all have finished. -/
theorem advances_iff_harmless :
    (∀ events config, Runs scripted (fun _ => True) (scripts programs) events config →
      (∃ thread, ¬ (config.threads thread).Finished) →
        ∃ thread, (config.threads thread).Advances config.shared) ↔ Harmless programs := by
  constructor
  · intro advancing
    have unstuck : ¬ ∃ events config,
        Runs scripted (fun _ => True) (scripts programs) events config ∧ Stuck config := by
      rintro ⟨events, config, runs, unfinished, blocked⟩
      obtain ⟨thread, advances⟩ := advancing events config runs unfinished
      exact (blocked thread).not_advances advances
    constructor
    · intro one other differ nested writes
      exact unstuck (stuck_of_nested differ nested writes)
    · by_contra many
      exact unstuck (stuck_of_many (Nat.not_lt.mp many))
  · intro harmless events config runs unfinished
    exact harmless.advances runs unfinished

/-- One thread reads as the test does, the other one writes. -/
def recursiveRead : Fin 2 → List LockSection
  | 0 => [.nested]
  | 1 => [.write]

/-- The writer sets its flag between the two acquisitions. -/
def writerBetween {τ : Type} (reader writer : τ) : List (τ × Action) :=
  [(reader, .read), (reader, .load 0), (reader, .exchange), (writer, .write), (writer, .load 1),
    (writer, .exchange), (reader, .read)]

/-- Neither thread has finished, and neither advances any more. -/
theorem writerBetween_deadlocks : ∃ config : Config (Fin 2) Word Scripted,
    Runs scripted (fun _ => True) (scripts recursiveRead) (writerBetween 0 1) config ∧
      ∀ thread, ¬ (config.threads thread).Finished ∧
        ¬ (config.threads thread).Advances config.shared := by
  obtain ⟨config, runs, facts⟩ : ∃ config,
      Runs scripted (fun _ => True) (scripts recursiveRead) (writerBetween 0 1) config ∧
        decide (config.shared = 1 ||| writeFlag ∧
          config.threads 0 = ⟨⟨.readLoad, 1, 0⟩, [.dropRead, .dropRead]⟩ ∧
          config.threads 1 = ⟨⟨.writeDrain, 0, 0⟩, [.dropWrite]⟩) = true :=
    exists_run_of_exec (by decide)
  obtain ⟨word, reader, writer⟩ := of_decide_eq_true facts
  have flagged : ¬ (1 ||| writeFlag : Word) &&& writeFlag = 0 := by decide
  have busy : ¬ (1 ||| writeFlag : Word) &&& ~~~writeFlag = 0 := by decide
  refine ⟨config, runs, fun thread => ?_⟩
  rw [word]
  obtain rfl | rfl : thread = 0 ∨ thread = 1 := by omega
  · rw [reader]
    have blocked : Scripted.Blocked (1 ||| writeFlag) ⟨⟨.readLoad, 1, 0⟩, [.dropRead, .dropRead]⟩ :=
      ⟨flagged, trivial⟩
    exact ⟨by simp [Scripted.Finished], blocked.not_advances⟩
  · rw [writer]
    have blocked : Scripted.Blocked (1 ||| writeFlag) ⟨⟨.writeDrain, 0, 0⟩, [.dropWrite]⟩ := busy
    exact ⟨by simp [Scripted.Finished], blocked.not_advances⟩

end RWLock
end Rpi5.Mutex
