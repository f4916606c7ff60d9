import Rpi5.Mutex.Exclusion
import Mathlib.Data.Finset.Lattice.Basic

/-!
# What the threads know of each other's accesses

The lock's atomic steps carry knowledge of data accesses from thread to thread. A drop
is a `Release`: it publishes at the word what its thread knows. A successful exchange is
an `Acquire`: its thread learns what is published, and its relaxed part keeps that. The
loads are relaxed and teach nothing. That is also so for the load with which a writer
which waited for the readers enters. What these readers did while it waited it may not
know.
-/

namespace Rpi5.Mutex

open Rpi5.Semantics

/-- A data access; the accesses are numbered in their order. -/
abbrev Access := Nat

/-- The word with what is published at it, and the accesses under dropped guards. -/
structure Published where
  word : Word
  known : Finset Access
  accesses : Nat
  underReads : Finset Access
  underWrites : Finset Access
deriving DecidableEq

/-- A thread with the accesses it knows of, and those made under each of its guards. -/
structure Aware where
  thread : Thread
  knows : Finset Access
  reads : List (Finset Access)
  writes : List (Finset Access)
deriving DecidableEq

/-- The choices of a thread: a step of the lock which is not a drop, an access to the data
under one of its guards, or the drop of one of them. -/
inductive Deed where
  | call (action : Action)
  | useRead (guard : Nat)
  | useWrite (guard : Nat)
  | dropRead (guard : Nat)
  | dropWrite (guard : Nat)
deriving DecidableEq, Repr

namespace Published

/-- A `Release` of what a thread knows. -/
def release (shared : Published) (word : Word) (knows : Finset Access) : Published :=
  { shared with word := word, known := shared.known ∪ knows }

end Published

namespace Aware

/-- A thread which has done nothing. -/
def fresh : Aware := ⟨.fresh, ∅, [], []⟩

/-- A successful exchange acquires what is published, every other step nothing. -/
def acquire (own : Aware) (known : Finset Access) : Action → Finset Access
  | .exchange => own.knows ∪ known
  | _ => own.knows

/-- A new guard, under which no access was made. -/
def opened (guards : List (Finset Access)) (before after : Nat) : List (Finset Access) :=
  if before < after then ∅ :: guards else guards

/-- The accesses made under one of a thread's guards, with one more. -/
def used (guards : List (Finset Access)) (guard : Nat) (access : Access) : List (Finset Access) :=
  guards.modify guard (insert access)

end Aware

/-- The steps of a thread, with what it learns and publishes. -/
def ordered : Acting Published Aware Deed := fun shared own deed =>
  match deed with
  | .call action =>
      if action = .dropRead ∨ action = .dropWrite then none
      else (act shared.word own.thread action).map fun (word, thread) =>
        ({ shared with word := word },
          { thread := thread
            knows := own.acquire shared.known action
            reads := Aware.opened own.reads own.thread.readGuards thread.readGuards
            writes := Aware.opened own.writes own.thread.writeGuards thread.writeGuards })
  | .useRead guard =>
      if own.thread.place = .outside ∧ guard < own.reads.length then
        some ({ shared with accesses := shared.accesses + 1 },
          { own with knows := insert shared.accesses own.knows
                     reads := Aware.used own.reads guard shared.accesses })
      else none
  | .useWrite guard =>
      if own.thread.place = .outside ∧ guard < own.writes.length then
        some ({ shared with accesses := shared.accesses + 1 },
          { own with knows := insert shared.accesses own.knows
                     writes := Aware.used own.writes guard shared.accesses })
      else none
  | .dropRead guard => do
      let made ← own.reads[guard]?
      let (word, thread) ← act shared.word own.thread .dropRead
      some ({ shared.release word own.knows with underReads := shared.underReads ∪ made },
        { own with thread := thread, reads := own.reads.eraseIdx guard })
  | .dropWrite guard => do
      let made ← own.writes[guard]?
      let (word, thread) ← act shared.word own.thread .dropWrite
      some ({ shared.release word own.knows with underWrites := shared.underWrites ∪ made },
        { own with thread := thread, writes := own.writes.eraseIdx guard })

/-- Every such step is one of the lock, or leaves the lock as it is. -/
theorem ordered_refines : Refines Published.word Aware.thread ordered act := by
  intro before own deed after next taken
  cases deed with
  | call action =>
      right
      obtain ⟨-, taken⟩ := Option.ite_none_left_eq_some.mp taken
      obtain ⟨⟨word, thread⟩, stepped, same⟩ := Option.map_eq_some_iff.mp taken
      obtain ⟨rfl, rfl⟩ := Prod.mk.inj same
      exact ⟨action, stepped⟩
  | useRead guard =>
      left
      obtain ⟨-, same⟩ := Option.ite_none_right_eq_some.mp taken
      obtain ⟨rfl, rfl⟩ := Prod.mk.inj (Option.some.inj same)
      exact ⟨rfl, rfl⟩
  | useWrite guard =>
      left
      obtain ⟨-, same⟩ := Option.ite_none_right_eq_some.mp taken
      obtain ⟨rfl, rfl⟩ := Prod.mk.inj (Option.some.inj same)
      exact ⟨rfl, rfl⟩
  | dropRead guard =>
      right
      obtain ⟨made, -, taken⟩ := Option.bind_eq_some_iff.mp taken
      obtain ⟨⟨word, thread⟩, stepped, same⟩ := Option.bind_eq_some_iff.mp taken
      obtain ⟨rfl, rfl⟩ := Prod.mk.inj (Option.some.inj same)
      exact ⟨.dropRead, stepped⟩
  | dropWrite guard =>
      right
      obtain ⟨made, -, taken⟩ := Option.bind_eq_some_iff.mp taken
      obtain ⟨⟨word, thread⟩, stepped, same⟩ := Option.bind_eq_some_iff.mp taken
      obtain ⟨rfl, rfl⟩ := Prod.mk.inj (Option.some.inj same)
      exact ⟨.dropWrite, stepped⟩

/-- Only a successful exchange gives a read guard, and only it or the end of the waiting a
write guard. Only it begins the waiting. -/
theorem act_of_ne_exchange {word after : Word} {thread own : Thread} {action : Action}
    (taken : act word thread action = some (after, own)) (other : action ≠ .exchange) :
    own.readGuards ≤ thread.readGuards ∧
      (thread.place ≠ .writeDrain →
        own.writeGuards ≤ thread.writeGuards ∧ own.place ≠ .writeDrain) := by
  have moved := moved_of_act taken
  cases moved with
  | quiet waits =>
      exact ⟨Nat.le_refl _, fun elsewhere =>
        ⟨Nat.le_refl _, fun now => elsewhere (waits.mpr now)⟩⟩
  | enterRead here =>
      cases action <;> simp_all [act, readStep, Thread.takeRead, Thread.goto]
  | enterWrite here =>
      cases action <;> simp_all [act, writeStep, Thread.takeWrite, Thread.goto]
  | setFlag here =>
      cases action <;> simp_all [act, writeStep, Thread.goto]
  | drained here => exact ⟨Nat.le_refl _, fun elsewhere => absurd here elsewhere⟩
  | leaveRead here =>
      exact ⟨Nat.sub_le _ _, fun _ => ⟨Nat.le_refl _, by simp [Thread.dropRead, here]⟩⟩
  | leaveWrite here =>
      exact ⟨Nat.le_refl _, fun _ => ⟨Nat.sub_le _ _, by simp [Thread.dropWrite, here]⟩⟩

/-- A writer which stops waiting has its guard. -/
theorem returned_of_drained {word after : Word} {thread own : Thread} {action : Action}
    (taken : act word thread action = some (after, own)) (waits : thread.place = .writeDrain)
    (left : own.place ≠ .writeDrain) : thread.writeGuards < own.writeGuards := by
  cases moved_of_act taken with
  | quiet waiting => exact absurd (waiting.mp waits) left
  | drained => exact Nat.lt_succ_self _
  | enterRead here => simp [waits] at here
  | enterWrite here => simp [waits] at here
  | setFlag here => simp [waits] at here
  | leaveRead here => simp [waits] at here
  | leaveWrite here => simp [waits] at here

/-- A thread knows of the accesses made under its guards. -/
def Aware.Holds (own : Aware) : Prop := ∀ made ∈ own.reads ++ own.writes, made ⊆ own.knows

/-- The accesses made under the guards dropped so far. -/
def Published.dropped (shared : Published) : Finset Access := shared.underReads ∪ shared.underWrites

/-- What a step does to what is known. -/
structure Learns (shared : Published) (own : Aware) (deed : Deed) (after : Published) (next : Aware) :
    Prop where
  knows : own.knows ⊆ next.knows
  /-- A waiting thread learns nothing. -/
  relaxed : own.thread.place = .writeDrain → next.knows = own.knows
  held : own.Holds → next.Holds
  grows : shared.dropped ⊆ after.dropped
  known : shared.dropped ⊆ shared.known → own.Holds → after.dropped ⊆ after.known
  /-- Only a drop adds to the accesses made under dropped guards. -/
  dropped : after.dropped = shared.dropped ∨
    (∃ guard made, deed = .dropRead guard ∧ own.reads[guard]? = some made ∧
      after.dropped = shared.dropped ∪ made) ∨
    (own.thread.place = .outside ∧ 0 < own.thread.writeGuards)
  /-- A thread which obtains a guard or waits learns what is published, or has waited. -/
  entered : next.thread.place = .writeDrain ∨ own.thread.readGuards < next.thread.readGuards ∨
      own.thread.writeGuards < next.thread.writeGuards →
    after.dropped = shared.dropped ∧ (shared.known ⊆ next.knows ∨ own.thread.place = .writeDrain)

/-- Using a guard, a thread still knows what was done under its guards. -/
theorem Aware.holds_used {guards : List (Finset Access)} {knows : Finset Access} {guard : Nat}
    {access : Access} (held : ∀ made ∈ guards, made ⊆ knows) :
    ∀ made ∈ used guards guard access, made ⊆ insert access knows := by
  intro made member
  obtain ⟨index, bound, rfl⟩ := List.mem_iff_getElem.mp member
  simp only [used, List.getElem_modify]
  have inside : index < guards.length := by simpa [used] using bound
  have fine := held _ (List.getElem_mem inside)
  by_cases here : guard = index
  · rw [if_pos here]
    exact Finset.insert_subset_insert _ fine
  · rw [if_neg here]
    exact fine.trans (Finset.subset_insert _ _)

/-- A guard taken just now has nothing done under it. -/
theorem Aware.holds_opened {guards : List (Finset Access)} {knows : Finset Access} {before after : Nat}
    (held : ∀ made ∈ guards, made ⊆ knows) : ∀ made ∈ opened guards before after, made ⊆ knows := by
  unfold opened
  by_cases more : before < after
  · rw [if_pos more]
    exact List.forall_mem_cons.mpr ⟨Finset.empty_subset _, held⟩
  · rwa [if_neg more]

/-- Acquiring forgets nothing. -/
theorem Aware.knows_acquire (own : Aware) (known : Finset Access) (action : Action) :
    own.knows ⊆ own.acquire known action := by
  cases action with
  | exchange => exact Finset.subset_union_left
  | _ => exact Finset.Subset.refl _

/-- The drop of a guard is outside `read` and `write`. -/
theorem outside_of_drop {word after : Word} {thread own : Thread} {action : Action}
    (taken : act word thread action = some (after, own))
    (drops : action = .dropRead ∨ action = .dropWrite) :
    thread.place = .outside ∧ own.place = .outside ∧ own.readGuards ≤ thread.readGuards ∧
      own.writeGuards ≤ thread.writeGuards ∧ (action = .dropWrite → 0 < thread.writeGuards) := by
  have here : thread.place = .outside := by
    obtain rfl | rfl := drops <;> cases here : thread.place <;>
      simp_all [act, readStep, writeStep]
  obtain rfl | rfl := drops
  · simp only [act, here, outsideStep, Option.ite_none_right_eq_some, Option.some.injEq,
      Prod.mk.injEq] at taken
    obtain ⟨-, -, rfl⟩ := taken
    exact ⟨here, here, Nat.sub_le _ _, Nat.le_refl _, by simp⟩
  · simp only [act, here, outsideStep, Option.ite_none_right_eq_some, Option.some.injEq,
      Prod.mk.injEq] at taken
    obtain ⟨held, -, rfl⟩ := taken
    exact ⟨here, here, Nat.le_refl _, Nat.sub_le _ _, fun _ => held⟩

section Deeds

variable {shared after : Published} {own next : Aware} {deed : Deed}

/-- Only a successful exchange acquires, and only it or the end of the waiting gives a guard. -/
theorem learns_of_call {action : Action}
    (taken : ordered shared own (.call action) = some (after, next)) :
    Learns shared own (.call action) after next := by
  obtain ⟨-, taken⟩ := Option.ite_none_left_eq_some.mp taken
  obtain ⟨⟨word, thread⟩, stepped, same⟩ := Option.map_eq_some_iff.mp taken
  obtain ⟨rfl, rfl⟩ := Prod.mk.inj same
  have more := own.knows_acquire shared.known action
  refine ⟨more, ?_, ?_, Finset.Subset.refl _, fun fine _ => fine, .inl rfl, fun enters => ⟨rfl, ?_⟩⟩
  · intro here
    have loads : action ≠ .exchange := by
      rintro rfl
      simp [act, here, writeStep] at stepped
    cases action with
    | exchange => exact absurd rfl loads
    | _ => rfl
  · intro held
    obtain ⟨reads, writes⟩ := List.forall_mem_append.mp held
    exact List.forall_mem_append.mpr
      ⟨Aware.holds_opened fun made member => (reads made member).trans more,
        Aware.holds_opened fun made member => (writes made member).trans more⟩
  · by_cases exchanges : action = .exchange
    · left
      rw [exchanges]
      exact Finset.subset_union_right
    · right
      obtain ⟨reads, writes⟩ := act_of_ne_exchange stepped exchanges
      by_contra elsewhere
      obtain ⟨writes, place⟩ := writes elsewhere
      obtain waits | reads' | writes' := enters
      · exact place waits
      · exact absurd reads' (Nat.not_lt.mpr reads)
      · exact absurd writes' (Nat.not_lt.mpr writes)

/-- An access is known to its thread only. -/
theorem learns_of_use (here : own.thread.place = .outside) (thread : next.thread = own.thread)
    (knows : own.knows ⊆ next.knows) (held : own.Holds → next.Holds)
    (dropped : after.dropped = shared.dropped) (known : after.known = shared.known) :
    Learns shared own deed after next where
  knows := knows
  relaxed waits := by simp [here] at waits
  held := held
  grows := Finset.subset_of_eq dropped.symm
  known fine _ := by rwa [dropped, known]
  dropped := .inl dropped
  entered enters := by simp [thread, here] at enters

/-- A drop publishes what its thread knows, and so the accesses made under the guard. -/
theorem learns_of_drop {word : Word} {action : Action} {made : Finset Access}
    (stepped : act shared.word own.thread action = some (word, next.thread))
    (drops : action = .dropRead ∨ action = .dropWrite) (used : made ∈ own.reads ++ own.writes)
    (fewer : ∀ other ∈ next.reads ++ next.writes, other ∈ own.reads ++ own.writes)
    (knows : next.knows = own.knows) (known : after.known = shared.known ∪ own.knows)
    (dropped : after.dropped = shared.dropped ∪ made)
    (kind : (∃ guard, deed = .dropRead guard ∧ own.reads[guard]? = some made) ∨ action = .dropWrite) :
    Learns shared own deed after next := by
  obtain ⟨here, place, reads, writes, writing⟩ := outside_of_drop stepped drops
  refine ⟨Finset.subset_of_eq knows.symm, fun _ => knows, ?_, ?_, ?_, ?_, ?_⟩
  · intro held other member
    rw [knows]
    exact held other (fewer other member)
  · rw [dropped]
    exact Finset.subset_union_left
  · intro fine held
    rw [dropped, known]
    exact Finset.union_subset_union fine (held made used)
  · right
    rcases kind with ⟨guard, rfl, given⟩ | rfl
    · exact .inl ⟨guard, made, rfl, given, dropped⟩
    · exact .inr ⟨here, writing rfl⟩
  · rintro (waits | more | more)
    · simp [place] at waits
    · exact absurd more (Nat.not_lt.mpr reads)
    · exact absurd more (Nat.not_lt.mpr writes)

/-- Every step teaches and publishes this. -/
theorem learns_of_ordered (taken : ordered shared own deed = some (after, next)) :
    Learns shared own deed after next := by
  cases deed with
  | call action => exact learns_of_call taken
  | useRead guard =>
      obtain ⟨⟨here, -⟩, same⟩ := Option.ite_none_right_eq_some.mp taken
      obtain ⟨rfl, rfl⟩ := Prod.mk.inj (Option.some.inj same)
      have more : own.knows ⊆ insert shared.accesses own.knows := Finset.subset_insert _ _
      refine learns_of_use here rfl more (fun held => ?_) rfl rfl
      obtain ⟨reads, writes⟩ := List.forall_mem_append.mp held
      exact List.forall_mem_append.mpr
        ⟨Aware.holds_used reads, fun made member => (writes made member).trans more⟩
  | useWrite guard =>
      obtain ⟨⟨here, -⟩, same⟩ := Option.ite_none_right_eq_some.mp taken
      obtain ⟨rfl, rfl⟩ := Prod.mk.inj (Option.some.inj same)
      have more : own.knows ⊆ insert shared.accesses own.knows := Finset.subset_insert _ _
      refine learns_of_use here rfl more (fun held => ?_) rfl rfl
      obtain ⟨reads, writes⟩ := List.forall_mem_append.mp held
      exact List.forall_mem_append.mpr
        ⟨fun made member => (reads made member).trans more, Aware.holds_used writes⟩
  | dropRead guard =>
      obtain ⟨made, used, taken⟩ := Option.bind_eq_some_iff.mp taken
      obtain ⟨⟨word, thread⟩, stepped, same⟩ := Option.bind_eq_some_iff.mp taken
      obtain ⟨rfl, rfl⟩ := Prod.mk.inj (Option.some.inj same)
      refine learns_of_drop stepped (.inl rfl) (List.mem_append_left _ (List.mem_of_getElem? used))
        ?_ rfl rfl (Finset.union_right_comm _ _ _) (.inl ⟨guard, rfl, used⟩)
      intro other member
      exact (List.mem_append.mp member).elim
        (fun reads => List.mem_append_left _ (List.mem_of_mem_eraseIdx reads))
        (List.mem_append_right _)
  | dropWrite guard =>
      obtain ⟨made, used, taken⟩ := Option.bind_eq_some_iff.mp taken
      obtain ⟨⟨word, thread⟩, stepped, same⟩ := Option.bind_eq_some_iff.mp taken
      obtain ⟨rfl, rfl⟩ := Prod.mk.inj (Option.some.inj same)
      refine learns_of_drop stepped (.inr rfl) (List.mem_append_right _ (List.mem_of_getElem? used))
        ?_ rfl rfl (Finset.union_assoc _ _ _).symm (.inr rfl)
      intro other member
      exact (List.mem_append.mp member).elim (List.mem_append_left _)
        fun writes => List.mem_append_right _ (List.mem_of_mem_eraseIdx writes)

end Deeds

namespace Ordered

variable {ι : Type} [DecidableEq ι]

/-- The lock under a state with its knowledge. -/
abbrev lock (config : Config ι Published Aware) : RWLock ι :=
  config.lower Published.word Aware.thread

/-- A lock at which nothing is published, with threads which have done nothing. -/
def start : Config ι Published Aware := ⟨⟨0, ∅, 0, ∅, ∅⟩, fun _ => .fresh⟩

/-- Where a step returns a guard, its thread knows of every access made under a dropped
guard which conflicts with it. -/
structure Informs (before after : Config ι Published Aware) (thread : ι) : Prop where
  read : (before.threads thread).thread.readGuards < (after.threads thread).thread.readGuards →
    after.shared.underWrites ⊆ (after.threads thread).knows
  write : (before.threads thread).thread.writeGuards < (after.threads thread).thread.writeGuards →
    after.shared.underReads ∪ after.shared.underWrites ⊆ (after.threads thread).knows

/-- A read guard is not dropped while a writer waits for the readers, unless it knows
already of the accesses made under it. -/
def Timely (config : Config ι Published Aware) (thread : ι) : Deed → Prop
  | .dropRead guard => ∀ made ∈ (config.threads thread).reads[guard]?, ∀ writer,
      (config.threads writer).thread.place = .writeDrain → made ⊆ (config.threads writer).knows
  | _ => True

instance [Fintype ι] (config : Config ι Published Aware) (thread : ι) :
    (deed : Deed) → Decidable (Timely config thread deed)
  | .dropRead guard => inferInstanceAs (Decidable (∀ made ∈ (config.threads thread).reads[guard]?, _))
  | .call _ | .useRead _ | .useWrite _ | .dropWrite _ => .isTrue trivial

/-- The invariant: every access made under a dropped guard is published, a thread knows of
its own, and one which waits for the readers of all under dropped guards. -/
structure Traced [Fintype ι] (config : Config ι Published Aware) : Prop where
  balanced : (lock config).Balanced
  published : config.shared.dropped ⊆ config.shared.known
  held : ∀ thread, (config.threads thread).Holds
  waits : ∀ thread, (config.threads thread).thread.place = .writeDrain →
    config.shared.dropped ⊆ (config.threads thread).knows

variable [Fintype ι]

omit [DecidableEq ι] in
/-- The start is traced. -/
theorem traced_start : Traced (start : Config ι Published Aware) where
  balanced := RWLock.balanced_new
  published := Finset.Subset.refl _
  held _ _ member := absurd member List.not_mem_nil
  waits _ waiting := by cases waiting

section Steps

variable {before after : Config ι Published Aware} {thread : ι} {deed : Deed}

/-- A thread which obtains a guard or waits knows of all accesses under dropped guards. -/
theorem Traced.entered (traced : Traced before)
    (taken : before.step ordered thread deed = some after)
    (enters : (after.threads thread).thread.place = .writeDrain ∨
      (before.threads thread).thread.readGuards < (after.threads thread).thread.readGuards ∨
      (before.threads thread).thread.writeGuards < (after.threads thread).thread.writeGuards) :
    after.shared.dropped ⊆ (after.threads thread).knows := by
  obtain ⟨acted, -⟩ := Config.acted_of_step taken
  have learns := learns_of_ordered acted
  obtain ⟨same, acquires | waited⟩ := learns.entered enters
  · rw [same]
    exact traced.published.trans acquires
  · rw [same]
    exact (traced.waits thread waited).trans learns.knows

/-- While another thread waits, it goes on knowing of all accesses under dropped guards. -/
theorem Traced.waiting (traced : Traced before) (timely : Timely before thread deed)
    (taken : before.step ordered thread deed = some after) {writer : ι} (other : writer ≠ thread)
    (waits : (before.threads writer).thread.place = .writeDrain) :
    after.shared.dropped ⊆ (before.threads writer).knows := by
  obtain ⟨acted, -⟩ := Config.acted_of_step taken
  have known := traced.waits writer waits
  obtain same | ⟨guard, made, rfl, used, union⟩ | ⟨-, writes⟩ := (learns_of_ordered acted).dropped
  · rwa [same]
  · rw [union]
    exact Finset.union_subset known (timely made used writer waits)
  · have alone : writer = thread := traced.balanced.unique (.inl waits) (.inr writes)
    exact absurd alone other

/-- A timely step keeps the invariant. -/
theorem Traced.step (traced : Traced before) (timely : Timely before thread deed)
    (taken : before.step ordered thread deed = some after) : Traced after := by
  obtain ⟨acted, others⟩ := Config.acted_of_step taken
  have learns := learns_of_ordered acted
  constructor
  · obtain unmoved | ⟨action, stepped⟩ := ordered_refines.step taken
    · rw [lock, unmoved]
      exact traced.balanced
    · exact traced.balanced.step stepped
  · exact learns.known traced.published (traced.held thread)
  · intro other
    by_cases self : other = thread
    · rw [self]
      exact learns.held (traced.held thread)
    · rw [others other self]
      exact traced.held other
  · intro writer waits
    by_cases self : writer = thread
    · rw [self] at waits ⊢
      exact traced.entered taken (.inl waits)
    · rw [others writer self] at waits ⊢
      exact traced.waiting timely taken self waits

end Steps

/-- In a run in which every drop of a read guard is timely, every returned guard comes
with the knowledge of all accesses made under the dropped guards which conflict with it.
Only the waiting writers make a condition necessary: their last load is relaxed. -/
theorem informs_of_timely {events : List (ι × Deed)} {config next : Config ι Published Aware}
    {thread : ι} {deed : Deed} (runs : RunsMeeting ordered Timely start events config)
    (taken : config.step ordered thread deed = some next) : Informs config next thread := by
  have traced : Traced config :=
    runs.invariant traced_start fun _ _ _ _ traced timely taken => traced.step timely taken
  constructor
  · intro returned
    exact Finset.subset_union_right.trans (traced.entered taken (.inr (.inl returned)))
  · intro returned
    exact traced.entered taken (.inr (.inr returned))

omit [Fintype ι] in
/-- A waiting writer learns nothing from any step, and the dropped accesses only grow. -/
theorem unlearned {before after : Config ι Published Aware} {thread writer : ι} {deed : Deed}
    (taken : before.step ordered thread deed = some after)
    (waits : (before.threads writer).thread.place = .writeDrain) :
    (after.threads writer).knows = (before.threads writer).knows ∧
      before.shared.dropped ⊆ after.shared.dropped := by
  obtain ⟨acted, others⟩ := Config.acted_of_step taken
  have learns := learns_of_ordered acted
  refine ⟨?_, learns.grows⟩
  by_cases self : writer = thread
  · rw [self] at waits ⊢
    exact learns.relaxed waits
  · rw [others writer self]

omit [Fintype ι] in
/-- The condition is exact: once a read guard has been dropped out of time, the writer
which waits returns without knowing all it should, whatever happens until then. -/
theorem not_informs_of_untimely {config after waiting next : Config ι Published Aware}
    {reader writer : ι} {guard : Nat} {deed : Deed} {made : Finset Access}
    {events : List (ι × Deed)} (used : (config.threads reader).reads[guard]? = some made)
    (waits : (config.threads writer).thread.place = .writeDrain)
    (unknown : ¬ made ⊆ (config.threads writer).knows)
    (drops : config.step ordered reader (.dropRead guard) = some after)
    (runs : Runs ordered (fun config => (config.threads writer).thread.place = .writeDrain) after
      events waiting)
    (taken : waiting.step ordered writer deed = some next)
    (left : (next.threads writer).thread.place ≠ .writeDrain) : ¬ Informs waiting next writer := by
  have missed : (waiting.threads writer).thread.place = .writeDrain ∧
      ¬ waiting.shared.dropped ⊆ (waiting.threads writer).knows := by
    apply runs.invariant
    · obtain ⟨acted, others⟩ := Config.acted_of_step drops
      obtain ⟨found, again, acted⟩ := Option.bind_eq_some_iff.mp acted
      obtain rfl : found = made := Option.some.inj (again.symm.trans used)
      obtain ⟨⟨word, thread⟩, stepped, same⟩ := Option.bind_eq_some_iff.mp acted
      obtain ⟨shared, -⟩ := Prod.mk.inj (Option.some.inj same)
      have outside := (outside_of_drop stepped (.inl rfl)).1
      have other : writer ≠ reader := by
        rintro rfl
        simp [waits] at outside
      rw [others writer other, ← shared]
      refine ⟨waits, fun all => unknown (Finset.Subset.trans ?_ all)⟩
      exact Finset.subset_union_right.trans Finset.subset_union_left
    · rintro before thread deed after ⟨here, missed⟩ stepped still
      obtain ⟨same, grows⟩ := unlearned stepped here
      exact ⟨still, fun all => missed (same ▸ grows.trans all)⟩
  obtain ⟨here, missed⟩ := missed
  obtain ⟨same, grows⟩ := unlearned taken here
  intro informs
  apply missed
  rw [← same]
  apply grows.trans
  apply informs.write
  obtain ⟨acted, -⟩ := Config.acted_of_step taken
  obtain ⟨-, still⟩ | ⟨action, stepped⟩ := ordered_refines _ _ _ _ _ acted
  · exact absurd (still ▸ here) left
  · exact returned_of_drained stepped here left

/-- Thread 0 uses the data and drops its guard, and while thread 1 waits, thread 2 drops one
under which it did nothing. -/
def timelyDrops {τ : Type} (reader other writer : τ) : List (τ × Deed) :=
  [(reader, .call .read), (reader, .call (.load 0)), (reader, .call .exchange), (reader, .useRead 0),
    (reader, .dropRead 0), (other, .call .read), (other, .call (.load 0)), (other, .call .exchange),
    (writer, .call .write), (writer, .call (.load 1)), (writer, .call .exchange),
    (other, .dropRead 0)]

/-- A reader uses its guard and drops it, and the writer then knows of the use. -/
theorem timelyDrops_informs : ∃ config next : Config (Fin 3) Published Aware,
    (next.threads 1).thread.writeGuards = 1 ∧ next.shared.underReads = {0} ∧
      Informs config next 1 := by
  obtain ⟨config, taken, facts⟩ := (Option.any_eq_true (fun config =>
      (config.step ordered 1 (.call (.load writeFlag))).any fun next =>
        (next.threads 1).thread.writeGuards = 1 ∧ next.shared.underReads = {0})
    ((start : Config (Fin 3) Published Aware).execMeeting ordered Timely (timelyDrops 0 2 1))).mp
      (by decide)
  obtain ⟨next, returns, facts⟩ := (Option.any_eq_true _ _).mp facts
  obtain ⟨returned, access⟩ := of_decide_eq_true facts
  exact ⟨config, next, returned, access, informs_of_timely (RunsMeeting.refl.exec taken) returns⟩

/-- A reader uses the data. While a writer waits for it, it drops its guard. -/
def lateDrop {τ : Type} (reader writer : τ) : List (τ × Deed) :=
  [(reader, .call .read), (reader, .call (.load 0)), (reader, .call .exchange), (reader, .useRead 0),
    (writer, .call .write), (writer, .call (.load 1)), (writer, .call .exchange),
    (reader, .dropRead 0)]

/-- The writer then returns without knowing of the reader's access. -/
theorem lateDrop_uninformed : ∃ config next : Config (Fin 2) Published Aware,
    Runs ordered (fun _ => True) start (lateDrop 0 1) config ∧
      config.step ordered 1 (.call (.load writeFlag)) = some next ∧ ¬ Informs config next 1 := by
  obtain ⟨config, runs, facts⟩ : ∃ config,
      Runs ordered (fun _ => True) (start : Config (Fin 2) Published Aware) (lateDrop 0 1) config ∧
        (config.step ordered 1 (.call (.load writeFlag))).any (fun next =>
          (config.threads 1).thread.writeGuards < (next.threads 1).thread.writeGuards ∧
            ¬ next.shared.underReads ∪ next.shared.underWrites ⊆ (next.threads 1).knows) = true :=
    exists_run_of_exec (by decide)
  obtain ⟨next, taken, facts⟩ := (Option.any_eq_true _ _).mp facts
  obtain ⟨returned, unknown⟩ := of_decide_eq_true facts
  exact ⟨config, next, runs, taken, fun informs => unknown (informs.write returned)⟩

end Ordered
end Rpi5.Mutex
