import Rpi5.Semantics.Embedding

/-!
# Monitors

A monitor follows the calls of a run together with their replies, and refuses those which are
out of order. What it says of a run is a condition on its state; the rules carry such a
condition through a program.
-/

namespace Rpi5.Semantics

variable {Q A W B σ ε α : Type}

/-- The calls with their replies. -/
def replied (respond : List W → W → B) (before : List W) : List W → List (W × B)
  | [] => []
  | made :: rest => (made, respond before made) :: replied respond (before ++ [made]) rest

/-- The reply to one more call is added at the end. -/
theorem replied_append (respond : List W → W → B) (before history : List W) (made : W) :
    replied respond before (history ++ [made]) =
      replied respond before history ++ [(made, respond (before ++ history) made)] := by
  induction history generalizing before with
  | nil => rw [List.append_nil]; rfl
  | cons first rest ih =>
      rw [List.cons_append, replied, ih, replied, List.append_assoc, List.singleton_append]
      rfl

/-- From a state a call with its reply leads to another state, or is refused. -/
abbrev Monitor (W B σ : Type) := σ → W → B → Option σ

namespace Monitor

variable {monitor : Monitor W B σ} {respond : List W → W → B} {start : σ} {pre post : σ → Prop}

/-- The state after some calls, if none of them is refused. -/
def watch (monitor : Monitor W B σ) (respond : List W → W → B) (start : σ) (history : List W) :
    Option σ :=
  (replied respond [] history).foldlM (fun state call => monitor state call.1 call.2) start

/-- One more call is one more step of the monitor. -/
theorem watch_append (history : List W) (made : W) :
    monitor.watch respond start (history ++ [made]) =
      (monitor.watch respond start history).bind fun state =>
        monitor state made (respond history made) := by
  unfold watch
  rw [replied_append, List.foldlM_append]
  simp

/-- No call is refused, and the state has a property. -/
def Watched (monitor : Monitor W B σ) (respond : List W → W → B) (start : σ) (holds : σ → Prop)
    (history : List W) : Prop :=
  ∃ state, monitor.watch respond start history = some state ∧ holds state

/-- The condition on the state may be weaker. -/
theorem Watched.mono {history : List W} (watched : monitor.Watched respond start pre history)
    (weaker : ∀ state, pre state → post state) : monitor.Watched respond start post history := by
  obtain ⟨state, same, holds⟩ := watched
  exact ⟨state, same, weaker state holds⟩

/-- A call which is accepted. -/
def Accepts (monitor : Monitor W B σ) (pre : σ → Prop) (made : W) (post : σ → Prop) : Prop :=
  ∀ state reply, pre state → ∃ after, monitor state made reply = some after ∧ post after

/-- A call which the monitor accepts goes on from one condition to the next. -/
theorem Watched.append {history : List W} {made : W}
    (watched : monitor.Watched respond start pre history)
    (accepts : ∀ state, pre state → ∃ after,
      monitor state made (respond history made) = some after ∧ post after) :
    monitor.Watched respond start post (history ++ [made]) := by
  obtain ⟨state, same, holds⟩ := watched
  obtain ⟨after, moved, reached⟩ := accepts state holds
  exact ⟨after, by rw [watch_append, same, Option.bind_some, moved], reached⟩

end Monitor

namespace Dialogue

variable {monitor : Monitor W B σ} {respond : List W → W → B} {start : σ} {pre post : σ → Prop}
  {answer : Q → Option A} {last : α → List W → Prop} {cut : ε → List W → Prop}

/-- One call which the monitor accepts. -/
theorem keeps_accepted {made : W} {next : B → Dialogue Q A W B ε α}
    (accepts : monitor.Accepts pre made post)
    (rest : ∀ reply, Keeps answer respond (monitor.Watched respond start post) (next reply) last cut) :
    Keeps answer respond (monitor.Watched respond start pre) (.call made next) last cut := by
  apply keeps_call
  intro history watched
  refine (rest _).mono ?_ (fun _ _ holds => holds) fun _ _ holds => holds
  rintro _ rfl
  exact watched.append fun state holds => accepts state _ holds

/-- A program all of whose calls are accepted. -/
theorem Within.watched {allowed : W → Prop} {ends : ε → Prop} {program : Dialogue Q A W B ε α}
    (within : Within (fun _ => False) allowed ends program)
    (accepts : ∀ made, allowed made → monitor.Accepts pre made pre) :
    Keeps answer respond (monitor.Watched respond start pre) program
      (fun _ => monitor.Watched respond start pre)
      fun why calls => ends why ∧ monitor.Watched respond start pre calls :=
  within.keeps fun _ made watched allowed =>
    watched.append fun state holds => accepts made allowed state _ holds

/-- No call of a run is refused which keeps conditions on the monitor. -/
theorem Keeps.watched {program : Dialogue Q A W B ε α} {first : List W → Prop} {calls : List W}
    (keeps : Keeps answer respond first program (fun _ => monitor.Watched respond start pre)
      fun _ => monitor.Watched respond start post) (holds : first calls) :
    (monitor.watch respond start (program.exec answer respond calls).2).isSome := by
  have run := keeps calls holds
  rcases done : program.exec answer respond calls with ⟨halt | value, later⟩
  · rw [done] at run
    cases halt with
    | stopped why =>
        obtain ⟨state, same, -⟩ := run
        exact Option.isSome_of_eq_some same
    | unanswered question => exact run.elim
  · rw [done] at run
    obtain ⟨state, same, -⟩ := run
    exact Option.isSome_of_eq_some same

end Dialogue
end Rpi5.Semantics
