import Rpi5.Semantics.Dialogue

/-!
# Twin runs

Two runs are twins if they end in the same way, up to errors which are excused on both
sides, and a value they end with has a postcondition. `Twin.bind` composes twins: the second
parts have to be twins only behind a value of the first ones.
-/

namespace Rpi5.Semantics

/-- Two endings are the same value with a postcondition, the same error, or two excused
errors. -/
inductive Twin {δ α : Type} (excused : δ → Prop) (post : α → Prop) :
    Except δ α → Except δ α → Prop where
  | value {value} (holds : post value) : Twin excused post (.ok value) (.ok value)
  | error (reason) : Twin excused post (.error reason) (.error reason)
  | excused {one other} (here : excused one) (there : excused other) :
      Twin excused post (.error one) (.error other)

section Endings

variable {δ α β : Type} {excused : δ → Prop} {post other : α → Prop} {last : β → Prop}
  {first second : Except δ α}

/-- The same ending is its own twin. -/
theorem Twin.of_eq (equal : second = first) (holds : ∀ value, first = .ok value → post value) :
    Twin excused post first second := by
  subst equal
  cases second with
  | ok value => exact .value (holds value rfl)
  | error reason => exact .error reason

/-- The postcondition may be weaker. -/
theorem Twin.mono (twin : Twin excused post first second)
    (weaker : ∀ value, first = .ok value → post value → other value) :
    Twin excused other first second := by
  cases twin with
  | value holds => exact .value (weaker _ rfl holds)
  | error reason => exact .error reason
  | excused here there => exact .excused here there

/-- Of twins both are excused or none. -/
theorem Twin.excused_iff (twin : Twin excused post first second) :
    (∃ reason, excused reason ∧ first = .error reason) ↔
      ∃ reason, excused reason ∧ second = .error reason := by
  cases twin with
  | value => simp
  | error => exact Iff.rfl
  | excused here there => exact ⟨fun _ => ⟨_, there, rfl⟩, fun _ => ⟨_, here, rfl⟩⟩

/-- Without an excuse they are the same. -/
theorem Twin.eq_of_not_excused (twin : Twin excused post first second)
    (plain : ¬ ∃ reason, excused reason ∧ first = .error reason) : second = first := by
  cases twin with
  | value => rfl
  | error => rfl
  | excused here => exact absurd ⟨_, here, rfl⟩ plain

/-- The second part may use the value of the first run and its postcondition. -/
theorem Twin.bind {next further : α → Except δ β} (one : Twin excused post first second)
    (rest : ∀ value, first = .ok value → post value → Twin excused last (next value) (further value)) :
    Twin excused last (first >>= next) (second >>= further) := by
  cases one with
  | value holds => exact rest _ rfl holds
  | error reason => exact .error reason
  | excused here there => exact .excused here there

end Endings

namespace Inquiry

variable {Q A ε α β : Type} {excused : Halt Q ε → Prop} {post : α → Prop} {last : β → Prop}
  {answer other : Q → Option A}

/-- Twin runs of a sequence in two environments. -/
theorem twin_bind {program : Inquiry Q A ε α} {next : α → Inquiry Q A ε β}
    (one : Twin excused post (eval answer program) (eval other program))
    (rest : ∀ value, eval answer program = .ok value → post value →
      Twin excused last (eval answer (next value)) (eval other (next value))) :
    Twin excused last (eval answer (program >>= next)) (eval other (program >>= next)) := by
  rw [eval_bind, eval_bind]
  exact one.bind rest

end Inquiry
end Rpi5.Semantics
