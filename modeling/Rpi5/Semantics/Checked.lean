import Rpi5.Semantics.Linked

/-!
# Programs with a check before each question

A build may guard every access of a program: before a question is put it is looked at, and
the program stops with a reason of its own at the first one which is refused. `checked` puts
these checks into a program.

A run with checks is the run without them up to the first refused question
(`exec_checked`), so it is the same where no question is refused, and it returns a value
exactly if the run without checks does and puts no question which is refused
(`exec_checked_eq_ok`).
-/

namespace Rpi5.Semantics
namespace Dialogue

variable {Q A W B ε α β : Type} (passes : Q → Bool) (why : ε)

/-- The program which looks at each question before it puts it, and stops at a refused one. -/
def checked : Dialogue Q A W B ε α → Dialogue Q A W B ε α
  | .done value => .done value
  | .stop reason => .stop reason
  | .ask question next =>
      if passes question then .ask question fun given => (next given).checked else .stop why
  | .call event next => .call event fun reply => (next reply).checked

/-- A value needs no check. -/
@[simp] theorem checked_done (value : α) :
    (.done value : Dialogue Q A W B ε α).checked passes why = .done value := rfl

/-- A program which stops stops for its own reason. -/
@[simp] theorem checked_stop (reason : ε) :
    (.stop reason : Dialogue Q A W B ε α).checked passes why = .stop reason := rfl

/-- A question is put if it passes. -/
theorem checked_ask (question : Q) (next : A → Dialogue Q A W B ε α) :
    (Dialogue.ask question next).checked passes why =
      if passes question then .ask question fun given => (next given).checked passes why
      else .stop why := rfl

/-- Calls are not checked. -/
@[simp] theorem checked_call (event : W) (next : B → Dialogue Q A W B ε α) :
    (Dialogue.call event next).checked passes why =
      .call event fun reply => (next reply).checked passes why := rfl

/-- The checks of a sequence are those of its parts. -/
@[simp] theorem checked_bind (program : Dialogue Q A W B ε α) (next : α → Dialogue Q A W B ε β) :
    (program >>= next).checked passes why =
      program.checked passes why >>= fun value => (next value).checked passes why := by
  induction program with
  | done => rfl
  | stop => rfl
  | ask question rest ih =>
      rw [ask_bind, checked_ask, checked_ask]
      split
      · simp only [ih, ask_bind]
      · rfl
  | call event rest ih =>
      rw [call_bind, checked_call, checked_call, call_bind]
      simp only [ih]

variable {passes : Q → Bool} {why : ε} {answer : Q → Option A} {respond : List W → W → B}

/-- Without a refused question the checks change nothing, and otherwise the run stops with
some of the calls made. -/
theorem exec_checked (program : Dialogue Q A W B ε α) (calls : List W) :
    (∀ question ∈ program.asked answer respond calls, passes question) ∧
        (program.checked passes why).exec answer respond calls =
          program.exec answer respond calls ∨
      (¬ ∀ question ∈ program.asked answer respond calls, passes question) ∧
        ((program.checked passes why).exec answer respond calls).1 = .error (.stopped why) ∧
        ((program.checked passes why).exec answer respond calls).2 <+:
          (program.exec answer respond calls).2 := by
  have nothing : ∀ question ∈ ([] : List Q), passes question := by simp
  induction program generalizing calls with
  | done => exact .inl ⟨nothing, rfl⟩
  | stop => exact .inl ⟨nothing, rfl⟩
  | ask question rest ih =>
      unfold checked
      by_cases holds : passes question = true
      case neg =>
        rw [if_neg holds]
        refine .inr ⟨fun all => holds (all question ?_), rfl, exec_calls answer respond _ _⟩
        simp [asked]
      case pos =>
        rw [if_pos holds]
        simp only [asked, exec, List.mem_cons, forall_eq_or_imp, holds, true_and]
        cases answer question with
        | none => exact .inl ⟨nothing, rfl⟩
        | some given => exact ih given calls
  | call event rest ih => exact ih _ _

/-- A run which puts no refused question is the run without checks. -/
theorem exec_checked_of_asked {program : Dialogue Q A W B ε α} {calls : List W}
    (all : ∀ question ∈ program.asked answer respond calls, passes question) :
    (program.checked passes why).exec answer respond calls = program.exec answer respond calls :=
  (exec_checked program calls).elim And.right fun refused => absurd all refused.1

/-- A value needs every check on the way to it. -/
theorem exec_checked_eq_ok {program : Dialogue Q A W B ε α} {calls later : List W} {value : α} :
    (program.checked passes why).exec answer respond calls = (.ok value, later) ↔
      program.exec answer respond calls = (.ok value, later) ∧
        ∀ question ∈ program.asked answer respond calls, passes question := by
  rcases @exec_checked Q A W B ε α passes why answer respond program calls with
    ⟨all, same⟩ | ⟨refused, stopped, -⟩
  · rw [same]
    exact ⟨fun run => ⟨run, all⟩, And.left⟩
  · constructor
    · intro run
      rw [run] at stopped
      cases stopped
    · exact fun run => absurd run.2 refused

/-- Checks stay monotone in the bound on steps. -/
theorem Extends.checked {limit : ε} {first second : Dialogue Q A W B ε α}
    (extends' : Extends limit first second) :
    Extends limit (first.checked passes why) (second.checked passes why) := by
  induction extends' with
  | limit => exact .limit
  | done => exact .done
  | stop => exact .stop
  | ask _ ih =>
      unfold Dialogue.checked
      split
      · exact .ask ih
      · exact .stop
  | call _ ih => exact .call ih

/-- Linked programs stay linked if linked questions pass the same checks. -/
theorem Linked.checked {other : Q → Option A} {asks : Q → Q → Prop} {post : α → β → Prop}
    {first : Dialogue Q A W B ε α} {second : Dialogue Q A W B ε β}
    (alike : ∀ question question', asks question question' → passes question' = passes question)
    (linked : Linked answer other asks post first second) :
    Linked answer other asks post (first.checked passes why) (second.checked passes why) := by
  induction linked with
  | done holds => exact .done holds
  | stop => exact .stop
  | ask linked same _ ih =>
      unfold Dialogue.checked
      rw [alike _ _ linked]
      split
      · exact .ask linked same ih
      · exact .stop
  | call _ ih => exact .call ih

end Dialogue

/-- The checks of an inquiry stay where calls are possible. -/
theorem Inquiry.lift_checked {Q A W B ε α : Type} {passes : Q → Bool} {why : ε}
    (program : Inquiry Q A ε α) :
    (lift program : Dialogue Q A W B ε α).checked passes why =
      lift (Dialogue.checked passes why program) := by
  induction program with
  | done => rfl
  | stop => rfl
  | ask question rest ih =>
      simp only [lift, Dialogue.checked]
      split
      · simp only [lift, ih]
      · rfl
  | call event => exact event.elim

end Rpi5.Semantics
