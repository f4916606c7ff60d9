import Mathlib.Tactic.Common

/-!
# Programs as dialogues

A `Dialogue` is a program whose only contact with its surroundings is to ask
questions and to make calls. Questions are answered by a fixed, possibly
partial environment; calls are answered by a listener which sees the history of
calls made so far. `exec` is the run of a dialogue, `asked` the questions it
puts on the way. A dialogue which makes no calls is an `Inquiry`, and `eval` is
its run.

`exec_eq_of_answers` and `restricted_iff` say how a run depends on the answers:
only through the questions asked. `Extends` orders programs which differ in a
bound on their steps.
-/

namespace Rpi5.Semantics

/-- Programs asking `Q` for `A`, calling `W` for `B`, and stopping with `ε`. -/
inductive Dialogue (Q A W B ε α : Type) : Type where
  | done (value : α)
  | stop (reason : ε)
  | ask (question : Q) (next : A → Dialogue Q A W B ε α)
  | call (event : W) (next : B → Dialogue Q A W B ε α)

/-- Why a run produced no value: the program stopped, or a question had no answer. -/
inductive Halt (Q ε : Type) where
  | stopped (reason : ε)
  | unanswered (question : Q)
deriving DecidableEq, Repr

namespace Dialogue

variable {Q A W B ε α β γ : Type}

/-- Sequencing substitutes the continuation at every `done`. -/
def bind : Dialogue Q A W B ε α → (α → Dialogue Q A W B ε β) → Dialogue Q A W B ε β
  | .done value, next => next value
  | .stop reason, _ => .stop reason
  | .ask question rest, next => .ask question fun answer => (rest answer).bind next
  | .call event rest, next => .call event fun reply => (rest reply).bind next

instance : Monad (Dialogue Q A W B ε) where
  pure := .done
  bind := bind

/-- `pure` is the program that is done. -/
@[simp] theorem pure_eq_done (value : α) :
    (pure value : Dialogue Q A W B ε α) = .done value := rfl

/-- What follows a question follows each of its answers. -/
theorem ask_bind (question : Q) (rest : A → Dialogue Q A W B ε α)
    (next : α → Dialogue Q A W B ε β) :
    Dialogue.ask question rest >>= next = .ask question fun answer => rest answer >>= next := rfl

/-- What follows a call follows each of its replies. -/
theorem call_bind (event : W) (rest : B → Dialogue Q A W B ε α)
    (next : α → Dialogue Q A W B ε β) :
    Dialogue.call event rest >>= next = .call event fun reply => rest reply >>= next := rfl

/-- Going on with nothing changes nothing. -/
private theorem bind_done (program : Dialogue Q A W B ε α) : program >>= Dialogue.done = program := by
  induction program with
  | done => rfl
  | stop => rfl
  | ask question rest ih => simp only [ask_bind, ih]
  | call event rest ih => simp only [call_bind, ih]

/-- Sequencing is associative. -/
private theorem bind_assoc' (program : Dialogue Q A W B ε α)
    (first : α → Dialogue Q A W B ε β) (second : β → Dialogue Q A W B ε γ) :
    program >>= first >>= second = program >>= fun value => first value >>= second := by
  induction program with
  | done => rfl
  | stop => rfl
  | ask question rest ih => simp only [ask_bind, ih]
  | call event rest ih => simp only [call_bind, ih]

instance : LawfulMonad (Dialogue Q A W B ε) :=
  LawfulMonad.mk' _ bind_done (fun _ _ => rfl) bind_assoc'

/-- Run a dialogue: `answer` resolves the questions and `respond` the calls, given
the calls made before. The result keeps every call made, also when the run halts. -/
def exec (answer : Q → Option A) (respond : List W → W → B) :
    Dialogue Q A W B ε α → List W → Except (Halt Q ε) α × List W
  | .done value, calls => (.ok value, calls)
  | .stop reason, calls => (.error (.stopped reason), calls)
  | .ask question next, calls =>
      match answer question with
      | some given => (next given).exec answer respond calls
      | none => (.error (.unanswered question), calls)
  | .call event next, calls =>
      (next (respond calls event)).exec answer respond (calls ++ [event])

/-- The questions put during a run, in order. -/
def asked (answer : Q → Option A) (respond : List W → W → B) :
    Dialogue Q A W B ε α → List W → List Q
  | .done _, _ => []
  | .stop _, _ => []
  | .ask question next, calls =>
      question :: match answer question with
        | some given => (next given).asked answer respond calls
        | none => []
  | .call event next, calls =>
      (next (respond calls event)).asked answer respond (calls ++ [event])

variable {answer restricted : Q → Option A} {respond : List W → W → B}

/-- A program that is done returns its value and makes no calls. -/
@[simp] theorem exec_done (value : α) (calls : List W) :
    (Dialogue.done value : Dialogue Q A W B ε α).exec answer respond calls = (.ok value, calls) :=
  rfl

/-- One that stops makes no calls either. -/
@[simp] theorem exec_stop (reason : ε) (calls : List W) :
    (Dialogue.stop reason : Dialogue Q A W B ε α).exec answer respond calls =
      (.error (.stopped reason), calls) := rfl

/-- A call is recorded, and the run goes on with the reply. -/
@[simp] theorem exec_call (event : W) (next : B → Dialogue Q A W B ε α) (calls : List W) :
    (Dialogue.call event next).exec answer respond calls =
      (next (respond calls event)).exec answer respond (calls ++ [event]) := rfl

/-- A run of a sequence is the run of its parts, the second only after a value. -/
theorem exec_bind (program : Dialogue Q A W B ε α) (next : α → Dialogue Q A W B ε β)
    (calls : List W) :
    (program >>= next).exec answer respond calls =
      match program.exec answer respond calls with
      | (.ok value, later) => (next value).exec answer respond later
      | (.error halt, later) => (.error halt, later) := by
  induction program generalizing calls with
  | done => rfl
  | stop => rfl
  | ask question rest ih =>
      rw [ask_bind]
      simp only [exec]
      cases answer question with
      | some given => exact ih given calls
      | none => rfl
  | call event rest ih =>
      rw [call_bind]
      exact ih (respond calls event) (calls ++ [event])

/-- The questions of a sequence are those of its parts. -/
theorem asked_bind (program : Dialogue Q A W B ε α) (next : α → Dialogue Q A W B ε β)
    (calls : List W) :
    (program >>= next).asked answer respond calls =
      program.asked answer respond calls ++
        match program.exec answer respond calls with
        | (.ok value, later) => (next value).asked answer respond later
        | (.error _, _) => [] := by
  induction program generalizing calls with
  | done => rfl
  | stop => rfl
  | ask question rest ih =>
      rw [ask_bind]
      simp only [asked, exec]
      cases answer question with
      | some given => simp [ih given calls]
      | none => simp
  | call event rest ih =>
      rw [call_bind]
      exact ih (respond calls event) (calls ++ [event])

/-- A run only adds calls. -/
theorem exec_calls (answer : Q → Option A) (respond : List W → W → B)
    (program : Dialogue Q A W B ε α) (calls : List W) :
    calls <+: (program.exec answer respond calls).2 := by
  induction program generalizing calls with
  | done => exact List.prefix_rfl
  | stop => exact List.prefix_rfl
  | ask question rest ih =>
      simp only [exec]
      cases answer question with
      | none => exact List.prefix_rfl
      | some given => exact ih given calls
  | call event rest ih => exact (List.prefix_append calls [event]).trans (ih _ _)

/-- Two environments which agree on every question asked give the same run. -/
theorem exec_eq_of_answers (program : Dialogue Q A W B ε α) (calls : List W)
    (agree : ∀ question ∈ program.asked answer respond calls,
      restricted question = answer question) :
    program.exec restricted respond calls = program.exec answer respond calls := by
  induction program generalizing calls with
  | done => rfl
  | stop => rfl
  | ask question rest ih =>
      have first := agree question (by simp [asked])
      simp only [exec, first]
      cases given : answer question with
      | none => rfl
      | some value =>
          refine ih value calls fun later member => agree later ?_
          simp [asked, given, member]
  | call event rest ih => exact ih _ _ agree

/-- Withhold some answers. A run then asks for a withheld answer exactly when the
run without them comes to an unanswered question. -/
theorem restricted_iff (program : Dialogue Q A W B ε α) (calls : List W)
    (narrower : ∀ question given, restricted question = some given →
      answer question = some given) :
    (∀ question ∈ program.asked answer respond calls, (restricted question).isSome) ↔
      ∀ question, (program.exec restricted respond calls).1 ≠ .error (.unanswered question) := by
  induction program generalizing calls with
  | done => simp [asked, exec]
  | stop => simp [asked, exec]
  | ask question rest ih =>
      cases given : restricted question with
      | none => simp [asked, exec, given]
      | some value =>
          have whole := narrower question value given
          simp only [asked, exec, whole, given, List.mem_cons, forall_eq_or_imp,
            Option.isSome_some, true_and]
          exact ih value calls
  | call event rest ih => exact ih _ _

section Bounded

/-- The second dialogue does what the first does, and goes on where the first
stops with `limit`. Programs with a bound on their steps are ordered so. -/
inductive Extends (limit : ε) : Dialogue Q A W B ε α → Dialogue Q A W B ε α → Prop where
  | limit {further} : Extends limit (.stop limit) further
  | done {value} : Extends limit (.done value) (.done value)
  | stop {reason} : Extends limit (.stop reason) (.stop reason)
  | ask {question next further} (rest : ∀ given, Extends limit (next given) (further given)) :
      Extends limit (.ask question next) (.ask question further)
  | call {event next further} (rest : ∀ reply, Extends limit (next reply) (further reply)) :
      Extends limit (.call event next) (.call event further)

variable {limit : ε}

/-- Every program extends itself. -/
theorem Extends.refl (program : Dialogue Q A W B ε α) : Extends limit program program := by
  induction program with
  | done => exact .done
  | stop => exact .stop
  | ask question next ih => exact .ask ih
  | call event next ih => exact .call ih

/-- Sequencing is monotone in both parts. -/
theorem Extends.bind {first second : Dialogue Q A W B ε α} {next further : α → Dialogue Q A W B ε β}
    (one : Extends limit first second) (other : ∀ value, Extends limit (next value) (further value)) :
    Extends limit (first >>= next) (second >>= further) := by
  induction one with
  | limit => exact .limit
  | done => exact other _
  | stop => exact .stop
  | ask rest ih => exact .ask ih
  | call rest ih => exact .call ih

/-- A run of the first dialogue is one of the second, or was cut at the limit with
only the beginning of the calls made. -/
theorem Extends.exec {first second : Dialogue Q A W B ε α} (extends' : Extends limit first second)
    (answer : Q → Option A) (respond : List W → W → B) (calls : List W) :
    first.exec answer respond calls = second.exec answer respond calls ∨
      (first.exec answer respond calls).1 = .error (.stopped limit) ∧
        (first.exec answer respond calls).2 <+: (second.exec answer respond calls).2 := by
  induction extends' generalizing calls with
  | limit => exact .inr ⟨rfl, exec_calls _ _ _ _⟩
  | done => exact .inl rfl
  | stop => exact .inl rfl
  | @ask question _ _ rest ih =>
      simp only [Dialogue.exec]
      cases answer question with
      | none => exact .inl rfl
      | some given => exact ih given calls
  | call rest ih => exact ih _ _

end Bounded

end Dialogue

/-- A dialogue which makes no calls. -/
abbrev Inquiry (Q A ε α : Type) := Dialogue Q A Empty Empty ε α

namespace Inquiry

variable {Q A W B ε α β : Type}

/-- Use an inquiry where calls are possible. -/
def lift : Inquiry Q A ε α → Dialogue Q A W B ε α
  | .done value => .done value
  | .stop reason => .stop reason
  | .ask question next => .ask question fun given => lift (next given)
  | .call event _ => event.elim

/-- The outcome of an inquiry. -/
def eval (answer : Q → Option A) : Inquiry Q A ε α → Except (Halt Q ε) α
  | .done value => .ok value
  | .stop reason => .error (.stopped reason)
  | .ask question next =>
      match answer question with
      | some given => eval answer (next given)
      | none => .error (.unanswered question)
  | .call event _ => event.elim

/-- The listener of an inquiry, which is never called. -/
def nobody : List Empty → Empty → Empty := fun _ event => event.elim

/-- The questions an inquiry puts. -/
def questions (answer : Q → Option A) (program : Inquiry Q A ε α) : List Q :=
  program.asked answer nobody []

variable {answer : Q → Option A} {respond : List W → W → B}

/-- The value of a program that is done. -/
@[simp] theorem eval_done (value : α) :
    eval answer (.done value : Inquiry Q A ε α) = .ok value := rfl

/-- The same under the name of the monad. -/
@[simp] theorem eval_pure (value : α) :
    eval answer (pure value : Inquiry Q A ε α) = .ok value := rfl

/-- A program that stops has its reason. -/
@[simp] theorem eval_stop (reason : ε) :
    eval answer (.stop reason : Inquiry Q A ε α) = .error (.stopped reason) := rfl

/-- The run of a sequence is the sequence of the runs. -/
@[simp] theorem eval_bind (program : Inquiry Q A ε α) (next : α → Inquiry Q A ε β) :
    eval answer (program >>= next) =
      (eval answer program >>= fun value => eval answer (next value)) := by
  induction program with
  | done => rfl
  | stop => rfl
  | ask question rest ih =>
      rw [Dialogue.ask_bind]
      simp only [eval]
      cases answer question with
      | some given => exact ih given
      | none => rfl
  | call event => exact event.elim

/-- A lifted inquiry leaves the calls alone. -/
@[simp] theorem exec_lift (program : Inquiry Q A ε α) (calls : List W) :
    (lift program : Dialogue Q A W B ε α).exec answer respond calls =
      (eval answer program, calls) := by
  induction program with
  | done => rfl
  | stop => rfl
  | ask question rest ih =>
      simp only [lift, eval, Dialogue.exec]
      cases answer question with
      | some given => exact ih given
      | none => rfl
  | call event => exact event.elim

/-- An inquiry runs as `eval` says, whoever might listen. -/
theorem exec_nobody (program : Inquiry Q A ε α) (calls : List Empty) :
    program.exec answer nobody calls = (eval answer program, calls) := by
  induction program with
  | done => rfl
  | stop => rfl
  | ask question rest ih =>
      simp only [eval, Dialogue.exec]
      cases answer question with
      | some given => exact ih given
      | none => rfl
  | call event => exact event.elim

/-- An inquiry only puts questions which are answered also if others are withheld, exactly
if it comes to no withheld answer. -/
theorem restricted_iff {restricted : Q → Option A} (program : Inquiry Q A ε α)
    (narrower : ∀ question given, restricted question = some given →
      answer question = some given) :
    (∀ question ∈ program.questions answer, (restricted question).isSome) ↔
      ∀ question, eval restricted program ≠ .error (.unanswered question) := by
  have same : (∀ question ∈ program.asked answer nobody [], (restricted question).isSome) ↔ _ :=
    Dialogue.restricted_iff program [] narrower
  rwa [exec_nobody] at same

/-- Withheld answers to other questions change nothing. -/
theorem eval_of_restricted {restricted : Q → Option A} (program : Inquiry Q A ε α)
    (narrower : ∀ question given, restricted question = some given →
      answer question = some given)
    (answered : ∀ question ∈ program.questions answer, (restricted question).isSome) :
    eval restricted program = eval answer program := by
  have agree : ∀ question ∈ program.questions answer, restricted question = answer question := by
    intro question member
    obtain ⟨given, found⟩ := Option.isSome_iff_exists.mp (answered question member)
    rw [found, narrower question given found]
  have same := Dialogue.exec_eq_of_answers program [] agree
  rw [exec_nobody, exec_nobody] at same
  exact (Prod.mk.inj same).1

/-- A lifted inquiry puts its own questions. -/
theorem asked_lift (program : Inquiry Q A ε α) (calls : List W) :
    (lift program : Dialogue Q A W B ε α).asked answer respond calls =
      program.questions answer := by
  unfold questions
  induction program with
  | done => rfl
  | stop => rfl
  | ask question rest ih =>
      simp only [lift, Dialogue.asked]
      cases answer question with
      | some given => exact congrArg (question :: ·) (ih given)
      | none => rfl
  | call event => exact event.elim

/-- Inquiries which extend each other do so as dialogues. -/
theorem lift_extends {limit : ε} {first second : Inquiry Q A ε α}
    (extends' : Dialogue.Extends limit first second) :
    Dialogue.Extends limit (lift first : Dialogue Q A W B ε α) (lift second) := by
  induction extends' with
  | limit => exact .limit
  | done => exact .done
  | stop => exact .stop
  | ask rest ih => exact .ask ih
  | @call event => exact event.elim

end Inquiry

instance {Q A W B ε : Type} :
    MonadLift (Dialogue Q A Empty Empty ε) (Dialogue Q A W B ε) where
  monadLift := Inquiry.lift

/-- As a part of a dialogue an inquiry runs as `eval` says, and makes no calls. -/
@[simp] theorem Inquiry.exec_liftM {Q A W B ε α : Type} {answer : Q → Option A}
    {respond : List W → W → B} (program : Inquiry Q A ε α) (calls : List W) :
    (liftM program : Dialogue Q A W B ε α).exec answer respond calls =
      (eval answer program, calls) :=
  exec_lift program calls

namespace Inquiry

variable {Q A W B ε α β : Type} {answer : Q → Option A} {respond : List W → W → B}

/-- Lifting respects sequencing. -/
theorem liftM_bind (first : Inquiry Q A ε α) (next : α → Inquiry Q A ε β) :
    (liftM (first >>= next) : Dialogue Q A W B ε β) =
      liftM first >>= fun value => liftM (next value) := by
  change lift (first >>= next) = lift first >>= fun value => lift (next value)
  induction first with
  | done => rfl
  | stop => rfl
  | ask question rest ih =>
      rw [Dialogue.ask_bind]
      simp only [lift, ih, Dialogue.ask_bind]
  | call event => exact event.elim

end Inquiry
end Rpi5.Semantics
