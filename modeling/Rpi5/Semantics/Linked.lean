import Rpi5.Semantics.Dialogue

/-!
# Linked programs

Two programs are linked if they go the same way step by step, where each puts its own
questions to its own environment. Linked questions have the same answer, and the programs
only have to be linked behind answers which are really given, so that what was read
so far can be used for the next question.

`Linked.exec` says what this means for runs: the same calls, and related endings.
-/

namespace Rpi5.Semantics

/-- Two endings are related values, stops for the same reason, or linked questions to which
there is no answer. -/
inductive Ended {Q ε α β : Type} (asks : Q → Q → Prop) (post : α → β → Prop) :
    Except (Halt Q ε) α → Except (Halt Q ε) β → Prop where
  | value {value value'} (holds : post value value') : Ended asks post (.ok value) (.ok value')
  | stopped {reason} : Ended asks post (.error (.stopped reason)) (.error (.stopped reason))
  | unanswered {question question'} (linked : asks question question') :
      Ended asks post (.error (.unanswered question)) (.error (.unanswered question'))

namespace Dialogue

variable {Q A W B ε α β γ δ : Type} {answer other : Q → Option A} {asks : Q → Q → Prop}
  {post : α → β → Prop}

/-- Two programs which go the same way, each in its own environment. -/
inductive Linked (answer other : Q → Option A) (asks : Q → Q → Prop) (post : α → β → Prop) :
    Dialogue Q A W B ε α → Dialogue Q A W B ε β → Prop where
  | done {value value'} (holds : post value value') :
      Linked answer other asks post (.done value) (.done value')
  | stop {reason} : Linked answer other asks post (.stop reason) (.stop reason)
  | ask {question question' next further} (linked : asks question question')
      (same : other question' = answer question)
      (rest : ∀ given, answer question = some given →
        Linked answer other asks post (next given) (further given)) :
      Linked answer other asks post (.ask question next) (.ask question' further)
  | call {event next further}
      (rest : ∀ reply, Linked answer other asks post (next reply) (further reply)) :
      Linked answer other asks post (.call event next) (.call event further)

variable {first : Dialogue Q A W B ε α} {second : Dialogue Q A W B ε β}

/-- Linked programs go on with linked programs behind related values. -/
theorem Linked.bind {last : γ → δ → Prop} {next : α → Dialogue Q A W B ε γ}
    {further : β → Dialogue Q A W B ε δ} (one : Linked answer other asks post first second)
    (rest : ∀ value value', post value value' →
      Linked answer other asks last (next value) (further value')) :
    Linked answer other asks last (first >>= next) (second >>= further) := by
  induction one with
  | done holds => exact rest _ _ holds
  | stop => exact .stop
  | ask linked same _ ih => exact .ask linked same ih
  | call _ ih => exact .call ih

/-- Results may be linked more weakly. -/
theorem Linked.mono {weak : α → β → Prop} (linked : Linked answer other asks post first second)
    (weaker : ∀ value value', post value value' → weak value value') :
    Linked answer other asks weak first second := by
  induction linked with
  | done holds => exact .done (weaker _ _ holds)
  | stop => exact .stop
  | ask linked same _ ih => exact .ask linked same ih
  | call _ ih => exact .call ih

/-- Runs of linked programs make the same calls, and their endings are related. -/
theorem Linked.exec (linked : Linked answer other asks post first second)
    (respond : List W → W → B) (calls : List W) :
    (second.exec other respond calls).2 = (first.exec answer respond calls).2 ∧
      Ended asks post (first.exec answer respond calls).1 (second.exec other respond calls).1 := by
  induction linked generalizing calls with
  | done holds => exact ⟨rfl, .value holds⟩
  | stop => exact ⟨rfl, .stopped⟩
  | @ask question _ _ _ linked same _ ih =>
      simp only [Dialogue.exec, same]
      cases given : answer question with
      | none => exact ⟨rfl, .unanswered linked⟩
      | some value => exact ih value given calls
  | call _ ih => exact ih _ _

end Dialogue

/-- Linked inquiries are linked where calls are possible. -/
theorem Inquiry.lift_linked {Q A W B ε α β : Type} {answer other : Q → Option A}
    {asks : Q → Q → Prop} {post : α → β → Prop} {first : Inquiry Q A ε α} {second : Inquiry Q A ε β}
    (linked : Dialogue.Linked answer other asks post first second) :
    Dialogue.Linked answer other asks post (lift first : Dialogue Q A W B ε α) (lift second) := by
  induction linked with
  | done holds => exact .done holds
  | stop => exact .stop
  | ask linked same _ ih => exact .ask linked same ih
  | @call event => exact event.elim

end Rpi5.Semantics
