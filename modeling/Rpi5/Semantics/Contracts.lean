import Rpi5.Semantics.Dialogue
import Rpi5.Semantics.Emission

/-!
# Contracts of programs

A contract says which questions a program may put and why it may stop. A program which
`Meets` a contract keeps it whatever it is answered, and returns only values with a
postcondition. `Meets.bind` composes programs; `Meets.of_asked`, `Meets.of_stopped` and
`Meets.of_ok` say what a run of such a program is. `Emission.Meets` is the same for what a
run leaves behind.
-/

namespace Rpi5.Semantics

/-- The questions which may be put and the reasons for which a program may stop. -/
structure Contract (Q ε : Type) where
  asks : Q → Prop
  stops : ε → Prop

namespace Dialogue

variable {Q A W B ε α β : Type} {contract wide : Contract Q ε} {post other : α → Prop}
  {answer : Q → Option A} {respond : List W → W → B}

/-- Whatever a program is answered, it keeps the contract and returns a value with the
postcondition. -/
inductive Meets (contract : Contract Q ε) (post : α → Prop) : Dialogue Q A W B ε α → Prop where
  | done {value} (holds : post value) : Meets contract post (.done value)
  | stop {reason} (allowed : contract.stops reason) : Meets contract post (.stop reason)
  | ask {question next} (allowed : contract.asks question)
      (rest : ∀ given, Meets contract post (next given)) : Meets contract post (.ask question next)
  | call {event next} (rest : ∀ reply, Meets contract post (next reply)) :
      Meets contract post (.call event next)

/-- The second part may use the postcondition of the first. -/
theorem Meets.bind {first : Dialogue Q A W B ε α} {next : α → Dialogue Q A W B ε β}
    {last : β → Prop} (one : Meets contract post first)
    (rest : ∀ value, post value → Meets contract last (next value)) :
    Meets contract last (first >>= next) := by
  induction one with
  | done holds => exact rest _ holds
  | stop allowed => exact .stop allowed
  | ask allowed _ ih => exact .ask allowed ih
  | call _ ih => exact .call ih

/-- A program keeps every weaker contract. -/
theorem Meets.mono {program : Dialogue Q A W B ε α} (meets : Meets contract post program)
    (asks : ∀ question, contract.asks question → wide.asks question)
    (stops : ∀ reason, contract.stops reason → wide.stops reason)
    (weaker : ∀ value, post value → other value) : Meets wide other program := by
  induction meets with
  | done holds => exact .done (weaker _ holds)
  | stop allowed => exact .stop (stops _ allowed)
  | ask allowed _ ih => exact .ask (asks _ allowed) ih
  | call _ ih => exact .call ih

/-- Every question of a run may be put. -/
theorem Meets.of_asked {program : Dialogue Q A W B ε α} (meets : Meets contract post program)
    {calls : List W} {question : Q} (member : question ∈ program.asked answer respond calls) :
    contract.asks question := by
  induction meets generalizing calls with
  | done | stop => cases member
  | @ask first next allowed _ ih =>
      simp only [asked, List.mem_cons] at member
      rcases member with rfl | later
      · exact allowed
      · cases given : answer first with
        | none => simp [given] at later
        | some value =>
            rw [given] at later
            exact ih value later
  | call _ ih => exact ih _ member

section Inquiry

variable {program : Inquiry Q A ε α}

/-- A run stops only for a reason of the contract. -/
theorem Meets.of_stopped (meets : Meets contract post program) {reason : ε}
    (run : Inquiry.eval answer program = .error (.stopped reason)) : contract.stops reason := by
  induction meets with
  | done => cases run
  | stop allowed =>
      cases run
      exact allowed
  | @ask question next _ _ ih =>
      simp only [Inquiry.eval] at run
      cases given : answer question with
      | none => simp [given] at run
      | some value =>
          rw [given] at run
          exact ih value run
  | @call event => exact event.elim

/-- A run returns only a value with the postcondition. -/
theorem Meets.of_ok (meets : Meets contract post program) {value : α}
    (run : Inquiry.eval answer program = .ok value) : post value := by
  induction meets with
  | done holds =>
      cases run
      exact holds
  | stop => cases run
  | @ask question next _ _ ih =>
      simp only [Inquiry.eval] at run
      cases given : answer question with
      | none => simp [given] at run
      | some value =>
          rw [given] at run
          exact ih value run
  | @call event => exact event.elim

/-- A contract is kept also where calls are possible. -/
theorem Meets.lift (meets : Meets contract post program) :
    Meets contract post (liftM program : Dialogue Q A W B ε α) := by
  change Meets contract post (Inquiry.lift program)
  induction meets with
  | done holds => exact .done holds
  | stop allowed => exact .stop allowed
  | ask allowed _ ih => exact .ask allowed ih
  | @call event => exact event.elim

end Inquiry

end Dialogue

namespace Emission

variable {ω δ α β : Type} {outputs : ω → Prop} {fails : δ → Prop} {post : α → Prop} {last : β → Prop}

/-- Every output has one property, an error at the end another, a value the postcondition. -/
structure Meets (outputs : ω → Prop) (fails : δ → Prop) (post : α → Prop)
    (emission : Emission ω δ α) : Prop where
  output : ∀ event ∈ emission.output, outputs event
  error : ∀ reason, emission.ending = .error reason → fails reason
  value : ∀ value, emission.ending = .ok value → post value

/-- An ending without outputs has to be one that is promised. -/
theorem Meets.ofExcept {ending : Except δ α} (error : ∀ reason, ending = .error reason → fails reason)
    (value : ∀ value, ending = .ok value → post value) :
    Meets outputs fails post (ofExcept ending : Emission ω δ α) := ⟨nofun, error, value⟩

/-- A single output has to be one that is promised. -/
theorem Meets.emit {event : ω} (holds : outputs event) :
    Meets outputs fails (fun _ => True) (emit event : Emission ω δ Unit) := by
  refine ⟨fun other member => ?_, nofun, fun _ _ => trivial⟩
  rw [List.mem_singleton.mp member]
  exact holds

/-- The second part may use the postcondition of the first. -/
theorem Meets.bind {first : Emission ω δ α} {next : α → Emission ω δ β}
    (one : Meets outputs fails post first)
    (rest : ∀ value, post value → Meets outputs fails last (next value)) :
    Meets outputs fails last (first >>= next) := by
  cases ended : first.ending with
  | error reason =>
      rw [bind_of_error ended]
      refine ⟨one.output, fun other same => ?_, nofun⟩
      rw [← Except.error.inj same]
      exact one.error reason ended
  | ok value =>
      have later := rest value (one.value value ended)
      rw [bind_of_ok ended]
      refine ⟨fun event member => ?_, later.error, later.value⟩
      rcases List.mem_append.mp member with before | after
      · exact one.output event before
      · exact later.output event after

end Emission
end Rpi5.Semantics
