import Mathlib.Algebra.GroupWithZero.Nat
import Mathlib.Tactic.Common

/-!
# Outputs with an ending

An `Emission` is what a run leaves behind when nobody interferes: the finite
list of its outputs and how it ended. Emissions are sequenced like programs: the
second part is there only if the first ended with a value. `expand` replaces
every output by an emission of its own.

A listener may stop a run at some output. `heard` is the part of an output list
up to and including the first stop, and `interrupted` says whether there is one.
-/

namespace Rpi5.Semantics

/-- A finite output and the ending of the run which produced it. -/
@[ext]
structure Emission (ω δ α : Type) where
  output : List ω
  ending : Except δ α

namespace Emission

variable {ω υ δ α β γ : Type}

/-- Sequence two emissions. -/
def bind (first : Emission ω δ α) (next : α → Emission ω δ β) : Emission ω δ β :=
  match first.ending with
  | .ok value => ⟨first.output ++ (next value).output, (next value).ending⟩
  | .error reason => ⟨first.output, .error reason⟩

instance : Monad (Emission ω δ) where
  pure value := ⟨[], .ok value⟩
  bind := bind

/-- No output, only an ending. -/
def ofExcept (ending : Except δ α) : Emission ω δ α := ⟨[], ending⟩

/-- One output. -/
def emit (event : ω) : Emission ω δ Unit := ⟨[event], .ok ()⟩

/-- A value has no output. -/
@[simp] theorem output_pure (value : α) : (pure value : Emission ω δ α).output = [] := rfl

/-- And it is the ending. -/
@[simp] theorem ending_pure (value : α) : (pure value : Emission ω δ α).ending = .ok value := rfl

/-- An ending by itself has no output either. -/
@[simp] theorem output_ofExcept (ending : Except δ α) :
    (ofExcept ending : Emission ω δ α).output = [] := rfl

/-- And it is the ending. -/
@[simp] theorem ending_ofExcept (ending : Except δ α) :
    (ofExcept ending : Emission ω δ α).ending = ending := rfl

/-- One output is the whole output. -/
@[simp] theorem output_emit (event : ω) : (emit event : Emission ω δ Unit).output = [event] := rfl

/-- It is emitted without an error. -/
@[simp] theorem ending_emit (event : ω) : (emit event : Emission ω δ Unit).ending = .ok () := rfl

/-- Behind a value the second part is added. -/
theorem bind_of_ok {first : Emission ω δ α} {value : α} (ended : first.ending = .ok value)
    (next : α → Emission ω δ β) :
    first >>= next = ⟨first.output ++ (next value).output, (next value).ending⟩ := by
  change first.bind next = _
  simp only [bind, ended]

/-- Behind an error nothing is. -/
theorem bind_of_error {first : Emission ω δ α} {reason : δ}
    (ended : first.ending = .error reason) (next : α → Emission ω δ β) :
    first >>= next = ⟨first.output, .error reason⟩ := by
  change first.bind next = _
  simp only [bind, ended]

/-- A value is handed to what follows. -/
@[simp] theorem ofExcept_ok_bind (value : α) (next : α → Emission ω δ β) :
    (ofExcept (.ok value) >>= next) = next value := by
  have ended : (ofExcept (.ok value) : Emission ω δ α).ending = .ok value := rfl
  rw [bind_of_ok ended]
  rfl

/-- An error is the end of the whole. -/
@[simp] theorem ofExcept_error_bind (reason : δ) (next : α → Emission ω δ β) :
    (ofExcept (.error reason) >>= next) = ofExcept (.error reason) := by
  have ended : (ofExcept (.error reason) : Emission ω δ α).ending = .error reason := rfl
  rw [bind_of_error ended]
  rfl

/-- Going on with nothing changes nothing. -/
private theorem bind_pure' (source : Emission ω δ α) : source >>= pure = source := by
  cases ended : source.ending with
  | ok value => rw [bind_of_ok ended]; ext1 <;> simp [ended]
  | error reason => rw [bind_of_error ended]; ext1 <;> simp [ended]

/-- Sequencing is associative. -/
private theorem bind_assoc' (source : Emission ω δ α) (first : α → Emission ω δ β)
    (second : β → Emission ω δ γ) :
    source >>= first >>= second = source >>= fun value => first value >>= second := by
  cases ended : source.ending with
  | error reason => rw [bind_of_error ended, bind_of_error ended, bind_of_error rfl]
  | ok value =>
      rw [bind_of_ok ended, bind_of_ok ended]
      cases later : (first value).ending with
      | error reason => rw [bind_of_error rfl, bind_of_error later]
      | ok result => rw [bind_of_ok rfl, bind_of_ok later, List.append_assoc]

instance : LawfulMonad (Emission ω δ) :=
  LawfulMonad.mk' _ bind_pure' (fun value next => ofExcept_ok_bind value next) bind_assoc'

/-- A sequence ends with a value exactly when both parts do. -/
theorem bind_ending_ok {first : Emission ω δ α} {next : α → Emission ω δ β} {result : β} :
    (first >>= next).ending = .ok result ↔
      ∃ value, first.ending = .ok value ∧ (next value).ending = .ok result := by
  cases ended : first.ending with
  | ok value => simp [bind_of_ok ended]
  | error reason => simp [bind_of_error ended]

/-- The emissions of a list of events one after another, and then a last one. -/
def each (emission : ω → Emission υ δ Unit) : List ω → Emission υ δ α → Emission υ δ α
  | [], last => last
  | event :: rest, last => emission event >>= fun _ => each emission rest last

/-- Replace every output by an emission; the first failing one ends the whole. -/
def expand (emission : ω → Emission υ δ Unit) (source : Emission ω δ α) : Emission υ δ α :=
  each emission source.output (ofExcept source.ending)

variable {emission : ω → Emission υ δ Unit}

/-- Without events there is only the last part. -/
@[simp] theorem each_nil (last : Emission υ δ α) : each emission [] last = last := rfl

/-- The events of two lists are emitted one list after the other. -/
theorem each_append (first second : List ω) (last : Emission υ δ α) :
    each emission (first ++ second) last = each emission first (each emission second last) := by
  induction first with
  | nil => rfl
  | cons event rest ih => simp only [List.cons_append, each, ih]

/-- What follows the whole follows its last part. -/
theorem each_bind (events : List ω) (last : Emission υ δ α) (next : α → Emission υ δ β) :
    each emission events last >>= next = each emission events (last >>= next) := by
  induction events with
  | nil => rfl
  | cons event rest ih => simp only [each, bind_assoc, ih]

/-- Related events with the same emissions give the same whole. -/
theorem each_eq_of_forall₂ {τ : Type} {other : τ → Emission υ δ Unit} {events : List ω}
    {others : List τ} (same : List.Forall₂ (fun event one => emission event = other one) events others)
    (last : Emission υ δ α) : each emission events last = each other others last := by
  induction same with
  | nil => rfl
  | cons head _ ih => simp only [each, head, ih]

/-- The whole ends with a value only if the last part does. -/
theorem ending_of_each {events : List ω} {last : Emission υ δ α} {value : α}
    (ended : (each emission events last).ending = .ok value) : last.ending = .ok value := by
  induction events with
  | nil => exact ended
  | cons event rest ih =>
      obtain ⟨_, _, ended⟩ := bind_ending_ok.mp ended
      exact ih ended

/-- An expansion ends with a value only if its source does. -/
theorem ending_of_expand {source : Emission ω δ α} {value : α}
    (ended : (source.expand emission).ending = .ok value) : source.ending = .ok value := by
  have last := ending_of_each ended
  exact last

/-- Expansion commutes with sequencing. -/
theorem expand_bind (source : Emission ω δ α) (next : α → Emission ω δ β) :
    (source >>= next).expand emission =
      (source.expand emission >>= fun value => (next value).expand emission) := by
  unfold expand
  rw [each_bind]
  cases ended : source.ending with
  | ok value => rw [bind_of_ok ended, ofExcept_ok_bind, each_append]
  | error reason => rw [bind_of_error ended, ofExcept_error_bind]

/-- A single output is replaced by its emission. -/
@[simp] theorem expand_emit (event : ω) :
    (emit event : Emission ω δ Unit).expand emission = emission event := by
  change (emission event >>= fun _ => pure ()) = emission event
  exact bind_pure' _

/-- Emissions which all end with a value add up. -/
theorem each_of_ok {output : ω → List υ} {events : List ω}
    (fine : ∀ event ∈ events, emission event = ⟨output event, .ok ()⟩) (last : Emission υ δ α) :
    each emission events last = ⟨events.flatMap output ++ last.output, last.ending⟩ := by
  induction events with
  | nil => rfl
  | cons event rest ih =>
      rw [each, fine event (by simp), bind_of_ok rfl,
        ih fun later member => fine later (by simp [member])]
      simp

/-- Where the others all fail in the same way, only the emissions in front of the first of
them count. -/
theorem each_of_takeWhile {output : ω → List υ} {fine : ω → Bool} {reason : δ} {events : List ω}
    (works : ∀ event ∈ events, fine event → emission event = ⟨output event, .ok ()⟩)
    (fails : ∀ event ∈ events, ¬ fine event → emission event = .ofExcept (.error reason))
    (ending : Except δ α) :
    each emission events (.ofExcept ending) =
      ⟨(events.takeWhile fine).flatMap output,
        if events.all fine then ending else .error reason⟩ := by
  induction events with
  | nil => simp [ofExcept]
  | cons event rest ih =>
      have later := ih (fun other member => works other (by simp [member]))
        fun other member => fails other (by simp [member])
      by_cases here : fine event
      · rw [each, works event (by simp) here, bind_of_ok rfl, later]
        simp [here]
      · rw [each, fails event (by simp) here, ofExcept_error_bind]
        simp [here, ofExcept]

/-- After an emission which fails nothing counts. -/
theorem each_of_error {events : List ω} {event : ω} (member : event ∈ events)
    (failed : (emission event).ending ≠ .ok ()) (last other : Emission υ δ α) :
    each emission events last = each emission events other := by
  induction events with
  | nil => simp at member
  | cons head rest ih =>
      cases ended : (emission head).ending with
      | error reason => simp only [each, bind_of_error ended]
      | ok value =>
          have later : event ∈ rest := by
            rcases List.mem_cons.mp member with rfl | later
            · exact absurd ended failed
            · exact later
          simp only [each, ih later]

section Started

/-- The events whose emissions are begun: all in front of them end with a value. -/
def started (emission : ω → Emission υ δ Unit) : List ω → List ω
  | [] => []
  | event :: rest =>
      event :: match (emission event).ending with
        | .ok _ => started emission rest
        | .error _ => []

/-- The whole ends with an error only if a begun emission or the last part does. -/
theorem each_ending_ne {events : List ω} {last : Emission υ δ α} {reason : δ}
    (fine : ∀ event ∈ started emission events, (emission event).ending ≠ .error reason)
    (ends : last.ending ≠ .error reason) : (each emission events last).ending ≠ .error reason := by
  induction events with
  | nil => exact ends
  | cons event rest ih =>
      have first := fine event (by simp [started])
      rw [each]
      cases ended : (emission event).ending with
      | error other =>
          rw [ended] at first
          rw [bind_of_error ended]
          intro same
          cases same
          exact first rfl
      | ok value =>
          rw [bind_of_ok ended]
          apply ih
          intro later member
          exact fine later (by simp [started, ended, member])

/-- Where every output of a begun emission costs something, the outputs of the whole cost no
more than all emissions may. -/
theorem length_each_le {events : List ω} {cost : Nat} {size : ω → Nat}
    (bounded : ∀ event ∈ started emission events,
      cost * (emission event).output.length ≤ size event) (last : Emission υ δ α) :
    cost * (each emission events last).output.length ≤
      (events.map size).sum + cost * last.output.length := by
  induction events with
  | nil => simp
  | cons event rest ih =>
      have first := bounded event (by simp [started])
      rw [each, List.map_cons, List.sum_cons]
      cases ended : (emission event).ending with
      | error reason =>
          rw [bind_of_error ended]
          exact Nat.le_trans first (by omega)
      | ok value =>
          have later := ih fun later member => bounded later (by simp [started, ended, member])
          rw [bind_of_ok ended, List.length_append, Nat.mul_add]
          omega

/-- Only events of the list are begun. -/
theorem mem_of_mem_started {events : List ω} {event : ω} (begun : event ∈ started emission events) :
    event ∈ events := by
  induction events with
  | nil => exact begun
  | cons head rest ih =>
      rcases List.mem_cons.mp begun with rfl | later
      · exact List.mem_cons_self
      · cases ended : (emission head).ending with
        | error reason => simp [ended] at later
        | ok value => exact List.mem_cons_of_mem head (ih (by simpa [ended] using later))

/-- An emission which is begun and fails is the end of the whole. -/
theorem each_of_started {events : List ω} {event : ω} {reason : δ}
    (begun : event ∈ started emission events) (failed : (emission event).ending = .error reason)
    (last : Emission υ δ α) :
    ∃ before, each emission events last = ⟨before ++ (emission event).output, .error reason⟩ := by
  induction events with
  | nil => simp [started] at begun
  | cons head rest ih =>
      rw [each]
      cases ended : (emission head).ending with
      | error other =>
          simp only [started, ended, List.mem_singleton] at begun
          subst begun
          rw [failed] at ended
          cases ended
          exact ⟨[], bind_of_error failed _⟩
      | ok value =>
          rw [bind_of_ok ended]
          simp only [started, ended, List.mem_cons] at begun
          rcases begun with rfl | begun
          · rw [failed] at ended
            cases ended
          · obtain ⟨before, whole⟩ := ih begun
            exact ⟨(emission head).output ++ before, by rw [whole, List.append_assoc]⟩

end Started

section Attempts

/-- Emit values one after another, up to the first attempt which fails. -/
def emitAll : List (Except δ ω) → Emission ω δ Unit
  | [] => pure ()
  | .ok value :: rest => emit value >>= fun _ => emitAll rest
  | .error reason :: _ => ofExcept (.error reason)

/-- A success is emitted in front of the rest. -/
@[simp] theorem emitAll_ok (value : ω) (rest : List (Except δ ω)) :
    emitAll (.ok value :: rest) = ⟨value :: (emitAll rest).output, (emitAll rest).ending⟩ := by
  have ended : (emit value : Emission ω δ Unit).ending = .ok () := rfl
  rw [emitAll, bind_of_ok ended]
  rfl

/-- A failure is the end. -/
@[simp] theorem emitAll_error (reason : δ) (rest : List (Except δ ω)) :
    emitAll (.error reason :: rest) = ofExcept (.error reason) := rfl

/-- Attempts of two lists are emitted one list after the other. -/
theorem emitAll_append (first second : List (Except δ ω)) :
    emitAll (first ++ second) = emitAll first >>= fun _ => emitAll second := by
  induction first with
  | nil => rfl
  | cons attempt rest ih =>
      cases attempt with
      | ok value => simp only [List.cons_append, emitAll, ih, bind_assoc]
      | error reason => exact (ofExcept_error_bind reason _).symm

/-- Attempts which all succeed are all emitted. -/
theorem emitAll_map_ok (output : υ → ω) (events : List υ) :
    (emitAll (events.map fun event => .ok (output event)) : Emission ω δ Unit) =
      ⟨events.map output, .ok ()⟩ := by
  induction events with
  | nil => rfl
  | cons event rest ih => rw [List.map_cons, emitAll_ok, ih, List.map_cons]

/-- Without a failure all attempts have an output. -/
theorem emitAll_ending_ok {attempts : List (Except δ ω)} :
    (emitAll attempts).ending = .ok () ↔ ∀ attempt ∈ attempts, ∃ value, attempt = .ok value := by
  induction attempts with
  | nil => simp [emitAll]
  | cons attempt rest ih =>
      cases attempt with
      | ok value => simp [ih]
      | error reason => simp [emitAll]

/-- They are then the outputs. -/
theorem eq_of_emitAll_ok {attempts : List (Except δ ω)} (ended : (emitAll attempts).ending = .ok ()) :
    attempts = (emitAll attempts).output.map .ok := by
  induction attempts with
  | nil => rfl
  | cons attempt rest ih =>
      cases attempt with
      | ok value =>
          rw [emitAll_ok] at ended ⊢
          rw [List.map_cons, ← ih ended]
      | error reason => cases ended

/-- Two lists of attempts give the same values and both stop at the same place. -/
def Agree : List (Except δ ω) → List (Except δ ω) → Prop
  | [], [] => True
  | .ok one :: rest, .ok other :: others => one = other ∧ Agree rest others
  | .error _ :: _, .error _ :: _ => True
  | _, _ => False

/-- Lists of the same length agree exactly if their outputs are the same. -/
theorem agree_iff_output {first second : List (Except δ ω)} (same : first.length = second.length) :
    Agree first second ↔ (emitAll first).output = (emitAll second).output := by
  induction first generalizing second with
  | nil =>
      cases second with
      | nil => simp [Agree]
      | cons => cases same
  | cons attempt rest ih =>
      cases second with
      | nil => cases same
      | cons other others =>
          have tails := @ih others (Nat.succ.inj same)
          cases attempt <;> cases other <;> simp [Agree, tails]

/-- Lists which agree both succeed or both fail. -/
theorem Agree.ending {first second : List (Except δ ω)} (agree : Agree first second) :
    (emitAll first).ending = .ok () ↔ (emitAll second).ending = .ok () := by
  induction first generalizing second with
  | nil =>
      cases second with
      | nil => rfl
      | cons => cases agree
  | cons attempt rest ih =>
      cases second with
      | nil => cases attempt <;> cases agree
      | cons other others =>
          cases attempt <;> cases other
          · simp [emitAll]
          · cases agree
          · cases agree
          · simpa using ih agree.2

/-- Agreement, attempt by attempt: as long as the first list goes on, the next
attempts have the same value or both fail. -/
theorem agree_map_iff {τ : Type} {one other : τ → Except δ ω} {items : List τ} :
    Agree (items.map one) (items.map other) ↔
      ∀ before item after, items = before ++ item :: after →
        (∀ earlier ∈ before, ∃ value, one earlier = .ok value) →
          ∀ value, one item = .ok value ↔ other item = .ok value := by
  induction items with
  | nil => simp [Agree]
  | cons head rest ih =>
      constructor
      · rintro agree (_ | ⟨first, before⟩) item after split fine value
        · obtain ⟨rfl, -⟩ := List.cons.inj split
          rw [List.map_cons, List.map_cons] at agree
          cases here : one head <;> cases there : other head <;> rw [here, there] at agree
          · simp
          · cases agree
          · cases agree
          · rw [agree.1]
        · obtain ⟨rfl, rfl⟩ := List.cons.inj split
          obtain ⟨first, here⟩ := fine head (by simp)
          have tail : Agree (List.map one (before ++ item :: after))
              (List.map other (before ++ item :: after)) := by
            rw [List.map_cons, List.map_cons, here] at agree
            cases there : other head <;> rw [there] at agree
            · cases agree
            · exact agree.2
          exact ih.mp tail before item after rfl
            (fun earlier member => fine earlier (by simp [member])) value
      · intro same
        have first := same [] head rest rfl (by simp)
        rw [List.map_cons, List.map_cons]
        cases here : one head with
        | error reason =>
            cases there : other head with
            | error => trivial
            | ok value => simpa [here] using (first value).mpr there
        | ok value =>
            rw [(first value).mp here]
            refine ⟨rfl, ih.mpr fun before item after split fine => ?_⟩
            refine same (head :: before) item after (by simp [split]) ?_
            intro earlier member
            rcases List.mem_cons.mp member with rfl | member
            · exact ⟨value, here⟩
            · exact fine earlier member

/-- Two runs of attempts with the same ending are the same exactly if the first attempts
are, and if they have a value the rest. -/
theorem emitAll_cons_eq_iff {first second : Except δ ω} {rest others : List (Except δ ω)}
    {last : Except δ α} :
    (emitAll (first :: rest) >>= fun _ => ofExcept last : Emission ω δ α) =
        (emitAll (second :: others) >>= fun _ => ofExcept last) ↔
      first = second ∧ ∀ value, first = .ok value →
        (emitAll rest >>= fun _ => ofExcept last : Emission ω δ α) =
          (emitAll others >>= fun _ => ofExcept last) := by
  have step : ∀ (value : ω) (rest : List (Except δ ω)),
      (emitAll (.ok value :: rest) >>= fun _ => ofExcept last : Emission ω δ α) =
        ⟨value :: (emitAll rest >>= fun _ => ofExcept last : Emission ω δ α).output,
          (emitAll rest >>= fun _ => ofExcept last : Emission ω δ α).ending⟩ := by
    intro value rest
    have ended : (emit value : Emission ω δ Unit).ending = .ok () := rfl
    rw [emitAll, bind_assoc, bind_of_ok ended]
    rfl
  cases first with
  | error reason =>
      cases second with
      | error other => simp [Emission.ext_iff]
      | ok value =>
          rw [step]
          simp [Emission.ext_iff]
  | ok value =>
      cases second with
      | error reason =>
          rw [step]
          simp [Emission.ext_iff]
      | ok other =>
          rw [step, step, Emission.ext_iff, Emission.ext_iff]
          simp only [List.cons.injEq, Except.ok.injEq, forall_eq', and_assoc]

/-- Two runs of attempts with the same ending are the same exactly if as long as the
first goes on the next attempts are the same. -/
theorem emitAll_map_eq_iff {τ : Type} {one other : τ → Except δ ω} {items : List τ}
    {last : Except δ α} :
    (emitAll (items.map one) >>= fun _ => ofExcept last : Emission ω δ α) =
        (emitAll (items.map other) >>= fun _ => ofExcept last) ↔
      ∀ before item after, items = before ++ item :: after →
        (∀ earlier ∈ before, ∃ value, one earlier = .ok value) → one item = other item := by
  induction items with
  | nil => simp
  | cons head rest ih =>
      rw [List.map_cons, List.map_cons, emitAll_cons_eq_iff]
      constructor
      · rintro ⟨same, later⟩ (_ | ⟨first, before⟩) item after split fine
        · obtain ⟨rfl, -⟩ := List.cons.inj split
          exact same
        · obtain ⟨rfl, rfl⟩ := List.cons.inj split
          obtain ⟨value, here⟩ := fine head (by simp)
          exact ih.mp (later value here) before item after rfl
            fun earlier member => fine earlier (by simp [member])
      · intro same
        refine ⟨same [] head rest rfl (by simp), fun value here => ih.mpr ?_⟩
        intro before item after split fine
        refine same (head :: before) item after (by simp [split]) ?_
        intro earlier member
        rcases List.mem_cons.mp member with rfl | member
        · exact ⟨value, here⟩
        · exact fine earlier member

end Attempts

end Emission

section Listening

variable {ω : Type}

/-- The outputs a listener takes in: all of them up to and including the first
one at which it stops. It decides from the outputs it took in before. -/
def heard (stops : List ω → ω → Bool) : List ω → List ω → List ω
  | _, [] => []
  | before, event :: rest =>
      event :: if stops before event then [] else heard stops (before ++ [event]) rest

/-- Some output makes the listener stop. -/
def interrupted (stops : List ω → ω → Bool) : List ω → List ω → Bool
  | _, [] => false
  | before, event :: rest => stops before event || interrupted stops (before ++ [event]) rest

variable {stops : List ω → ω → Bool}

/-- Without outputs nothing interrupts. -/
@[simp] theorem interrupted_nil (before : List ω) : interrupted stops before [] = false := rfl

/-- A listener is interrupted in the first part or behind it in the second one. -/
theorem interrupted_append (before first second : List ω) :
    interrupted stops before (first ++ second) =
      (interrupted stops before first || interrupted stops (before ++ first) second) := by
  induction first generalizing before with
  | nil => simp
  | cons event rest ih => simp [interrupted, ih, Bool.or_assoc]

/-- The second part is heard unless the first one is interrupted. -/
theorem heard_append (before first second : List ω) :
    heard stops before (first ++ second) =
      if interrupted stops before first then heard stops before first
      else first ++ heard stops (before ++ first) second := by
  induction first generalizing before with
  | nil => simp
  | cons event rest ih =>
      by_cases stopsHere : stops before event = true
      · simp [heard, interrupted, stopsHere]
      · simp only [List.cons_append, heard, interrupted, ih, stopsHere, Bool.false_or,
          Bool.false_eq_true, ↓reduceIte, List.append_assoc, List.nil_append]
        split <;> rfl

/-- Without an interruption everything is heard. -/
theorem heard_of_uninterrupted {before events : List ω}
    (quiet : interrupted stops before events = false) : heard stops before events = events := by
  have whole := @heard_append _ stops before events []
  simpa [quiet, heard] using whole

/-- What is heard is an initial part of the output. -/
theorem heard_isPrefix (before events : List ω) : heard stops before events <+: events := by
  induction events generalizing before with
  | nil => exact List.prefix_rfl
  | cons event rest ih =>
      simp only [heard, List.cons_prefix_cons, true_and]
      split
      · exact List.nil_prefix
      · exact ih _

/-- A listener stops at the last output it hears, if at all. -/
theorem heard_stops_last {before events first second : List ω} {event : ω}
    (split : heard stops before events = first ++ event :: second)
    (stopped : stops (before ++ first) event = true) : second = [] := by
  induction events generalizing before first with
  | nil => simp [heard] at split
  | cons head rest ih =>
      simp only [heard] at split
      cases first with
      | nil =>
          simp only [List.nil_append, List.cons.injEq] at split
          obtain ⟨rfl, tail⟩ := split
          simpa [show stops before head = true by simpa using stopped] using tail.symm
      | cons other first =>
          simp only [List.cons_append, List.cons.injEq] at split
          obtain ⟨rfl, tail⟩ := split
          cases stopsHere : stops before head with
          | true => simp [stopsHere] at tail
          | false =>
              rw [stopsHere] at tail
              have later : stops (before ++ [head] ++ first) event = true := by simpa using stopped
              exact ih (by simpa using tail) later

/-- An interruption is heard: what is heard ends with an output which stops the listener. -/
theorem heard_of_interrupted {before events : List ω}
    (stopped : interrupted stops before events = true) :
    ∃ first event, heard stops before events = first ++ [event] ∧
      stops (before ++ first) event = true := by
  induction events generalizing before with
  | nil => simp at stopped
  | cons head rest ih =>
      cases stopsHere : stops before head with
      | true => exact ⟨[], head, by simp [heard, stopsHere], by simpa using stopsHere⟩
      | false =>
          have later : interrupted stops (before ++ [head]) rest = true := by
            simpa [interrupted, stopsHere] using stopped
          obtain ⟨first, event, tail, last⟩ := ih later
          exact ⟨head :: first, event, by simp [heard, stopsHere, tail], by simpa using last⟩

end Listening
end Rpi5.Semantics
