import Rpi5.Semantics.Dialogue

/-!
# Polling

`poll` makes one call again and again until the reply lets it end. The run depends
only on the first reply which does: until then the poll `Waits`.
-/

namespace Rpi5.Semantics.Dialogue

variable {Q A W B ε : Type}

/-- Repeat a call as long as its reply says so, for a bounded number of times. -/
def poll (event : W) (again : B → Except ε Bool) (limit : ε) : Nat → Dialogue Q A W B ε Unit
  | 0 => .stop limit
  | fuel + 1 => .call event fun reply =>
      match again reply with
      | .ok true => poll event again limit fuel
      | .ok false => .done ()
      | .error reason => .stop reason

/-- The replies to so many polls all say that it goes on. -/
def Waits (event : W) (again : B → Except ε Bool) (respond : List W → W → B) (calls : List W)
    (polls : Nat) : Prop :=
  ∀ earlier < polls, again (respond (calls ++ List.replicate earlier event) event) = .ok true

section Runs

variable {event : W} {again : B → Except ε Bool} {limit : ε} {answer : Q → Option A}
  {respond : List W → W → B} {calls : List W} {polls fuel : Nat}

/-- The first poll says to go on. -/
theorem Waits.head (waits : Waits event again respond calls (polls + 1)) :
    again (respond calls event) = .ok true := by
  have first := waits 0 (Nat.succ_pos polls)
  rwa [List.replicate_zero, List.append_nil] at first

/-- Behind it one poll less is waited for. -/
theorem Waits.tail (waits : Waits event again respond calls (polls + 1)) :
    Waits event again respond (calls ++ [event]) polls := by
  intro earlier below
  have later := waits (earlier + 1) (Nat.succ_lt_succ below)
  rwa [List.replicate_succ, List.append_cons] at later

/-- A poll goes on from where it waits. -/
theorem Waits.exec (waits : Waits event again respond calls polls) (fuel : Nat) :
    (poll event again limit (polls + fuel) : Dialogue Q A W B ε Unit).exec answer respond calls =
      (poll event again limit fuel).exec answer respond (calls ++ List.replicate polls event) := by
  induction polls generalizing calls with
  | zero => simp
  | succ polls ih =>
      rw [Nat.succ_add, poll, exec_call, waits.head, ih waits.tail, List.append_assoc,
        List.singleton_append, ← List.replicate_succ]

/-- Either the bound is reached, or there is a first reply which ends the poll. -/
theorem waits_or (event : W) (again : B → Except ε Bool) (respond : List W → W → B)
    (calls : List W) (fuel : Nat) : Waits event again respond calls fuel ∨
      ∃ polls < fuel, Waits event again respond calls polls ∧
        again (respond (calls ++ List.replicate polls event) event) ≠ .ok true := by
  induction fuel with
  | zero => exact .inl nofun
  | succ fuel ih =>
      rcases ih with waits | ⟨polls, below, first⟩
      · by_cases last : again (respond (calls ++ List.replicate fuel event) event) = .ok true
        · refine .inl fun earlier below => ?_
          rcases Nat.lt_succ_iff_lt_or_eq.mp below with before | rfl
          · exact waits earlier before
          · exact last
        · exact .inr ⟨fuel, Nat.lt_succ_self fuel, waits, last⟩
      · exact .inr ⟨polls, Nat.lt_succ_of_lt below, first⟩

/-- As long as it has to wait polling uses up its bound. -/
theorem exec_poll_of_waits (waits : Waits event again respond calls fuel) :
    (poll event again limit fuel : Dialogue Q A W B ε Unit).exec answer respond calls =
      (.error (.stopped limit), calls ++ List.replicate fuel event) :=
  waits.exec 0

/-- The first other reply ends a poll, or stops it. -/
theorem Waits.exec_succ (waits : Waits event again respond calls polls) (fuel : Nat) :
    (poll event again limit (polls + (fuel + 1)) : Dialogue Q A W B ε Unit).exec answer respond calls =
      match again (respond (calls ++ List.replicate polls event) event) with
      | .ok true => (poll event again limit fuel).exec answer respond
          (calls ++ List.replicate (polls + 1) event)
      | .ok false => (.ok (), calls ++ List.replicate (polls + 1) event)
      | .error reason => (.error (.stopped reason), calls ++ List.replicate (polls + 1) event) := by
  rw [waits.exec, poll, exec_call, List.append_assoc, List.replicate_succ']
  cases again (respond (calls ++ List.replicate polls event) event) with
  | ok goes => cases goes <;> rfl
  | error reason => rfl

/-- It ends with the first poll that says so. -/
theorem Waits.exec_done (waits : Waits event again respond calls polls) (within : polls < fuel)
    (last : again (respond (calls ++ List.replicate polls event) event) = .ok false) :
    (poll event again limit fuel : Dialogue Q A W B ε Unit).exec answer respond calls =
      (.ok (), calls ++ List.replicate (polls + 1) event) := by
  obtain ⟨more, rfl⟩ : ∃ more, fuel = polls + (more + 1) := ⟨fuel - polls - 1, by omega⟩
  rw [waits.exec_succ, last]

/-- A poll with enough steps returns from every listener which ever lets it end. -/
theorem exec_poll_of_free (free : ∃ polls,
      again (respond (calls ++ List.replicate polls event) event) = .ok false)
    (calm : ∀ history reason, again (respond history event) ≠ .error reason) :
    ∃ polls, ∀ fuel > polls,
      (poll event again limit fuel : Dialogue Q A W B ε Unit).exec answer respond calls =
        (.ok (), calls ++ List.replicate (polls + 1) event) := by
  obtain ⟨polls, ends⟩ := free
  rcases waits_or event again respond calls (polls + 1) with waits | ⟨first, -, waits, last⟩
  · have goes := waits polls (Nat.lt_succ_self polls)
    rw [ends] at goes
    cases goes
  · refine ⟨first, fun fuel within => waits.exec_done within ?_⟩
    cases verdict : again (respond (calls ++ List.replicate first event) event) with
    | error reason => exact absurd verdict (calm _ reason)
    | ok goes =>
        cases goes with
        | true => exact absurd verdict last
        | false => rfl

end Runs
end Rpi5.Semantics.Dialogue
