import Mathlib.Logic.Relation
import Mathlib.Order.Basic
import Rpi5.Semantics.Checked
import Rpi5.Semantics.Twins

/-!
# Machines of dialogues

A machine takes one step after the other, each of them a dialogue which yields the next state
or a result. `iterate` is the program of a bounded number of steps, and `Reached` says which
states a machine comes to, and after which calls. What a machine does is what its steps do in
the states it reaches: it puts their questions (`asked_iterate`, `asked_of_reached`), and in
two environments in which these steps are twins it reaches the same states
(`reached_of_twins`) and its runs are twins (`twins_iterate`). The other way round, the steps
of a machine whose course only goes upwards are twins if its courses and its results are
(`twinRuns_of_same_course`).
-/

namespace Rpi5.Semantics
namespace Dialogue

variable {Q A W B ε α β σ : Type}

section Bounds

variable {limit : ε} {first second third : Dialogue Q A W B ε α}

/-- Extensions of extensions are extensions. -/
theorem Extends.trans (one : Extends limit first second) (other : Extends limit second third) :
    Extends limit first third := by
  induction one generalizing third with
  | limit => exact .limit
  | done => exact other
  | stop => exact other
  | ask _ ih =>
      cases other with
      | ask rest => exact .ask fun given => ih given (rest given)
  | call _ ih =>
      cases other with
      | call rest => exact .call fun reply => ih reply (rest reply)

/-- A program puts all questions of those which it extends. -/
theorem Extends.asked (extends' : Extends limit first second) (answer : Q → Option A)
    (respond : List W → W → B) (calls : List W) :
    first.asked answer respond calls <+: second.asked answer respond calls := by
  induction extends' generalizing calls with
  | limit => exact List.nil_prefix
  | done => exact List.prefix_rfl
  | stop => exact List.prefix_rfl
  | @ask question _ _ _ ih =>
      simp only [Dialogue.asked]
      cases answer question with
      | none => exact List.prefix_rfl
      | some given => exact (List.prefix_cons_inj question).mpr (ih given calls)
  | call _ ih => exact ih _ _

/-- An extension of a program which is not cut puts no more questions. -/
theorem Extends.asked_eq (extends' : Extends limit first second) {answer : Q → Option A}
    {respond : List W → W → B} {calls : List W}
    (uncut : (first.exec answer respond calls).1 ≠ .error (.stopped limit)) :
    second.asked answer respond calls = first.asked answer respond calls := by
  induction extends' generalizing calls with
  | limit => exact absurd rfl uncut
  | done => rfl
  | stop => rfl
  | @ask question _ _ _ ih =>
      simp only [Dialogue.asked, Dialogue.exec] at uncut ⊢
      cases given : answer question with
      | none => rfl
      | some value =>
          rw [given] at uncut
          exact congrArg (question :: ·) (ih value uncut)
  | call _ ih => exact ih _ uncut

/-- A run which is not cut is one of every extension. -/
theorem Extends.exec_run (extends' : Extends limit first second) {answer : Q → Option A}
    {respond : List W → W → B} {calls later : List W} {result : Except (Halt Q ε) α}
    (run : first.exec answer respond calls = (result, later))
    (whole : result ≠ .error (.stopped limit)) :
    second.exec answer respond calls = (result, later) := by
  rcases extends'.exec answer respond calls with same | ⟨cut, -⟩
  · exact same.symm.trans run
  · rw [run] at cut
    exact absurd cut whole

end Bounds

/-- A number of steps from a state on, until one yields a result. -/
def iterate (limit : ε) (step : σ → Dialogue Q A W B ε (σ ⊕ α)) :
    Nat → σ → Dialogue Q A W B ε α
  | 0, _ => .stop limit
  | bound + 1, state => do
      match ← step state with
      | .inl next => iterate limit step bound next
      | .inr value => return value

section Iterate

variable {limit : ε} {step : σ → Dialogue Q A W B ε (σ ⊕ α)} {bound more : Nat}

/-- More steps go further. -/
theorem iterate_mono (longer : bound ≤ more) (state : σ) :
    Extends limit (iterate limit step bound state) (iterate limit step more state) := by
  induction bound generalizing more state with
  | zero => exact .limit
  | succ bound ih =>
      obtain ⟨more, rfl⟩ : ∃ rest, more = rest + 1 := ⟨more - 1, by omega⟩
      refine .bind (.refl _) fun next => ?_
      cases next with
      | inl next => exact ih (by omega) next
      | inr value => exact .refl _

/-- The checks of a machine are those of its steps. -/
theorem checked_iterate (passes : Q → Bool) (why : ε) (bound : Nat) (state : σ) :
    (iterate limit step bound state).checked passes why =
      iterate limit (fun state => (step state).checked passes why) bound state := by
  induction bound generalizing state with
  | zero => rfl
  | succ bound ih =>
      unfold iterate
      rw [checked_bind]
      congr 1
      funext next
      cases next with
      | inl next => exact ih next
      | inr value => rfl

end Iterate

/-- The states which a machine comes to from a start, each with the calls made before. -/
inductive Reached (answer : Q → Option A) (respond : List W → W → B)
    (step : σ → Dialogue Q A W B ε (σ ⊕ α)) (start : σ) : σ → List W → Prop where
  | start : Reached answer respond step start start []
  | next {state next calls later} (earlier : Reached answer respond step start state calls)
      (taken : (step state).exec answer respond calls = (.ok (.inl next), later)) :
      Reached answer respond step start next later

section Reached

variable {limit : ε} {step : σ → Dialogue Q A W B ε (σ ⊕ α)} {answer : Q → Option A}
  {respond : List W → W → B} {start state next : σ} {calls later : List W} {question : Q}

/-- Steps which go further come to the same states. -/
theorem Reached.mono {further : σ → Dialogue Q A W B ε (σ ⊕ α)}
    (grows : ∀ state, Extends limit (step state) (further state))
    (reached : Reached answer respond step start state calls) :
    Reached answer respond further start state calls := by
  induction reached with
  | start => exact .start
  | next _ taken ih => exact .next ih ((grows _).exec_run taken nofun)

/-- Every question of a machine is one of a step in a state which it reaches. -/
theorem asked_iterate {bound : Nat} (reached : Reached answer respond step start state calls)
    (member : question ∈ (iterate limit step bound state).asked answer respond calls) :
    ∃ other before, Reached answer respond step start other before ∧
      question ∈ (step other).asked answer respond before := by
  induction bound generalizing state calls with
  | zero => cases member
  | succ bound ih =>
      unfold iterate at member
      rw [asked_bind] at member
      rcases List.mem_append.mp member with here | behind
      · exact ⟨state, calls, reached, here⟩
      · rcases taken : (step state).exec answer respond calls with ⟨halt | (next | value), later⟩
        · simp [taken] at behind
        · rw [taken] at behind
          exact ih (reached.next taken) behind
        · rw [taken] at behind
          cases behind

/-- A machine puts every question of a step in a state which it reaches. -/
theorem asked_of_reached (limit : ε) (reached : Reached answer respond step start state calls)
    (member : question ∈ (step state).asked answer respond calls) :
    ∃ bound, question ∈ (iterate limit step bound start).asked answer respond [] := by
  have ahead : ∃ before, ∀ bound, question ∈ (iterate limit step bound state).asked answer
      respond calls → question ∈ (iterate limit step (bound + before) start).asked answer
        respond [] := by
    clear member
    induction reached with
    | start => exact ⟨0, fun _ member => member⟩
    | @next state next calls later _ taken ih =>
        obtain ⟨before, goes⟩ := ih
        refine ⟨before + 1, fun bound member => ?_⟩
        rw [← Nat.add_assoc, Nat.add_right_comm]
        apply goes
        unfold iterate
        rw [asked_bind, taken]
        exact List.mem_append_right _ member
  obtain ⟨before, goes⟩ := ahead
  refine ⟨1 + before, goes 1 ?_⟩
  unfold iterate
  rw [asked_bind]
  exact List.mem_append_left _ member

/-- From a state which it reaches a machine runs on as it does from its start. -/
theorem Reached.exec_iterate (limit : ε)
    (reached : Reached answer respond step start state calls) :
    ∃ before, ∀ bound, (iterate limit step (bound + before) start).exec answer respond [] =
      (iterate limit step bound state).exec answer respond calls := by
  induction reached with
  | start => exact ⟨0, fun _ => rfl⟩
  | next _ taken ih =>
      obtain ⟨before, runs⟩ := ih
      refine ⟨before + 1, fun bound => ?_⟩
      rw [← Nat.add_assoc, Nat.add_right_comm, runs, iterate, exec_bind, taken]

end Reached

section Twins

variable {answer other : Q → Option A} {respond : List W → W → B} {excused : Halt Q ε → Prop}
  {post : α → Prop} {last : β → Prop}

/-- The runs of a program in two environments make the same calls and end as twins. -/
def TwinRuns (answer other : Q → Option A) (respond : List W → W → B) (excused : Halt Q ε → Prop)
    (post : α → Prop) (program : Dialogue Q A W B ε α) (calls : List W) : Prop :=
  (program.exec other respond calls).2 = (program.exec answer respond calls).2 ∧
    Twin excused post (program.exec answer respond calls).1 (program.exec other respond calls).1

/-- The second part may use what the first one has returned. -/
theorem TwinRuns.bind {program : Dialogue Q A W B ε α} {next : α → Dialogue Q A W B ε β}
    {calls : List W} (one : TwinRuns answer other respond excused post program calls)
    (rest : ∀ value later, program.exec answer respond calls = (.ok value, later) → post value →
      TwinRuns answer other respond excused last (next value) later) :
    TwinRuns answer other respond excused last (program >>= next) calls := by
  obtain ⟨made, ending⟩ := one
  unfold TwinRuns
  rw [exec_bind, exec_bind]
  rcases run : program.exec answer respond calls with ⟨first, later⟩
  rcases run' : program.exec other respond calls with ⟨second, later'⟩
  rw [run, run'] at made ending
  dsimp only at made ending
  subst made
  cases ending with
  | value holds => exact rest _ _ run holds
  | error reason => exact ⟨rfl, .error reason⟩
  | excused here there => exact ⟨rfl, .excused here there⟩

/-- Where the answers to its questions are the same, so are its runs. -/
theorem TwinRuns.of_answers {program : Dialogue Q A W B ε α} {calls : List W}
    (same : ∀ question ∈ program.asked answer respond calls, other question = answer question) :
    TwinRuns answer other respond excused (fun _ => True) program calls := by
  unfold TwinRuns
  rw [exec_eq_of_answers program calls same]
  exact ⟨rfl, .of_eq rfl fun _ _ => trivial⟩

/-- Reading makes no calls. -/
theorem TwinRuns.lift {program : Inquiry Q A ε α}
    (twin : Twin excused post (Inquiry.eval answer program) (Inquiry.eval other program))
    (calls : List W) : TwinRuns answer other respond excused post
      (liftM program : Dialogue Q A W B ε α) calls := by
  unfold TwinRuns
  rw [Inquiry.exec_liftM, Inquiry.exec_liftM]
  exact ⟨rfl, twin⟩

variable {limit : ε} {step : σ → Dialogue Q A W B ε (σ ⊕ α)} {start : σ}
  (twins : ∀ state calls, Reached answer respond step start state calls →
    TwinRuns answer other respond excused (fun _ => True) (step state) calls)

include twins

/-- A machine whose steps are twins wherever it comes to has twin runs. -/
theorem twins_iterate (bound : Nat) {state : σ} {calls : List W}
    (reached : Reached answer respond step start state calls) :
    TwinRuns answer other respond excused (fun _ => True) (iterate limit step bound state) calls := by
  induction bound generalizing state calls with
  | zero => exact ⟨rfl, .error _⟩
  | succ bound ih =>
      unfold iterate
      refine (twins state calls reached).bind fun next later taken _ => ?_
      cases next with
      | inl next => exact ih (reached.next taken)
      | inr value => exact ⟨rfl, .value trivial⟩

/-- It comes to the same states in both environments. -/
theorem reached_of_twins {state : σ} {calls : List W} :
    Reached answer respond step start state calls ↔
      Reached other respond step start state calls := by
  constructor
  · intro reached
    induction reached with
    | start => exact .start
    | next earlier taken ih =>
        obtain ⟨made, ending⟩ := twins _ _ earlier
        rw [taken] at made ending
        refine ih.next (Prod.ext ?_ made)
        generalize ((step _).exec other respond _).1 = there at ending ⊢
        cases ending
        rfl
  · intro reached
    induction reached with
    | start => exact .start
    | next _ taken ih =>
        obtain ⟨made, ending⟩ := twins _ _ ih
        rw [taken] at made ending
        refine ih.next (Prod.ext ?_ made.symm)
        generalize ((step _).exec answer respond _).1 = here at ending ⊢
        cases ending
        rfl

end Twins

section Courses

/-- Two relations which determine the next state, and which only go upwards, are the same
from each state on a course, if they have the same course. -/
theorem goes_of_same_course {γ ρ : Type} [PartialOrder ρ] {one other : γ → γ → Prop} {rank : γ → ρ}
    {first now next : γ} (unique : Relator.RightUnique one) (unique' : Relator.RightUnique other)
    (rises : ∀ now next, one now next → rank now < rank next)
    (rises' : ∀ now next, other now next → rank now < rank next)
    (same : ∀ now, Relation.ReflTransGen one first now ↔ Relation.ReflTransGen other first now)
    (reached : Relation.ReflTransGen one first now) (goes : one now next) : other now next := by
  have le_of_path {step : γ → γ → Prop} (rises : ∀ now next, step now next → rank now < rank next)
      {now next : γ} (path : Relation.ReflTransGen step now next) : rank now ≤ rank next := by
    induction path with
    | refl => exact le_refl _
    | tail _ goes ih => exact ih.trans (rises _ _ goes).le
  have behind {step : γ → γ → Prop} (unique : Relator.RightUnique step)
      (rises : ∀ now next, step now next → rank now < rank next) {now next : γ}
      (reached : Relation.ReflTransGen step first now)
      (reached' : Relation.ReflTransGen step first next) (above : rank now < rank next) :
      ∃ between, step now between ∧ Relation.ReflTransGen step between next := by
    rcases Relation.ReflTransGen.total_of_right_unique unique reached reached' with onward | back
    · rcases onward.cases_head with rfl | goes
      · exact absurd above (lt_irrefl _)
      · exact goes
    · exact absurd (above.trans_le (le_of_path rises back)) (lt_irrefl _)
  have above := rises _ _ goes
  obtain ⟨between, goes', rest'⟩ := behind unique' rises' ((same now).mp reached)
    ((same next).mp (reached.tail goes)) above
  -- The first relation goes to the same state, and to none in between.
  obtain ⟨between', goes'', rest⟩ := behind unique rises reached
    ((same between).mpr (((same now).mp reached).tail goes')) (rises' _ _ goes')
  obtain rfl := unique goes goes''
  rcases rest'.cases_head with rfl | ⟨further, beyond, path⟩
  · exact goes'
  · have round := (rises' _ _ beyond).trans_le ((le_of_path rises' path).trans (le_of_path rises rest))
    exact absurd round (lt_irrefl _)

variable {limit : ε} {step : Nat → σ → Dialogue Q A W B ε (σ ⊕ α)} {answer other : Q → Option A}
  {respond : List W → W → B} {start state : σ} {calls later : List W} {now next : σ × List W}
  {result : Except (Halt Q ε) α}

/-- With some bound a machine goes from a state, and the calls made before, to the next one. -/
def Goes (answer : Q → Option A) (respond : List W → W → B)
    (step : Nat → σ → Dialogue Q A W B ε (σ ⊕ α)) (now next : σ × List W) : Prop :=
  ∃ fuel, (step fuel now.1).exec answer respond now.2 = (.ok (.inl next.1), next.2)

/-- With some bound a machine comes to a state, and after these calls. -/
def Visits (answer : Q → Option A) (respond : List W → W → B)
    (step : Nat → σ → Dialogue Q A W B ε (σ ⊕ α)) (start : σ) (now : σ × List W) : Prop :=
  ∃ fuel, Reached answer respond (step fuel) start now.1 now.2

/-- With some bounds a machine has a result, and has made these calls. -/
def Ends (limit : ε) (answer : Q → Option A) (respond : List W → W → B)
    (step : Nat → σ → Dialogue Q A W B ε (σ ⊕ α)) (start : σ) (result : Except (Halt Q ε) α)
    (calls : List W) : Prop :=
  result ≠ .error (.stopped limit) ∧ ∃ fuel bound,
    (iterate limit (step fuel) bound start).exec answer respond [] = (result, calls)

variable (grows : ∀ {fuel more : Nat}, fuel ≤ more → ∀ state,
  Extends limit (step fuel state) (step more state))

include grows

/-- A machine goes further with larger bounds. -/
theorem iterate_extends {fuel more bound longer : Nat} (larger : fuel ≤ more)
    (further : bound ≤ longer) (state : σ) :
    Extends limit (iterate limit (step fuel) bound state)
      (iterate limit (step more) longer state) := by
  refine Extends.trans ?_ (iterate_mono further state)
  induction bound generalizing state longer with
  | zero => exact .limit
  | succ bound ih =>
      refine (grows larger state).bind fun next => ?_
      cases next with
      | inl next => exact ih (Nat.le_refl _) next
      | inr value => exact .refl _

/-- There is at most one next state. -/
theorem goes_rightUnique : Relator.RightUnique (Goes answer respond step) := by
  rintro now ⟨one, made⟩ ⟨other, made'⟩ ⟨fuel, goes⟩ ⟨fuel', goes'⟩
  have first := (grows (Nat.le_max_left fuel fuel') now.1).exec_run goes nofun
  have second := (grows (Nat.le_max_right fuel fuel') now.1).exec_run goes' nofun
  rw [first] at second
  cases second
  rfl

/-- What a machine comes to it comes to step by step. -/
theorem visits_iff :
    Visits answer respond step start now ↔
      Relation.ReflTransGen (Goes answer respond step) (start, []) now := by
  constructor
  · obtain ⟨state, calls⟩ := now
    rintro ⟨fuel, reached⟩
    dsimp only at reached
    induction reached with
    | start => exact .refl
    | next _ taken ih => exact ih.tail ⟨fuel, taken⟩
  · intro path
    induction path with
    | refl => exact ⟨0, .start⟩
    | tail _ goes ih =>
        obtain ⟨fuel, reached⟩ := ih
        obtain ⟨fuel', taken⟩ := goes
        have there := reached.mono (grows (Nat.le_max_left fuel fuel'))
        exact ⟨_, there.next ((grows (Nat.le_max_right fuel fuel') _).exec_run taken nofun)⟩

/-- It has at most one result. -/
theorem Ends.unique {result' : Except (Halt Q ε) α} {calls' : List W}
    (one : Ends limit answer respond step start result calls)
    (two : Ends limit answer respond step start result' calls') :
    result = result' ∧ calls = calls' := by
  obtain ⟨whole, fuel, bound, run⟩ := one
  obtain ⟨whole', fuel', bound', run'⟩ := two
  have first : (iterate limit (step (max fuel fuel')) (max bound bound') start).exec answer respond
      [] = (result, calls) :=
    (iterate_extends grows (Nat.le_max_left _ _) (Nat.le_max_left _ _) start).exec_run run whole
  have second : (iterate limit (step (max fuel fuel')) (max bound bound') start).exec answer respond
      [] = (result', calls') :=
    (iterate_extends grows (Nat.le_max_right _ _) (Nat.le_max_right _ _) start).exec_run run' whole'
  rw [first] at second
  exact Prod.mk.inj second

/-- A machine which ends with its next step has this result. -/
theorem ends_of_visits {fuel : Nat} (visited : Visits answer respond step start (state, calls))
    (whole : result ≠ .error (.stopped limit))
    (run : (iterate limit (step fuel) 1 state).exec answer respond calls = (result, later)) :
    Ends limit answer respond step start result later := by
  obtain ⟨fuel', reached⟩ := visited
  have there := reached.mono (grows (Nat.le_max_left fuel' fuel))
  obtain ⟨before, runs⟩ := there.exec_iterate limit
  have last : (iterate limit (step (max fuel' fuel)) 1 state).exec answer respond calls =
      (result, later) :=
    (iterate_extends grows (Nat.le_max_right _ _) (Nat.le_refl 1) state).exec_run run whole
  exact ⟨whole, _, 1 + before, (runs 1).trans last⟩

/-- A step which goes on with some bound does so with every bound which does not cut it. -/
theorem Goes.exec {fuel : Nat} (goes : Goes answer respond step now next)
    (whole : ((step fuel now.1).exec answer respond now.2).1 ≠ .error (.stopped limit)) :
    (step fuel now.1).exec answer respond now.2 = (.ok (.inl next.1), next.2) := by
  obtain ⟨fuel', taken⟩ := goes
  have first := (grows (Nat.le_max_left fuel fuel') now.1).exec_run rfl whole
  have second := (grows (Nat.le_max_right fuel fuel') now.1).exec_run taken nofun
  exact first.symm.trans second

/-- A machine ends with an error of a step in a state which it comes to. -/
theorem ends_of_error {fuel : Nat} {reason : Halt Q ε}
    (visited : Visits answer respond step start (state, calls))
    (whole : ((step fuel state).exec answer respond calls).1 ≠ .error (.stopped limit))
    (run : (step fuel state).exec answer respond calls = (.error reason, later)) :
    Ends limit answer respond step start (.error reason : Except (Halt Q ε) α) later := by
  rw [run] at whole
  have last : (iterate limit (step fuel) 1 state).exec answer respond calls =
      (.error reason, later) := by
    rw [iterate, exec_bind, run]
  exact ends_of_visits grows visited (fun cut => whole (congrArg _ (Except.error.inj cut))) last

/-- And with the value of one. -/
theorem ends_of_value {fuel : Nat} {value : α}
    (visited : Visits answer respond step start (state, calls))
    (run : (step fuel state).exec answer respond calls = (.ok (.inr value), later)) :
    Ends limit answer respond step start (.ok value) later := by
  have last : (iterate limit (step fuel) 1 state).exec answer respond calls =
      (.ok value, later) := by
    rw [iterate, exec_bind, run]
    rfl
  exact ends_of_visits grows visited nofun last

/-- In two environments in which a machine has the same course, and results which are twins,
its steps are twins wherever it comes to. -/
theorem twinRuns_of_same_course {ρ : Type} [PartialOrder ρ] {rank : σ × List W → ρ} {fuel : Nat}
    {excused : Halt Q ε → Prop}
    (rises : ∀ now next, Goes answer respond step now next → rank now < rank next)
    (rises' : ∀ now next, Goes other respond step now next → rank now < rank next)
    (same : ∀ now, Visits answer respond step start now ↔ Visits other respond step start now)
    (ended : ∀ result calls, Ends limit answer respond step start result calls →
      ∃ result', Ends limit other respond step start result' calls ∧
        Twin excused (fun _ => True) result result')
    (visited : Visits answer respond step start (state, calls))
    (whole : ((step fuel state).exec answer respond calls).1 ≠ .error (.stopped limit))
    (whole' : ((step fuel state).exec other respond calls).1 ≠ .error (.stopped limit)) :
    TwinRuns answer other respond excused (fun _ => True) (step fuel state) calls := by
  have visited' := (same _).mp visited
  have path (now : σ × List W) : Relation.ReflTransGen (Goes answer respond step) (start, []) now ↔
      Relation.ReflTransGen (Goes other respond step) (start, []) now :=
    (visits_iff grows).symm.trans ((same now).trans (visits_iff grows))
  have forth (next : σ × List W) (goes : Goes answer respond step (state, calls) next) :
      Goes other respond step (state, calls) next :=
    goes_of_same_course (goes_rightUnique grows) (goes_rightUnique grows) rises rises' path
      ((visits_iff grows).mp visited) goes
  have back (next : σ × List W) (goes : Goes other respond step (state, calls) next) :
      Goes answer respond step (state, calls) next :=
    goes_of_same_course (goes_rightUnique grows) (goes_rightUnique grows) rises' rises
      (fun now => (path now).symm) ((visits_iff grows).mp visited') goes
  -- Both go on to the same state, or both end.
  have twins {result result' : Except (Halt Q ε) α} {later later' : List W}
      (one : Ends limit answer respond step start result later)
      (two : Ends limit other respond step start result' later') :
      later' = later ∧ Twin excused (fun _ => True) result result' := by
    obtain ⟨result'', two', twin⟩ := ended _ _ one
    obtain ⟨rfl, rfl⟩ := two'.unique grows two
    exact ⟨rfl, twin⟩
  unfold TwinRuns
  rcases run : (step fuel state).exec answer respond calls with ⟨reason | next | value, later⟩
  case ok.inl =>
    have goes := (forth (next, later) ⟨fuel, run⟩).exec grows whole'
    dsimp only at goes
    rw [goes]
    exact ⟨rfl, .value trivial⟩
  all_goals
    rcases run' : (step fuel state).exec other respond calls with ⟨reason' | next' | value', later'⟩
  case error.ok.inl | ok.inr.ok.inl =>
    have goes := (back (next', later') ⟨fuel, run'⟩).exec grows whole
    dsimp only at goes
    rw [run] at goes
    cases goes
  case error.error =>
    obtain ⟨made, twin⟩ := twins (ends_of_error grows visited whole run)
      (ends_of_error grows visited' whole' run')
    refine ⟨made, ?_⟩
    cases twin with
    | error => exact .error _
    | excused here there => exact .excused here there
  case ok.inr.ok.inr =>
    obtain ⟨made, twin⟩ := twins (ends_of_value grows visited run) (ends_of_value grows visited' run')
    refine ⟨made, ?_⟩
    cases twin with
    | value => exact .value trivial
  case error.ok.inr =>
    cases (twins (ends_of_error grows visited whole run) (ends_of_value grows visited' run')).2
  case ok.inr.error =>
    cases (twins (ends_of_value grows visited run) (ends_of_error grows visited' whole' run')).2

end Courses

end Dialogue

namespace Inquiry

variable {Q A ε α β : Type} {allowed : Q → Prop} {answer : Q → Option A}

/-- An inquiry puts only allowed questions. -/
def Asks (allowed : Q → Prop) (answer : Q → Option A) (program : Inquiry Q A ε α) : Prop :=
  ∀ question ∈ program.questions answer, allowed question

/-- A value puts no questions. -/
@[simp] theorem asks_done (value : α) :
    Asks allowed answer (.done value : Inquiry Q A ε α) ↔ True :=
  iff_true_intro nofun

/-- Nor does a program which stops. -/
@[simp] theorem asks_stop (reason : ε) :
    Asks allowed answer (.stop reason : Inquiry Q A ε α) ↔ True :=
  iff_true_intro nofun

/-- A question, and what is asked behind its answer. -/
theorem asks_ask {question : Q} {next : A → Inquiry Q A ε α} :
    Asks allowed answer (.ask question next) ↔
      allowed question ∧ ∀ given, answer question = some given → Asks allowed answer (next given) := by
  unfold Asks questions
  simp only [Dialogue.asked, List.mem_cons, forall_eq_or_imp]
  cases answer question with
  | none => simp
  | some given => simp

/-- The questions of a sequence are those of the first part, and those of the second one
behind a value. -/
theorem asks_bind {first : Inquiry Q A ε α} {next : α → Inquiry Q A ε β} :
    Asks allowed answer (first >>= next) ↔ Asks allowed answer first ∧
      ∀ value, eval answer first = .ok value → Asks allowed answer (next value) := by
  unfold Asks questions
  rw [Dialogue.asked_bind, exec_nobody]
  simp only [List.mem_append, or_imp, forall_and]
  refine and_congr_right fun _ => ?_
  cases eval answer first with
  | ok value => simp
  | error reason => simp

end Inquiry
end Rpi5.Semantics
