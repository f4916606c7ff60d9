import Rpi5.Semantics.Polling

/-!
# Programs inside programs

A system runs programs of several kinds after each other. `embed` makes the calls of a
program as calls of a wider kind, `absorb` answers them from a state instead of making
them, and `rescue` goes on where a program stops.

Three rules say what a run of such a system leaves behind: `Within` bounds the calls and
the reasons to stop, `Emits` says what the calls have shown of themselves, and `Keeps`
is a triple on the calls made so far. `Completes` is the triple of a program which returns.
-/

namespace Rpi5.Semantics

/-- The same halt with another kind of reasons. -/
def Halt.map {Q ε δ : Type} (reason : ε → δ) : Halt Q ε → Halt Q δ
  | .stopped why => .stopped (reason why)
  | .unanswered question => .unanswered question

namespace Dialogue

variable {Q A V C W B O σ δ ε α β : Type} {answer : Q → Option A} {respond : List W → W → B}

/-- A run which is not kept waiting is the same where more questions are answered. -/
theorem exec_eq_of_narrower {narrow wide : Q → Option A}
    (wider : ∀ question given, narrow question = some given → wide question = some given)
    {program : Dialogue Q A W B ε α} {calls : List W}
    (answered : ∀ question, (program.exec narrow respond calls).1 ≠ .error (.unanswered question)) :
    program.exec wide respond calls = program.exec narrow respond calls := by
  induction program generalizing calls with
  | done => rfl
  | stop => rfl
  | ask question next ih =>
      simp only [exec] at answered ⊢
      cases found : narrow question with
      | none =>
          rw [found] at answered
          exact absurd rfl (answered question)
      | some given =>
          rw [found] at answered
          rw [wider question given found]
          exact ih given answered
  | call made next ih => exact ih _ answered

/-- A run which returns a value does the same where more questions are answered. -/
theorem exec_of_narrower {narrow wide : Q → Option A}
    (wider : ∀ question given, narrow question = some given → wide question = some given)
    {program : Dialogue Q A W B ε α} {calls later : List W} {value : α}
    (run : program.exec narrow respond calls = (.ok value, later)) :
    program.exec wide respond calls = (.ok value, later) := by
  rw [← run]
  exact exec_eq_of_narrower wider fun question => by rw [run]; nofun

section Embed

variable {event : W → V} {reply : C → B} {reason : ε → δ}

/-- Make the calls of a program as calls of a wider kind. -/
def embed (event : W → V) (reply : C → B) (reason : ε → δ) :
    Dialogue Empty Empty W B ε α → Dialogue Q A V C δ α
  | .done value => .done value
  | .stop why => .stop (reason why)
  | .ask question _ => question.elim
  | .call made next => .call (event made) fun given => (next (reply given)).embed event reply reason

/-- A program that is done is embedded as it is. -/
@[simp] theorem embed_done (value : α) :
    ((.done value : Dialogue Empty Empty W B ε α).embed event reply reason : Dialogue Q A V C δ α) =
      .done value := rfl

/-- A reason to stop is renamed. -/
@[simp] theorem embed_stop (why : ε) :
    ((.stop why : Dialogue Empty Empty W B ε α).embed event reply reason : Dialogue Q A V C δ α) =
      .stop (reason why) := rfl

/-- A call is renamed, and so is its reply. -/
@[simp] theorem embed_call (made : W) (next : B → Dialogue Empty Empty W B ε α) :
    ((.call made next : Dialogue Empty Empty W B ε α).embed event reply reason :
        Dialogue Q A V C δ α) =
      .call (event made) fun given => (next (reply given)).embed event reply reason := rfl

/-- A sequence is embedded part by part. -/
theorem embed_bind (program : Dialogue Empty Empty W B ε α)
    (next : α → Dialogue Empty Empty W B ε β) :
    ((program >>= next).embed event reply reason : Dialogue Q A V C δ β) =
      program.embed event reply reason >>= fun value => (next value).embed event reply reason := by
  induction program with
  | done => rfl
  | stop => rfl
  | ask question => exact question.elim
  | call made rest ih =>
      rw [call_bind, embed_call, embed_call, call_bind]
      simp only [ih]

/-- A poll stays a poll. -/
theorem embed_poll (made : W) (again : B → Except ε Bool) (limit : ε) (fuel : Nat) :
    ((poll made again limit fuel : Dialogue Empty Empty W B ε Unit).embed event reply reason :
        Dialogue Q A V C δ Unit) =
      poll (event made) (fun given => (again (reply given)).mapError reason) (reason limit) fuel := by
  induction fuel with
  | zero => rfl
  | succ fuel ih =>
      rw [poll, poll, embed_call]
      congr 1
      funext given
      cases again (reply given) with
      | error why => rfl
      | ok goes =>
          cases goes with
          | false => rfl
          | true => exact ih

end Embed

section Absorb

/-- Answer the calls of a program from a state, which is there at the end. -/
def absorb (handle : σ → W → B × σ) (reason : ε → δ) :
    σ → Dialogue Q A W B ε α → Dialogue Q A V C δ (α × σ)
  | state, .done value => .done (value, state)
  | _, .stop why => .stop (reason why)
  | state, .ask question next => .ask question fun given => (next given).absorb handle reason state
  | state, .call made next =>
      (next (handle state made).1).absorb handle reason (handle state made).2

/-- The state after some calls. -/
def absorbed (handle : σ → W → B × σ) (state : σ) (calls : List W) : σ :=
  calls.foldl (fun state made => (handle state made).2) state

/-- The listener which answers from the state. -/
def listener (handle : σ → W → B × σ) (state : σ) (calls : List W) (made : W) : B :=
  (handle (absorbed handle state calls) made).1

/-- Calls answered from a state are calls of the listener, and leave no trace outside. -/
theorem exec_absorb (handle : σ → W → B × σ) (reason : ε → δ) (state : σ)
    (program : Dialogue Q A W B ε α) (earlier : List W) (answer : Q → Option A)
    (listen : List V → V → C) (calls : List V) :
    (program.absorb handle reason (absorbed handle state earlier)).exec answer listen calls =
      match program.exec answer (listener handle state) earlier with
      | (.ok value, later) => (.ok (value, absorbed handle state later), calls)
      | (.error halt, _) => (.error (halt.map reason), calls) := by
  induction program generalizing earlier with
  | done => rfl
  | stop => rfl
  | ask question next ih =>
      simp only [absorb, exec]
      cases answer question with
      | none => rfl
      | some given => exact ih given earlier
  | call made next ih =>
      have after : (handle (absorbed handle state earlier) made).2 =
          absorbed handle state (earlier ++ [made]) := by
        simp [absorbed]
      rw [absorb, after, ih, exec_call]
      rfl

end Absorb

section Rescue

/-- Go on with a handler where a program stops. -/
def rescue (handler : ε → Dialogue Q A W B δ α) : Dialogue Q A W B ε α → Dialogue Q A W B δ α
  | .done value => .done value
  | .stop why => handler why
  | .ask question next => .ask question fun given => (next given).rescue handler
  | .call made next => .call made fun given => (next given).rescue handler

/-- The handler runs where the program has stopped, behind the calls made until then. -/
theorem exec_rescue (handler : ε → Dialogue Q A W B δ α) (program : Dialogue Q A W B ε α)
    (calls : List W) :
    (program.rescue handler).exec answer respond calls =
      match program.exec answer respond calls with
      | (.ok value, later) => (.ok value, later)
      | (.error (.stopped why), later) => (handler why).exec answer respond later
      | (.error (.unanswered question), later) => (.error (.unanswered question), later) := by
  induction program generalizing calls with
  | done => rfl
  | stop => rfl
  | ask question next ih =>
      simp only [rescue, exec]
      cases answer question with
      | none => rfl
      | some given => exact ih given calls
  | call made next ih => exact ih _ _

end Rescue

section Within

variable {asks : Q → Prop} {allowed : W → Prop} {ends : ε → Prop}

/-- Whatever a program is answered, it puts only such questions, makes only such calls and
stops only for such reasons. -/
inductive Within (asks : Q → Prop) (allowed : W → Prop) (ends : ε → Prop) :
    Dialogue Q A W B ε α → Prop where
  | done {value} : Within asks allowed ends (.done value)
  | stop {why} (reason : ends why) : Within asks allowed ends (.stop why)
  | ask {question next} (holds : asks question)
      (rest : ∀ given, Within asks allowed ends (next given)) :
      Within asks allowed ends (.ask question next)
  | call {made next} (holds : allowed made) (rest : ∀ given, Within asks allowed ends (next given)) :
      Within asks allowed ends (.call made next)

/-- A sequence keeps to the calls and endings which both parts keep to. -/
theorem Within.bind {first : Dialogue Q A W B ε α} {next : α → Dialogue Q A W B ε β}
    (one : Within asks allowed ends first) (other : ∀ value, Within asks allowed ends (next value)) :
    Within asks allowed ends (first >>= next) := by
  induction one with
  | done => exact other _
  | stop reason => exact .stop reason
  | ask holds _ ih => exact .ask holds ih
  | call holds _ ih => exact .call holds ih

/-- It also keeps to more calls and endings. -/
theorem Within.mono {wide : W → Prop} {wideEnds : ε → Prop} {program : Dialogue Q A W B ε α}
    (within : Within asks allowed ends program) (wider : ∀ made, allowed made → wide made)
    (reasons : ∀ why, ends why → wideEnds why) : Within asks wide wideEnds program := by
  induction within with
  | done => exact .done
  | stop ended => exact .stop (reasons _ ended)
  | ask holds _ ih => exact .ask holds ih
  | call holds _ ih => exact .call (wider _ holds) ih

/-- Polling keeps to its call, its limit and the errors of its check. -/
theorem Within.poll {event : W} {again : B → Except ε Bool} {limit : ε} (holds : allowed event)
    (bounded : ends limit) (calm : ∀ given why, again given = .error why → ends why) (fuel : Nat) :
    Within asks allowed ends (poll event again limit fuel : Dialogue Q A W B ε Unit) := by
  induction fuel with
  | zero => exact .stop bounded
  | succ fuel ih =>
      refine .call holds fun given => ?_
      cases verdict : again given with
      | error why => exact .stop (calm given why verdict)
      | ok goes =>
          cases goes with
          | false => exact .done
          | true => exact ih

/-- Embedded, a program keeps to the renamed calls and endings. -/
theorem Within.embed {V C δ : Type} {event : W → V} {reply : C → B} {reason : ε → δ}
    {none : Empty → Prop} {wide : V → Prop} {wideEnds : δ → Prop}
    {program : Dialogue Empty Empty W B ε α} (within : Within none allowed ends program)
    (wider : ∀ made, allowed made → wide (event made))
    (reasons : ∀ why, ends why → wideEnds (reason why)) :
    Within asks wide wideEnds (program.embed event reply reason : Dialogue Q A V C δ α) := by
  induction within with
  | done => exact .done
  | stop ended => exact .stop (reasons _ ended)
  | @ask question => exact question.elim
  | call holds _ ih => exact .call (wider _ holds) fun given => ih (reply given)

/-- An absorbed program makes no calls. -/
theorem absorb_within {V C δ : Type} {asks : Q → Prop} {ends : ε → Prop} {wideEnds : δ → Prop}
    {handle : σ → W → B × σ} {reason : ε → δ} {program : Dialogue Q A W B ε α}
    (within : Within asks (fun _ => True) ends program)
    (reasons : ∀ why, ends why → wideEnds (reason why)) (state : σ) :
    Within asks (fun _ => False) wideEnds
      (program.absorb handle reason state : Dialogue Q A V C δ (α × σ)) := by
  induction within generalizing state with
  | done => exact .done
  | stop ended => exact .stop (reasons _ ended)
  | ask holds _ ih => exact .ask holds fun given => ih given state
  | call _ _ ih => exact ih _ _

/-- A handler may end otherwise than the program it rescues. -/
theorem Within.rescue {δ : Type} {wideEnds : δ → Prop} {handler : ε → Dialogue Q A W B δ α}
    {program : Dialogue Q A W B ε α} (within : Within asks allowed ends program)
    (rest : ∀ why, ends why → Within asks allowed wideEnds (handler why)) :
    Within asks allowed wideEnds (program.rescue handler) := by
  induction within with
  | done => exact .done
  | stop reason => exact rest _ reason
  | ask holds _ ih => exact .ask holds ih
  | call holds _ ih => exact .call holds ih

/-- Nothing is known of a program in advance. -/
theorem Within.trivial (program : Dialogue Q A W B ε α) :
    Within (fun _ => True) (fun _ => True) (fun _ => True) program := by
  induction program with
  | done => exact .done
  | stop => exact .stop True.intro
  | ask question next ih => exact .ask True.intro ih
  | call made next ih => exact .call True.intro ih

/-- A program which makes no calls runs the same whatever happened before. -/
theorem Within.exec_eq {program : Dialogue Q A W B ε α}
    (within : Within asks (fun _ => False) ends program) (listen : List W → W → B)
    (calls other : List W) : program.exec answer respond calls =
      ((program.exec answer listen other).1, calls) := by
  induction within with
  | done => rfl
  | stop => rfl
  | @ask question next _ _ ih =>
      simp only [exec]
      cases answer question with
      | none => rfl
      | some given => exact ih given
  | call none => exact none.elim

/-- What a run of such a program adds, and how it ends. -/
theorem Within.of_exec {program : Dialogue Q A W B ε α} (within : Within asks allowed ends program)
    (answer : Q → Option A) (respond : List W → W → B) (calls : List W) :
    ∃ more, (program.exec answer respond calls).2 = calls ++ more ∧
      (∀ made ∈ more, allowed made) ∧
      (∀ why, (program.exec answer respond calls).1 = .error (.stopped why) → ends why) ∧
      ∀ question, (program.exec answer respond calls).1 = .error (.unanswered question) →
        asks question := by
  induction within generalizing calls with
  | done =>
      refine ⟨[], (List.append_nil _).symm, List.forall_mem_nil _, fun why same => ?_,
        fun question same => ?_⟩ <;> cases same
  | stop reason =>
      refine ⟨[], (List.append_nil _).symm, List.forall_mem_nil _, fun why same => ?_,
        fun question same => ?_⟩ <;> cases same
      exact reason
  | @ask question next holds _ ih =>
      simp only [exec]
      cases answer question with
      | none =>
          refine ⟨[], (List.append_nil _).symm, List.forall_mem_nil _, fun why same => ?_,
            fun other same => ?_⟩ <;> cases same
          exact holds
      | some given => exact ih given calls
  | @call made next holds _ ih =>
      obtain ⟨more, later, all, endings⟩ := ih (respond calls made) (calls ++ [made])
      refine ⟨made :: more, ?_, ?_, endings⟩
      · rw [exec_call, later, List.append_assoc]
        rfl
      · rw [List.forall_mem_cons]
        exact ⟨holds, all⟩

end Within

section Emits

variable {shown : W → List O} {output more : List O}

/-- Whatever a program is answered, its calls show such an output, or the beginning of it
if the program stops. -/
inductive Emits (shown : W → List O) : List O → Dialogue Q A W B ε α → Prop where
  | done {value} : Emits shown [] (.done value)
  | stop {output why} : Emits shown output (.stop why)
  | ask {output question next} (rest : ∀ given, Emits shown output (next given)) :
      Emits shown output (.ask question next)
  | call {output made next} (rest : ∀ given, Emits shown output (next given)) :
      Emits shown (shown made ++ output) (.call made next)

/-- A sequence emits what its parts emit. -/
theorem Emits.bind {first : Dialogue Q A W B ε α} {next : α → Dialogue Q A W B ε β}
    (one : Emits shown output first) (other : ∀ value, Emits shown more (next value)) :
    Emits shown (output ++ more) (first >>= next) := by
  induction one with
  | done => exact other _
  | stop => exact .stop
  | ask _ ih => exact .ask ih
  | call _ ih =>
      rw [List.append_assoc]
      exact .call ih

/-- The first part shows nothing. -/
theorem Emits.silent_bind {first : Dialogue Q A W B ε α} {next : α → Dialogue Q A W B ε β}
    (one : Emits shown [] first) (other : ∀ value, Emits shown more (next value)) :
    Emits shown more (first >>= next) := by
  have whole := one.bind other
  rwa [List.nil_append] at whole

/-- The second part shows nothing. -/
theorem Emits.bind_silent {first : Dialogue Q A W B ε α} {next : α → Dialogue Q A W B ε β}
    (one : Emits shown output first) (other : ∀ value, Emits shown [] (next value)) :
    Emits shown output (first >>= next) := by
  have whole := one.bind other
  rwa [List.append_nil] at whole

/-- Embedding does not change what is shown. -/
theorem Emits.embed {V C δ : Type} {event : W → V} {reply : C → B} {reason : ε → δ}
    {wide : V → List O} {program : Dialogue Empty Empty W B ε α}
    (emits : Emits (fun made => wide (event made)) output program) :
    Emits wide output (program.embed event reply reason : Dialogue Q A V C δ α) := by
  induction emits with
  | done => exact .done
  | stop => exact .stop
  | @ask _ question => exact question.elim
  | call _ ih => exact .call fun given => ih (reply given)

/-- A program whose calls show nothing. -/
theorem Within.emits {asks : Q → Prop} {ends : ε → Prop} {program : Dialogue Q A W B ε α}
    (within : Within asks (fun made => shown made = []) ends program) :
    Emits shown [] program := by
  induction within with
  | done => exact .done
  | stop => exact .stop
  | ask _ _ ih => exact .ask ih
  | @call made next silent _ ih =>
      have first : ([] : List O) = shown made ++ [] := by rw [silent, List.append_nil]
      rw [first]
      exact .call ih

/-- One call whose reply is the value. -/
theorem emits_call (made : W) (value : B → α) :
    Emits shown (shown made) (.call made fun given => .done (value given) :
      Dialogue Q A W B ε α) := by
  have whole : Emits shown (shown made ++ []) (.call made fun given => .done (value given) :
      Dialogue Q A W B ε α) := .call fun _ => .done
  rwa [List.append_nil] at whole

/-- What a run of such a program adds shows the beginning of the output, and the whole of
it if the program returns. -/
theorem Emits.of_exec {program : Dialogue Q A W B ε α} (emits : Emits shown output program)
    (answer : Q → Option A) (respond : List W → W → B) (calls : List W) :
    ∃ added, (program.exec answer respond calls).2 = calls ++ added ∧
      added.flatMap shown <+: output ∧
      ∀ value, (program.exec answer respond calls).1 = .ok value → added.flatMap shown = output := by
  induction emits generalizing calls with
  | done => exact ⟨[], (List.append_nil _).symm, List.prefix_rfl, fun _ _ => rfl⟩
  | stop =>
      refine ⟨[], (List.append_nil _).symm, List.nil_prefix, fun value returned => ?_⟩
      cases returned
  | @ask _ question next _ ih =>
      simp only [exec]
      cases answer question with
      | none =>
          refine ⟨[], (List.append_nil _).symm, List.nil_prefix, fun value returned => ?_⟩
          cases returned
      | some given => exact ih given calls
  | @call _ made next _ ih =>
      obtain ⟨added, later, begins, whole⟩ := ih (respond calls made) (calls ++ [made])
      refine ⟨made :: added, ?_, ?_, ?_⟩
      · rw [exec_call, later, List.append_assoc]
        rfl
      · exact (List.prefix_append_right_inj _).mpr begins
      · intro value returned
        rw [List.flatMap_cons, whole value returned]

end Emits

section Keeps

variable {pre : List W → Prop} {post : α → List W → Prop} {cut : ε → List W → Prop}

/-- From calls with the precondition a program returns a value with the postcondition, or
stops with the condition for its reason. -/
def Keeps (answer : Q → Option A) (respond : List W → W → B) (pre : List W → Prop)
    (program : Dialogue Q A W B ε α) (post : α → List W → Prop) (cut : ε → List W → Prop) : Prop :=
  ∀ calls, pre calls → match program.exec answer respond calls with
    | (.ok value, later) => post value later
    | (.error (.stopped why), later) => cut why later
    | (.error (.unanswered _), _) => False

/-- A value needs the postcondition to follow from the precondition. -/
theorem keeps_done {value : α} (holds : ∀ calls, pre calls → post value calls) :
    Keeps answer respond pre (.done value : Dialogue Q A W B ε α) post cut := holds

/-- So does a reason to stop. -/
theorem keeps_stop {why : ε} (holds : ∀ calls, pre calls → cut why calls) :
    Keeps answer respond pre (.stop why : Dialogue Q A W B ε α) post cut := holds

/-- A fact which is known before. -/
theorem keeps_of_fact {fact : Prop} {program : Dialogue Q A W B ε α}
    (given : fact → Keeps answer respond pre program post cut) :
    Keeps answer respond (fun calls => fact ∧ pre calls) program post cut :=
  fun calls holds => given holds.1 calls holds.2

/-- One call, and what follows its reply. -/
theorem keeps_call {made : W} {next : B → Dialogue Q A W B ε α}
    (rest : ∀ calls, pre calls → Keeps answer respond (· = calls ++ [made])
      (next (respond calls made)) post cut) :
    Keeps answer respond pre (.call made next) post cut :=
  fun calls holds => rest calls holds _ rfl

/-- The second part starts from the postcondition of the first one. -/
theorem Keeps.bind {first : Dialogue Q A W B ε α} {next : α → Dialogue Q A W B ε β}
    {last : β → List W → Prop} (one : Keeps answer respond pre first post cut)
    (other : ∀ value, Keeps answer respond (post value) (next value) last cut) :
    Keeps answer respond pre (first >>= next) last cut := by
  intro calls holds
  have before := one calls holds
  rw [exec_bind]
  rcases run : first.exec answer respond calls with ⟨halt | value, later⟩
  · rw [run] at before
    cases halt with
    | stopped why => exact before
    | unanswered question => exact before
  · rw [run] at before
    exact other _ later before

/-- The rule of consequence. -/
theorem Keeps.mono {program : Dialogue Q A W B ε α} {strong : List W → Prop}
    {weak : α → List W → Prop} {wide : ε → List W → Prop}
    (keeps : Keeps answer respond pre program post cut)
    (before : ∀ calls, strong calls → pre calls)
    (after : ∀ value calls, post value calls → weak value calls)
    (ends : ∀ why calls, cut why calls → wide why calls) :
    Keeps answer respond strong program weak wide := by
  intro calls holds
  have run := keeps calls (before calls holds)
  rcases done : program.exec answer respond calls with ⟨halt | value, later⟩
  · rw [done] at run
    cases halt with
    | stopped why => exact ends why later run
    | unanswered question => exact run
  · rw [done] at run
    exact after _ later run

/-- The rule for a poll: an invariant of the calls which it survives. -/
theorem keeps_poll {event : W} {again : B → Except ε Bool} {limit : ε} {inv after : List W → Prop}
    (goes : ∀ calls, inv calls → again (respond calls event) = .ok true → inv (calls ++ [event]))
    (ready : ∀ calls, inv calls → again (respond calls event) = .ok false → after (calls ++ [event]))
    (fails : ∀ calls why, inv calls → again (respond calls event) = .error why →
      cut why (calls ++ [event]))
    (bounded : ∀ calls, inv calls → cut limit calls) (fuel : Nat) :
    Keeps answer respond inv (poll event again limit fuel : Dialogue Q A W B ε Unit)
      (fun _ => after) cut := by
  induction fuel with
  | zero => exact keeps_stop bounded
  | succ fuel ih =>
      refine keeps_call fun calls holds => ?_
      rintro _ rfl
      cases verdict : again (respond calls event) with
      | error why => exact fails calls why holds verdict
      | ok continues =>
          cases continues with
          | false => exact ready calls holds verdict
          | true => exact ih _ (goes calls holds verdict)

/-- Where a program stops the handler goes on. -/
theorem Keeps.rescue {program : Dialogue Q A W B ε α} {handler : ε → Dialogue Q A W B δ α}
    {final : δ → List W → Prop} (keeps : Keeps answer respond pre program post cut)
    (handled : ∀ why, Keeps answer respond (cut why) (handler why) post final) :
    Keeps answer respond pre (program.rescue handler) post final := by
  intro calls holds
  have run := keeps calls holds
  rw [exec_rescue]
  rcases done : program.exec answer respond calls with ⟨halt | value, later⟩
  · rw [done] at run
    cases halt with
    | stopped why => exact handled why later run
    | unanswered question => exact run
  · rw [done] at run
    exact run

/-- A program whose calls all keep a condition keeps it. -/
theorem Within.keeps {allowed : W → Prop} {ends : ε → Prop} {program : Dialogue Q A W B ε α}
    (within : Within (fun _ => False) allowed ends program)
    (kept : ∀ calls made, pre calls → allowed made → pre (calls ++ [made])) :
    Keeps answer respond pre program (fun _ => pre) (fun why calls => ends why ∧ pre calls) := by
  intro calls holds
  induction within generalizing calls with
  | done => exact holds
  | stop reason => exact ⟨reason, holds⟩
  | ask none => exact none.elim
  | call allowed _ ih => exact ih _ _ (kept _ _ holds allowed)

end Keeps

section Completes

variable {pre : List W → Prop} {post : α → List W → Prop}

/-- From calls with the precondition a program returns a value with the postcondition. -/
abbrev Completes (answer : Q → Option A) (respond : List W → W → B) (pre : List W → Prop)
    (program : Dialogue Q A W B ε α) (post : α → List W → Prop) : Prop :=
  Keeps answer respond pre program post fun _ _ => False

/-- What returns may stop for any reason. -/
theorem Completes.keeps {cut : ε → List W → Prop} {program : Dialogue Q A W B ε α}
    (completes : Completes answer respond pre program post) :
    Keeps answer respond pre program post cut :=
  completes.mono (fun _ holds => holds) (fun _ _ holds => holds) fun _ _ never => never.elim

/-- A program which completes returns a value. -/
theorem Completes.returns {program : Dialogue Q A W B ε α} {calls : List W}
    (completes : Completes answer respond pre program post) (holds : pre calls) :
    ∃ value, (program.exec answer respond calls).1 = .ok value := by
  have run := completes calls holds
  rcases done : program.exec answer respond calls with ⟨halt | value, later⟩
  · rw [done] at run
    cases halt <;> exact run.elim
  · exact ⟨value, rfl⟩

/-- The rule for a poll which is let go after so many replies at most. -/
theorem completes_poll {event : W} {again : B → Except ε Bool} {limit : ε} {polls fuel : Nat}
    {after : List W → Prop} (enough : polls ≤ fuel)
    (free : ∀ calls, pre calls → ∃ earlier < polls,
      again (respond (calls ++ List.replicate earlier event) event) = .ok false)
    (calm : ∀ calls, pre calls → ∀ earlier why,
      again (respond (calls ++ List.replicate earlier event) event) ≠ .error why)
    (ready : ∀ calls, pre calls → ∀ made ≤ polls, after (calls ++ List.replicate made event)) :
    Completes answer respond pre (poll event again limit fuel : Dialogue Q A W B ε Unit)
      fun _ => after := by
  intro calls holds
  obtain ⟨last, below, ends⟩ := free calls holds
  rcases waits_or event again respond calls polls with waits | ⟨first, within, waits, other⟩
  · have goes := waits last below
    rw [ends] at goes
    cases goes
  · have verdict : again (respond (calls ++ List.replicate first event) event) = .ok false := by
      cases given : again (respond (calls ++ List.replicate first event) event) with
      | error why => exact absurd given (calm calls holds first why)
      | ok goes =>
          cases goes with
          | true => exact absurd given other
          | false => rfl
    rw [waits.exec_done (Nat.lt_of_lt_of_le within enough) verdict]
    exact ready calls holds (first + 1) within

/-- A program which never stops completes. -/
theorem Within.completes {allowed : W → Prop} {program : Dialogue Q A W B ε α}
    (within : Within (fun _ => False) allowed (fun _ => False) program)
    (kept : ∀ calls made, pre calls → allowed made → pre (calls ++ [made])) :
    Completes answer respond pre program fun _ => pre :=
  (within.keeps kept).mono (fun _ holds => holds) (fun _ _ holds => holds) fun _ _ never => never.1

end Completes
end Dialogue
end Rpi5.Semantics
