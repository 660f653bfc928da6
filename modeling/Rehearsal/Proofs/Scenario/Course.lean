import Rehearsal.Proofs.Suite.Record

namespace Rehearsal

open MonadAttach (CanReturn)
open LawfulMonadAttach (canReturn_bind_imp' canReturn_map_imp' eq_of_canReturn_pure)

/-! The course that the steps of a scenario take, and what the result of the scenario tells of it.

Under either policy the executed steps are the first ones declared, each executed once in the
context that the one before it left, and none behind a step that stops the scenario. -/

namespace Moment

/-! What the result of one step tells. A step without an outcome has no signer either, and has
failed. -/

variable {moment : Moment} {now : Nat} {failure : StepFailure}

theorem passed_result : (moment.result now).passed = (moment.result now).failure.isNone := by
  unfold result Step.result
  split
  · rfl
  · rfl

theorem stepIndex_of_failure (failed : (moment.result now).failure = some failure) :
    failure.stepIndex = moment.index := by
  unfold result Step.result at failed
  split at failed
  · cases failed
    rfl
  · simp only [Step.failureOf?] at failed
    repeat' split at failed
    all_goals cases failed
    all_goals rfl

theorem refused_of_outcome_eq_none (missing : (moment.result now).outcome = none) :
    (moment.result now).signer = none ∧ (moment.result now).failure.isSome = true := by
  unfold result Step.result at missing ⊢
  split at missing
  · exact ⟨rfl, rfl⟩
  · contradiction

theorem signer_of_outcome (reached : (moment.result now).outcome.isSome = true) :
    (moment.result now).signer.isSome = true := by
  unfold result Step.result at reached ⊢
  split at reached
  · contradiction
  · rfl

theorem stopsAt_abort :
    FailurePolicy.abort.stopsAt (moment.result now) = (moment.result now).failure.isSome := by
  simp [FailurePolicy.stopsAt]

theorem stopsAt_continue_eq :
    FailurePolicy.continue.stopsAt (moment.result now) = (moment.result now).outcome.isNone := by
  have notAbort : (FailurePolicy.continue == FailurePolicy.abort) = false := rfl
  rw [FailurePolicy.stopsAt, notAbort, Bool.false_or]
  cases outcome : (moment.result now).outcome with
  | none => simp [refused_of_outcome_eq_none outcome]
  | some outcome => simp

theorem failed_of_stopsAt {policy : FailurePolicy}
    (stops : policy.stopsAt (moment.result now) = true) :
    (moment.result now).failure.isSome = true :=
  (Bool.and_eq_true _ _ ▸ stops).1

end Moment

variable {m : Type → Type} [Monad m] [MonadAttach m]

/-- Steps, the first of them at a position, are executed one after the other, up to one that stops
the scenario. -/
inductive Course (chain : Chain m) (now : Nat) (policy : FailurePolicy) :
    Nat → List Step → Context → List Moment → Context → Prop where
  | done (index : Nat) (context : Context) : Course chain now policy index [] context [] context
  | stopped {index : Nat} {step : Step} {rest : List Step} {before after : Context}
      {executed : Except RunError Execution}
      (ran : CanReturn (step.execute chain now before) (executed, after))
      (stops : policy.stopsAt (step.result after now index executed) = true) :
      Course chain now policy index (step :: rest) before
        [⟨index, step, before, executed, after⟩] after
  | further {index : Nat} {step : Step} {rest : List Step} {before after last : Context}
      {executed : Except RunError Execution} {moments : List Moment}
      (ran : CanReturn (step.execute chain now before) (executed, after))
      (goesOn : policy.stopsAt (step.result after now index executed) = false)
      (others : Course chain now policy (index + 1) rest after moments last) :
      Course chain now policy index (step :: rest) before
        (⟨index, step, before, executed, after⟩ :: moments) last

variable {chain : Chain m} {now : Nat} {policy : FailurePolicy} {index : Nat} {steps : List Step}
  {context last : Context} {moments : List Moment}

theorem course_of_watchSteps [LawfulMonad m] [LawfulMonadAttach m]
    (ran : CanReturn (Scenario.watchSteps chain now policy index steps context) (moments, last)) :
    Course chain now policy index steps context moments last := by
  induction steps generalizing index context moments with
  | nil =>
      cases eq_of_canReturn_pure ran
      exact .done _ _
  | cons step rest ih =>
      obtain ⟨⟨executed, after⟩, stepped, ran⟩ := canReturn_bind_imp' ran
      simp only at ran
      split at ran
      · next stops =>
        cases eq_of_canReturn_pure ran
        exact .stopped stepped stops
      · next goesOn =>
        obtain ⟨⟨others, final⟩, othersRan, returned⟩ := canReturn_bind_imp' ran
        cases eq_of_canReturn_pure returned
        exact .further stepped (Bool.eq_false_iff.mpr goesOn) (ih othersRan)

theorem course_of_watch [LawfulMonad m] [LawfulMonadAttach m] {s : Scenario} {passage : Passage}
    (ran : CanReturn (s.watch chain now policy context) (passage, last)) :
    passage.scenario = s ∧ Course chain now policy 0 s.steps context passage.moments last := by
  obtain ⟨⟨moments, final⟩, stepsRan, returned⟩ := canReturn_bind_imp' ran
  cases eq_of_canReturn_pure returned
  exact ⟨rfl, course_of_watchSteps stepsRan⟩

namespace Course

theorem steps_eq (course : Course chain now policy index steps context moments last) :
    ∃ left, steps = moments.map Moment.step ++ left ∧ (left ≠ [] → ∃ front moment,
      moments = front ++ [moment] ∧ policy.stopsAt (moment.result now) = true) := by
  induction course with
  | done index context => exact ⟨[], rfl, fun some => absurd rfl some⟩
  | stopped ran stops => exact ⟨_, rfl, fun _ => ⟨[], _, rfl, stops⟩⟩
  | further ran goesOn others ih =>
      obtain ⟨left, split, cut⟩ := ih
      refine ⟨left, by rw [split]; rfl, fun some => ?_⟩
      obtain ⟨front, moment, ends, stops⟩ := cut some
      exact ⟨_ :: front, moment, by rw [ends]; rfl, stops⟩

theorem index_eq (course : Course chain now policy index steps context moments last)
    {front back : List Moment} {moment : Moment} (split : moments = front ++ moment :: back) :
    moment.index = index + front.length := by
  induction course generalizing front with
  | done index context => simp at split
  | stopped ran stops =>
      cases front with
      | nil =>
          cases split
          rfl
      | cons head front => simp at split
  | further ran goesOn others ih =>
      cases front with
      | nil =>
          cases split
          rfl
      | cons head front =>
          obtain ⟨-, split⟩ := List.cons.inj split
          rw [ih split, List.length_cons]
          omega

theorem goesOn_of_split (course : Course chain now policy index steps context moments last)
    {front back : List Moment} {moment : Moment} (split : moments = front ++ moment :: back)
    (further : back ≠ []) : policy.stopsAt (moment.result now) = false := by
  induction course generalizing front with
  | done index context => simp at split
  | stopped ran stops =>
      cases front with
      | nil =>
          cases split
          contradiction
      | cons head front => simp at split
  | further ran goesOn others ih =>
      cases front with
      | nil =>
          cases split
          exact goesOn
      | cons head front =>
          obtain ⟨-, split⟩ := List.cons.inj split
          exact ih split

theorem goesOn_of_results (course : Course chain now policy index steps context moments last)
    {front back : List StepResult} {result : StepResult}
    (split : (moments.map fun moment => moment.result now) = front ++ result :: back) :
    ∃ moment : Moment, moment.index = index + front.length ∧ moment.result now = result ∧
      (back ≠ [] → policy.stopsAt result = false) := by
  obtain ⟨first, others, whole, rfl, tail⟩ := List.map_eq_append_iff.mp split
  obtain ⟨moment, rest, rfl, rfl, rfl⟩ := List.map_eq_cons_iff.mp tail
  refine ⟨moment, ?_, rfl, fun further => course.goesOn_of_split whole ?_⟩
  · rw [course.index_eq whole, List.length_map]
  · rintro rfl
    exact further rfl

end Course

/-! What the result of a scenario tells. -/

namespace ScenarioResult

/-- A result tells the truth about the run of a scenario under a policy. -/
structure Tells (result : ScenarioResult) (s : Scenario) (policy : FailurePolicy) : Prop where
  passed : result.status = .passed ↔
    result.steps.length = s.steps.length ∧ ∀ step ∈ result.steps, step.passed = true
  clean : result.status = .passed → result.failure = none
  /-- Otherwise the first step that did not pass is told, and its position. -/
  failed : result.status ≠ .passed → result.status = .failed ∧
    ∃ front step back failure, result.steps = front ++ step :: back ∧
      (∀ earlier ∈ front, earlier.passed = true) ∧ step.passed = false ∧
      step.failure = some failure ∧ result.failure = some failure ∧
      failure.stepIndex = front.length ∧ (policy = .abort → back = [])
  /-- Steps are only left out behind one that never reached the chain. -/
  cut : policy = .continue → result.steps.length < s.steps.length →
    ∃ front step, result.steps = front ++ [step] ∧ step.outcome = none ∧ step.signer = none
  reached : policy = .continue → ∀ front step back, result.steps = front ++ step :: back →
    back ≠ [] → step.outcome.isSome = true ∧ step.signer.isSome = true

end ScenarioResult

namespace Scenario

variable {s : Scenario} {results : List StepResult}

theorem status_conclude_eq_passed :
    (s.conclude results).status = .passed ↔ ∀ result ∈ results, result.failure = none := by
  rw [← List.findSome?_eq_none_iff, conclude]
  cases results.findSome? StepResult.failure with
  | none => simp
  | some failure => simp

theorem exists_failure_of_conclude (failed : (s.conclude results).status ≠ .passed) :
    (s.conclude results).status = .failed ∧
      ∃ failure, results.findSome? StepResult.failure = some failure := by
  unfold conclude at failed ⊢
  cases first : results.findSome? StepResult.failure with
  | none => simp [first] at failed
  | some failure => simp

end Scenario

namespace Course

variable {passage : Passage}

theorem passed
    (course : Course chain now policy index passage.scenario.steps context passage.moments last) :
    (passage.result now).status = .passed ↔
      passage.moments.length = passage.scenario.steps.length ∧
        ∀ moment ∈ passage.moments, (moment.result now).passed = true := by
  have each : ∀ moment : Moment, (moment.result now).failure = none ↔
      (moment.result now).passed = true := by
    intro moment
    rw [Moment.passed_result, Option.isNone_iff_eq_none]
  rw [Passage.result, Scenario.status_conclude_eq_passed, List.forall_mem_map]
  simp only [each]
  constructor
  · intro all
    obtain ⟨left, steps, cut⟩ := course.steps_eq
    refine ⟨?_, all⟩
    cases left with
    | nil => rw [steps, List.append_nil, List.length_map]
    | cons step left =>
        -- Steps are left out only behind one that stopped the scenario, so behind a failure.
        obtain ⟨front, moment, ends, stops⟩ := cut (List.cons_ne_nil _ _)
        have passed := all moment (by simp [ends])
        have failed := Moment.failed_of_stopsAt stops
        rw [Moment.passed_result, Option.isNone_iff_eq_none] at passed
        rw [passed] at failed
        contradiction
  · exact And.right

theorem failed_first
    (course : Course chain now policy 0 passage.scenario.steps context passage.moments last)
    (notPassed : (passage.result now).status ≠ .passed) :
    ∃ front step back failure, (passage.result now).steps = front ++ step :: back ∧
      (∀ earlier ∈ front, earlier.passed = true) ∧ step.passed = false ∧
      step.failure = some failure ∧ (passage.result now).failure = some failure ∧
      failure.stepIndex = front.length ∧ (policy = .abort → back = []) := by
  obtain ⟨-, failure, found⟩ := Scenario.exists_failure_of_conclude notPassed
  obtain ⟨front, result, back, split, failed, before⟩ := List.findSome?_eq_some_iff.mp found
  obtain ⟨moment, position, rfl, goesOn⟩ := course.goesOn_of_results split
  refine ⟨front, _, back, failure, split, ?_, ?_, failed, found, ?_, ?_⟩
  · intro earlier member
    obtain ⟨passed, -, rfl⟩ : ∃ passed ∈ passage.moments, Moment.result passed now = earlier :=
      List.mem_map.mp (split ▸ List.mem_append_left _ member)
    rw [Moment.passed_result, before _ member]
    rfl
  · rw [Moment.passed_result, failed]
    rfl
  · rw [Moment.stepIndex_of_failure failed, position, Nat.zero_add]
  · rintro rfl
    cases back with
    | nil => rfl
    | cons next back =>
        have goesOn := goesOn (List.cons_ne_nil _ _)
        rw [Moment.stopsAt_abort, failed] at goesOn
        contradiction

theorem refused_last
    (course : Course chain now .continue index passage.scenario.steps context passage.moments last)
    (short : (passage.result now).steps.length < passage.scenario.steps.length) :
    ∃ front step, (passage.result now).steps = front ++ [step] ∧ step.outcome = none ∧
      step.signer = none := by
  obtain ⟨left, steps, cut⟩ := course.steps_eq
  have some : left ≠ [] := by
    rintro rfl
    simp [steps, Passage.result, Scenario.conclude] at short
  obtain ⟨front, moment, ends, stops⟩ := cut some
  rw [Moment.stopsAt_continue_eq, Option.isNone_iff_eq_none] at stops
  exact ⟨front.map fun moment => moment.result now, moment.result now,
    by simp [Passage.result, Scenario.conclude, ends], stops,
    (Moment.refused_of_outcome_eq_none stops).1⟩

theorem reached_before
    (course : Course chain now .continue index passage.scenario.steps context passage.moments last)
    {front back : List StepResult} {step : StepResult}
    (split : (passage.result now).steps = front ++ step :: back) (further : back ≠ []) :
    step.outcome.isSome = true ∧ step.signer.isSome = true := by
  obtain ⟨moment, -, rfl, goesOn⟩ := course.goesOn_of_results split
  have reached := goesOn further
  rw [Moment.stopsAt_continue_eq, Option.isNone_eq_false_iff] at reached
  exact ⟨reached, Moment.signer_of_outcome reached⟩

theorem tells
    (course : Course chain now policy 0 passage.scenario.steps context passage.moments last) :
    (passage.result now).Tells passage.scenario policy where
  passed := by
    rw [course.passed]
    simp [Passage.result, Scenario.conclude]
  clean passed := List.findSome?_eq_none_iff.mpr (Scenario.status_conclude_eq_passed.mp passed)
  failed notPassed :=
    ⟨(Scenario.exists_failure_of_conclude notPassed).1, course.failed_first notPassed⟩
  cut continues short := by
    subst continues
    exact course.refused_last short
  reached continues _ _ _ split further := by
    subst continues
    exact course.reached_before split further

end Course

section

variable [LawfulMonad m] [LawfulMonadAttach m] (chain : Chain m) (now : Nat)

/-- The result of a scenario tells the truth about its run: its steps are the results of the first
declared steps, of which each was executed once and asked the chain as recorded, and its status and
failure are those of these steps. -/
theorem Scenario.result_tells (s : Scenario) (policy : FailurePolicy)
    (context : Context) :
    Prod.fst <$> (s.run chain.recorded now policy context).run [] =
        s.run chain now policy context ∧
      ∀ result last marks,
        CanReturn ((s.run chain.recorded now policy context).run []) ((result, last), marks) →
          ∃ moments, Course chain now policy 0 s.steps context moments last ∧
            moments.map Moment.step <+: s.steps ∧
            result.steps = moments.map (fun moment => moment.result now) ∧
            marks = (moments.flatMap fun moment => moment.asks now).map .asked ∧
            result.Tells s policy := by
  rw [run_recorded]
  refine ⟨by simp [run_eq_watch], fun result last marks ran => ?_⟩
  obtain ⟨⟨passage, after⟩, watched, told⟩ := canReturn_map_imp' ran
  cases told
  obtain ⟨rfl, course⟩ := course_of_watch watched
  obtain ⟨left, steps, -⟩ := course.steps_eq
  exact ⟨passage.moments, course, ⟨left, steps.symm⟩, rfl, rfl, course.tells⟩

end

def idle : Chain Id where
  signers := .ok [.ofLow 1]
  deploy artifact _ _ := .error (.artifactNotFound artifact)
  call _ _ _ _ := .error (.reverted none none)
  send _ _ _ _ := .error (.reverted none none)

def mishaps : Scenario := ⟨"mishaps", none,
  [(Step.deploy "vault" "Vault").expecting (.reverts "not found"), Step.deploy "vault" "Vault",
    Step.call "vault" "open", Step.deploy "vault" "Vault"]⟩

theorem Scenario.result_tells_of_mishaps :
    ∃ result, (mishaps.run idle 0 .continue (Setup.withAccounts [.ofLow 1])).run.1 = result ∧
      result.steps.map StepResult.passed = [true, false, false] ∧
      result.Tells mishaps .continue := by
  obtain ⟨-, tells⟩ := result_tells idle 0 mishaps .continue (Setup.withAccounts [.ofLow 1])
  obtain ⟨moments, -, -, -, -, told⟩ := tells _ _ _ rfl
  exact ⟨_, rfl, by rfl, told⟩

end Rehearsal
