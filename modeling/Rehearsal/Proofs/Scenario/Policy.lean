import Rehearsal.Proofs.Scenario.Course

namespace Rehearsal

open MonadAttach (CanReturn)
open LawfulMonadAttach (canReturn_map_imp')

/-! The two policies up to a first failure. A run that goes on behind failures begins with the run
that gives up at the first one: the same steps are executed in the same contexts, and only then
does it execute others. -/

namespace Scenario

variable {m : Type → Type} [Monad m]

/-- Goes on behind results: with the steps left over, when the last of the results is a failure that
reached the chain. -/
def goOn (chain : Chain m) (now index : Nat) (steps : List Step) :
    List StepResult × Context → m (List StepResult × Context)
  | (results, context) =>
      match results.getLast? with
      | none => return (results, context)
      | some last =>
          if last.failure.isSome && last.outcome.isSome then do
            let (others, context) ← runSteps chain now .continue (index + results.length)
              (steps.drop results.length) context
            return (results ++ others, context)
          else return (results, context)

variable [LawfulMonad m] (chain : Chain m) (now : Nat)

theorem goOn_cons {index : Nat} {step : Step} {steps : List Step} {result : StepResult}
    (passed : result.failure = none) (results : List StepResult) (context : Context) :
    goOn chain now index (step :: steps) (result :: results, context) =
      (fun told => (result :: told.1, told.2)) <$>
        goOn chain now (index + 1) steps (results, context) := by
  cases results with
  | nil => simp [goOn, passed]
  | cons head results =>
      simp only [goOn, List.getLast?_cons_cons, List.length_cons, List.drop_succ_cons]
      split
      · simp
      · split
        · simp [Nat.add_assoc, Nat.add_comm 1]
        · simp

theorem runSteps_continue (index : Nat) (steps : List Step) (context : Context) :
    runSteps chain now .continue index steps context =
      runSteps chain now .abort index steps context >>= goOn chain now index steps := by
  induction steps generalizing index context with
  | nil => simp [runSteps, goOn]
  | cons step rest ih =>
      simp only [runSteps, bind_assoc]
      refine bind_congr fun ran => ?_
      obtain ⟨result, after⟩ := ran
      -- The policies part only behind a failure with an outcome. Behind a step that passed both go
      -- on, and behind one that never reached the chain both give up.
      cases failed : result.failure with
      | none =>
          simp [FailurePolicy.stopsAt, failed, ih, goOn_cons]
      | some failure =>
          have notAbort : (FailurePolicy.continue == FailurePolicy.abort) = false := rfl
          cases reached : result.outcome with
          | none => simp [FailurePolicy.stopsAt, failed, reached, goOn]
          | some outcome => simp [FailurePolicy.stopsAt, failed, reached, goOn, notAbort]

theorem goOn_eq (index : Nat) (steps : List Step) (results : List StepResult) (context : Context) :
    goOn chain now index steps (results, context) = pure (results, context) ∨
      (∃ result ∈ results, result.failure.isSome = true) ∧ ∃ others,
        goOn chain now index steps (results, context) =
          (fun (told : List StepResult × Context) => (results ++ told.1, told.2)) <$> others := by
  cases last : results.getLast? with
  | none =>
      left
      simp [goOn, last]
  | some result =>
      by_cases failed : (result.failure.isSome && result.outcome.isSome) = true
      · right
        refine ⟨⟨result, List.mem_of_getLast? last, (Bool.and_eq_true _ _ ▸ failed).1⟩,
          runSteps chain now .continue (index + results.length) (steps.drop results.length) context,
          ?_⟩
        simp only [goOn, last, if_pos failed, map_eq_pure_bind]
      · left
        simp only [goOn, last, if_neg failed]

variable {chain} {now} [MonadAttach m] [LawfulMonadAttach m]

theorem passed_of_runSteps {index : Nat} {steps : List Step} {context last : Context}
    {results : List StepResult}
    (ran : CanReturn (runSteps chain now .abort index steps context) (results, last))
    {front back : List StepResult} {result : StepResult}
    (split : results = front ++ result :: back) :
    result.passed = result.failure.isNone ∧ (back ≠ [] → result.passed = true) := by
  rw [runSteps_eq_watchSteps] at ran
  obtain ⟨⟨moments, after⟩, watched, told⟩ := canReturn_map_imp' ran
  cases told
  obtain ⟨moment, -, rfl, goesOn⟩ := (course_of_watchSteps watched).goesOn_of_results split
  refine ⟨Moment.passed_result, fun further => ?_⟩
  have goesOn := goesOn further
  rw [Moment.stopsAt_abort, Option.isSome_eq_false_iff] at goesOn
  rw [Moment.passed_result, goesOn]

end Scenario

/-! Results up to a first failure. -/

/-- Results up to and including the first that did not pass. -/
def throughFailure (results : List StepResult) : List StepResult :=
  results.takeWhile StepResult.passed ++ (results.find? fun result => !result.passed).toList

theorem throughFailure_eq_self {results : List StepResult}
    (before : ∀ front result back, results = front ++ result :: back → back ≠ [] →
      result.passed = true) : throughFailure results = results := by
  induction results with
  | nil => rfl
  | cons head rest ih =>
      have others := ih fun front result back split =>
        before (head :: front) result back (by rw [split]; rfl)
      cases passed : head.passed with
      | true => simpa [throughFailure, passed] using others
      | false =>
          cases rest with
          | nil => simp [throughFailure, passed]
          | cons next rest =>
              have first := before [] head (next :: rest) rfl (List.cons_ne_nil _ _)
              rw [passed] at first
              contradiction

theorem throughFailure_append {results : List StepResult}
    (failed : ∃ result ∈ results, result.passed = false) (others : List StepResult) :
    throughFailure (results ++ others) = throughFailure results := by
  induction results with
  | nil => simp at failed
  | cons head rest ih =>
      cases passed : head.passed with
      | false => simp [throughFailure, passed]
      | true =>
          have later : ∃ result ∈ rest, result.passed = false := by
            simpa [passed] using failed
          simpa [throughFailure, passed] using ih later

namespace Scenario

theorem conclude_append {s : Scenario} {results : List StepResult}
    (failed : ∃ result ∈ results, result.failure.isSome = true) (others : List StepResult) :
    (s.conclude (results ++ others)).status = (s.conclude results).status ∧
      (s.conclude (results ++ others)).failure = (s.conclude results).failure := by
  have first : (results ++ others).findSome? StepResult.failure =
      results.findSome? StepResult.failure := by
    have found := List.findSome?_isSome_iff.mpr failed
    rw [List.findSome?_append, Option.or_of_isSome found]
  simp only [conclude, first, and_self]

variable {σ : Type} (chain : Chain (StateM σ)) (now : Nat)

/-- On a chain that is determined by its state, going on adds to the results of giving up, and only
behind a failure. -/
theorem run_runSteps_continue (index : Nat) (steps : List Step) (context : Context) (state : σ) :
    let aborted := (runSteps chain now .abort index steps context).run state
    let continued := (runSteps chain now .continue index steps context).run state
    continued = aborted ∨ (∃ result ∈ aborted.1.1, result.failure.isSome = true) ∧
      ∃ others, continued.1.1 = aborted.1.1 ++ others := by
  intro aborted continued
  have goesOn : continued =
      (goOn chain now index steps (aborted.1.1, aborted.1.2)).run aborted.2 := by
    change (runSteps chain now .continue index steps context).run state = _
    rw [runSteps_continue]
    rfl
  rw [goesOn]
  rcases goOn_eq chain now index steps aborted.1.1 aborted.1.2 with same | ⟨failed, others, appends⟩
  · left
    rw [same]
    rfl
  · right
    rw [appends]
    exact ⟨failed, _, rfl⟩

/-- On a chain that is determined by its state, a scenario that is given up at the first failure has
the results of the one that goes on, up to and including the first failure, and ends with the same
status and failure; without a failure the runs are the same, down to the context and the chain. -/
theorem abort_eq_continue_through_failure (s : Scenario) (context : Context) (state : σ) :
    let aborted := (s.run chain now .abort context).run state
    let continued := (s.run chain now .continue context).run state
    aborted.1.1.steps = throughFailure continued.1.1.steps ∧
      aborted.1.1.status = continued.1.1.status ∧ aborted.1.1.failure = continued.1.1.failure ∧
      (aborted.1.1.status = .passed → aborted = continued) := by
  let told := (runSteps chain now .abort 0 s.steps context).run state
  let gone := (runSteps chain now .continue 0 s.steps context).run state
  change told.1.1 = throughFailure gone.1.1 ∧
    (s.conclude told.1.1).status = (s.conclude gone.1.1).status ∧
    (s.conclude told.1.1).failure = (s.conclude gone.1.1).failure ∧
    ((s.conclude told.1.1).status = .passed →
      ((s.conclude told.1.1, told.1.2), told.2) = ((s.conclude gone.1.1, gone.1.2), gone.2))
  have ran : CanReturn (runSteps chain now .abort 0 s.steps context) (told.1.1, told.1.2) :=
    ⟨state, told.2, rfl⟩
  have through : throughFailure told.1.1 = told.1.1 :=
    throughFailure_eq_self fun front result back split => (passed_of_runSteps ran split).2
  rcases run_runSteps_continue chain now 0 s.steps context state with
    same | ⟨⟨result, member, failed⟩, others, appends⟩
  · have same : gone = told := same
    rw [same]
    exact ⟨through.symm, rfl, rfl, fun _ => rfl⟩
  · have appends : gone.1.1 = told.1.1 ++ others := appends
    obtain ⟨front, back, split⟩ := List.append_of_mem member
    have notPassed : result.passed = false := by
      rw [(passed_of_runSteps ran split).1, ← Option.not_isSome, failed]
      rfl
    obtain ⟨status, failure⟩ := conclude_append (s := s) ⟨result, member, failed⟩ others
    rw [appends, throughFailure_append ⟨result, member, notPassed⟩, through]
    refine ⟨rfl, status.symm, failure.symm, fun passed => ?_⟩
    rw [status_conclude_eq_passed.mp passed result member] at failed
    contradiction

def refusing : Chain (StateM Nat) where
  signers asked := (.ok [.ofLow 1], asked + 1)
  deploy artifact _ _ asked := (.error (.artifactNotFound artifact), asked + 1)
  call _ _ _ _ asked := (.error (.reverted none none), asked + 1)
  send _ _ _ _ asked := (.error (.reverted none none), asked + 1)

theorem abort_eq_continue_of_mishaps :
    let aborted := (mishaps.run refusing 0 .abort (Setup.withAccounts [.ofLow 1])).run 0
    let continued := (mishaps.run refusing 0 .continue (Setup.withAccounts [.ofLow 1])).run 0
    aborted.1.1.steps = throughFailure continued.1.1.steps ∧
      (aborted.1.1.steps.length, continued.1.1.steps.length) = (2, 3) := by
  intro aborted continued
  have agree := abort_eq_continue_through_failure refusing 0 mishaps
    (Setup.withAccounts [.ofLow 1]) 0
  exact ⟨agree.1, by rfl⟩

end Scenario

end Rehearsal
