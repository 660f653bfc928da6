import Rehearsal.Proofs.Suite.Record

namespace Rehearsal

/-! Two judges of a step: a scenario, which tells the result of each step, and a teardown, which
gathers problems. The one treats a step without an expectation apart, the other expects it to succeed.
They execute the step alike and come to the same verdict. -/

namespace Expectation

theorem mismatches_succeeds (r : Resolver) (o : Outcome) :
    succeeds.mismatches r o = if o.succeeded then [] else [.failed o.revertReason] := by
  cases verdict : o.succeeded with
  | true => simp [mismatches, Matching.success, Matching.returnValue, Matching.returnType,
      Matching.revertReason, Matching.events, succeeds, verdict]
  | false => simp [mismatches, Matching.success, Matching.returnValue, Matching.returnType,
      Matching.revertReason, Matching.events, succeeds, verdict]

end Expectation

/-- A step that was executed is a problem to a teardown just when a scenario fails it. -/
theorem Teardown.isNone_problem? (step : Step) (context : Context) (now index : Nat)
    (executed : Except RunError Execution) :
    (problem? step context now executed).isNone =
      (step.result context now index executed).passed := by
  cases executed with
  | error e => rfl
  | ok execution =>
      cases expected : step.expect with
      | some expectation =>
          simp only [problem?, Step.result, Step.failureOf?, expected, Option.getD_some]
          generalize expectation.mismatches _ execution.outcome = mismatches
          cases mismatches with
          | nil => rfl
          | cons mismatch rest => rfl
      | none =>
          simp only [problem?, Step.result, Step.failureOf?, expected, Option.getD_none,
            Expectation.mismatches_succeeds]
          cases execution.outcome.succeeded with
          | true => rfl
          | false => rfl

variable {m : Type → Type} [Monad m] [LawfulMonad m] (chain : Chain m) (now : Nat)
  (context : Context) (step : Step)

theorem Scenario.runStep_eq_map (index : Nat) : runStep chain now index context step =
    (fun done => (step.result done.2 now index done.1, done.2)) <$>
      step.execute chain now context :=
  (map_eq_pure_bind _ _).symm

namespace Teardown

theorem problems_singleton : problems chain now [step] context =
    (fun done => (problem? step done.2 now done.1).toList) <$> step.execute chain now context := by
  simp only [problems, pure_bind, List.append_nil, map_eq_pure_bind]

theorem isOk_declared (steps : List Step) : Except.isOk <$> declared steps now chain context =
    List.isEmpty <$> problems chain now steps context := by
  simp only [declared, map_eq_pure_bind, bind_assoc]
  refine bind_congr fun problems => ?_
  cases problems with
  | nil => exact pure_bind _ _
  | cons problem rest => exact pure_bind _ _

end Teardown

namespace Step

theorem passed_runStep_eq_isOk_declared (index : Nat) :
    (fun ran => ran.1.passed) <$> Scenario.runStep chain now index context step =
      Except.isOk <$> Teardown.declared [step] now chain context := by
  rw [Scenario.runStep_eq_map, Teardown.isOk_declared, Teardown.problems_singleton, ← comp_map,
    ← comp_map]
  congr 1
  funext done
  have same := Teardown.isNone_problem? step done.2 now index done.1
  simp only [Function.comp_apply, ← same]
  cases Teardown.problem? step done.2 now done.1 with
  | none => rfl
  | some problem => rfl

theorem run_runStep_recorded (index : Nat) :
    (Scenario.runStep chain.recorded now index context step).run [] =
      (fun ran => (ran, (step.asks context now).map .asked)) <$>
        Scenario.runStep chain now index context step := by
  rw [Scenario.runStep_eq_map, Scenario.runStep_eq_map, StateT.run_map, run_execute_recorded,
    ← comp_map, ← comp_map]
  rfl

theorem run_declared_recorded :
    (Teardown.declared [step] now chain.recorded context).run [] =
      (fun torn => (torn, (step.asks context now).map .asked)) <$>
        Teardown.declared [step] now chain context := by
  simp only [Teardown.declared, Teardown.problems_singleton, StateT.run_bind,
    run_execute_recorded, map_bind, bind_map_left]
  refine bind_congr fun done => ?_
  cases Teardown.problem? step done.2 now done.1 with
  | none => simp
  | some problem => simp

/-- A scenario passes a step just when a teardown of this one step succeeds, and both ask the same of
the chain: they differ neither in what they do in the monad of the chain nor in what they record of
it. -/
theorem judged_alike (index : Nat) :
    Prod.fst <$> (Scenario.runStep chain.recorded now index context step).run [] =
        Scenario.runStep chain now index context step ∧
      Prod.fst <$> (Teardown.declared [step] now chain.recorded context).run [] =
        Teardown.declared [step] now chain context ∧
      (fun done => (done.1.1.passed, done.2)) <$>
          (Scenario.runStep chain.recorded now index context step).run [] =
        (fun done => (done.1.isOk, done.2)) <$>
          (Teardown.declared [step] now chain.recorded context).run [] := by
  have same := congrArg (fun verdict => (·, (step.asks context now).map Mark.asked) <$> verdict)
    (passed_runStep_eq_isOk_declared chain now context step index)
  rw [run_runStep_recorded, run_declared_recorded]
  refine ⟨by simp, by simp, ?_⟩
  simp only [Functor.map_map] at same ⊢
  exact same

def barren : Chain (StateM Nat) where
  signers := fun asked => (.ok [], asked + 1)
  deploy artifact _ _ := fun asked => (.error (.artifactNotFound artifact), asked + 1)
  call _ _ _ _ := fun asked => (.error (.reverted none none), asked + 1)
  send _ _ _ _ := fun asked => (.error (.reverted none none), asked + 1)

theorem judged_alike_of_missing :
    (Except.isOk <$> Teardown.declared [Step.deploy "vault" "Vault"] 0 barren
        (Setup.withAccounts [.ofLow 1])).run 7 = (false, 8) ∧
      (Except.isOk <$> Teardown.declared
        [(Step.deploy "vault" "Vault").expecting (.reverts "not found")] 0 barren
        (Setup.withAccounts [.ofLow 1])).run 7 = (true, 8) := by
  constructor
  · obtain ⟨-, torn, same⟩ := judged_alike barren 0 (Setup.withAccounts [.ofLow 1])
      (Step.deploy "vault" "Vault") 0
    rw [← torn]
    exact congrFun (congrArg (fun verdict => Prod.fst <$> verdict) same.symm) 7
  · obtain ⟨-, torn, same⟩ := judged_alike barren 0 (Setup.withAccounts [.ofLow 1])
      ((Step.deploy "vault" "Vault").expecting (.reverts "not found")) 0
    rw [← torn]
    exact congrFun (congrArg (fun verdict => Prod.fst <$> verdict) same.symm) 7

end Step

end Rehearsal
