import Rehearsal.Report.Basic
import Rehearsal.Scenario.Execution
import Rehearsal.Scenario.Matching
/-!
Running a scenario: its steps in order, each judged as soon as it is over.
-/

namespace Rehearsal

inductive FailurePolicy where
  /-- They are left out. -/
  | abort
  /-- They are executed, unless the failed step never reached the chain. -/
  | continue
  deriving DecidableEq, Repr

namespace Step

/-- The failure of a step by its outcome, if it is one. The context is that after the step. -/
def failureOf? (s : Step) (context : Context) (now index : Nat) (execution : Execution) :
    Option StepFailure :=
  match s.expect with
  | some expectation =>
      match expectation.mismatches ⟨context, some execution.signer, now⟩ execution.outcome with
      | [] => none
      | mismatches =>
          some ⟨index, s.displayName, .expectationMismatch, mismatches.map Mismatch.message⟩
  | none =>
      if execution.outcome.succeeded then none
      else
        some ⟨index, s.displayName, .executionFailure,
          [execution.outcome.revertReason.getD "execution reverted"]⟩

/-- The result of a step that was executed at a position, by the context it left. Its duration is left
open as 0, since the clock is taken to stand still. -/
def result (s : Step) (context : Context) (now index : Nat) :
    Except RunError Execution → StepResult
  | .error e =>
      { name := s.displayName
        action := s.action.kind
        passed := false
        signer := none
        outcome := none
        failure := some ⟨index, s.displayName, .of e, [e.message]⟩
        duration := 0 }
  | .ok execution =>
      let failure := s.failureOf? context now index execution
      { name := s.displayName
        action := s.action.kind
        passed := failure.isNone
        signer := some execution.signer
        outcome := some execution.outcome
        failure
        duration := 0 }

end Step

/-- Whether a result keeps the steps behind it from being executed. -/
def FailurePolicy.stopsAt (policy : FailurePolicy) (result : StepResult) : Bool :=
  result.failure.isSome && (policy == .abort || result.outcome.isNone)

namespace Scenario

def conclude (s : Scenario) (steps : List StepResult) : ScenarioResult :=
  let failure := steps.findSome? StepResult.failure
  { name := s.name
    status := if failure.isSome then .failed else .passed
    steps
    failure
    duration := 0 }

variable {m : Type → Type} [Monad m]

def runStep (chain : Chain m) (now index : Nat) (context : Context) (step : Step) :
    m (StepResult × Context) := do
  let (executed, context) ← step.execute chain now context
  return (step.result context now index executed, context)

/-- Runs steps, the first of them at a position, up to one that stops the scenario. -/
def runSteps (chain : Chain m) (now : Nat) (policy : FailurePolicy) :
    (index : Nat) → List Step → Context → m (List StepResult × Context)
  | _, [], context => return ([], context)
  | index, step :: rest, context => do
      let (result, context) ← runStep chain now index context step
      if policy.stopsAt result then return ([result], context)
      else
        let (results, context) ← runSteps chain now policy (index + 1) rest context
        return (result :: results, context)

/-- Runs a scenario in a context and gives back what has become of the context. The clock is taken to
stand still, so all steps are resolved and judged at one time. -/
def run (s : Scenario) (chain : Chain m) (now : Nat) (policy : FailurePolicy)
    (context : Context) : m (ScenarioResult × Context) := do
  let (results, context) ← runSteps chain now policy 0 s.steps context
  return (s.conclude results, context)

end Scenario

end Rehearsal
