import Rehearsal.Scenario.Execution
import Rehearsal.Scenario.Matching
/-!
Tearing down after a run: all steps are executed, whatever becomes of those before them.
-/

namespace Rehearsal.Teardown

/-- The problem with an executed step, if there is one, by the context that the step left. A
step without an expectation is expected to succeed. -/
def problem? (step : Step) (context : Context) (now : Nat) :
    Except RunError Execution → Option String
  | .error e => some s!"{step.displayName}: {e.message}"
  | .ok execution =>
      let expectation := step.expect.getD .succeeds
      match expectation.mismatches ⟨context, some execution.signer, now⟩ execution.outcome with
      | [] => none
      | mismatches =>
          some (step.displayName ++ ": " ++ Text.join "; " (mismatches.map Mismatch.message))

variable {m : Type → Type} [Monad m]

/-- Executes steps one after the other and gathers the problems. -/
def problems (chain : Chain m) (now : Nat) : List Step → Context → m (List String)
  | [], _ => return []
  | step :: rest, context => do
      let (executed, context) ← step.execute chain now context
      let others ← problems chain now rest context
      return (problem? step context now executed).toList ++ others

/-- Carries out declared steps; what they do to the context is seen by them alone. The clock is taken
to stand still from the first of them to the last. -/
def declared (steps : List Step) (now : Nat) (chain : Chain m) (context : Context) :
    m (Except RunError Unit) := do
  match ← problems chain now steps context with
  | [] => return .ok ()
  | problems => return .error (.teardown problems)

end Rehearsal.Teardown
