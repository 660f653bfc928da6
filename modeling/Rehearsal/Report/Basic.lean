import Rehearsal.Scenario.Error
import Rehearsal.Scenario.Outcome
/-!
What a run reports: a result for each step, for each scenario, and for the suite.
-/

namespace Rehearsal

inductive FailureKind where
  | configuration
  | reference
  | templateResolution
  /-- The step failed, and nothing was expected of it. -/
  | executionFailure
  | expectationMismatch
  deriving DecidableEq, Repr

namespace FailureKind

/-- The kind of an error that is found before the chain is touched. -/
def of : RunError → FailureKind
  | .reference _ => .reference
  | .template _ _ => .templateResolution
  | _ => .configuration

def description : FailureKind → String
  | .configuration => "configuration error"
  | .reference => "reference error"
  | .templateResolution => "template resolution error"
  | .executionFailure => "execution failure"
  | .expectationMismatch => "expectation mismatch"

def text : FailureKind → String
  | .configuration => "configuration"
  | .reference => "reference"
  | .templateResolution => "templateResolution"
  | .executionFailure => "executionFailure"
  | .expectationMismatch => "expectationMismatch"

end FailureKind

structure StepFailure where
  /-- The position of the step in its scenario, counted from zero. -/
  stepIndex : Nat
  stepName : String
  kind : FailureKind
  messages : List String
  deriving DecidableEq, Repr

def StepFailure.summary (f : StepFailure) : String :=
  s!"step {f.stepIndex + 1} '{f.stepName}': {f.kind.description}: " ++ Text.join "; " f.messages

structure StepResult where
  name : String
  action : String
  passed : Bool
  signer : Option Address
  /-- Missing when the step failed before the chain was touched. -/
  outcome : Option Outcome
  failure : Option StepFailure
  duration : Nat
  deriving Repr

inductive ScenarioStatus where
  | passed
  | failed
  | skipped
  deriving DecidableEq, Repr

def ScenarioStatus.text : ScenarioStatus → String
  | .passed => "passed"
  | .failed => "failed"
  | .skipped => "skipped"

structure ScenarioResult where
  name : String
  status : ScenarioStatus
  steps : List StepResult
  failure : Option StepFailure
  duration : Nat
  deriving Repr

def ScenarioResult.skipped (name : String) : ScenarioResult :=
  ⟨name, .skipped, [], none, 0⟩

def ScenarioResult.passed (r : ScenarioResult) : Bool :=
  r.status == .passed

/-- The report of a suite; the numbers count its scenario results by their status. A run leaves all
durations 0; a clock may fill in any others. -/
structure SuiteReport where
  suiteName : String
  total : Nat
  passed : Nat
  failed : Nat
  skipped : Nat
  setupError : Option String
  teardownError : Option String
  duration : Nat
  scenarios : List ScenarioResult
  deriving Repr

namespace SuiteReport

def empty (suiteName : String) : SuiteReport :=
  ⟨suiteName, 0, 0, 0, 0, none, none, 0, []⟩

def push (r : SuiteReport) (result : ScenarioResult) : SuiteReport :=
  { r with
    total := r.total + 1
    passed := r.passed + if result.status = .passed then 1 else 0
    failed := r.failed + if result.status = .failed then 1 else 0
    skipped := r.skipped + if result.status = .skipped then 1 else 0
    scenarios := r.scenarios ++ [result] }

/-- Whether nothing failed, neither a scenario nor what comes before and after them. -/
def isSuccess (r : SuiteReport) : Bool :=
  r.failed == 0 && r.setupError.isNone && r.teardownError.isNone

end SuiteReport

end Rehearsal
