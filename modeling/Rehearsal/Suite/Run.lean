import Rehearsal.Scenario.Run
import Rehearsal.Suite.Setup
import Rehearsal.Suite.Teardown
/-!
Running a suite: setup once, the selected scenarios in order, teardown once.
-/

namespace Rehearsal

structure Suite (m : Type → Type) where
  metadata : SuiteMetadata
  scenarios : List Scenario
  setup : Chain m → m (Except RunError Context)
  teardown : Option (Chain m → Context → m (Except RunError Unit))

structure RunOptions where
  policy : FailurePolicy
  /-- Whether scenarios behind one that failed are skipped. -/
  bail : Bool
  /-- Only scenarios whose names contain this text are run. -/
  filter : Option String
  deriving Repr

def RunOptions.selects (options : RunOptions) (s : Scenario) : Bool :=
  match options.filter with
  | some text => Text.contains text.toList s.name.toList
  | none => true

namespace Suite

variable {m : Type → Type} [Monad m]

/-- The suite of a definition. The store is for attached contracts, and the network tells
whose deployments are meant. -/
def ofDefinition (definition : SuiteDefinition) (store : Option Store) (network : String)
    (now : Nat) : Suite m where
  metadata := definition.metadata
  scenarios := definition.scenarios
  setup := match definition.setup with
    | some plan => Setup.declared plan store network now
    | none => Setup.accounts
  teardown := definition.teardown.map fun steps => Teardown.declared steps now

/-- The report in which all scenarios are skipped because setup failed. -/
def skipAll (report : SuiteReport) (scenarios : List Scenario) : SuiteReport :=
  scenarios.foldl (fun report s => report.push (.skipped s.name)) report

/-- Runs scenarios in order, adding their results to a report. -/
def runScenarios (chain : Chain m) (now : Nat) (options : RunOptions) :
    List Scenario → SuiteReport → Context → m (SuiteReport × Context)
  | [], report, context => return (report, context)
  | s :: rest, report, context => do
      let (result, context) ← s.run chain now options.policy context
      let report := report.push result
      if options.bail && result.status == .failed then return (skipAll report rest, context)
      else runScenarios chain now options rest report context

def selected (suite : Suite m) (options : RunOptions) : List Scenario :=
  suite.scenarios.filter options.selects

def finish (suite : Suite m) (chain : Chain m) (report : SuiteReport) (context : Context) :
    m SuiteReport :=
  match suite.teardown with
  | none => return report
  | some teardown => do
      match ← teardown chain context with
      | .ok () => return report
      | .error e => return { report with teardownError := some e.message }

def run (suite : Suite m) (chain : Chain m) (now : Nat) (options : RunOptions) :
    m SuiteReport := do
  let report := SuiteReport.empty suite.metadata.name
  match ← suite.setup chain with
  | .error e =>
      return skipAll { report with setupError := some e.message } (suite.selected options)
  | .ok context =>
      let (report, context) ← runScenarios chain now options (suite.selected options) report context
      suite.finish chain report context

end Suite

end Rehearsal
