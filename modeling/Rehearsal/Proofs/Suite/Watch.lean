import Mathlib.Init
import Rehearsal.Suite.Run

namespace Rehearsal

/-! Runs that are watched. A watched run does what the run does and gives back, step by step, the
contexts that the report leaves out; its report is that of the run. -/

/-- A step of a scenario as it was executed, with the contexts before and behind it. -/
structure Moment where
  index : Nat
  step : Step
  before : Context
  executed : Except RunError Execution
  after : Context

def Moment.result (moment : Moment) (now : Nat) : StepResult :=
  moment.step.result moment.after now moment.index moment.executed

/-- A scenario as it was run: its executed steps. -/
structure Passage where
  scenario : Scenario
  moments : List Moment

def Passage.result (passage : Passage) (now : Nat) : ScenarioResult :=
  passage.scenario.conclude (passage.moments.map fun moment => moment.result now)

variable {m : Type → Type} [Monad m]

namespace Scenario

def watchSteps (chain : Chain m) (now : Nat) (policy : FailurePolicy) :
    (index : Nat) → List Step → Context → m (List Moment × Context)
  | _, [], context => return ([], context)
  | index, step :: rest, context => do
      let (executed, after) ← step.execute chain now context
      let moment : Moment := ⟨index, step, context, executed, after⟩
      if policy.stopsAt (moment.result now) then return ([moment], after)
      else
        let (moments, last) ← watchSteps chain now policy (index + 1) rest after
        return (moment :: moments, last)

def watch (s : Scenario) (chain : Chain m) (now : Nat) (policy : FailurePolicy)
    (context : Context) : m (Passage × Context) := do
  let (moments, context) ← watchSteps chain now policy 0 s.steps context
  return (⟨s, moments⟩, context)

variable [LawfulMonad m] (chain : Chain m) (now : Nat)

theorem runSteps_eq_watchSteps (policy : FailurePolicy) (index : Nat) (steps : List Step)
    (context : Context) : runSteps chain now policy index steps context =
      (fun watched => (watched.1.map fun moment => moment.result now, watched.2)) <$>
        watchSteps chain now policy index steps context := by
  induction steps generalizing index context with
  | nil => simp [runSteps, watchSteps]
  | cons step rest ih =>
      simp only [runSteps, watchSteps, runStep, bind_assoc, pure_bind, map_bind]
      refine bind_congr fun executed => ?_
      change (if policy.stopsAt (Moment.result ⟨index, step, context, executed.1, executed.2⟩ now)
        then _ else _) = _ <$> (if _ then _ else _)
      split
      · simp [Moment.result]
      · simp [ih, Moment.result]

theorem run_eq_watch (s : Scenario) (policy : FailurePolicy) (context : Context) :
    s.run chain now policy context =
      (fun watched => (watched.1.result now, watched.2)) <$> s.watch chain now policy context := by
  simp [run, watch, runSteps_eq_watchSteps, Passage.result]

end Scenario

/-- A suite as it was run on a chain. -/
structure Watched where
  setup : Except RunError Context
  passages : List Passage
  /-- The selected scenarios that were not run. -/
  skipped : List Scenario
  teardown : Except RunError Unit

namespace Watched

def moments (watched : Watched) : List Moment :=
  watched.passages.flatMap Passage.moments

def pushAll (now : Nat) (report : SuiteReport) (passages : List Passage) : SuiteReport :=
  passages.foldl (fun report passage => report.push (passage.result now)) report

def conclude (report : SuiteReport) : Except RunError Unit → SuiteReport
  | .ok () => report
  | .error e => { report with teardownError := some e.message }

def report (watched : Watched) (name : String) (now : Nat) : SuiteReport :=
  match watched.setup with
  | .error e =>
      Suite.skipAll { SuiteReport.empty name with setupError := some e.message } watched.skipped
  | .ok _ =>
      conclude (Suite.skipAll (pushAll now (SuiteReport.empty name) watched.passages)
        watched.skipped) watched.teardown

end Watched

namespace Suite

def watchScenarios (chain : Chain m) (now : Nat) (options : RunOptions) :
    List Scenario → Context → m (List Passage × List Scenario × Context)
  | [], context => return ([], [], context)
  | s :: rest, context => do
      let (passage, context) ← s.watch chain now options.policy context
      if options.bail && (passage.result now).status == .failed then
        return ([passage], rest, context)
      else
        let (passages, skipped, context) ← watchScenarios chain now options rest context
        return (passage :: passages, skipped, context)

def watchTeardown (suite : Suite m) (chain : Chain m) (context : Context) :
    m (Except RunError Unit) :=
  match suite.teardown with
  | none => return .ok ()
  | some teardown => teardown chain context

def watch (suite : Suite m) (chain : Chain m) (now : Nat) (options : RunOptions) :
    m Watched := do
  match ← suite.setup chain with
  | .error e => return ⟨.error e, [], suite.selected options, .ok ()⟩
  | .ok context =>
      let (passages, skipped, last) ← watchScenarios chain now options (suite.selected options)
        context
      let teardown ← suite.watchTeardown chain last
      return ⟨.ok context, passages, skipped, teardown⟩

variable [LawfulMonad m] (chain : Chain m) (now : Nat) (options : RunOptions)

theorem runScenarios_eq_watchScenarios (scenarios : List Scenario) (report : SuiteReport)
    (context : Context) : runScenarios chain now options scenarios report context =
      (fun watched => (skipAll (Watched.pushAll now report watched.1) watched.2.1, watched.2.2)) <$>
        watchScenarios chain now options scenarios context := by
  induction scenarios generalizing report context with
  | nil => simp [runScenarios, watchScenarios, skipAll, Watched.pushAll]
  | cons s rest ih =>
      simp only [runScenarios, watchScenarios, Scenario.run_eq_watch, map_bind, bind_map_left]
      refine bind_congr fun watched => ?_
      split
      · simp [Watched.pushAll]
      · simp [ih, Watched.pushAll]

theorem finish_eq_watchTeardown (suite : Suite m) (report : SuiteReport) (context : Context) :
    suite.finish chain report context =
      Watched.conclude report <$> suite.watchTeardown chain context := by
  unfold finish watchTeardown
  cases suite.teardown with
  | none => simp [Watched.conclude]
  | some teardown =>
      simp only [map_eq_pure_bind]
      refine bind_congr fun result => ?_
      cases result <;> rfl

/-- A run reports what it is watched to do. -/
theorem run_eq_watch (suite : Suite m) : suite.run chain now options =
    (fun watched => watched.report suite.metadata.name now) <$>
      suite.watch chain now options := by
  unfold run watch
  rw [map_bind]
  refine bind_congr fun result => ?_
  cases result with
  | error e => simp [Watched.report]
  | ok context =>
      simp [runScenarios_eq_watchScenarios, finish_eq_watchTeardown, Watched.report]

end Suite

end Rehearsal
