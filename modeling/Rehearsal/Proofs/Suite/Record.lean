import Rehearsal.Proofs.Suite.Watch

namespace Rehearsal

/-! Runs that leave a record: what the hooks of a suite come to, and what its steps ask of the
chain. A recorded run does and returns what the run does; its record follows from the executed
steps, each of which asks the chain once or, when it is refused, not at all. -/

inductive Operation where
  | signers
  | deploy (artifact : String) (args : List Json) (options : CallOptions)
  | call (handle : Handle) (function : Abi.Function) (args : List Json) (options : CallOptions)
  | send (handle : Handle) (function : Abi.Function) (args : List Json) (options : CallOptions)
  deriving Repr

def Request.operation : Request → Operation
  | .deploy _ artifact args options => .deploy artifact args options
  | .call handle f args options =>
      if f.isReadOnly then .call handle f args options else .send handle f args options

theorem Request.operation_of_read {handle : Handle} {f : Abi.Function} {args : List Json}
    {options : CallOptions} (reads : f.isReadOnly = true) :
    Request.operation (.call handle f args options) = .call handle f args options :=
  if_pos reads

theorem Request.operation_of_write {handle : Handle} {f : Abi.Function} {args : List Json}
    {options : CallOptions} (writes : f.isReadOnly = false) :
    Request.operation (.call handle f args options) = .send handle f args options :=
  if_neg (Bool.eq_false_iff.mp writes)

inductive Mark where
  | setup (result : Except RunError Context)
  | asked (operation : Operation)
  /-- A teardown was given a context. -/
  | teardown (context : Context) (result : Except RunError Unit)

variable {m : Type → Type} [Monad m] {α : Type}

def marked (action : m α) (mark : α → Mark) : StateT (List Mark) m α := fun marks =>
  (fun a => (a, marks ++ [mark a])) <$> action

theorem run_marked (action : m α) (mark : α → Mark) (marks : List Mark) :
    (marked action mark).run marks = (fun a => (a, marks ++ [mark a])) <$> action := rfl

def Chain.recorded (chain : Chain m) : Chain (StateT (List Mark) m) where
  signers := marked chain.signers fun _ => .asked .signers
  deploy artifact args options :=
    marked (chain.deploy artifact args options) fun _ => .asked (.deploy artifact args options)
  call handle f args options :=
    marked (chain.call handle f args options) fun _ => .asked (.call handle f args options)
  send handle f args options :=
    marked (chain.send handle f args options) fun _ => .asked (.send handle f args options)

/-- A suite that records what its hooks come to. They run on the chain itself, so that what they
ask of it is no mark of a step. -/
def Suite.recorded (suite : Suite m) (chain : Chain m) : Suite (StateT (List Mark) m) where
  metadata := suite.metadata
  scenarios := suite.scenarios
  setup _ := marked (suite.setup chain) .setup
  teardown := suite.teardown.map fun teardown _ context =>
    marked (teardown chain context) (.teardown context)

/-! What is recorded of steps: the one operation that a planned step asks of the chain, and nothing
of a step that is refused. -/

def Step.asks (s : Step) (context : Context) (now : Nat) : List Operation :=
  match s.plan context now with
  | .error _ => []
  | .ok request => [request.operation]

def Moment.asks (moment : Moment) (now : Nat) : List Operation :=
  moment.step.asks moment.before now

def Passage.asks (passage : Passage) (now : Nat) : List Operation :=
  passage.moments.flatMap fun moment => moment.asks now

variable [LawfulMonad m] (chain : Chain m) (now : Nat)

theorem Execution.run_perform_recorded (context : Context) (request : Request)
    (marks : List Mark) : (perform chain.recorded context request).run marks =
      (fun result => (result, marks ++ [.asked request.operation])) <$>
        perform chain context request := by
  cases request with
  | deploy name artifact args options =>
      simp [perform, Chain.recorded, run_marked, Request.operation]
  | call handle f args options =>
      cases reads : f.isReadOnly with
      | true => simp [perform, Chain.recorded, run_marked, Request.operation, reads]
      | false => simp [perform, Chain.recorded, run_marked, Request.operation, reads]

theorem Step.run_execute_recorded (s : Step) (context : Context) (marks : List Mark) :
    (s.execute chain.recorded now context).run marks =
      (fun result => (result, marks ++ (s.asks context now).map .asked)) <$>
        s.execute chain now context := by
  unfold Step.execute Step.asks
  cases s.plan context now with
  | error e => simp
  | ok request => simp [Execution.run_perform_recorded]

namespace Scenario

theorem run_watchSteps_recorded (policy : FailurePolicy) (index : Nat) (steps : List Step)
    (context : Context) (marks : List Mark) :
    (watchSteps chain.recorded now policy index steps context).run marks =
      (fun watched =>
        (watched, marks ++ (watched.1.flatMap fun moment => moment.asks now).map .asked)) <$>
          watchSteps chain now policy index steps context := by
  induction steps generalizing index context marks with
  | nil => simp [watchSteps]
  | cons step rest ih =>
      simp only [watchSteps, StateT.run_bind, Step.run_execute_recorded, map_bind, bind_map_left]
      refine bind_congr fun executed => ?_
      split
      · simp [Moment.asks]
      · simp [ih, Moment.asks]

theorem run_watch_recorded (s : Scenario) (policy : FailurePolicy) (context : Context)
    (marks : List Mark) : (s.watch chain.recorded now policy context).run marks =
      (fun watched => (watched, marks ++ (watched.1.asks now).map .asked)) <$>
        s.watch chain now policy context := by
  simp [watch, run_watchSteps_recorded, Passage.asks]

theorem run_recorded (s : Scenario) (policy : FailurePolicy) (context : Context)
    (marks : List Mark) : (s.run chain.recorded now policy context).run marks =
      (fun watched =>
        ((watched.1.result now, watched.2), marks ++ (watched.1.asks now).map .asked)) <$>
          s.watch chain now policy context := by
  simp [run_eq_watch, run_watch_recorded]

end Scenario

/-! What is recorded of a suite: first its setup, then what its scenarios ask of the chain, and then
its teardown if there is one. -/

namespace Suite

theorem run_watchScenarios_recorded (options : RunOptions) (scenarios : List Scenario)
    (context : Context) (marks : List Mark) :
    (watchScenarios chain.recorded now options scenarios context).run marks =
      (fun watched =>
        (watched, marks ++ (watched.1.flatMap fun passage => passage.asks now).map .asked)) <$>
          watchScenarios chain now options scenarios context := by
  induction scenarios generalizing context marks with
  | nil => simp [watchScenarios]
  | cons s rest ih =>
      simp only [watchScenarios, StateT.run_bind, Scenario.run_watch_recorded, map_bind,
        bind_map_left]
      refine bind_congr fun watched => ?_
      split
      · simp
      · simp [ih]

def teardownMarks (suite : Suite m) (context : Context) (result : Except RunError Unit) :
    List Mark :=
  match suite.teardown with
  | none => []
  | some _ => [.teardown context result]

theorem run_watchTeardown_recorded (suite : Suite m) (context : Context) (marks : List Mark) :
    ((suite.recorded chain).watchTeardown chain.recorded context).run marks =
      (fun result => (result, marks ++ suite.teardownMarks context result)) <$>
        suite.watchTeardown chain context := by
  unfold watchTeardown teardownMarks recorded
  cases suite.teardown with
  | none => simp
  | some teardown => exact run_marked _ _ marks

theorem run_recorded (suite : Suite m) (options : RunOptions) :
    ((suite.recorded chain).run chain.recorded now options).run [] = do
      match ← suite.setup chain with
      | .error e =>
          let report := { SuiteReport.empty suite.metadata.name with setupError := some e.message }
          return (skipAll report (suite.selected options), [.setup (.error e)])
      | .ok context =>
          let (passages, skipped, last) ← watchScenarios chain now options (suite.selected options)
            context
          let torn ← suite.watchTeardown chain last
          return (Watched.conclude (skipAll (Watched.pushAll now
              (SuiteReport.empty suite.metadata.name) passages) skipped) torn,
            .setup (.ok context) :: (passages.flatMap fun passage => passage.asks now).map .asked
              ++ suite.teardownMarks last torn) := by
  have setup : ((suite.recorded chain).setup chain.recorded).run [] =
      (fun result => (result, [Mark.setup result])) <$> suite.setup chain := rfl
  unfold run
  rw [StateT.run_bind, setup, bind_map_left]
  refine bind_congr fun result => ?_
  cases result with
  | error e => rfl
  | ok context =>
      simp only [runScenarios_eq_watchScenarios, finish_eq_watchTeardown, StateT.run_bind,
        run_watchScenarios_recorded, run_watchTeardown_recorded, map_eq_pure_bind, bind_assoc,
        pure_bind]
      rfl

theorem fst_run_recorded (suite : Suite m) (options : RunOptions) :
    Prod.fst <$> ((suite.recorded chain).run chain.recorded now options).run [] =
      suite.run chain now options := by
  rw [run_recorded, run_eq_watch, watch, map_bind, map_bind]
  refine bind_congr fun result => ?_
  cases result with
  | error e => simp [Watched.report]
  | ok context => simp [Watched.report]

end Suite

end Rehearsal
