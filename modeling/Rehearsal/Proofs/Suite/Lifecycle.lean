import Rehearsal.Proofs.Scenario.Course

namespace Rehearsal

open MonadAttach (CanReturn)
open LawfulMonadAttach (canReturn_bind_imp' eq_of_canReturn_pure)

/-! The life of a suite. It is set up once, before anything else. If that fails nothing follows;
otherwise its scenarios are run one after the other, each in the context that the one before it
left, and then it is torn down once, whatever has become of them. -/

namespace SuiteReport

def ofResults (suiteName : String) (results : List ScenarioResult) : SuiteReport where
  suiteName := suiteName
  total := results.length
  passed := results.countP fun result => result.status = .passed
  failed := results.countP fun result => result.status = .failed
  skipped := results.countP fun result => result.status = .skipped
  setupError := none
  teardownError := none
  duration := 0
  scenarios := results

theorem foldl_push (results : List ScenarioResult) (report : SuiteReport) :
    results.foldl push report =
      { report with
        total := report.total + results.length
        passed := report.passed + results.countP fun result => result.status = .passed
        failed := report.failed + results.countP fun result => result.status = .failed
        skipped := report.skipped + results.countP fun result => result.status = .skipped
        scenarios := report.scenarios ++ results } := by
  induction results generalizing report with
  | nil => simp
  | cons result rest ih =>
      rw [List.foldl_cons, ih]
      simp only [push, List.countP_cons, List.length_cons, decide_eq_true_eq, mk.injEq,
        List.append_assoc, List.singleton_append, true_and, and_true]
      omega

theorem foldl_push_empty (suiteName : String) (setupError : Option String)
    (results : List ScenarioResult) :
    results.foldl push { empty suiteName with setupError } =
      { ofResults suiteName results with setupError } := by
  rw [foldl_push]
  simp [empty, ofResults]

end SuiteReport

variable {m : Type → Type}

namespace Suite

def reportOf (suite : Suite m) (now : Nat) (passages : List Passage) (skipped : List Scenario) :
    SuiteReport :=
  .ofResults suite.metadata.name
    (passages.map (fun passage => passage.result now) ++ skipped.map fun s => .skipped s.name)

theorem skipAll_eq_foldl (report : SuiteReport) (scenarios : List Scenario) :
    skipAll report scenarios =
      (scenarios.map fun s => ScenarioResult.skipped s.name).foldl SuiteReport.push report := by
  rw [skipAll, List.foldl_map]

theorem skipAll_empty (suite : Suite m) (now : Nat) (setupError : Option String)
    (scenarios : List Scenario) :
    skipAll { SuiteReport.empty suite.metadata.name with setupError } scenarios =
      { suite.reportOf now [] scenarios with setupError } := by
  rw [skipAll_eq_foldl, SuiteReport.foldl_push_empty]
  rfl

theorem skipAll_pushAll (suite : Suite m) (now : Nat) (passages : List Passage)
    (skipped : List Scenario) :
    skipAll (Watched.pushAll now (SuiteReport.empty suite.metadata.name) passages) skipped =
      suite.reportOf now passages skipped := by
  have pushed : Watched.pushAll now (SuiteReport.empty suite.metadata.name) passages =
      (passages.map fun passage => passage.result now).foldl SuiteReport.push
        (SuiteReport.empty suite.metadata.name) := by
    rw [Watched.pushAll, List.foldl_map]
  rw [skipAll_eq_foldl, pushed, ← List.foldl_append]
  exact SuiteReport.foldl_push_empty suite.metadata.name none _

variable [Monad m]

/-- A suite by its hooks. Without a setup, the accounts of the chain are all that is set up. -/
def ofHooks (metadata : SuiteMetadata) (scenarios : List Scenario)
    (setup : Option (Chain m → m (Except RunError Context)))
    (teardown : Option (Chain m → Context → m (Except RunError Unit))) : Suite m where
  metadata := metadata
  scenarios := scenarios
  setup := setup.getD Setup.accounts
  teardown := teardown

theorem ofDefinition_eq_ofHooks (definition : SuiteDefinition) (store : Option Store)
    (network : String) (now : Nat) :
    (ofDefinition definition store network now : Suite m) =
      ofHooks definition.metadata definition.scenarios
        (definition.setup.map fun plan => Setup.declared plan store network now)
        (definition.teardown.map fun steps => Teardown.declared steps now) := by
  unfold ofDefinition ofHooks
  cases definition.setup with
  | none => rfl
  | some plan => rfl

end Suite

/-! The scenarios of a suite, of which each is run in the context that the one before it left. -/

variable [Monad m] [MonadAttach m]

inductive Series (chain : Chain m) (now : Nat) (policy : FailurePolicy) :
    Context → List Passage → Context → Prop where
  | done (context : Context) : Series chain now policy context [] context
  | further {s : Scenario} {moments : List Moment} {passages : List Passage}
      {before after last : Context}
      (course : Course chain now policy 0 s.steps before moments after)
      (others : Series chain now policy after passages last) :
      Series chain now policy before (⟨s, moments⟩ :: passages) last

/-- The first of the scenarios are run, and the others skipped behind one that failed if that is
what the options ask for. -/
structure Played (chain : Chain m) (now : Nat) (options : RunOptions) (scenarios : List Scenario)
    (before : Context) (passages : List Passage) (skipped : List Scenario) (last : Context) :
    Prop where
  order : scenarios = passages.map Passage.scenario ++ skipped
  series : Series chain now options.policy before passages last
  cut : skipped ≠ [] → options.bail = true ∧ ∃ front passage,
    passages = front ++ [passage] ∧ (passage.result now).status = .failed
  bails : options.bail = true → ∀ front passage back, passages = front ++ passage :: back →
    (passage.result now).status = .failed → back = []

variable {chain : Chain m} {now : Nat} {options : RunOptions}

namespace Played

variable {s : Scenario} {rest : List Scenario} {moments : List Moment}
  {before after : Context}

theorem stopped (course : Course chain now options.policy 0 s.steps before moments after)
    (bail : options.bail = true) (failed : (Passage.result ⟨s, moments⟩ now).status = .failed) :
    Played chain now options (s :: rest) before [⟨s, moments⟩] rest after where
  order := rfl
  series := .further course (.done after)
  cut _ := ⟨bail, [], _, rfl, failed⟩
  bails _ front passage back split _ := by
    cases front with
    | nil =>
        cases split
        rfl
    | cons head front => simp at split

theorem further {passages : List Passage} {skipped : List Scenario} {last : Context}
    (course : Course chain now options.policy 0 s.steps before moments after)
    (goesOn : ¬(options.bail = true ∧ (Passage.result ⟨s, moments⟩ now).status = .failed))
    (others : Played chain now options rest after passages skipped last) :
    Played chain now options (s :: rest) before (⟨s, moments⟩ :: passages) skipped last where
  order := congrArg (s :: ·) others.order
  series := .further course others.series
  cut some := by
    obtain ⟨bail, front, passage, ends, failed⟩ := others.cut some
    exact ⟨bail, _ :: front, passage, congrArg _ ends, failed⟩
  bails bail front passage back split failed := by
    cases front with
    | nil =>
        cases split
        exact absurd ⟨bail, failed⟩ goesOn
    | cons head front =>
        obtain ⟨-, split⟩ := List.cons.inj split
        exact others.bails bail front passage back split failed

end Played

theorem played_of_watchScenarios [LawfulMonad m] [LawfulMonadAttach m] {scenarios : List Scenario}
    {before last : Context} {passages : List Passage} {skipped : List Scenario}
    (ran : CanReturn (Suite.watchScenarios chain now options scenarios before)
      (passages, skipped, last)) :
    Played chain now options scenarios before passages skipped last := by
  induction scenarios generalizing before passages with
  | nil =>
      cases eq_of_canReturn_pure ran
      exact ⟨rfl, .done _, fun some => absurd rfl some, by simp⟩
  | cons s rest ih =>
      obtain ⟨⟨passage, after⟩, watched, goes⟩ := canReturn_bind_imp' ran
      obtain ⟨rfl, course⟩ := course_of_watch watched
      simp only at goes
      split at goes
      · next bails =>
        cases eq_of_canReturn_pure goes
        rw [Bool.and_eq_true, beq_iff_eq] at bails
        exact .stopped course bails.1 bails.2
      · next goesOn =>
        obtain ⟨⟨others, left, final⟩, othersRan, returned⟩ := canReturn_bind_imp' goes
        cases eq_of_canReturn_pure returned
        rw [Bool.and_eq_true, beq_iff_eq] at goesOn
        exact .further course goesOn (ih othersRan)

namespace Suite

/-- A run of a suite by the marks that it leaves and the report that it comes to. -/
inductive Lifecycle (suite : Suite m) (chain : Chain m) (now : Nat) (options : RunOptions) :
    List Mark → SuiteReport → Prop where
  | unprepared {e : RunError} (failed : CanReturn (suite.setup chain) (.error e)) :
      Lifecycle suite chain now options [.setup (.error e)]
        { suite.reportOf now [] (suite.selected options) with setupError := some e.message }
  | leftStanding {context last : Context} {passages : List Passage} {skipped : List Scenario}
      (ready : CanReturn (suite.setup chain) (.ok context))
      (played : Played chain now options (suite.selected options) context passages skipped last)
      (absent : suite.teardown = none) :
      Lifecycle suite chain now options
        (.setup (.ok context) :: (passages.flatMap fun passage => passage.asks now).map .asked)
        (suite.reportOf now passages skipped)
  | tornDown {context last : Context} {passages : List Passage} {skipped : List Scenario}
      {teardown : Chain m → Context → m (Except RunError Unit)} {torn : Except RunError Unit}
      (ready : CanReturn (suite.setup chain) (.ok context))
      (played : Played chain now options (suite.selected options) context passages skipped last)
      (present : suite.teardown = some teardown)
      (done : CanReturn (teardown chain last) torn) :
      Lifecycle suite chain now options
        (.setup (.ok context) :: (passages.flatMap fun passage => passage.asks now).map .asked ++
          [.teardown last torn])
        (Watched.conclude (suite.reportOf now passages skipped) torn)

variable [LawfulMonad m] [LawfulMonadAttach m]

theorem lifecycle_of_run {suite : Suite m} {marks : List Mark} {report : SuiteReport}
    (ran : CanReturn (((suite.recorded chain).run chain.recorded now options).run [])
      (report, marks)) : suite.Lifecycle chain now options marks report := by
  rw [run_recorded] at ran
  obtain ⟨setup, ready, ran⟩ := canReturn_bind_imp' ran
  cases setup with
  | error e =>
      cases eq_of_canReturn_pure ran
      rw [skipAll_empty suite now]
      exact .unprepared ready
  | ok context =>
      obtain ⟨⟨passages, skipped, last⟩, watched, ran⟩ := canReturn_bind_imp' ran
      obtain ⟨torn, done, returned⟩ := canReturn_bind_imp' ran
      cases eq_of_canReturn_pure returned
      have played := played_of_watchScenarios watched
      rw [skipAll_pushAll]
      unfold watchTeardown at done
      unfold teardownMarks
      cases hook : suite.teardown with
      | none =>
          simp only [hook] at done
          cases eq_of_canReturn_pure done
          rw [List.append_nil]
          exact .leftStanding ready played hook
      | some teardown =>
          simp only [hook] at done
          exact .tornDown ready played hook done

/-- Every run of a suite leaves the marks of a lifecycle and comes to its report, and leaving marks
changes nothing about the run. -/
theorem run_lifecycle (metadata : SuiteMetadata) (scenarios : List Scenario)
    (setup : Option (Chain m → m (Except RunError Context)))
    (teardown : Option (Chain m → Context → m (Except RunError Unit))) (chain : Chain m) (now : Nat)
    (options : RunOptions) :
    let suite := ofHooks metadata scenarios setup teardown
    let recorded := ((suite.recorded chain).run chain.recorded now options).run []
    Prod.fst <$> recorded = suite.run chain now options ∧
      ∀ report marks, CanReturn recorded (report, marks) →
        suite.Lifecycle chain now options marks report := by
  intro suite recorded
  exact ⟨fst_run_recorded chain now suite options, fun report marks ran => lifecycle_of_run ran⟩

def misfortune : Suite Id :=
  ofHooks ⟨"misfortune", none, [], none⟩ [mishaps, mishaps] none
    (some fun _ _ => .error (.teardown ["left over"]))

theorem run_lifecycle_of_misfortune :
    ∃ report marks, misfortune.Lifecycle idle 0 ⟨.abort, true, none⟩ marks report ∧
      misfortune.run idle 0 ⟨.abort, true, none⟩ = report ∧
      marks.length = 4 ∧
      (report.failed, report.skipped, report.teardownError.isSome) = (1, 1, true) := by
  obtain ⟨same, each⟩ := run_lifecycle misfortune.metadata misfortune.scenarios none
    misfortune.teardown idle 0 ⟨.abort, true, none⟩
  exact ⟨_, _, each _ _ rfl, same.symm, by rfl, by rfl⟩

end Suite

end Rehearsal
