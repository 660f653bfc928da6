import Rehearsal.Proofs.Scenario.Policy
import Rehearsal.Proofs.Suite.Lifecycle

namespace Rehearsal

/-! A suite that bails out behind a failed scenario and one that does not. Up to the first failure
they run the same scenarios in the same contexts; behind it the one skips what the other runs, so
that both report on the same scenarios. -/

/-- Results of which those behind the first failed one are replaced by skipped ones. -/
def skipBehindFailure : List ScenarioResult → List ScenarioResult
  | [] => []
  | result :: rest =>
      if result.status = .failed then result :: rest.map fun other => .skipped other.name
      else result :: skipBehindFailure rest

theorem skipBehindFailure_append {front back : List ScenarioResult} {result : ScenarioResult}
    (passed : ∀ earlier ∈ front, earlier.status ≠ .failed) (failed : result.status = .failed) :
    skipBehindFailure (front ++ result :: back) =
      front ++ result :: back.map fun other => .skipped other.name := by
  induction front with
  | nil => rw [List.nil_append, skipBehindFailure, if_pos failed, List.nil_append]
  | cons head front ih =>
      obtain ⟨first, others⟩ := List.forall_mem_cons.mp passed
      rw [List.cons_append, skipBehindFailure, if_neg first, ih others, List.cons_append]

theorem names_skipBehindFailure (results : List ScenarioResult) :
    (skipBehindFailure results).map ScenarioResult.name = results.map ScenarioResult.name := by
  induction results with
  | nil => rfl
  | cons result rest ih =>
      rw [skipBehindFailure]
      split
      · simp [ScenarioResult.skipped]
      · rw [List.map_cons, ih, List.map_cons]

theorem Scenario.status_conclude_ne_skipped (s : Scenario) (results : List StepResult) :
    (s.conclude results).status ≠ .skipped := by
  unfold conclude
  cases results.findSome? StepResult.failure with
  | none => simp
  | some failure => simp

namespace SuiteReport

theorem scenarios_foldl_push (results : List ScenarioResult) (report : SuiteReport) :
    (results.foldl push report).scenarios = report.scenarios ++ results := by
  rw [foldl_push]

theorem setupError_foldl_push (results : List ScenarioResult) (report : SuiteReport) :
    (results.foldl push report).setupError = report.setupError := by
  rw [foldl_push]

theorem scenarios_conclude (report : SuiteReport) (torn : Except RunError Unit) :
    (Watched.conclude report torn).scenarios = report.scenarios := by
  cases torn with
  | error e => rfl
  | ok _ => rfl

end SuiteReport

namespace Suite

variable {σ : Type} (chain : Chain (StateM σ)) (now : Nat) (options : RunOptions)

theorem run_runScenarios_cons (s : Scenario) (rest : List Scenario) (report : SuiteReport)
    (context : Context) (state : σ) :
    (runScenarios chain now options (s :: rest) report context).run state =
      let ran := (s.run chain now options.policy context).run state
      if options.bail && ran.1.1.status == .failed then
        ((skipAll (report.push ran.1.1) rest, ran.1.2), ran.2)
      else (runScenarios chain now options rest (report.push ran.1.1) ran.1.2).run ran.2 := by
  simp only [runScenarios, StateT.run_bind]
  change StateT.run (if _ then _ else _) _ = _
  split
  · rfl
  · rfl

theorem run_runScenarios_bail (scenarios : List Scenario) (report : SuiteReport)
    (context : Context) (state : σ) :
    let full := (runScenarios chain now { options with bail := false } scenarios report context).run
      state
    let cut := (runScenarios chain now { options with bail := true } scenarios report context).run
      state
    ∃ results, full.1.1 = results.foldl SuiteReport.push report ∧
      results.map ScenarioResult.name = scenarios.map Scenario.name ∧
      (∀ result ∈ results, result.status ≠ .skipped) ∧
      cut.1.1 = (skipBehindFailure results).foldl SuiteReport.push report ∧
      ((∀ result ∈ results, result.status ≠ .failed) → cut = full) := by
  induction scenarios generalizing report context state with
  | nil => exact ⟨[], rfl, rfl, List.forall_mem_nil _, rfl, fun _ => rfl⟩
  | cons s rest ih =>
      let ran := (s.run chain now options.policy context).run state
      obtain ⟨results, full, names, run, cut, same⟩ := ih (report.push ran.1.1) ran.1.2 ran.2
      have name : ran.1.1.name = s.name := rfl
      have notSkipped : ran.1.1.status ≠ .skipped := s.status_conclude_ne_skipped _
      refine ⟨ran.1.1 :: results, ?_, ?_, List.forall_mem_cons.mpr ⟨notSkipped, run⟩, ?_, ?_⟩
      · rw [run_runScenarios_cons]
        exact full
      · rw [List.map_cons, List.map_cons, names, name]
      · rw [run_runScenarios_cons, skipBehindFailure]
        by_cases failed : ran.1.1.status = .failed
        · -- The others are skipped by the names of their scenarios, which are those of the results.
          have skipped : (rest.map fun s => ScenarioResult.skipped s.name) =
              results.map fun other => .skipped other.name := by
            simpa [Function.comp_def] using (congrArg (List.map ScenarioResult.skipped) names).symm
          have bails : (true && ran.1.1.status == .failed) = true := by simp [failed]
          simp only
          rw [if_pos bails, if_pos failed, List.foldl_cons, ← skipped]
          exact skipAll_eq_foldl _ _
        · have goesOn : ¬(true && ran.1.1.status == .failed) = true := by simp [failed]
          simp only
          rw [if_neg goesOn, if_neg failed]
          exact cut
      · intro passed
        obtain ⟨first, others⟩ := List.forall_mem_cons.mp passed
        have goesOn : ¬(true && ran.1.1.status == .failed) = true := by simpa using first
        rw [run_runScenarios_cons, run_runScenarios_cons]
        simp only
        rw [if_neg goesOn]
        exact same others

theorem run_run_of_setup {suite : Suite (StateM σ)} {state next : σ} {context : Context}
    (ready : (suite.setup chain).run state = (.ok context, next)) :
    (suite.run chain now options).run state =
      let ran := (runScenarios chain now options (suite.selected options)
        (.empty suite.metadata.name) context).run next
      (Watched.conclude ran.1.1 <$> suite.watchTeardown chain ran.1.2).run ran.2 := by
  simp only [run, finish_eq_watchTeardown]
  rw [StateT.run_bind, ready]
  rfl

theorem scenarios_run_of_setup {suite : Suite (StateM σ)} {state next : σ} {context : Context}
    (ready : (suite.setup chain).run state = (.ok context, next)) :
    ((suite.run chain now options).run state).1.scenarios =
      ((runScenarios chain now options (suite.selected options) (.empty suite.metadata.name)
        context).run next).1.1.scenarios := by
  rw [run_run_of_setup chain now options ready]
  exact SuiteReport.scenarios_conclude _ _

theorem setupError_run_of_setup {suite : Suite (StateM σ)} {state next : σ} {e : RunError}
    (failed : (suite.setup chain).run state = (.error e, next)) :
    ((suite.run chain now options).run state).1.setupError = some e.message := by
  rw [run, StateT.run_bind, failed]
  change (skipAll _ _).setupError = _
  rw [skipAll_eq_foldl, SuiteReport.setupError_foldl_push]

/-- Bailing out only cuts the tail: behind the first failed scenario it skips what is run without
it, and up to there, or without a failed scenario, the runs are the same. -/
theorem bail_cuts_tail (suite : Suite (StateM σ)) (state : σ) :
    let full := (suite.run chain now { options with bail := false }).run state
    let cut := (suite.run chain now { options with bail := true }).run state
    full.1.setupError = none →
      cut.1.scenarios.map ScenarioResult.name = full.1.scenarios.map ScenarioResult.name ∧
      (∀ front failed back, full.1.scenarios = front ++ failed :: back →
        (∀ result ∈ front, result.status ≠ .failed) → failed.status = .failed →
        ∃ skipped, cut.1.scenarios = front ++ failed :: skipped ∧
          ∀ result ∈ skipped, result.status = .skipped ∧ result.steps = []) ∧
      ((∀ result ∈ full.1.scenarios, result.status ≠ .failed) → cut = full) ∧
      ∀ result ∈ full.1.scenarios, result.status ≠ .skipped := by
  intro full cut prepared
  rcases setup : (suite.setup chain).run state with ⟨result, next⟩
  cases result with
  | error e =>
      rw [setupError_run_of_setup chain now _ setup] at prepared
      contradiction
  | ok context =>
      obtain ⟨results, fullRan, -, run, cutRan, same⟩ := run_runScenarios_bail chain now options
        (suite.selected options) (.empty suite.metadata.name) context next
      have fullScenarios : full.1.scenarios = results :=
        (scenarios_run_of_setup chain now _ setup).trans
          ((congrArg SuiteReport.scenarios fullRan).trans (SuiteReport.scenarios_foldl_push _ _))
      have cutScenarios : cut.1.scenarios = skipBehindFailure results :=
        (scenarios_run_of_setup chain now _ setup).trans
          ((congrArg SuiteReport.scenarios cutRan).trans (SuiteReport.scenarios_foldl_push _ _))
      rw [fullScenarios, cutScenarios]
      refine ⟨names_skipBehindFailure results, ?_, fun passed => ?_, run⟩
      · rintro front failed back rfl passed fails
        refine ⟨_, skipBehindFailure_append passed fails, fun result member => ?_⟩
        obtain ⟨other, -, rfl⟩ := List.mem_map.mp member
        exact ⟨rfl, rfl⟩
      · have torn := congrArg (fun ran : (SuiteReport × Context) × σ =>
          (Watched.conclude ran.1.1 <$> suite.watchTeardown chain ran.1.2).run ran.2) (same passed)
        exact (run_run_of_setup chain now _ setup).trans
          (torn.trans (run_run_of_setup chain now _ setup).symm)

def repeated : Suite (StateM Nat) :=
  ofHooks ⟨"repeated", none, [], none⟩ [mishaps, mishaps] none none

theorem bail_cuts_tail_of_repeated :
    let full := (repeated.run Scenario.refusing 0 ⟨.abort, false, none⟩).run 0
    let cut := (repeated.run Scenario.refusing 0 ⟨.abort, true, none⟩).run 0
    full.1.setupError = none ∧
      full.1.scenarios.map ScenarioResult.status = [.failed, .failed] ∧
      ∃ failed skipped, full.1.scenarios.head? = some failed ∧ cut.1.scenarios = failed :: skipped ∧
        ∀ result ∈ skipped, result.status = .skipped ∧ result.steps = [] := by
  intro full cut
  have cuts := bail_cuts_tail Scenario.refusing 0 ⟨.abort, false, none⟩ repeated 0 rfl
  obtain ⟨skipped, told, each⟩ := cuts.2.1 [] _ _ rfl (List.forall_mem_nil _) rfl
  exact ⟨rfl, rfl, _, skipped, rfl, told, each⟩

end Suite

end Rehearsal
