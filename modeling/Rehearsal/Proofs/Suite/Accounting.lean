import Mathlib.Data.List.Forall2
import Rehearsal.Proofs.Suite.Lifecycle

namespace Rehearsal

open MonadAttach (CanReturn)

/-! What a report accounts for. Its results are those of the selected scenarios, in order; its
numbers count them, and it is a success when nothing has failed. A scenario is only skipped because
of a failure, so that behind a success every selected scenario has passed. -/

def RunOptions.Selects (options : RunOptions) (s : Scenario) : Prop :=
  ∀ text ∈ options.filter, text.toList <:+: s.name.toList

instance (options : RunOptions) : DecidablePred options.Selects := fun s =>
  inferInstanceAs (Decidable (∀ text ∈ options.filter, text.toList <:+: s.name.toList))

theorem RunOptions.selects_eq (options : RunOptions) (s : Scenario) :
    options.selects s = decide (options.Selects s) := by
  rw [Bool.eq_iff_iff, decide_eq_true_iff]
  unfold selects Selects
  cases options.filter with
  | none => simp
  | some text => simpa using Text.contains_eq_true_iff

theorem Suite.selected_eq {m : Type → Type} (suite : Suite m) (options : RunOptions) :
    suite.selected options = suite.scenarios.filter fun s => options.Selects s := by
  rw [selected, funext options.selects_eq]

/-- The results that a scenario can come to: that of its first steps, or being skipped. -/
inductive ScenarioResult.Accounts (now : Nat) (s : Scenario) : ScenarioResult → Prop where
  | ran {moments : List Moment} (first : moments.map Moment.step <+: s.steps) :
      Accounts now s (Passage.result ⟨s, moments⟩ now)
  | skipped : Accounts now s (.skipped s.name)

namespace SuiteReport

/-- The numbers of a report count its results. -/
structure Counted (report : SuiteReport) : Prop where
  total : report.total = report.scenarios.length
  passed : report.passed = report.scenarios.countP fun result => result.status = .passed
  failed : report.failed = report.scenarios.countP fun result => result.status = .failed
  skipped : report.skipped = report.scenarios.countP fun result => result.status = .skipped

variable {report : SuiteReport}

theorem Counted.isSuccess_iff (counted : report.Counted) :
    report.isSuccess = true ↔ (∀ result ∈ report.scenarios, result.status ≠ .failed) ∧
      report.setupError = none ∧ report.teardownError = none := by
  have noneFailed : report.failed = 0 ↔
      ∀ result ∈ report.scenarios, result.status ≠ .failed := by
    rw [counted.failed, List.countP_eq_zero]
    simp only [decide_eq_true_eq]
  simp only [isSuccess, Bool.and_eq_true, beq_iff_eq, Option.isNone_iff_eq_none, noneFailed,
    and_assoc]

/-- A report by the selected scenarios that were run and those that were skipped because of a
failure. -/
structure Covers (report : SuiteReport) (now : Nat) (selected : List Scenario)
    (passages : List Passage) (skipped : List Scenario) : Prop where
  results : report.scenarios =
    passages.map (fun passage => passage.result now) ++ skipped.map fun s => .skipped s.name
  counted : report.Counted
  order : selected = passages.map Passage.scenario ++ skipped
  first : ∀ passage ∈ passages, passage.moments.map Moment.step <+: passage.scenario.steps
  cause : skipped ≠ [] → report.setupError ≠ none ∨
    ∃ passage ∈ passages, (passage.result now).status = .failed

namespace Covers

variable {now : Nat} {selected skipped : List Scenario} {passages : List Passage}

theorem accounts (covers : report.Covers now selected passages skipped) :
    List.Forall₂ (ScenarioResult.Accounts now) selected report.scenarios := by
  rw [covers.order, covers.results]
  apply List.rel_append
  · rw [List.forall₂_map_left_iff, List.forall₂_map_right_iff, List.forall₂_same]
    exact fun passage member => .ran (covers.first passage member)
  · rw [List.forall₂_map_right_iff, List.forall₂_same]
    exact fun s _ => .skipped

theorem passed_of_isSuccess (covers : report.Covers now selected passages skipped)
    (success : report.isSuccess = true) : ∀ result ∈ report.scenarios, result.status = .passed := by
  obtain ⟨noneFailed, prepared, -⟩ := covers.counted.isSuccess_iff.mp success
  have ran : ∀ passage ∈ passages, (passage.result now).status ≠ .failed := by
    intro passage member
    apply noneFailed
    rw [covers.results]
    exact List.mem_append_left _ (List.mem_map_of_mem member)
  have noneSkipped : skipped = [] := by
    by_contra some
    rcases covers.cause some with unprepared | ⟨passage, member, failed⟩
    · exact unprepared prepared
    · exact ran passage member failed
  rw [covers.results, noneSkipped, List.map_nil, List.append_nil, List.forall_mem_map]
  intro passage member
  by_contra notPassed
  exact ran passage member (Scenario.exists_failure_of_conclude notPassed).1

end Covers

end SuiteReport

variable {m : Type → Type} [Monad m] [MonadAttach m] {chain : Chain m} {now : Nat}

theorem Series.first {policy : FailurePolicy} {before last : Context} {passages : List Passage}
    (series : Series chain now policy before passages last) :
    ∀ passage ∈ passages, passage.moments.map Moment.step <+: passage.scenario.steps := by
  induction series with
  | done context => exact List.forall_mem_nil _
  | further course others ih =>
      obtain ⟨left, steps, -⟩ := course.steps_eq
      exact List.forall_mem_cons.mpr ⟨⟨left, steps.symm⟩, ih⟩

variable {suite : Suite m} {options : RunOptions}

theorem Played.covers {selected skipped : List Scenario} {passages : List Passage}
    {context last : Context}
    (played : Played chain now options selected context passages skipped last)
    (teardownError : Option String) :
    { suite.reportOf now passages skipped with teardownError }.Covers now selected passages
      skipped where
  results := rfl
  counted := ⟨rfl, rfl, rfl, rfl⟩
  order := played.order
  first := played.series.first
  cause some := by
    obtain ⟨-, front, passage, rfl, failed⟩ := played.cut some
    exact .inr ⟨passage, List.mem_concat_self, failed⟩

namespace Suite

namespace Lifecycle

variable {marks : List Mark} {report : SuiteReport}

theorem covers (lifecycle : suite.Lifecycle chain now options marks report) :
    ∃ passages skipped, report.Covers now (suite.selected options) passages skipped := by
  cases lifecycle with
  | unprepared failed =>
      exact ⟨[], suite.selected options, rfl, ⟨rfl, rfl, rfl, rfl⟩, rfl, List.forall_mem_nil _,
        fun _ => .inl (Option.some_ne_none _)⟩
  | leftStanding ready played absent => exact ⟨_, _, played.covers none⟩
  | @tornDown _ _ _ _ _ torn ready played present done =>
      cases torn with
      | error e => exact ⟨_, _, played.covers (some e.message)⟩
      | ok _ => exact ⟨_, _, played.covers none⟩

theorem setupError_eq_none_iff (lifecycle : suite.Lifecycle chain now options marks report) :
    report.setupError = none ↔ ∀ e, .setup (.error e) ∉ marks := by
  cases lifecycle with
  | unprepared failed => simp
  | leftStanding ready played absent => simp [reportOf, SuiteReport.ofResults]
  | @tornDown _ _ _ _ _ torn ready played present done =>
      cases torn with
      | error | ok => simp [Watched.conclude, reportOf, SuiteReport.ofResults]

theorem teardownError_eq_none_iff (lifecycle : suite.Lifecycle chain now options marks report) :
    report.teardownError = none ↔ ∀ context e, .teardown context (.error e) ∉ marks := by
  cases lifecycle with
  | unprepared failed => simp [reportOf, SuiteReport.ofResults]
  | leftStanding ready played absent => simp [reportOf, SuiteReport.ofResults]
  | @tornDown _ _ _ _ _ torn ready played present done =>
      cases torn with
      | error e => simp [Watched.conclude]
      | ok _ => simp [Watched.conclude, reportOf, SuiteReport.ofResults]

end Lifecycle

variable [LawfulMonad m] [LawfulMonadAttach m]

/-- The report of a run has one result for each scenario whose name contains the filter, in order.
Its numbers count them; it is a success iff no result is a failure and neither hook has failed, and
then every selected scenario has passed. -/
theorem report_accounts_for_selected (suite : Suite m) (chain : Chain m) (now : Nat)
    (options : RunOptions) :
    let recorded := ((suite.recorded chain).run chain.recorded now options).run []
    Prod.fst <$> recorded = suite.run chain now options ∧
      ∀ report marks, CanReturn recorded (report, marks) →
        List.Forall₂ (ScenarioResult.Accounts now)
          (suite.scenarios.filter fun s => options.Selects s) report.scenarios ∧
        report.Counted ∧
        (report.isSuccess = true ↔ (∀ result ∈ report.scenarios, result.status ≠ .failed) ∧
          (∀ e, .setup (.error e) ∉ marks) ∧ ∀ context e, .teardown context (.error e) ∉ marks) ∧
        (report.isSuccess = true → ∀ result ∈ report.scenarios, result.status = .passed) := by
  intro recorded
  refine ⟨fst_run_recorded chain now suite options, fun report marks ran => ?_⟩
  have lifecycle := lifecycle_of_run ran
  obtain ⟨passages, skipped, covers⟩ := lifecycle.covers
  have accounts := covers.accounts
  have success := covers.counted.isSuccess_iff
  rw [selected_eq] at accounts
  rw [lifecycle.setupError_eq_none_iff, lifecycle.teardownError_eq_none_iff] at success
  exact ⟨accounts, covers.counted, success, covers.passed_of_isSuccess⟩

def setbacks : Suite Id :=
  ofHooks ⟨"setbacks", none, [], none⟩ [mishaps, ⟨"no steps", none, []⟩, mishaps] none
    (some fun _ _ => .error (.teardown ["left over"]))

theorem report_accounts_for_selected_of_setbacks :
    ∃ report, setbacks.run idle 0 ⟨.continue, true, some "hap"⟩ = report ∧
      List.Forall₂ (ScenarioResult.Accounts 0) [mishaps, mishaps] report.scenarios ∧
      report.scenarios.map ScenarioResult.status = [.failed, .skipped] ∧
      (report.total, report.passed, report.failed, report.skipped) = (2, 0, 1, 1) ∧
      report.isSuccess = false := by
  obtain ⟨same, each⟩ := report_accounts_for_selected setbacks idle 0 ⟨.continue, true, some "hap"⟩
  obtain ⟨accounts, -, -, -⟩ := each _ _ rfl
  have selected : setbacks.selected ⟨.continue, true, some "hap"⟩ = [mishaps, mishaps] := rfl
  rw [selected_eq] at selected
  rw [selected] at accounts
  exact ⟨_, same.symm, accounts, by rfl, by rfl, by rfl⟩

end Suite

end Rehearsal
