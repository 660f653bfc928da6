import Rehearsal.Proofs.Chain.Answers
import Rehearsal.Proofs.Report.Numbers
import Rehearsal.Proofs.Scenario.Emission
import Rehearsal.Proofs.Suite.Growth

namespace Rehearsal

open MonadAttach (CanReturn)
open LawfulMonadAttach (canReturn_bind_imp' canReturn_map_imp' eq_of_canReturn_pure)

/-! Reports of runs are read back from their texts, except that a null that a step returned is
lost. What a chain answers calls with has to be ordered, as the reader brings the names in every
object into order, and its numbers have to be legible; the arguments of events are both, since they
are decoded. -/

section

variable {m : Type → Type} [MonadAttach m] {chain : Chain m}

structure EmittedEvent.Decoded (e : EmittedEvent) : Prop where
  ascending : Json.Mapping.Ascending e.args
  plain : ∀ entry ∈ e.args, entry.2.Plain

/-- The value of the outcome is a text or an answer of the chain to a call, and its events are
decoded. -/
structure Outcome.GivenBy (chain : Chain m) (o : Outcome) : Prop where
  value : ∀ value, o.returnValue = some value → (∃ text, value = .string text) ∨
    ∃ handle f args options, CanReturn (chain.call handle f args options) (.ok value)
  events : ∀ e ∈ o.emittedEvents, e.Decoded

namespace Outcome.GivenBy

variable {o : Outcome}

theorem ordered (given : o.GivenBy chain) (answers : chain.AnswersOrdered) : o.Ordered where
  value value returned := by
    rcases given.value value returned with ⟨text, rfl⟩ | ⟨handle, f, args, options, answered⟩
    · exact trivial
    · exact answers _ _ _ _ _ answered
  events e member := by
    obtain ⟨ascending, plain⟩ := given.events e member
    exact Json.ordered_object.mpr ⟨ascending, fun entry inside => (plain entry inside).ordered⟩

theorem legible_value (given : o.GivenBy chain) (answers : chain.AnswersLegible) :
    ∀ value, o.returnValue = some value → value.Legible := by
  intro value returned
  rcases given.value value returned with ⟨text, rfl⟩ | ⟨handle, f, args, options, answered⟩
  · exact trivial
  · exact answers _ _ _ _ _ answered

theorem legible (given : o.GivenBy chain)
    (value : ∀ value, o.returnValue = some value → value.Legible) : o.Legible where
  value := value
  events e member entry inside := ((given.events e member).plain entry inside).legible

theorem failed (reason : String) : (Outcome.failed reason).GivenBy chain where
  value _ returned := by cases returned
  events _ member := by cases member

theorem withReceipt (given : o.GivenBy chain) (receipt : Receipt) :
    (o.withReceipt receipt).GivenBy chain :=
  ⟨given.value, given.events⟩

end Outcome.GivenBy

namespace Execution

theorem decoded_of_eventOf? {context : Context} {log : Abi.Log} {event : EmittedEvent}
    (shown : eventOf? context log = some event) : event.Decoded := by
  obtain ⟨handle, e, decoded, -, read, rfl⟩ := eventOf?_eq_some.mp shown
  obtain ⟨ascending, plain⟩ := Json.Mapping.ofList_spec (Abi.Event.plain_decodeLog read)
  exact ⟨ascending, plain⟩

theorem decoded_eventsOf (context : Context) (logs : List Abi.Log) :
    ∀ event ∈ eventsOf context logs, event.Decoded := by
  intro event member
  obtain ⟨log, -, shown⟩ := List.mem_filterMap.mp member
  exact decoded_of_eventOf? shown

theorem givenBy_deployed (context : Context) (name : String)
    (answer : Except ChainError Deployment) : (deployed context name answer).1.GivenBy chain := by
  cases answer with
  | error e => exact .failed _
  | ok deployment =>
      obtain ⟨handle, receipt⟩ := deployment
      cases receipt with
      | none =>
          refine ⟨?_, fun _ member => absurd member List.not_mem_nil⟩
          rintro value ⟨⟩
          exact .inl ⟨_, rfl⟩
      | some receipt =>
          refine ⟨?_, decoded_eventsOf _ receipt.logs⟩
          rintro value ⟨⟩
          exact .inl ⟨_, rfl⟩

theorem givenBy_called {answer : Except ChainError Json} {handle : Handle} {f : Abi.Function}
    {args : List Json} {options : CallOptions}
    (answered : CanReturn (chain.call handle f args options) answer) :
    (called handle answer).GivenBy chain := by
  cases answer with
  | error e => exact .failed _
  | ok value =>
      refine ⟨?_, fun _ member => absurd member List.not_mem_nil⟩
      rintro other ⟨⟩
      exact .inr ⟨_, _, _, _, answered⟩

theorem givenBy_sent (context : Context) (handle : Handle) (answer : Except ChainError Receipt) :
    (sent context handle answer).GivenBy chain := by
  cases answer with
  | error e => exact .failed _
  | ok receipt =>
      unfold sent
      simp only
      split
      · exact .withReceipt (.failed _) receipt
      · refine ⟨?_, decoded_eventsOf context receipt.logs⟩
        rintro value ⟨⟩

theorem returnValue_deployed_ne_null (context : Context) (name : String)
    (answer : Except ChainError Deployment) :
    (deployed context name answer).1.returnValue ≠ some .null := by
  cases answer with
  | error e => simp [deployed, Outcome.failed, Outcome.success]
  | ok deployment =>
      obtain ⟨handle, receipt⟩ := deployment
      cases receipt with
      | none => simp [deployed]
      | some receipt => simp [deployed, Outcome.withReceipt]

theorem returnValue_sent (context : Context) (handle : Handle)
    (answer : Except ChainError Receipt) : (sent context handle answer).returnValue = none := by
  cases answer with
  | error e => rfl
  | ok receipt =>
      unfold sent
      simp only
      split
      · rfl
      · rfl

end Execution

end

variable {m : Type → Type} [Monad m] [MonadAttach m] {chain : Chain m} {now : Nat}

theorem Trail.on_of_mem {before last : Context} {moments : List Moment}
    (trail : Trail chain now before moments last) : ∀ moment ∈ moments, moment.On chain now := by
  induction trail with
  | done context =>
      intro moment member
      cases member
  | further on others ih => exact List.forall_mem_cons.mpr ⟨on, ih⟩

variable [LawfulMonad m] [LawfulMonadAttach m]

theorem Step.called_of_execute {s : Step} {context after : Context}
    {executed : Except RunError Execution} {handle : Handle} {f : Abi.Function} {args : List Json}
    {options : CallOptions} (planned : s.plan context now = .ok (.call handle f args options))
    (reads : f.isReadOnly = true)
    (ran : CanReturn (s.execute chain now context) (executed, after)) :
    ∃ answer, CanReturn (chain.call handle f args options) answer ∧
      executed = .ok ⟨Execution.called handle answer, options.sender⟩ := by
  obtain ⟨outcome, performed, rfl⟩ := Step.performed_of_execute planned ran
  simp only [Execution.perform, reads, if_true] at performed
  obtain ⟨answer, given, told⟩ := canReturn_bind_imp' performed
  cases eq_of_canReturn_pure told
  exact ⟨answer, given, rfl⟩

theorem Moment.On.outcome_givenBy {moment : Moment} (on : moment.On chain now) :
    ∀ o, (moment.result now).outcome = some o → o.GivenBy chain := by
  obtain ⟨index, step, before, executed, after⟩ := moment
  have ends : step.Ends before now executed after := on.ends
  intro o reached
  cases ends with
  | refused planned => cases reached
  | deployed planned answer =>
      cases reached
      exact Execution.givenBy_deployed before _ answer
  | called planned reads answer =>
      obtain ⟨given, answered, told⟩ := Step.called_of_execute planned reads on
      obtain ⟨same, -⟩ := Execution.mk.inj (Except.ok.inj told)
      cases reached
      rw [same]
      exact Execution.givenBy_called answered
  | sent planned writes answer =>
      cases reached
      exact Execution.givenBy_sent before _ answer

/-- On a chain that decodes its answers, the steps that return null are the calls that succeed of
functions that only read and have no outputs. -/
theorem Moment.On.returns_null_iff {moment : Moment} (on : moment.On chain now)
    (decoded : chain.AnswersDecoded) :
    (∃ o, (moment.result now).outcome = some o ∧ o.returnValue = some .null) ↔
      ∃ handle f args options,
        moment.step.plan moment.before now = .ok (.call handle f args options) ∧
          f.isReadOnly = true ∧ f.outputs = [] ∧
          ∃ o, (moment.result now).outcome = some o ∧ o.succeeded = true := by
  obtain ⟨index, step, before, executed, after⟩ := moment
  have ends : step.Ends before now executed after := on.ends
  cases ends with
  | refused planned => simp [Moment.result, Step.result]
  | deployed planned answer =>
      simp [Moment.result, Step.result, planned, Execution.returnValue_deployed_ne_null]
  | @called handle f args options planned reads answer =>
      obtain ⟨given, answered, told⟩ := Step.called_of_execute planned reads on
      obtain ⟨same, -⟩ := Execution.mk.inj (Except.ok.inj told)
      rw [same]
      cases given with
      | error e =>
          simp [Moment.result, Step.result, Execution.called, Outcome.failed, Outcome.success]
      | ok value =>
          have null := decoded.null_iff answered
          simp [Moment.result, Step.result, planned, reads, Execution.called, Outcome.success, null]
  | sent planned writes answer =>
      simp [Moment.result, Step.result, planned, writes, Execution.returnValue_sent]

namespace Suite

variable {suite : Suite m} {options : RunOptions} {report : SuiteReport}

theorem outcome_givenBy_reportOf (suite : Suite m) {passages : List Passage}
    {skipped : List Scenario} {before last : Context} {policy : FailurePolicy}
    (series : Series chain now policy before passages last) :
    ∀ o ∈ (suite.reportOf now passages skipped).outcomes, o.GivenBy chain := by
  intro o member
  obtain ⟨result, inside, step, stepped, reached⟩ := SuiteReport.mem_outcomes.mp member
  rcases List.mem_append.mp inside with ran | left
  · obtain ⟨passage, played, rfl⟩ := List.mem_map.mp ran
    obtain ⟨moment, among, rfl⟩ := List.mem_map.mp stepped
    have on := series.trail.on_of_mem moment (List.mem_flatMap.mpr ⟨passage, played, among⟩)
    exact on.outcome_givenBy o reached
  · obtain ⟨s, -, rfl⟩ := List.mem_map.mp left
    cases stepped

theorem outcomes_conclude (report : SuiteReport) (torn : Except RunError Unit) :
    (Watched.conclude report torn).outcomes = report.outcomes := by
  cases torn with
  | ok => rfl
  | error e => rfl

theorem Lifecycle.outcome_givenBy {marks : List Mark}
    (lifecycle : suite.Lifecycle chain now options marks report) :
    ∀ o ∈ report.outcomes, o.GivenBy chain := by
  cases lifecycle with
  | unprepared failed =>
      have none : Series chain now options.policy .empty [] .empty := .done _
      exact outcome_givenBy_reportOf suite none
  | leftStanding ready played absent => exact outcome_givenBy_reportOf suite played.series
  | tornDown ready played present done =>
      rw [outcomes_conclude]
      exact outcome_givenBy_reportOf suite played.series

theorem outcome_givenBy_of_run (ran : CanReturn (suite.run chain now options) report) :
    ∀ o ∈ report.outcomes, o.GivenBy chain := by
  rw [← fst_run_recorded] at ran
  obtain ⟨⟨told, marks⟩, recorded, rfl⟩ := canReturn_map_imp' ran
  exact (lifecycle_of_run recorded).outcome_givenBy

theorem ofText_of_run {timed : SuiteReport} (ran : CanReturn (suite.run chain now options) report)
    (answers : chain.AnswersOrdered) (legible : chain.AnswersLegible ∨ report.ValuesLegible)
    (same : timed.untimed = report.untimed) (fits : timed.FitsWords) :
    SuiteReport.ofText timed.text =
      if timed.toJson.depth ≤ Json.depthLimit then .ok timed.withoutNull else .error .malformed := by
  have outcomes : timed.outcomes = report.outcomes := by
    rw [← timed.outcomes_untimed, same, report.outcomes_untimed]
  have given : ∀ o ∈ timed.outcomes, o.GivenBy chain := outcomes ▸ outcome_givenBy_of_run ran
  have values : timed.ValuesLegible := by
    rcases legible with always | here
    · exact fun o member => (given o member).legible_value always
    · exact fun o member => here o (outcomes ▸ member)
  have ordered : timed.Ordered :=
    SuiteReport.ordered_of_outcomes fun o member => (given o member).ordered answers
  have written : timed.toJson.Legible :=
    SuiteReport.legible_toJson fits fun o member => (given o member).legible (values o member)
  exact SuiteReport.ofText_text ordered written

/-- The text of a report is read as the report itself if it does not nest too deep and no step
returned null. Too deep a report is refused, and a null that a step returned is lost. This holds
whatever durations a clock gives to the report of a run. The simulated chain and the one behind a
node answer in order and with no numbers at all, as they decode their answers; of another chain it is
enough that the numbers it answered with are legible. -/
theorem report_reads_back (suite : Suite m) (options : RunOptions) (report timed : SuiteReport)
    (ran : CanReturn (suite.run chain now options) report) (answers : chain.AnswersOrdered)
    (legible : chain.AnswersLegible ∨ report.ValuesLegible)
    (same : timed.untimed = report.untimed) (fits : timed.FitsWords) :
    (SuiteReport.ofText timed.text = .ok timed ↔ timed.toJson.depth ≤ Json.depthLimit ∧
      ∀ outcome ∈ timed.outcomes, outcome.returnValue ≠ some .null) ∧
    (timed.toJson.depth ≤ Json.depthLimit →
      SuiteReport.ofText timed.text = .ok timed.withoutNull) ∧
    (Json.depthLimit < timed.toJson.depth →
      SuiteReport.ofText timed.text = .error .malformed) := by
  have read := ofText_of_run ran answers legible same fits
  by_cases shallow : timed.toJson.depth ≤ Json.depthLimit
  · rw [if_pos shallow] at read
    rw [read, Except.ok.injEq, SuiteReport.withoutNull_eq_self]
    exact ⟨(and_iff_right shallow).symm, fun _ => rfl, fun deep => absurd shallow (not_le.mpr deep)⟩
  · rw [if_neg shallow] at read
    rw [read]
    exact ⟨by simp [shallow], fun flat => absurd flat shallow, fun _ => rfl⟩

def answering (value : Json) : Chain Id where
  signers := .ok [.ofLow 1]
  deploy artifact _ _ := .ok ⟨⟨artifact, .zero, ⟨[.function ⟨"level", [], [], .view, none⟩]⟩⟩, none⟩
  call _ _ _ _ := .ok value
  send _ _ _ _ := .error (.reverted none none)

def inspection : Suite Id :=
  ofHooks ⟨"inspection", none, [], none⟩
    [⟨"inspection", none, [Step.deploy "gauge" "Gauge", Step.call "gauge" "level"]⟩] none none

def inspected (value : Json) : SuiteReport :=
  .ofResults "inspection" [⟨"inspection", .passed,
    [⟨"deploy gauge", "deploy", true, some (.ofLow 1),
        some { Outcome.success with returnValue := some (.string (Address.text .zero)) }, none, 0⟩,
      ⟨"gauge.level", "call", true, some (.ofLow 1),
        some { Outcome.success with returnValue := some value }, none, 0⟩], none, 0⟩]

theorem run_inspection (value : Json) :
    inspection.run (answering value) 0 ⟨.abort, false, none⟩ = inspected value := rfl

theorem answersOrdered_answering {v : Json} (ordered : v.Ordered) :
    (answering v).AnswersOrdered := by
  rintro handle f args options given ⟨⟩
  exact ordered

theorem answersLegible_answering {v : Json} (legible : v.Legible) :
    (answering v).AnswersLegible := by
  rintro handle f args options given ⟨⟩
  exact legible

theorem fitsWords_inspected (v : Json) : (inspected v).FitsWords where
  total := Nat.one_lt_two_pow (by decide)
  passed := Nat.one_lt_two_pow (by decide)
  failed := Nat.two_pow_pos 64
  skipped := Nat.two_pow_pos 64
  duration := Nat.two_pow_pos 64
  scenarios := by
    have instant : 0 < 2 ^ 64 := Nat.two_pow_pos 64
    refine List.forall_mem_singleton.mpr ⟨List.forall_mem_cons.mpr ⟨⟨?_, nofun, instant⟩,
      List.forall_mem_singleton.mpr ⟨?_, nofun, instant⟩⟩, nofun, instant⟩
    · rintro o ⟨⟩
      exact ⟨nofun, nofun⟩
    · rintro o ⟨⟩
      exact ⟨nofun, nofun⟩

theorem report_reads_back_of_inspection :
    let report := inspected (.array [.null])
    let timed := { report with duration := 12 }
    inspection.run (answering (.array [.null])) 0 ⟨.abort, false, none⟩ = report ∧
      SuiteReport.ofText report.text = .ok report ∧ SuiteReport.ofText timed.text = .ok timed := by
  intro report timed
  have answers := answersOrdered_answering (v := .array [.null]) ⟨trivial, trivial, trivial⟩
  have legible := answersLegible_answering (v := .array [.null]) ⟨trivial, trivial, trivial⟩
  have ran := run_inspection (.array [.null])
  have fits := fitsWords_inspected (.array [.null])
  have reads := report_reads_back inspection ⟨.abort, false, none⟩ report report ran answers
    (.inl legible) rfl fits
  have readsTimed := report_reads_back inspection ⟨.abort, false, none⟩ report timed ran answers
    (.inl legible) rfl { fits with duration := by decide }
  refine ⟨ran, reads.1.mpr ⟨by decide, ?_⟩, readsTimed.1.mpr ⟨by decide, ?_⟩⟩
  · simp [report, SuiteReport.outcomes, inspected, SuiteReport.ofResults]
  · simp [timed, report, SuiteReport.outcomes, inspected, SuiteReport.ofResults]

theorem not_read_back_of_null :
    let report := inspected .null
    inspection.run (answering .null) 0 ⟨.abort, false, none⟩ = report ∧
      SuiteReport.ofText report.text ≠ .ok report := by
  intro report
  have ran : CanReturn (inspection.run (answering .null) 0 ⟨.abort, false, none⟩) report :=
    run_inspection .null
  have answers := answersOrdered_answering (v := .null) trivial
  have legible := answersLegible_answering (v := .null) trivial
  have read := ofText_of_run ran answers (.inl legible) rfl (fitsWords_inspected .null)
  have shallow : report.toJson.depth ≤ Json.depthLimit := by decide
  refine ⟨ran, ?_⟩
  rw [read, if_pos shallow, Ne, Except.ok.injEq, SuiteReport.withoutNull_eq_self]
  intro kept
  exact kept _ (.tail _ (.head _)) rfl

end Suite

end Rehearsal
