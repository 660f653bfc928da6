import Rehearsal.Proofs.Address
import Rehearsal.Proofs.Json.Record
import Rehearsal.Report.Json

namespace Rehearsal

open Json (Reading Legible get?_optionalField names_optionalField)
open Json.Mapping (get?_append)
open Json.Reader

/-! Reports are read back from the values that they are written as, except that a return value of
null comes back as no return value: the reader takes a null for a field without a value. -/

theorem map_eq_self {α : Type} {f : α → α} {l : List α} : l.map f = l ↔ ∀ a ∈ l, f a = a := by
  induction l with
  | nil => simp
  | cons a l ih => simp [ih]

theorem Json.Legible.field {fields : List (String × Json)} (legible : (Json.object fields).Legible)
    (name : String) {value : Json} (member : (name, value) ∈ fields) : value.Legible :=
  Json.legible_object.mp legible (name, value) member

theorem Address.read_text (a : Address) : Address.read (.string a.text) = .ok a := by
  have parsed := Address.parse?_text a
  rw [Address.read, string]
  simp only [ok_bind, parsed]
  rfl

namespace EmittedEvent

def Ordered (e : EmittedEvent) : Prop :=
  (Json.object e.args).Ordered

theorem read_toJson {e : EmittedEvent} (ordered : e.Ordered) : read e.toJson = .ok e := by
  have args := mapping_any ordered
  rw [read, toJson, record_object]
  · simp [Record.required, Record.field?, Json.Mapping.get?, string, Address.read_text, args,
      ok_bind, pure, Except.pure]
  · exact .refl _
  · decide

end EmittedEvent

namespace Outcome

def withoutNull (o : Outcome) : Outcome :=
  { o with returnValue := o.returnValue.bind fun value => if value.isNull then none else some value }

theorem withoutNull_eq_self {o : Outcome} : o.withoutNull = o ↔ o.returnValue ≠ some .null := by
  obtain ⟨succeeded, returnValue, events, reason, transaction, status, block⟩ := o
  cases returnValue with
  | none => simp [withoutNull]
  | some value =>
      cases value with
      | null => simp [withoutNull, Json.isNull]
      | bool _ | number _ | string _ | array _ | object _ => simp [withoutNull, Json.isNull]

structure Ordered (o : Outcome) : Prop where
  value : ∀ value, o.returnValue = some value → value.Ordered
  events : ∀ e ∈ o.emittedEvents, e.Ordered

theorem read_toJson {o : Outcome} (ordered : o.Ordered) (legible : o.toJson.Legible) :
    read o.toJson = .ok o.withoutNull := by
  have returnValue := ofField?_any ordered.value
  have events : list EmittedEvent.read (.array (o.emittedEvents.map EmittedEvent.toJson)) =
      .ok (o.emittedEvents.map id) :=
    list_map fun e member => EmittedEvent.read_toJson (ordered.events e member)
  have status := ofField?_nat fun n (known : o.status = some n) =>
    legible.field "status" (by simp [known, Json.optionalField])
  have block := ofField?_nat fun n (known : o.block = some n) =>
    legible.field "blockNumber" (by simp [known, Json.optionalField])
  rw [read, toJson, record_object]
  · simp [optional_eq, Record.required, Record.withDefault, Record.field?, Json.Mapping.get?,
      get?_append, get?_optionalField, returnValue, events, ofField?_string, status, block,
      Json.Reader.bool, ok_bind, pure, Except.pure]
    rfl
  · simp only [List.map_append]
    exact (((((((List.Sublist.refl _).append (names_optionalField _ _ _)).append (.refl _)).append
      (names_optionalField _ _ _)).append (names_optionalField _ _ _)).append
      (names_optionalField _ _ _)).append (names_optionalField _ _ _))
  · decide

end Outcome

namespace StepFailure

theorem choice_kinds (kind : FailureKind) : choice kinds (.string kind.text) = .ok kind := by
  cases kind with
  | configuration => rfl
  | reference => rfl
  | templateResolution => rfl
  | executionFailure => rfl
  | expectationMismatch => rfl

theorem read_toJson {f : StepFailure} (legible : f.toJson.Legible) : read f.toJson = .ok f := by
  have index := nat_ofNat (legible.field "stepIndex" List.mem_cons_self)
  have kind := choice_kinds f.kind
  have messages : list string (.array (f.messages.map Json.string)) = .ok (f.messages.map id) :=
    list_map fun _ _ => rfl
  rw [read, toJson, record_object]
  · -- Steps by definition would have the kernel compare the texts of names octet by octet.
    simp -implicitDefEqProofs [Record.required, Record.field?, Json.Mapping.get?, index, kind,
      messages, string, ok_bind, pure, Except.pure]
  · exact .refl _
  · decide

theorem ofField?_toJson {failure : Option StepFailure}
    (legible : ∀ f, failure = some f → f.toJson.Legible) :
    ofField? read (failure.map toJson) = .ok failure := by
  have reads := ofField?_map (fun _ => Json.noConfusion) fun f known => read_toJson (legible f known)
  rwa [Option.map_id'] at reads

end StepFailure

namespace StepResult

def withoutNull (s : StepResult) : StepResult :=
  { s with outcome := s.outcome.map Outcome.withoutNull }

theorem withoutNull_eq_self {s : StepResult} :
    s.withoutNull = s ↔ ∀ o, s.outcome = some o → o.returnValue ≠ some .null := by
  obtain ⟨name, action, passed, signer, outcome, failure, duration⟩ := s
  cases outcome with
  | none => simp [withoutNull]
  | some outcome => simp [withoutNull, Outcome.withoutNull_eq_self]

def Ordered (s : StepResult) : Prop :=
  ∀ o, s.outcome = some o → o.Ordered

theorem read_toJson {s : StepResult} (ordered : s.Ordered) (legible : s.toJson.Legible) :
    read s.toJson = .ok s.withoutNull := by
  have signer : ofField? Address.read (s.signer.map fun a => .string a.text) =
      .ok (s.signer.map id) :=
    ofField?_map (fun _ => Json.noConfusion) fun a _ => Address.read_text a
  have outcome : ofField? Outcome.read (s.outcome.map Outcome.toJson) =
      .ok (s.outcome.map Outcome.withoutNull) :=
    ofField?_map (fun _ => Json.noConfusion) fun o known => Outcome.read_toJson (ordered o known)
      (legible.field "outcome" (by simp [known, Json.optionalField]))
  have failure : ofField? StepFailure.read (s.failure.map StepFailure.toJson) = .ok s.failure :=
    StepFailure.ofField?_toJson fun f known =>
      legible.field "failure" (by simp [known, Json.optionalField])
  have written : (Json.ofNat s.duration).Legible := legible.field "durationMs" (by simp)
  have duration := nat_ofNat written
  rw [read, toJson, record_object]
  · simp [optional_eq, Record.required, Record.field?, Json.Mapping.get?, get?_append,
      get?_optionalField, signer, outcome, failure, duration, string, Json.Reader.bool, ok_bind,
      pure, Except.pure]
    rfl
  · simp only [List.map_append]
    exact (((((List.Sublist.refl _).append (names_optionalField _ _ _)).append
      (names_optionalField _ _ _)).append (names_optionalField _ _ _)).append (.refl _))
  · decide

end StepResult

namespace ScenarioResult

def withoutNull (s : ScenarioResult) : ScenarioResult :=
  { s with steps := s.steps.map StepResult.withoutNull }

theorem withoutNull_eq_self {s : ScenarioResult} :
    s.withoutNull = s ↔ ∀ step ∈ s.steps, step.withoutNull = step := by
  obtain ⟨name, status, steps, failure, duration⟩ := s
  simp [withoutNull, map_eq_self]

def Ordered (s : ScenarioResult) : Prop :=
  ∀ step ∈ s.steps, step.Ordered

theorem choice_statuses (status : ScenarioStatus) :
    choice statuses (.string status.text) = .ok status := by
  cases status with
  | passed => rfl
  | failed => rfl
  | skipped => rfl

theorem read_toJson {s : ScenarioResult} (ordered : s.Ordered) (legible : s.toJson.Legible) :
    read s.toJson = .ok s.withoutNull := by
  have status := choice_statuses s.status
  have inside : (Json.array (s.steps.map StepResult.toJson)).Legible :=
    legible.field "steps" (by simp)
  have steps : list StepResult.read (.array (s.steps.map StepResult.toJson)) =
      .ok (s.steps.map StepResult.withoutNull) :=
    list_map fun step member => StepResult.read_toJson (ordered step member)
      (Json.legible_array.mp inside _ (List.mem_map_of_mem member))
  have failure : ofField? StepFailure.read (s.failure.map StepFailure.toJson) = .ok s.failure :=
    StepFailure.ofField?_toJson fun f known =>
      legible.field "failure" (by simp [known, Json.optionalField])
  have written : (Json.ofNat s.duration).Legible := legible.field "durationMs" (by simp)
  have duration := nat_ofNat written
  rw [read, toJson, record_object]
  · simp -implicitDefEqProofs [optional_eq, Record.required, Record.field?, Json.Mapping.get?,
      get?_append, get?_optionalField, status, steps, failure, duration, string, ok_bind, pure,
      Except.pure]
    rfl
  · simp only [List.map_append]
    exact (((List.Sublist.refl _).append (names_optionalField _ _ _)).append (.refl _))
  · decide

end ScenarioResult

namespace SuiteReport

/-- The report without the return values that are null. -/
def withoutNull (r : SuiteReport) : SuiteReport :=
  { r with scenarios := r.scenarios.map ScenarioResult.withoutNull }

def outcomes (r : SuiteReport) : List Outcome :=
  r.scenarios.flatMap fun s => s.steps.filterMap StepResult.outcome

theorem withoutNull_eq_self {r : SuiteReport} :
    r.withoutNull = r ↔ ∀ o ∈ r.outcomes, o.returnValue ≠ some .null := by
  obtain ⟨name, total, passed, failed, skipped, setupError, teardownError, duration, scenarios⟩ := r
  simp only [withoutNull, outcomes, mk.injEq, true_and, map_eq_self,
    ScenarioResult.withoutNull_eq_self, StepResult.withoutNull_eq_self, List.mem_flatMap,
    List.mem_filterMap]
  constructor
  · rintro each o ⟨s, inside, step, among, reached⟩
    exact each s inside step among o reached
  · intro each s inside step among o reached
    exact each o ⟨s, inside, step, among, reached⟩

def Ordered (r : SuiteReport) : Prop :=
  ∀ s ∈ r.scenarios, s.Ordered

theorem read_toJson {r : SuiteReport} (ordered : r.Ordered) (legible : r.toJson.Legible) :
    read r.toJson = .ok r.withoutNull := by
  have total : (Json.ofNat r.total).Legible := legible.field "totalScenarios" (by simp)
  have passed : (Json.ofNat r.passed).Legible := legible.field "passed" (by simp)
  have failed : (Json.ofNat r.failed).Legible := legible.field "failed" (by simp)
  have skipped : (Json.ofNat r.skipped).Legible := legible.field "skipped" (by simp)
  have duration : (Json.ofNat r.duration).Legible := legible.field "durationMs" (by simp)
  have inside : (Json.array (r.scenarios.map ScenarioResult.toJson)).Legible :=
    legible.field "scenarioResults" (by simp)
  have scenarios : list ScenarioResult.read (.array (r.scenarios.map ScenarioResult.toJson)) =
      .ok (r.scenarios.map ScenarioResult.withoutNull) :=
    list_map fun s member => ScenarioResult.read_toJson (ordered s member)
      (Json.legible_array.mp inside _ (List.mem_map_of_mem member))
  rw [read, toJson, record_object]
  · simp -implicitDefEqProofs [optional_eq, Record.required, Record.field?, Json.Mapping.get?,
      get?_append, get?_optionalField, nat_ofNat total, nat_ofNat passed, nat_ofNat failed,
      nat_ofNat skipped, nat_ofNat duration, ofField?_string, scenarios, string, ok_bind, pure,
      Except.pure]
    rfl
  · simp only [List.map_append]
    exact ((((List.Sublist.refl _).append (names_optionalField _ _ _)).append
      (names_optionalField _ _ _)).append (.refl _))
  · decide

/-- The text of a report is read as the report without the return values that are null, unless the
report nests too deep: then it is refused. -/
theorem ofText_text {r : SuiteReport} (ordered : r.Ordered) (legible : r.toJson.Legible) :
    ofText r.text =
      if r.toJson.depth ≤ Json.depthLimit then .ok r.withoutNull else .error .malformed := by
  by_cases shallow : r.toJson.depth ≤ Json.depthLimit
  · rw [ofText, text, Json.parse_pretty legible, if_pos shallow, if_pos shallow]
    exact read_toJson ordered legible
  · rw [ofText, text, Json.parse_pretty legible, if_neg shallow, if_neg shallow]

end SuiteReport

end Rehearsal
