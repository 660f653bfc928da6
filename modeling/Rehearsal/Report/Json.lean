import Rehearsal.Report.Basic
import Rehearsal.Scenario.Json
/-!
Reports as JSON, with the fields in declared order and those without a value left out.
-/

namespace Rehearsal

open Json (Reading)
open Json.Reader

namespace StepFailure

def toJson (f : StepFailure) : Json :=
  .object [("stepIndex", Json.ofNat f.stepIndex), ("stepName", .string f.stepName),
    ("kind", .string f.kind.text), ("messages", .array (f.messages.map Json.string))]

def kinds : List (String × FailureKind) :=
  [FailureKind.configuration, .reference, .templateResolution, .executionFailure,
    .expectationMismatch].map fun kind => (kind.text, kind)

def read (value : Json) : Reading StepFailure := do
  let r ← record ["stepIndex", "stepName", "kind", "messages"] value
  return {
    stepIndex := ← r.required "stepIndex" nat
    stepName := ← r.required "stepName" string
    kind := ← r.required "kind" (choice kinds)
    messages := ← r.required "messages" (list string) }

end StepFailure

namespace StepResult

def toJson (s : StepResult) : Json :=
  .object <|
    [("name", .string s.name), ("action", .string s.action), ("passed", .bool s.passed)]
    ++ Json.optionalField "signer" (fun signer => .string signer.text) s.signer
    ++ Json.optionalField "outcome" Outcome.toJson s.outcome
    ++ Json.optionalField "failure" StepFailure.toJson s.failure
    ++ [("durationMs", Json.ofNat s.duration)]

def read (value : Json) : Reading StepResult := do
  let r ← record ["name", "action", "passed", "signer", "outcome", "failure", "durationMs"] value
  return {
    name := ← r.required "name" string
    action := ← r.required "action" string
    passed := ← r.required "passed" bool
    signer := ← r.optional "signer" Address.read
    outcome := ← r.optional "outcome" Outcome.read
    failure := ← r.optional "failure" StepFailure.read
    duration := ← r.required "durationMs" nat }

end StepResult

namespace ScenarioResult

def toJson (s : ScenarioResult) : Json :=
  .object <|
    [("name", .string s.name), ("status", .string s.status.text),
      ("steps", .array (s.steps.map StepResult.toJson))]
    ++ Json.optionalField "failure" StepFailure.toJson s.failure
    ++ [("durationMs", Json.ofNat s.duration)]

def statuses : List (String × ScenarioStatus) :=
  [ScenarioStatus.passed, .failed, .skipped].map fun status => (status.text, status)

def read (value : Json) : Reading ScenarioResult := do
  let r ← record ["name", "status", "steps", "failure", "durationMs"] value
  return {
    name := ← r.required "name" string
    status := ← r.required "status" (choice statuses)
    steps := ← r.required "steps" (list StepResult.read)
    failure := ← r.optional "failure" StepFailure.read
    duration := ← r.required "durationMs" nat }

end ScenarioResult

namespace SuiteReport

def toJson (s : SuiteReport) : Json :=
  .object <|
    [("suiteName", .string s.suiteName), ("totalScenarios", Json.ofNat s.total),
      ("passed", Json.ofNat s.passed), ("failed", Json.ofNat s.failed),
      ("skipped", Json.ofNat s.skipped)]
    ++ Json.optionalField "setupError" .string s.setupError
    ++ Json.optionalField "teardownError" .string s.teardownError
    ++ [("durationMs", Json.ofNat s.duration),
      ("scenarioResults", .array (s.scenarios.map ScenarioResult.toJson))]

def fields : List String :=
  ["suiteName", "totalScenarios", "passed", "failed", "skipped", "setupError", "teardownError",
    "durationMs", "scenarioResults"]

def read (value : Json) : Reading SuiteReport := do
  let r ← record fields value
  return {
    suiteName := ← r.required "suiteName" string
    total := ← r.required "totalScenarios" nat
    passed := ← r.required "passed" nat
    failed := ← r.required "failed" nat
    skipped := ← r.required "skipped" nat
    setupError := ← r.optional "setupError" string
    teardownError := ← r.optional "teardownError" string
    duration := ← r.required "durationMs" nat
    scenarios := ← r.required "scenarioResults" (list ScenarioResult.read) }

def text (s : SuiteReport) : String :=
  s.toJson.pretty

def ofText (text : String) : Reading SuiteReport :=
  match Json.parse text with
  | some value => read value
  | none => .error .malformed

end SuiteReport

end Rehearsal
