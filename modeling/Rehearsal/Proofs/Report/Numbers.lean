import Rehearsal.Proofs.Report.Reading

namespace Rehearsal

open Json (legible_array legible_object legible_ofNat)

/-! The numbers of a report. Those that it counts by are read back if 64 bits hold them, whatever the
clock has measured; the values in its outcomes are the only ones of which that is not known. -/

theorem Json.forall_mem_optionalField {α : Type} {p : String × Json → Prop} {name : String}
    {write : α → Json} {value : Option α} :
    (∀ entry ∈ optionalField name write value, p entry) ↔ ∀ a, value = some a → p (name, write a) := by
  cases value with
  | none => simp [optionalField]
  | some a => simp [optionalField]

namespace Outcome

structure FitsWords (o : Outcome) : Prop where
  status : ∀ n, o.status = some n → n < 2 ^ 64
  block : ∀ n, o.block = some n → n < 2 ^ 64

structure Legible (o : Outcome) : Prop where
  value : ∀ value, o.returnValue = some value → value.Legible
  events : ∀ e ∈ o.emittedEvents, ∀ entry ∈ e.args, entry.2.Legible

theorem legible_toJson {o : Outcome} (fits : o.FitsWords) (legible : o.Legible) :
    o.toJson.Legible := by
  have events : ∀ e ∈ o.emittedEvents, e.toJson.Legible := by
    intro e member
    simpa [EmittedEvent.toJson] using legible.events e member
  rw [toJson, legible_object]
  simp only [List.forall_mem_append, Json.forall_mem_optionalField, List.forall_mem_singleton,
    legible_array, List.forall_mem_map, legible_ofNat]
  exact ⟨⟨⟨⟨⟨⟨trivial, legible.value⟩, events⟩, fun _ _ => trivial⟩, fun _ _ => trivial⟩,
    fits.status⟩, fits.block⟩

end Outcome

namespace StepFailure

def FitsWords (f : StepFailure) : Prop :=
  f.stepIndex < 2 ^ 64

theorem legible_toJson {f : StepFailure} (fits : f.FitsWords) : f.toJson.Legible := by
  have index : f.stepIndex < 2 ^ 64 := fits
  simpa [toJson, legible_ofNat] using index

end StepFailure

namespace StepResult

structure FitsWords (s : StepResult) : Prop where
  outcome : ∀ o, s.outcome = some o → o.FitsWords
  failure : ∀ f, s.failure = some f → f.FitsWords
  duration : s.duration < 2 ^ 64

def untimed (s : StepResult) : StepResult :=
  { s with duration := 0 }

theorem legible_toJson {s : StepResult} (fits : s.FitsWords)
    (legible : ∀ o, s.outcome = some o → o.Legible) : s.toJson.Legible := by
  have outcome : ∀ o, s.outcome = some o → o.toJson.Legible := fun o reached =>
    o.legible_toJson (fits.outcome o reached) (legible o reached)
  have failure : ∀ f, s.failure = some f → f.toJson.Legible := fun f failed =>
    f.legible_toJson (fits.failure f failed)
  rw [toJson, legible_object]
  simp only [List.forall_mem_append, Json.forall_mem_optionalField, List.forall_mem_singleton,
    legible_ofNat]
  exact ⟨⟨⟨⟨by simp, fun _ _ => trivial⟩, outcome⟩, failure⟩, fits.duration⟩

end StepResult

namespace ScenarioResult

structure FitsWords (s : ScenarioResult) : Prop where
  steps : ∀ step ∈ s.steps, step.FitsWords
  failure : ∀ f, s.failure = some f → f.FitsWords
  duration : s.duration < 2 ^ 64

def untimed (s : ScenarioResult) : ScenarioResult :=
  { s with duration := 0, steps := s.steps.map StepResult.untimed }

theorem legible_toJson {s : ScenarioResult} (fits : s.FitsWords)
    (legible : ∀ step ∈ s.steps, ∀ o, step.outcome = some o → o.Legible) : s.toJson.Legible := by
  have steps : ∀ step ∈ s.steps, step.toJson.Legible := fun step member =>
    step.legible_toJson (fits.steps step member) (legible step member)
  have failure : ∀ f, s.failure = some f → f.toJson.Legible := fun f failed =>
    f.legible_toJson (fits.failure f failed)
  rw [toJson, legible_object]
  simp only [List.forall_mem_append, Json.forall_mem_optionalField, List.forall_mem_singleton,
    legible_ofNat]
  exact ⟨⟨by simpa using steps, failure⟩, fits.duration⟩

end ScenarioResult

namespace SuiteReport

/-- All numbers that a report counts by are of 64 bits. -/
structure FitsWords (r : SuiteReport) : Prop where
  total : r.total < 2 ^ 64
  passed : r.passed < 2 ^ 64
  failed : r.failed < 2 ^ 64
  skipped : r.skipped < 2 ^ 64
  duration : r.duration < 2 ^ 64
  scenarios : ∀ s ∈ r.scenarios, s.FitsWords

/-- The report as it is without a clock. -/
def untimed (r : SuiteReport) : SuiteReport :=
  { r with duration := 0, scenarios := r.scenarios.map ScenarioResult.untimed }

def ValuesLegible (r : SuiteReport) : Prop :=
  ∀ o ∈ r.outcomes, ∀ value, o.returnValue = some value → value.Legible

variable {r : SuiteReport}

theorem mem_outcomes {o : Outcome} :
    o ∈ r.outcomes ↔ ∃ s ∈ r.scenarios, ∃ step ∈ s.steps, step.outcome = some o := by
  simp [outcomes]

theorem outcomes_untimed (r : SuiteReport) : r.untimed.outcomes = r.outcomes := by
  simp only [outcomes, untimed, List.flatMap_map, ScenarioResult.untimed, List.filterMap_map]
  rfl

theorem ordered_of_outcomes (ordered : ∀ o ∈ r.outcomes, o.Ordered) : r.Ordered :=
  fun s inside step among o reached => ordered o (mem_outcomes.mpr ⟨s, inside, step, among, reached⟩)

theorem legible_toJson (fits : r.FitsWords) (legible : ∀ o ∈ r.outcomes, o.Legible) :
    r.toJson.Legible := by
  have scenarios : ∀ s ∈ r.scenarios, s.toJson.Legible := fun s inside =>
    s.legible_toJson (fits.scenarios s inside) fun step among o reached =>
      legible o (mem_outcomes.mpr ⟨s, inside, step, among, reached⟩)
  rw [toJson, legible_object]
  simp only [List.forall_mem_append, Json.forall_mem_optionalField]
  refine ⟨⟨⟨?_, fun _ _ => trivial⟩, fun _ _ => trivial⟩, ?_⟩
  · simpa [legible_ofNat] using ⟨fits.total, fits.passed, fits.failed, fits.skipped⟩
  · simpa [legible_ofNat] using ⟨fits.duration, scenarios⟩

end SuiteReport

end Rehearsal
