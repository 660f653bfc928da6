import Mathlib.Data.List.Forall2
import Mathlib.Data.List.Infix
import Rehearsal.Proofs.Result
import Rehearsal.Scenario.Matching

namespace Rehearsal

/-! What an expectation requires, one thing at a time, and how an outcome is judged by it. Each
requirement that is not met has a mismatch of its own and no other requirement has one, so that no
mismatch hides another. -/

/-- A single thing that an expectation requires. Events are counted from zero. -/
inductive Requirement where
  | success (expected : Bool)
  | returnValue (expected : Json)
  | returnType (type : ReturnType)
  | revertReason (expected : String)
  | event (index : Nat) (name : String)
  /-- An argument of an event, its value as declared. -/
  | argument (index : Nat) (name key : String) (declared : Json)

def Requirement.Met (r : Resolver) (o : Outcome) : Requirement → Prop
  | success expected => o.succeeded = expected
  | returnValue expected =>
      ∃ got ∈ o.returnValue, Normal.normalize got = Normal.normalize expected
  | returnType type => ∃ got ∈ o.returnValue, type.admits got = true
  | revertReason expected => ∃ got ∈ o.revertReason, expected.toList <:+: got.toList
  | event index name => ∃ seen ∈ o.emittedEvents[index]?, seen.name = name
  | argument index name key declared =>
      ∀ seen ∈ o.emittedEvents[index]?, seen.name = name →
        ∃ expected ∈ (r.resolve declared).toOption, ∃ got ∈ seen.args.get? key,
          Normal.normalize got = Normal.normalize expected

instance (r : Resolver) (o : Outcome) : DecidablePred (Requirement.Met r o)
  | .success expected => inferInstanceAs (Decidable (o.succeeded = expected))
  | .returnValue expected =>
      inferInstanceAs (Decidable (∃ got ∈ o.returnValue,
        Normal.normalize got = Normal.normalize expected))
  | .returnType type =>
      inferInstanceAs (Decidable (∃ got ∈ o.returnValue, type.admits got = true))
  | .revertReason expected =>
      inferInstanceAs (Decidable (∃ got ∈ o.revertReason, expected.toList <:+: got.toList))
  | .event index name =>
      inferInstanceAs (Decidable (∃ seen ∈ o.emittedEvents[index]?, seen.name = name))
  | .argument index name key declared =>
      inferInstanceAs (Decidable (∀ seen ∈ o.emittedEvents[index]?, seen.name = name →
        ∃ expected ∈ (r.resolve declared).toOption, ∃ got ∈ seen.args.get? key,
          Normal.normalize got = Normal.normalize expected))

def EventExpectation.requirements (index : Nat) (event : EventExpectation) : List Requirement :=
  .event index event.eventName ::
    event.args.map fun (key, declared) => .argument index event.eventName key declared

/-- A reason for failing is only required of a step that is to fail. -/
def Expectation.requirements (e : Expectation) : List Requirement :=
  [.success e.success] ++ e.returnValue.toList.map .returnValue
    ++ e.returnType.toList.map .returnType
    ++ (if e.success then [] else e.revertReason.toList.map .revertReason)
    ++ (e.events.getD []).zipIdx.flatMap fun (event, index) => event.requirements index

/-- The requirement that a mismatch is about. -/
inductive Mismatch.Concerns : Mismatch → Requirement → Prop where
  | failed (reason : Option String) : Concerns (.failed reason) (.success true)
  | succeeded : Concerns .succeeded (.success false)
  | otherValue (expected got : Json) : Concerns (.otherValue expected got) (.returnValue expected)
  | noValue (expected : Json) : Concerns (.noValue expected) (.returnValue expected)
  | otherType (type : ReturnType) (got : Json) : Concerns (.otherType type got) (.returnType type)
  | noType (type : ReturnType) : Concerns (.noType type) (.returnType type)
  | otherReason (expected got : String) :
      Concerns (.otherReason expected got) (.revertReason expected)
  | noReason (expected : String) : Concerns (.noReason expected) (.revertReason expected)
  | noEvent (index : Nat) (name : String) (count : Nat) :
      Concerns (.noEvent (index + 1) name count) (.event index name)
  | otherEvent (index : Nat) (name got : String) :
      Concerns (.otherEvent (index + 1) name got) (.event index name)
  | unresolvedArgument (index : Nat) (name key : String) (declared : Json) (error : RunError) :
      Concerns (.unresolvedArgument (index + 1) name key error) (.argument index name key declared)
  | noArgument (index : Nat) (name key : String) (declared : Json) :
      Concerns (.noArgument (index + 1) name key) (.argument index name key declared)
  | otherArgument (index : Nat) (name key : String) (declared expected got : Json) :
      Concerns (.otherArgument (index + 1) name key expected got)
        (.argument index name key declared)

/-- Mismatches, one for each requirement that is not met, in order. -/
def Judges (r : Resolver) (o : Outcome) (requirements : List Requirement)
    (mismatches : List Mismatch) : Prop :=
  List.Forall₂ Mismatch.Concerns mismatches
    (requirements.filter fun requirement => ¬requirement.Met r o)

namespace Judges

variable {r : Resolver} {o : Outcome} {requirement : Requirement}
  {requirements others : List Requirement} {mismatch : Mismatch}
  {mismatches otherMismatches : List Mismatch}

theorem nil : Judges r o [] [] := List.Forall₂.nil

theorem of_met (met : requirement.Met r o) : Judges r o [requirement] [] := by
  rw [Judges, List.filter_cons_of_neg (by simpa using met)]
  exact .nil

theorem of_not_met (violated : ¬requirement.Met r o) (concerns : mismatch.Concerns requirement) :
    Judges r o [requirement] [mismatch] := by
  rw [Judges, List.filter_cons_of_pos (by simpa using violated)]
  exact .cons concerns .nil

theorem of_test {p : Prop} [Decidable p] (met_iff : requirement.Met r o ↔ p)
    (concerns : mismatch.Concerns requirement) :
    Judges r o [requirement] (if p then [] else [mismatch]) := by
  split
  · next holds => exact of_met (met_iff.mpr holds)
  · next fails => exact of_not_met (fails ∘ met_iff.mp) concerns

theorem append (first : Judges r o requirements mismatches)
    (rest : Judges r o others otherMismatches) :
    Judges r o (requirements ++ others) (mismatches ++ otherMismatches) := by
  rw [Judges, List.filter_append]
  exact List.rel_append first rest

theorem eq_nil_iff (judges : Judges r o requirements mismatches) :
    mismatches = [] ↔ ∀ requirement ∈ requirements, requirement.Met r o := by
  rw [← List.length_eq_zero_iff, List.Forall₂.length_eq judges, List.length_eq_zero_iff,
    List.filter_eq_nil_iff]
  simp only [decide_not, Bool.not_eq_true', decide_eq_false_iff_not, not_not]

end Judges

namespace Matching

variable (e : Expectation) (r : Resolver) (o : Outcome)

theorem judges_success : Judges r o [.success e.success] (success e o) := by
  have met_iff : (Requirement.success e.success).Met r o ↔ e.success = o.succeeded := eq_comm
  unfold success
  cases expected : e.success with
  | true =>
      rw [expected] at met_iff
      exact .of_test met_iff (.failed _)
  | false =>
      rw [expected] at met_iff
      exact .of_test met_iff .succeeded

theorem judges_returnValue :
    Judges r o (e.returnValue.toList.map .returnValue) (returnValue e o) := by
  unfold returnValue
  cases e.returnValue with
  | none => exact .nil
  | some expected =>
      cases returned : o.returnValue with
      | none => exact .of_not_met (by simp [Requirement.Met, returned]) (.noValue expected)
      | some got =>
          exact .of_test (by simp [Requirement.Met, returned]) (.otherValue expected got)

theorem judges_returnType :
    Judges r o (e.returnType.toList.map .returnType) (returnType e o) := by
  unfold returnType
  cases e.returnType with
  | none => exact .nil
  | some type =>
      cases returned : o.returnValue with
      | none => exact .of_not_met (by simp [Requirement.Met, returned]) (.noType type)
      | some got => exact .of_test (by simp [Requirement.Met, returned]) (.otherType type got)

theorem judges_revertReason :
    Judges r o (if e.success then [] else e.revertReason.toList.map .revertReason)
      (revertReason e o) := by
  unfold revertReason
  split
  · exact .nil
  · cases e.revertReason with
    | none => exact .nil
    | some expected =>
        cases told : o.revertReason with
        | none => exact .of_not_met (by simp [Requirement.Met, told]) (.noReason expected)
        | some got =>
            refine .of_test ?_ (.otherReason expected got)
            simp [Requirement.Met, told, Text.contains_eq_true_iff]

variable {e r o} {index : Nat} {seen : EmittedEvent}

theorem judges_argument (shown : o.emittedEvents[index]? = some seen) (key : String)
    (declared : Json) :
    Judges r o [.argument index seen.name key declared]
      (argument (index + 1) seen key (r.resolve declared)) := by
  have met_iff : (Requirement.argument index seen.name key declared).Met r o ↔
      ∃ expected ∈ (r.resolve declared).toOption, ∃ got ∈ seen.args.get? key,
        Normal.normalize got = Normal.normalize expected := by
    simp [Requirement.Met, shown]
  cases resolved : r.resolve declared with
  | error error =>
      refine .of_not_met ?_ (.unresolvedArgument index seen.name key declared error)
      simp [met_iff, resolved, toOption_eq_some]
  | ok expected =>
      have expectedOnly : (.ok expected : Except RunError Json).toOption = some expected := rfl
      cases found : seen.args.get? key with
      | none =>
          simp only [argument, found]
          exact .of_not_met (by simp [met_iff, found]) (.noArgument index seen.name key declared)
      | some got =>
          simp only [argument, found]
          refine .of_test ?_ (.otherArgument index seen.name key declared expected got)
          simp [met_iff, resolved, found, expectedOnly]

theorem judges_arguments (shown : o.emittedEvents[index]? = some seen)
    (args : Json.Mapping Json) :
    Judges r o (args.map fun (key, declared) => .argument index seen.name key declared)
      ((r.resolveMapping args).flatMap fun (key, expected) =>
        argument (index + 1) seen key expected) := by
  induction args with
  | nil => exact .nil
  | cons entry rest ih => exact (judges_argument shown entry.1 entry.2).append ih

theorem judges_unseen (event : EventExpectation) (r : Resolver)
    (unseen : ∀ seen ∈ o.emittedEvents[index]?, seen.name ≠ event.eventName) :
    Judges r o
      (event.args.map fun (key, declared) => .argument index event.eventName key declared) [] := by
  induction event.args with
  | nil => exact .nil
  | cons entry rest ih =>
      have met : (Requirement.argument index event.eventName entry.1 entry.2).Met r o :=
        fun seen shown named => absurd named (unseen seen shown)
      exact (Judges.of_met met).append ih

theorem judges_event (event : EventExpectation) :
    Judges r o (event.requirements index) (Matching.event r o.emittedEvents (index + 1) event) := by
  rw [Matching.event, Nat.add_sub_cancel, EventExpectation.requirements]
  cases shown : o.emittedEvents[index]? with
  | none =>
      have missing : ¬(Requirement.event index event.eventName).Met r o := by
        simp [Requirement.Met, shown]
      exact (Judges.of_not_met missing (.noEvent index _ _)).append
        (judges_unseen event r (by simp [shown]))
  | some seen =>
      simp only
      split
      · next differs =>
        have misnamed : ¬(Requirement.event index event.eventName).Met r o := by
          simpa [Requirement.Met, shown] using differs
        exact (Judges.of_not_met misnamed (.otherEvent index _ _)).append
          (judges_unseen event r (by simpa [shown] using differs))
      · next named =>
        have named := not_not.mp named
        rw [← named]
        have present : (Requirement.event index seen.name).Met r o := ⟨seen, shown, rfl⟩
        exact (Judges.of_met present).append (judges_arguments shown event.args)

theorem judges_events (expected : List EventExpectation) (index : Nat) :
    Judges r o ((expected.zipIdx index).flatMap fun (event, index) => event.requirements index)
      (events r o.emittedEvents (index + 1) expected) := by
  induction expected generalizing index with
  | nil => exact .nil
  | cons event rest ih =>
      rw [List.zipIdx_cons, List.flatMap_cons, events]
      exact (judges_event event).append (ih (index + 1))

end Matching

/-- The event has the declared name, and each declared argument with its value. -/
structure EventExpectation.MetBy (event : EventExpectation) (r : Resolver) (seen : EmittedEvent) :
    Prop where
  name : seen.name = event.eventName
  args : ∀ entry ∈ event.args, ∃ expected, r.resolve entry.2 = .ok expected ∧
    ∃ got ∈ seen.args.get? entry.1, Normal.normalize got = Normal.normalize expected

/-- Everything that the expectation declares holds of the outcome. -/
structure Expectation.MetBy (e : Expectation) (r : Resolver) (o : Outcome) : Prop where
  success : o.succeeded = e.success
  returnValue : ∀ expected ∈ e.returnValue, ∃ got ∈ o.returnValue,
    Normal.normalize got = Normal.normalize expected
  returnType : ∀ type ∈ e.returnType, ∃ got ∈ o.returnValue, type.admits got = true
  revertReason : e.success = false → ∀ expected ∈ e.revertReason, ∃ got ∈ o.revertReason,
    expected.toList <:+: got.toList
  events : ∀ events ∈ e.events, ∀ (index : Nat) (event : EventExpectation),
    events[index]? = some event → ∃ seen ∈ o.emittedEvents[index]?, event.MetBy r seen

theorem EventExpectation.met_requirements_iff {event : EventExpectation} {r : Resolver}
    {o : Outcome} {index : Nat} :
    (∀ requirement ∈ event.requirements index, requirement.Met r o) ↔
      ∃ seen ∈ o.emittedEvents[index]?, event.MetBy r seen := by
  simp only [requirements, List.forall_mem_cons, List.forall_mem_map]
  constructor
  · rintro ⟨⟨seen, shown, named⟩, each⟩
    refine ⟨seen, shown, named, ?_⟩
    intro entry member
    obtain ⟨expected, resolved, got⟩ := each entry member seen shown named
    exact ⟨expected, toOption_eq_some.mp resolved, got⟩
  · rintro ⟨seen, shown, named, each⟩
    refine ⟨⟨seen, shown, named⟩, ?_⟩
    intro entry member other otherShown _
    obtain ⟨expected, resolved, got⟩ := each entry member
    cases Option.some.inj (shown.symm.trans otherShown)
    exact ⟨expected, toOption_eq_some.mpr resolved, got⟩

namespace Expectation

variable {e : Expectation} {r : Resolver} {o : Outcome}

theorem judges_mismatches : Judges r o e.requirements (e.mismatches r o) :=
  ((((Matching.judges_success e r o).append (Matching.judges_returnValue e r o)).append
    (Matching.judges_returnType e r o)).append (Matching.judges_revertReason e r o)).append
      (Matching.judges_events (e.events.getD []) 0)

theorem met_requirements_iff :
    (∀ requirement ∈ e.requirements, requirement.Met r o) ↔ e.MetBy r o := by
  have eventsMet : (∀ requirement ∈ (e.events.getD []).zipIdx.flatMap fun (event, index) =>
      event.requirements index, requirement.Met r o) ↔
      ∀ (index : Nat) (event : EventExpectation), (e.events.getD [])[index]? = some event →
        ∃ seen ∈ o.emittedEvents[index]?, event.MetBy r seen := by
    simp only [List.forall_mem_flatMap, Prod.forall, EventExpectation.met_requirements_iff,
      List.mk_mem_zipIdx_iff_getElem?]
    exact forall_comm
  simp only [requirements, List.forall_mem_append, List.forall_mem_singleton, List.forall_mem_map,
    Option.mem_toList, eventsMet]
  constructor
  · rintro ⟨⟨⟨⟨success, returnValue⟩, returnType⟩, revertReason⟩, events⟩
    refine ⟨success, returnValue, returnType, ?_, ?_⟩
    · intro toFail expected declared
      rw [toFail] at revertReason
      exact revertReason _ (List.mem_map_of_mem (Option.mem_toList.mpr declared))
    · intro expected declared
      rwa [declared, Option.getD_some] at events
  · rintro ⟨success, returnValue, returnType, revertReason, events⟩
    refine ⟨⟨⟨⟨success, returnValue⟩, returnType⟩, ?_⟩, ?_⟩
    · split
      · nofun
      · next toFail =>
        simp only [List.forall_mem_map, Option.mem_toList]
        exact revertReason (by simpa using toFail)
    · cases declared : e.events with
      | none => nofun
      | some expected => exact events expected declared

theorem mismatches_eq_nil_iff : e.mismatches r o = [] ↔ e.MetBy r o :=
  judges_mismatches.eq_nil_iff.trans met_requirements_iff

/-- An outcome meets an expectation just when nothing is amiss, and what is amiss is told once for
each requirement that is not met: for a field, for an event that is missing or has another name, and
for an argument of an event that has the right name. -/
theorem mismatches_judge_each (e : Expectation) (r : Resolver) (o : Outcome) :
    (e.mismatches r o = [] ↔ e.MetBy r o) ∧
      List.Forall₂ Mismatch.Concerns (e.mismatches r o)
        (e.requirements.filter fun requirement => ¬requirement.Met r o) :=
  ⟨mismatches_eq_nil_iff, judges_mismatches⟩

end Expectation

end Rehearsal
