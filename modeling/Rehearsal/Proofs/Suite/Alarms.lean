import Rehearsal.Proofs.Suite.Cleanup
import Rehearsal.Proofs.Suite.Declarations
import Rehearsal.Proofs.Suite.Soundness

namespace Rehearsal

open MonadAttach (CanReturn)
open LawfulMonadAttach (canReturn_bind_imp' eq_of_canReturn_pure)

/-! What the check of a suite objects to although a run finds everything in it. The check declares
the contract of a deployment behind the events that the step expects, and a run knows it before;
so of a suite that runs without unresolved names it only objects to steps that expect the address
of a contract which they are the first to deploy. -/

def Token.contract? : Token → Option String
  | .contractAddress name => some name
  | _ => none

def namedContract? : Json → Option String
  | .string text => (Token.parse? text).bind Token.contract?
  | _ => none

/-- Some event that the step expects is to tell the address of a contract. -/
def Step.ExpectsAddress (s : Step) (name : String) : Prop :=
  ∃ value ∈ s.expectedArgs, namedContract? value = some name

def Step.ExpectsDeclared (s : Step) (d : Declared) : Prop :=
  ∀ name, s.Deploys name → s.ExpectsAddress name → name ∈ d.contracts

variable {d : Declared} {s : Step}

/-! The check of expected events. -/

theorem Check.token_addContract {name text : String} {token : Token}
    (silent : Check.token (d.addContract name) text token = none) :
    Check.token d text token = none ↔ (token.contract? = some name → name ∈ d.contracts) := by
  cases token with
  | signer => exact iff_of_true rfl nofun
  | now => exact iff_of_true rfl nofun
  | zeroAddress => exact iff_of_true rfl nofun
  | namedSigner other => exact iff_of_true silent nofun
  | contractAddress other =>
      simp only [Check.token, List.contains_iff_mem, ite_eq_left_iff, reduceCtorEq, imp_false,
        not_not, Declared.addContract, List.mem_cons] at silent ⊢
      constructor
      · rintro declared ⟨⟩
        exact declared
      · intro named
        rcases silent with rfl | declared
        · exact named rfl
        · exact declared

theorem Check.template_addContract {name location : String} {value : Json}
    (silent : template (d.addContract name) location value = none) :
    template d location value = none ↔ (namedContract? value = some name → name ∈ d.contracts) := by
  cases value with
  | string text =>
      simp only [template, namedContract?, Option.map_eq_none_iff] at silent ⊢
      cases parsed : Token.parse? text with
      | none => simp
      | some token =>
          simp only [parsed, Option.bind_some] at silent ⊢
          exact token_addContract silent
  | _ => simp [template, namedContract?]

theorem Check.templates_declare {location : String}
    (silent : ∀ value ∈ s.expectedArgs, template (declare d s.action) location value = none) :
    (∀ value ∈ s.expectedArgs, template d location value = none) ↔ s.ExpectsDeclared d := by
  cases action : s.action with
  | call contract function args =>
      rw [action] at silent
      refine iff_of_true silent ?_
      rintro name ⟨artifact, values, deploys⟩
      rw [action] at deploys
      contradiction
  | deploy contract artifact args =>
      rw [action] at silent
      have each : ∀ value ∈ s.expectedArgs, template d location value = none ↔
          (namedContract? value = some contract → contract ∈ d.contracts) :=
        fun value member => template_addContract (silent value member)
      constructor
      · rintro free name ⟨_, _, deploys⟩ ⟨value, member, named⟩
        cases action.symm.trans deploys
        exact (each value member).mp (free value member) named
      · intro declared value member
        exact (each value member).mpr fun named =>
          declared contract ⟨artifact, args, action⟩ ⟨value, member, named⟩

/-! Steps. -/

/-- The step came to an outcome, and no token of an expected event is unresolved behind it. -/
def Moment.Smooth (now : Nat) (moment : Moment) : Prop :=
  ∃ execution, moment.executed = .ok execution ∧ ∀ value ∈ moment.step.expectedArgs,
    ∃ resolved, Resolver.resolve ⟨moment.after, some execution.signer, now⟩ value = .ok resolved

/-- What each of the steps deploys is declared before it, if the step expects its address. -/
def Declared.Foresees : Declared → List Step → Prop
  | _, [] => True
  | d, s :: rest => s.ExpectsDeclared d ∧ Foresees (Check.declare d s.action) rest

theorem Declared.foresees_append {steps others : List Step} :
    d.Foresees (steps ++ others) ↔ d.Foresees steps ∧ (d.declareAll steps).Foresees others := by
  induction steps generalizing d with
  | nil => exact (true_and _).to_iff.symm
  | cons s rest ih =>
      simp only [List.cons_append, Foresees, ih, and_assoc]
      rfl

theorem Declared.foresees_iff {steps : List Step} : d.Foresees steps ↔
    ∀ front s back, steps = front ++ s :: back → s.ExpectsDeclared (d.declareAll front) := by
  induction steps generalizing d with
  | nil => simp [Foresees]
  | cons first rest ih =>
      rw [Foresees, ih]
      constructor
      · rintro ⟨own, others⟩ front s back split
        cases front with
        | nil =>
            cases split
            exact own
        | cons head front =>
            cases split
            exact others front s back rfl
      · intro each
        exact ⟨each [] first rest rfl, fun front s back split =>
          each (first :: front) s back (congrArg (first :: ·) split)⟩

variable {m : Type → Type} [Monad m]

namespace SuiteDefinition

def watch (definition : SuiteDefinition) (store : Option Store) (network : String)
    (setupNow : Nat) (chain : Chain m) (now : Nat) (options : RunOptions) :
    m (Watched × List Moment) := do
  let suite : Suite m := Suite.ofDefinition definition store network setupNow
  match ← suite.setup chain with
  | .error e => return (⟨.error e, [], suite.selected options, .ok ()⟩, [])
  | .ok context =>
      let (passages, skipped, last) ←
        Suite.watchScenarios chain now options (suite.selected options) context
      let (moments, _) ← Teardown.watch chain setupNow 0 (definition.teardown.getD []) last
      return (⟨.ok context, passages, skipped, Teardown.resultOf setupNow moments⟩, moments)

variable [LawfulMonad m]

theorem fst_watch (definition : SuiteDefinition) (store : Option Store) (network : String)
    (setupNow : Nat) (chain : Chain m) (now : Nat) (options : RunOptions) :
    Prod.fst <$> definition.watch store network setupNow chain now options =
      (Suite.ofDefinition definition store network setupNow).watch chain now options := by
  unfold watch Suite.watch
  rw [map_bind]
  refine bind_congr fun result => ?_
  cases result with
  | error e => simp
  | ok context =>
      simp only [map_bind]
      refine bind_congr fun played => ?_
      unfold Suite.watchTeardown Suite.ofDefinition
      cases definition.teardown with
      | none => simp [Teardown.watch, Teardown.resultOf, Teardown.verdict]
      | some steps =>
          simp only [Option.map_some, Option.getD_some, Teardown.declared_eq_watch, bind_map_left,
            map_pure]

theorem run_eq_watch (definition : SuiteDefinition) (store : Option Store) (network : String)
    (setupNow : Nat) (chain : Chain m) (now : Nat) (options : RunOptions) :
    (fun watched => watched.1.report definition.metadata.name now) <$>
        definition.watch store network setupNow chain now options =
      (Suite.ofDefinition definition store network setupNow).run chain now options := by
  rw [Suite.run_eq_watch, ← fst_watch, Functor.map_map]
  rfl

end SuiteDefinition

variable [MonadAttach m] {chain : Chain m} {now : Nat}

/-! All steps are executed when each of them comes to an outcome. -/

theorem Course.map_step_eq {index : Nat} {steps : List Step} {before last : Context}
    {moments : List Moment}
    (course : Course chain now .continue index steps before moments last)
    (smooth : ∀ moment ∈ moments, moment.Smooth now) : moments.map Moment.step = steps := by
  obtain ⟨left, split, cut⟩ := course.steps_eq
  cases left with
  | nil => rw [split, List.append_nil]
  | cons head rest =>
      -- Only a step without an outcome would leave others unexecuted.
      obtain ⟨front, moment, rfl, stops⟩ := cut (List.cons_ne_nil head rest)
      obtain ⟨execution, reached, -⟩ := smooth moment (List.mem_append_right front (.head _))
      exact absurd ⟨execution, reached⟩ (stopsAt_continue.mp stops)

theorem Series.map_step_eq {before last : Context} {passages : List Passage}
    (series : Series chain now .continue before passages last)
    (smooth : ∀ moment ∈ passages.flatMap Passage.moments, moment.Smooth now) :
    (passages.flatMap Passage.moments).map Moment.step =
      (passages.map Passage.scenario).flatMap Scenario.steps := by
  induction series with
  | done context => rfl
  | further course others ih =>
      rw [List.flatMap_cons, List.forall_mem_append] at smooth
      rw [List.flatMap_cons, List.map_append, ih smooth.2, course.map_step_eq smooth.1]
      rfl

variable [LawfulMonad m] [LawfulMonadAttach m]

theorem Moment.Smooth.check_eq_nil_iff {moment : Moment} (smooth : moment.Smooth now)
    (on : moment.On chain now) (within : moment.before.Within d) (location : String) :
    Check.step d location moment.step = [] ↔ moment.step.ExpectsDeclared d := by
  obtain ⟨index, step, before, executed, after⟩ := moment
  obtain ⟨execution, rfl, resolved⟩ := smooth
  have ends : step.Ends before now (.ok execution) after := on.ends
  obtain ⟨request, planned⟩ := ends.exists_plan
  rw [Check.step_eq_nil_of_plan within planned, Check.templates_declare]
  intro value member
  obtain ⟨found, same⟩ := resolved value member
  exact Check.template_eq_none_of_resolve (ends.within within) same location

namespace Trail

variable {before last : Context} {moments : List Moment}

theorem within (trail : Trail chain now before moments last) (first : before.Within d) :
    last.Within (d.declareAll (moments.map Moment.step)) := by
  induction trail generalizing d with
  | done context => exact first
  | further on others ih => exact ih (on.ends.within first)

theorem check_eq_nil_iff (trail : Trail chain now before moments last)
    (smooth : ∀ moment ∈ moments, moment.Smooth now) (first : before.Within d)
    (locate : Nat → Step → String) (position : Nat) :
    (Check.steps locate position d (moments.map Moment.step)).1 = [] ↔
      d.Foresees (moments.map Moment.step) := by
  induction trail generalizing d position with
  | done context => exact iff_of_true rfl trivial
  | further on others ih =>
      obtain ⟨own, smooth⟩ := List.forall_mem_cons.mp smooth
      simp only [List.map_cons, Check.steps, List.append_eq_nil_iff, Declared.Foresees]
      rw [own.check_eq_nil_iff on first, ih smooth (on.ends.within first)]

end Trail

/-! Scenarios. -/

theorem Series.check_eq_nil_iff {before last : Context} {passages : List Passage}
    (series : Series chain now .continue before passages last)
    (smooth : ∀ moment ∈ passages.flatMap Passage.moments, moment.Smooth now)
    (first : before.Within d) :
    (Check.scenarios d (passages.map Passage.scenario)).1 = [] ↔
      d.Foresees ((passages.map Passage.scenario).flatMap Scenario.steps) := by
  induction series generalizing d with
  | done context => exact iff_of_true rfl trivial
  | @further s moments passages before after last course others ih =>
      rw [List.flatMap_cons, List.forall_mem_append] at smooth
      have executed := course.map_step_eq smooth.1
      have left := course.trail.within first
      have own := course.trail.check_eq_nil_iff smooth.1 first (Check.stepLocation s.name) 0
      rw [executed] at left own
      simp only [List.map_cons, Check.scenarios, List.append_eq_nil_iff, List.flatMap_cons,
        Declared.foresees_append]
      rw [own, Check.steps_snd, ih smooth.2 left]

namespace SuiteDefinition

/-- The steps of a suite in the order of their execution. -/
def steps (definition : SuiteDefinition) : List Step :=
  definition.scenarios.flatMap Scenario.steps ++ definition.teardown.getD []

theorem check_eq_nil_iff {definition : SuiteDefinition} : definition.check = [] ↔
    (Check.setup definition.setup).1 = [] ∧
      (Check.scenarios (Check.setup definition.setup).2 definition.scenarios).1 = [] ∧
      (Check.steps Check.teardownLocation 0
        (Check.scenarios (Check.setup definition.setup).2 definition.scenarios).2
        (definition.teardown.getD [])).1 = [] := by
  simp only [check, List.append_eq_nil_iff, and_assoc]

theorem foresees_steps_iff {definition : SuiteDefinition} :
    (Check.setup definition.setup).2.Foresees definition.steps ↔
      ∀ front s back name, definition.steps = front ++ s :: back → s.Deploys name →
        s.ExpectsAddress name →
          name ∈ definition.provided ∨ ∃ earlier ∈ front, earlier.Deploys name := by
  simp only [Declared.foresees_iff, Step.ExpectsDeclared, Declared.mem_declareAll, Check.mem_setup]
  constructor
  · intro each front s back name split
    exact each front s back split name
  · intro each front s back split name
    exact each front s back name split

theorem check_eq_nil_iff_foresees {definition : SuiteDefinition} {store : Option Store}
    {network : String} {setupNow : Nat} {context last final : Context} {passages : List Passage}
    {moments : List Moment}
    (prepared : CanReturn ((Suite.ofDefinition definition store network setupNow).setup chain)
      (.ok context))
    (series : Series chain now .continue context passages last)
    (order : definition.scenarios = passages.map Passage.scenario)
    (trail : Trail chain setupNow last moments final)
    (torn : moments.map Moment.step = definition.teardown.getD [])
    (smooth : ∀ moment ∈ passages.flatMap Passage.moments, moment.Smooth now)
    (clean : ∀ moment ∈ moments, moment.Smooth setupNow) :
    definition.check = [] ↔ (Check.setup definition.setup).2.Foresees definition.steps := by
  obtain ⟨silent, within⟩ := Setup.setup_within prepared
  have scenarios := series.check_eq_nil_iff smooth within
  have left := series.trail.within within
  rw [series.map_step_eq smooth, ← order] at left
  rw [← order] at scenarios
  have teardown := trail.check_eq_nil_iff clean left Check.teardownLocation 0
  rw [torn] at teardown
  rw [check_eq_nil_iff, Check.scenarios_snd, scenarios, teardown, steps, Declared.foresees_append]
  exact and_iff_right silent

/-- Of a suite that runs to its end without an error before the chain and without an unresolved
token in an expected event, the check objects to nothing, unless there is a step that expects the
address of the contract which it deploys and which nothing before it provides. -/
theorem check_silent_iff (definition : SuiteDefinition) (store : Option Store) (network : String)
    (setupNow : Nat) (chain : Chain m) (now : Nat) :
    let options : RunOptions := ⟨.continue, false, none⟩
    let watched := definition.watch store network setupNow chain now options
    (fun watched => watched.1.report definition.metadata.name now) <$> watched =
        (Suite.ofDefinition definition store network setupNow).run chain now options ∧
      ∀ run cleanup, CanReturn watched (run, cleanup) → (∃ context, run.setup = .ok context) →
        (∀ moment ∈ run.moments, moment.Smooth now) →
        (∀ moment ∈ cleanup, moment.Smooth setupNow) →
          (definition.check = [] ↔ ∀ front s back name, definition.steps = front ++ s :: back →
            s.Deploys name → s.ExpectsAddress name →
              name ∈ definition.provided ∨ ∃ earlier ∈ front, earlier.Deploys name) := by
  intro options watched
  refine ⟨run_eq_watch definition store network setupNow chain now options, ?_⟩
  rintro run cleanup ran ⟨prepared, ready⟩ smooth clean
  obtain ⟨found, setupRan, ran⟩ := canReturn_bind_imp' ran
  cases found with
  | error e =>
      cases eq_of_canReturn_pure ran
      contradiction
  | ok context =>
      obtain ⟨⟨passages, skipped, last⟩, playedRan, ran⟩ := canReturn_bind_imp' ran
      obtain ⟨⟨moments, final⟩, tornRan, returned⟩ := canReturn_bind_imp' ran
      cases eq_of_canReturn_pure returned
      have played := played_of_watchScenarios playedRan
      obtain ⟨torn, trail⟩ := Teardown.trail_of_watch tornRan
      have none : skipped = [] := by
        by_contra some
        exact Bool.false_ne_true (played.cut some).1
      have all : (Suite.ofDefinition definition store network setupNow : Suite m).selected options =
          definition.scenarios := List.filter_eq_self.mpr fun _ _ => rfl
      have order := played.order
      rw [none, List.append_nil, all] at order
      rw [check_eq_nil_iff_foresees setupRan played.series order trail torn smooth clean,
        foresees_steps_iff]

def announced : Step :=
  (Step.deploy "box" "Box").expecting
    (Expectation.succeeds.withEvents
      [.detailed "Made" [("self", .string "\x7b\x7bbox.address\x7d\x7d")]])

def replacement : SuiteDefinition where
  metadata := ⟨"replacement", none, [], none⟩
  setup := none
  teardown := some [(Step.deploy "lid" "Lid").withArgs [.string "\x7b\x7bbox.address\x7d\x7d"]]
  scenarios := [⟨"first", none, [Step.deploy "box" "Box"]⟩, ⟨"second", none, [announced]⟩]

theorem check_silent_of_replacement :
    ∃ run cleanup, replacement.watch none "local" 0 Suite.obliging 0 ⟨.continue, false, none⟩ =
        (run, cleanup) ∧ replacement.check = [] := by
  obtain ⟨-, each⟩ := check_silent_iff replacement none "local" 0 Suite.obliging 0
  refine ⟨_, _, rfl, ?_⟩
  refine (each _ _ rfl ⟨_, rfl⟩ ?_ ?_).mpr ?_
  · refine List.forall_mem_cons.mpr ⟨⟨_, rfl, List.forall_mem_nil _⟩, ?_⟩
    exact List.forall_mem_singleton.mpr ⟨_, rfl, List.forall_mem_singleton.mpr ⟨_, rfl⟩⟩
  · exact List.forall_mem_singleton.mpr ⟨_, rfl, List.forall_mem_nil _⟩
  · rintro front s back name split ⟨artifact, args, deploys⟩ ⟨value, expected, -⟩
    match front with
    | [] =>
        cases split
        contradiction
    | [_] =>
        cases split
        cases deploys
        exact .inr ⟨_, .head _, _, _, rfl⟩
    | [_, _] =>
        cases split
        contradiction
    | _ :: _ :: _ :: rest =>
        have whole := congrArg List.length split
        simp [steps, replacement] at whole

def newborn : SuiteDefinition where
  metadata := ⟨"newborn", none, [], none⟩
  setup := none
  teardown := none
  scenarios := [⟨"first", none, [announced]⟩]

theorem alarmed_of_newborn :
    newborn.check ≠ [] ∧ ∃ run,
      newborn.watch none "local" 0 Suite.obliging 0 ⟨.continue, false, none⟩ = (run, []) ∧
        (∃ context, run.setup = .ok context) ∧ ∀ moment ∈ run.moments, moment.Smooth 0 := by
  refine ⟨by decide, _, rfl, ⟨_, rfl⟩, List.forall_mem_singleton.mpr ⟨_, rfl, ?_⟩⟩
  exact List.forall_mem_singleton.mpr ⟨_, rfl⟩

end SuiteDefinition

end Rehearsal
