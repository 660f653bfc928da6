import Rehearsal.Proofs.Scenario.Stepping
import Rehearsal.Proofs.Suite.Lifecycle

namespace Rehearsal

open MonadAttach (CanReturn)

/-! What becomes of a context in a run. Its signers, its default signer and its metadata stay as
they are, and a name is bound to another contract only by a step that deploys one under this name
and succeeds. -/

theorem Execution.metadata_deployed (context : Context) (name : String)
    (answer : Except ChainError Deployment) :
    (deployed context name answer).2.metadata = context.metadata := by
  cases answer with
  | error e => rfl
  | ok deployment =>
      rw [(deployed_ok context name deployment).2, Context.metadata_insertContract]

theorem Step.Ends.metadata {s : Step} {context after : Context} {now : Nat}
    {executed : Except RunError Execution} (ends : s.Ends context now executed after) :
    after.metadata = context.metadata := by
  cases ends with
  | refused planned => rfl
  | deployed planned answer => exact Execution.metadata_deployed context _ answer
  | called planned reads answer => rfl
  | sent planned writes answer => rfl

theorem Context.Extends.trans {first second third : Context} (later : third.Extends second)
    (earlier : second.Extends first) : third.Extends first where
  contracts name has := later.contracts name (earlier.contracts name has)
  signers := later.signers.trans earlier.signers
  defaultSigner := later.defaultSigner.trans earlier.defaultSigner

variable {m : Type → Type} [MonadAttach m]

namespace Moment

/-- The step deploys a contract under a name, and succeeds. -/
def DeploysUnder (moment : Moment) (name : String) : Prop :=
  (∃ artifact args, moment.step.action = .deploy name artifact args) ∧
    ∃ execution, moment.executed = .ok execution ∧ execution.outcome.succeeded = true

/-- The chain answers the deployment of the step with a contract, and this is bound to the name. -/
def Binds (chain : Chain m) (now : Nat) (moment : Moment) (name : String) (handle : Handle) :
    Prop :=
  ∃ artifact args options deployment,
    moment.step.plan moment.before now = .ok (.deploy name artifact args options) ∧
      CanReturn (chain.deploy artifact args options) (.ok deployment) ∧
      deployment.handle = handle ∧ moment.after = moment.before.insertContract name handle

variable {chain : Chain m} {now : Nat} {name : String}

theorem Binds.get?_after {moment : Moment} {handle : Handle}
    (binds : moment.Binds chain now name handle) :
    moment.after.contracts.get? name = some handle := by
  obtain ⟨_, _, _, _, -, -, -, bound⟩ := binds
  rw [bound, Context.get?_insertContract, if_pos rfl]

variable [Monad m]

def On (chain : Chain m) (now : Nat) (moment : Moment) : Prop :=
  CanReturn (moment.step.execute chain now moment.before) (moment.executed, moment.after)

variable [LawfulMonad m] [LawfulMonadAttach m] {moment : Moment}

theorem On.ends (on : moment.On chain now) :
    moment.step.Ends moment.before now moment.executed moment.after :=
  Step.ends_of_execute on

theorem On.exists_binds (on : moment.On chain now) (deploys : moment.DeploysUnder name) :
    ∃ handle, moment.Binds chain now name handle := by
  obtain ⟨index, step, before, executed, after⟩ := moment
  obtain ⟨⟨given, values, action⟩, execution, reached, succeeded⟩ := deploys
  have ends : step.Ends before now executed after := on.ends
  cases reached
  cases ends with
  | deployed planned answer =>
      obtain ⟨_, _, named⟩ := Step.action_of_plan_deploy planned
      cases action.symm.trans named
      -- The answer that the step ended with is one that the chain can give.
      obtain ⟨answer, answered, told, left⟩ := Step.deployed_of_execute planned on
      cases answer with
      | error e =>
          rw [Except.ok.injEq, Execution.mk.injEq] at told
          rw [told.1] at succeeded
          contradiction
      | ok deployment =>
          exact ⟨_, _, _, _, deployment, planned, answered, rfl,
            left.trans (Execution.deployed_ok _ _ deployment).2⟩
  | called planned reads answer =>
      exact absurd action (Step.action_ne_deploy planned)
  | sent planned writes answer =>
      exact absurd action (Step.action_ne_deploy planned)

theorem On.get?_of_not_deploysUnder (on : moment.On chain now)
    (stays : ¬moment.DeploysUnder name) :
    moment.after.contracts.get? name = moment.before.contracts.get? name := by
  obtain ⟨index, step, before, executed, after⟩ := moment
  have ends : step.Ends before now executed after := on.ends
  cases ends with
  | refused planned => rfl
  | @deployed other _ _ _ planned answer =>
      cases answer with
      | error e => rfl
      | ok deployment =>
          have left := Execution.deployed_ok before other deployment
          have different : other ≠ name := by
            rintro rfl
            obtain ⟨given, values, action⟩ := Step.action_of_plan_deploy planned
            exact stays ⟨⟨given, values, action⟩, _, rfl, left.1⟩
          simp only
          rw [left.2, Context.get?_insertContract, if_neg different]
  | called planned reads answer => rfl
  | sent planned writes answer => rfl

end Moment

/-! Runs. -/

variable [Monad m]

/-- Moments of a chain, of which each begins with the context that the one before it left. -/
inductive Trail (chain : Chain m) (now : Nat) : Context → List Moment → Context → Prop where
  | done (context : Context) : Trail chain now context [] context
  | further {moment : Moment} {moments : List Moment} {last : Context} (on : moment.On chain now)
      (others : Trail chain now moment.after moments last) :
      Trail chain now moment.before (moment :: moments) last

variable {chain : Chain m} {now : Nat} {before last : Context} {moments : List Moment}

theorem Trail.append {others : List Moment} {final : Context}
    (first : Trail chain now before moments last) (second : Trail chain now last others final) :
    Trail chain now before (moments ++ others) final := by
  induction first with
  | done context => exact second
  | further on rest ih => exact .further on (ih second)

theorem Course.trail {policy : FailurePolicy} {index : Nat} {steps : List Step}
    (course : Course chain now policy index steps before moments last) :
    Trail chain now before moments last := by
  induction course with
  | done index context => exact .done context
  | @stopped index step rest before after executed ran stops =>
      have on : Moment.On chain now ⟨index, step, before, executed, after⟩ := ran
      exact .further on (.done after)
  | @further index step rest before after last executed moments ran goesOn others ih =>
      have on : Moment.On chain now ⟨index, step, before, executed, after⟩ := ran
      exact .further on ih

theorem Series.trail {policy : FailurePolicy} {passages : List Passage}
    (series : Series chain now policy before passages last) :
    Trail chain now before (passages.flatMap Passage.moments) last := by
  induction series with
  | done context => exact .done context
  | further course others ih => exact course.trail.append ih

/-- What becomes of a context in moments of a chain. -/
structure Grown (chain : Chain m) (now : Nat) (before : Context) (moments : List Moment)
    (last : Context) : Prop where
  signers : last.signers = before.signers
  defaultSigner : last.defaultSigner = before.defaultSigner
  metadata : last.metadata = before.metadata
  kept : ∀ name, before.HasContract name → last.HasContract name
  /-- The last moment that deploys under a name decides which contract the name is bound to. -/
  rebound : ∀ name front moment back, moments = front ++ moment :: back →
    moment.DeploysUnder name → (∀ later ∈ back, ¬later.DeploysUnder name) →
    ∃ handle, moment.Binds chain now name handle ∧ last.contracts.get? name = some handle
  unmoved : ∀ name, (∀ moment ∈ moments, ¬moment.DeploysUnder name) →
    last.contracts.get? name = before.contracts.get? name

namespace Trail

variable [LawfulMonad m] [LawfulMonadAttach m] {name : String}

theorem extends_before (trail : Trail chain now before moments last) : last.Extends before := by
  induction trail with
  | done context => exact .refl context
  | further on others ih => exact ih.trans on.ends.extends

theorem metadata_eq (trail : Trail chain now before moments last) :
    last.metadata = before.metadata := by
  induction trail with
  | done context => rfl
  | further on others ih => exact ih.trans on.ends.metadata

theorem get?_of_none (trail : Trail chain now before moments last)
    (none : ∀ moment ∈ moments, ¬moment.DeploysUnder name) :
    last.contracts.get? name = before.contracts.get? name := by
  induction trail with
  | done context => rfl
  | further on others ih =>
      obtain ⟨first, none⟩ := List.forall_mem_cons.mp none
      rw [ih none, on.get?_of_not_deploysUnder first]

theorem get?_of_last (trail : Trail chain now before moments last) {front back : List Moment}
    {moment : Moment} (split : moments = front ++ moment :: back)
    (deploys : moment.DeploysUnder name) (none : ∀ later ∈ back, ¬later.DeploysUnder name) :
    ∃ handle, moment.Binds chain now name handle ∧ last.contracts.get? name = some handle := by
  induction trail generalizing front with
  | done context => simp at split
  | further on others ih =>
      cases front with
      | nil =>
          cases split
          obtain ⟨handle, binds⟩ := on.exists_binds deploys
          exact ⟨handle, binds, (others.get?_of_none none).trans binds.get?_after⟩
      | cons head front =>
          obtain ⟨-, split⟩ := List.cons.inj split
          exact ih split

theorem grown (trail : Trail chain now before moments last) :
    Grown chain now before moments last where
  signers := trail.extends_before.signers
  defaultSigner := trail.extends_before.defaultSigner
  metadata := trail.metadata_eq
  kept := trail.extends_before.contracts
  rebound _ _ _ _ split deploys none := trail.get?_of_last split deploys none
  unmoved _ none := trail.get?_of_none none

end Trail

namespace Suite

variable [LawfulMonad m] [LawfulMonadAttach m]

/-- The context that the teardown of a suite is given is the one that setup returned, but for the
contracts that the executed steps of the reported scenarios deployed. -/
theorem context_grows_by_deploys (suite : Suite m) (chain : Chain m) (now : Nat)
    (options : RunOptions) :
    let recorded := ((suite.recorded chain).run chain.recorded now options).run []
    Prod.fst <$> recorded = suite.run chain now options ∧
      ∀ report marks context last torn, CanReturn recorded (report, marks) →
        .setup (.ok context) ∈ marks → .teardown last torn ∈ marks →
          ∃ passages skipped,
            Played chain now options (suite.selected options) context passages skipped last ∧
              report = Watched.conclude (suite.reportOf now passages skipped) torn ∧
              Grown chain now context (passages.flatMap Passage.moments) last := by
  intro recorded
  refine ⟨fst_run_recorded chain now suite options, fun report marks context last torn ran ready
    given => ?_⟩
  have lifecycle := lifecycle_of_run ran
  cases lifecycle with
  | unprepared failed => simp at ready
  | leftStanding prepared played absent => simp at given
  | @tornDown prepared final passages skipped teardown result _ played present done =>
      have same : context = prepared := by simpa using ready
      obtain ⟨rfl, rfl⟩ : last = final ∧ torn = result := by simpa using given
      subst same
      exact ⟨passages, skipped, played, rfl, played.series.trail.grown⟩

def obliging : Chain Id where
  signers := .ok [.ofLow 1]
  deploy artifact _ _ := .ok ⟨⟨artifact, .zero, ⟨[]⟩⟩, none⟩
  call _ _ _ _ := .error (.reverted none none)
  send _ _ _ _ := .error (.reverted none none)

def succession : Suite Id :=
  ofHooks ⟨"succession", none, [], none⟩
    [⟨"succession", none, [Step.deploy "vault" "Chest", Step.deploy "vault" "Safe"]⟩] none
    (some fun _ _ => .ok ())

theorem context_grows_of_succession :
    ∃ report marks context last torn,
      ((succession.recorded obliging).run obliging.recorded 0 ⟨.abort, false, none⟩).run [] =
          (report, marks) ∧
        .setup (.ok context) ∈ marks ∧ .teardown last torn ∈ marks ∧
        (last.contracts.get? "vault").map Handle.artifact = some "Safe" ∧
        ∃ moments, Grown obliging 0 context moments last := by
  obtain ⟨-, each⟩ := context_grows_by_deploys succession obliging 0 ⟨.abort, false, none⟩
  refine ⟨_, _, _, _, _, rfl, .head _, .tail _ (.tail _ (.tail _ (.head _))), by rfl, ?_⟩
  obtain ⟨passages, -, -, -, grown⟩ :=
    each _ _ _ _ _ rfl (.head _) (.tail _ (.tail _ (.tail _ (.head _))))
  exact ⟨_, grown⟩

end Suite

end Rehearsal
