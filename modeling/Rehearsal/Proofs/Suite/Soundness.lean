import Rehearsal.Proofs.Suite.Preparation
import Rehearsal.Proofs.Suite.Watch

namespace Rehearsal

open MonadAttach (CanReturn)
open LawfulMonadAttach (canReturn_bind_imp' eq_of_canReturn_pure)

/-! A suite that is checked without an issue runs without unresolved names. The context covers what
the check takes to be declared, step by step, as long as no step ends with an error; so a first
error is none of what the check looks for. -/

namespace Moment

/-- The step came to an outcome. -/
def Reached (moment : Moment) : Prop :=
  ∃ execution, moment.executed = .ok execution

/-- The step is no deployment, or succeeded as far as it came to an outcome. -/
def DeploySucceeds (moment : Moment) : Prop :=
  ∀ name artifact args execution, moment.step.action = .deploy name artifact args →
    moment.executed = .ok execution → execution.outcome.succeeded = true

/-- Everything in the step is resolved, and an error of it tells of a missing function. -/
structure Sound (moment : Moment) (now : Nat) : Prop where
  resolved : moment.step.Resolved moment.before moment.after now
  error : ∀ e, moment.executed = .error e → moment.step.LacksFunction moment.before e

end Moment

/-- Every step is sound before which no step ended with an error. -/
def SoundUntilError (now : Nat) (moments : List Moment) : Prop :=
  ∀ front moment back, moments = front ++ moment :: back →
    (∀ earlier ∈ front, earlier.Reached) → moment.Sound now

namespace SoundUntilError

variable {now : Nat}

theorem nil : SoundUntilError now [] := by
  intro front moment back split
  simp at split

theorem append {moments others : List Moment} (first : SoundUntilError now moments)
    (second : (∀ moment ∈ moments, moment.Reached) → SoundUntilError now others) :
    SoundUntilError now (moments ++ others) := by
  intro front moment back split reached
  rcases List.append_eq_append_iff.mp split with ⟨rest, rfl, tail⟩ | ⟨rest, rfl, tail⟩
  · exact second (fun earlier member => reached earlier (List.mem_append_left rest member)) rest
      moment back tail fun earlier member => reached earlier (List.mem_append_right moments member)
  · cases rest with
    | nil =>
        rw [List.append_nil] at second
        exact second reached [] moment back tail.symm (List.forall_mem_nil _)
    | cons head rest =>
        obtain ⟨rfl, -⟩ := List.cons.inj tail
        exact first front moment rest rfl reached

theorem singleton {moment : Moment} (sound : moment.Sound now) : SoundUntilError now [moment] := by
  intro front other back split _
  have whole := congrArg List.length split
  cases front with
  | nil =>
      obtain ⟨rfl, -⟩ := List.cons.inj split
      exact sound
  | cons head rest =>
      simp at whole

end SoundUntilError

/-! Steps. -/

variable {d after : Declared} {count now : Nat}

theorem Moment.sound_of_ends {moment : Moment} {location : String}
    (ends : moment.step.Ends moment.before now moment.executed moment.after)
    (checked : Check.step d location moment.step = [])
    (below : ∀ name ∈ moment.step.mentions, AccountBelow count name)
    (covers : moment.before.Covers d count) : moment.Sound now := by
  have resolved := Step.resolved_of_covers now checked below covers
    (covers.of_extends ends.extends)
  refine ⟨resolved, fun e failed => ?_⟩
  obtain ⟨index, step, before, executed, left⟩ := moment
  cases failed
  cases ends with
  | refused planned => exact Step.lacksFunction_of_plan resolved planned

theorem stopsAt_continue {moment : Moment} :
    FailurePolicy.continue.stopsAt (moment.result now) = true ↔ ¬moment.Reached := by
  obtain ⟨index, step, before, executed, last⟩ := moment
  cases executed with
  | error e => simp [FailurePolicy.stopsAt, Moment.result, Step.result, Moment.Reached]
  | ok execution =>
      have notAbort : (FailurePolicy.continue == FailurePolicy.abort) = false := rfl
      simp [FailurePolicy.stopsAt, Moment.result, Step.result, Moment.Reached, notAbort]

variable {m : Type → Type} [Monad m] [LawfulMonad m] [MonadAttach m] [LawfulMonadAttach m]
  {chain : Chain m}

theorem watchSteps_sound {locate : Nat → Step → String} {position index : Nat} {steps : List Step}
    {context last : Context} {moments : List Moment}
    (checked : Check.steps locate position d steps = ([], after))
    (below : ∀ step ∈ steps, ∀ name ∈ step.mentions, AccountBelow count name)
    (covers : context.Covers d count)
    (ran : CanReturn (Scenario.watchSteps chain now .continue index steps context) (moments, last))
    (deploys : ∀ moment ∈ moments, moment.DeploySucceeds) :
    SoundUntilError now moments ∧
      ((∀ moment ∈ moments, moment.Reached) → last.Covers after count) := by
  induction steps generalizing position index d context moments with
  | nil =>
      cases checked
      cases eq_of_canReturn_pure ran
      exact ⟨.nil, fun _ => covers⟩
  | cons step rest ih =>
      obtain ⟨own, others⟩ := Prod.mk.inj checked
      obtain ⟨stepChecked, restChecked⟩ := List.append_eq_nil_iff.mp own
      have restChecked : Check.steps locate (position + 1) (Check.declare d step.action) rest =
          ([], after) := Prod.ext restChecked others
      obtain ⟨⟨executed, left⟩, stepped, ran⟩ := canReturn_bind_imp' ran
      have ends := Step.ends_of_execute stepped
      have sound : Moment.Sound ⟨index, step, context, executed, left⟩ now :=
        Moment.sound_of_ends ends stepChecked (below step List.mem_cons_self) covers
      simp only at ran
      split at ran
      · next stops =>
        cases eq_of_canReturn_pure ran
        refine ⟨.singleton sound, fun reached => ?_⟩
        exact absurd (reached _ List.mem_cons_self) (stopsAt_continue.mp stops)
      · next goesOn =>
        -- The step came to an outcome, so the context behind it covers what the check declares.
        obtain ⟨⟨tail, final⟩, tailRan, returned⟩ := canReturn_bind_imp' ran
        cases eq_of_canReturn_pure returned
        obtain ⟨execution, reached⟩ := Classical.not_not.mp (mt stopsAt_continue.mpr goesOn)
        have succeeded := deploys _ List.mem_cons_self
        simp only at reached
        subst reached
        have coversLeft : left.Covers (Check.declare d step.action) count :=
          ends.covers covers fun name artifact args action =>
            succeeded name artifact args execution action rfl
        obtain ⟨soundTail, coversLast⟩ := ih restChecked
          (fun other member => below other (List.mem_cons_of_mem step member)) coversLeft
          tailRan fun moment member => deploys moment (List.mem_cons_of_mem _ member)
        refine ⟨.append (.singleton sound) fun _ => soundTail, fun reached => ?_⟩
        exact coversLast fun moment member => reached moment (List.mem_cons_of_mem _ member)

/-! Scenarios. -/

theorem watchScenarios_sound {scenarios : List Scenario} {context last : Context}
    {passages : List Passage} {skipped : List Scenario}
    (checked : Check.scenarios d scenarios = ([], after))
    (below : ∀ s ∈ scenarios, ∀ step ∈ s.steps, ∀ name ∈ step.mentions, AccountBelow count name)
    (covers : context.Covers d count)
    (ran : CanReturn (Suite.watchScenarios chain now ⟨.continue, false, none⟩ scenarios context)
      (passages, skipped, last))
    (deploys : ∀ moment ∈ passages.flatMap Passage.moments, moment.DeploySucceeds) :
    SoundUntilError now (passages.flatMap Passage.moments) := by
  induction scenarios generalizing d context passages with
  | nil =>
      cases eq_of_canReturn_pure ran
      exact .nil
  | cons s rest ih =>
      obtain ⟨own, others⟩ := Prod.mk.inj checked
      obtain ⟨ownChecked, restChecked⟩ := List.append_eq_nil_iff.mp own
      have stepsChecked : Check.steps (Check.stepLocation s.name) 0 d s.steps =
          ([], (Check.steps (Check.stepLocation s.name) 0 d s.steps).2) := Prod.ext ownChecked rfl
      have restChecked : Check.scenarios (Check.steps (Check.stepLocation s.name) 0 d s.steps).2
          rest = ([], after) := Prod.ext restChecked others
      obtain ⟨⟨passage, left⟩, watched, tailRan⟩ := canReturn_bind_imp' ran
      obtain ⟨⟨moments, final⟩, stepsRan, returned⟩ := canReturn_bind_imp' watched
      cases eq_of_canReturn_pure returned
      obtain ⟨⟨tail, missed, final⟩, tailRan, returned⟩ := canReturn_bind_imp' tailRan
      cases eq_of_canReturn_pure returned
      rw [List.flatMap_cons] at deploys ⊢
      obtain ⟨sound, coversLeft⟩ := watchSteps_sound stepsChecked (below s List.mem_cons_self)
        covers stepsRan fun moment member => deploys moment (List.mem_append_left _ member)
      refine sound.append fun reached => ?_
      exact ih restChecked (fun other member => below other (List.mem_cons_of_mem s member))
        (coversLeft reached) tailRan
        fun moment member => deploys moment (List.mem_append_right _ member)

/-- The signers that the scenario steps of a suite refer to by their names. -/
def SuiteDefinition.mentions (definition : SuiteDefinition) : List String :=
  definition.scenarios.flatMap fun s => s.steps.flatMap Step.mentions

theorem Suite.watch_sound {definition : SuiteDefinition} {store : Option Store} {network : String}
    {setupNow : Nat} {watched : Watched} (checked : definition.check = [])
    (accounts : ∀ accounts, CanReturn chain.signers (.ok accounts) → accounts ≠ [] ∧
      ∀ name ∈ definition.mentions, AccountBelow accounts.length name)
    (ran : CanReturn ((ofDefinition definition store network setupNow).watch chain now
      ⟨.continue, false, none⟩) watched)
    (deploys : ∀ moment ∈ watched.moments, moment.DeploySucceeds) :
    SoundUntilError now watched.moments := by
  obtain ⟨checked, -⟩ := List.append_eq_nil_iff.mp checked
  obtain ⟨-, scenariosChecked⟩ := List.append_eq_nil_iff.mp checked
  obtain ⟨setup, setupRan, ran⟩ := canReturn_bind_imp' ran
  cases setup with
  | error e =>
      cases eq_of_canReturn_pure ran
      exact .nil
  | ok context =>
      obtain ⟨found, returned, covers⟩ := Setup.setup_covers setupRan
      obtain ⟨nonempty, below⟩ := accounts found returned
      obtain ⟨⟨passages, skipped, last⟩, scenariosRan, ran⟩ := canReturn_bind_imp' ran
      obtain ⟨teardown, -, ran⟩ := canReturn_bind_imp' ran
      cases eq_of_canReturn_pure ran
      have selected : (ofDefinition (m := m) definition store network setupNow).selected
          ⟨.continue, false, none⟩ = definition.scenarios :=
        List.filter_eq_self.mpr fun _ _ => rfl
      rw [selected] at scenariosRan
      have scenariosChecked : Check.scenarios (Check.setup definition.setup).2
          definition.scenarios = ([], _) := Prod.ext scenariosChecked rfl
      refine watchScenarios_sound scenariosChecked ?_ (covers nonempty) scenariosRan deploys
      intro s member step stepMember name mentioned
      exact below name (List.mem_flatMap.mpr
        ⟨s, member, List.mem_flatMap.mpr ⟨step, stepMember, mentioned⟩⟩)

/-- The check of a suite is sound: when it finds no issue, all steps of a run up to a first error of a
scenario step are resolved, and such an error can only tell of a missing function. -/
theorem soundUntilError_of_check (definition : SuiteDefinition) (store : Option Store)
    (network : String) (setupNow : Nat) (chain : Chain m) (now : Nat)
    (checked : definition.check = [])
    (accounts : ∀ accounts, CanReturn chain.signers (.ok accounts) → accounts ≠ [] ∧
      ∀ name ∈ definition.mentions, AccountBelow accounts.length name) :
    let suite : Suite m := .ofDefinition definition store network setupNow
    let options : RunOptions := ⟨.continue, false, none⟩
    (fun watched => watched.report definition.metadata.name now) <$>
        suite.watch chain now options = suite.run chain now options ∧
      ∀ watched, CanReturn (suite.watch chain now options) watched →
        (∀ moment ∈ watched.moments, moment.DeploySucceeds) →
          SoundUntilError now watched.moments := by
  intro suite options
  exact ⟨(suite.run_eq_watch chain now options).symm,
    fun _ ran deploys => Suite.watch_sound checked accounts ran deploys⟩

def obliging : Chain Id where
  signers := .ok [.zero]
  deploy artifact _ _ := .ok ⟨⟨artifact, .zero, .empty⟩, none⟩
  call _ _ _ _ := .ok .null
  send _ _ _ _ := .error (.artifactNotFound "")

def tokenSuite : SuiteDefinition where
  metadata := ⟨"token", none, [], none⟩
  setup := some ⟨[("owner", 0)], some "owner", [], []⟩
  teardown := none
  scenarios := [⟨"deployed", none,
    [((Step.deploy "token" "Token").withArgs [.string "\x7b\x7bowner\x7d\x7d"]).withSender "signer0",
      (Step.call "token" "total").withValue (.string "1 gwei")]⟩]

def tokenRun : Watched :=
  Id.run ((Suite.ofDefinition tokenSuite none "local" 0).watch obliging 0 ⟨.continue, false, none⟩)

theorem soundUntilError_tokenRun :
    tokenRun.moments.map (fun moment => moment.executed.toBool) = [true, false] ∧
      Id.run ((Suite.ofDefinition tokenSuite none "local" 0).run obliging 0
        ⟨.continue, false, none⟩) = tokenRun.report "token" 0 ∧
      SoundUntilError 0 tokenRun.moments := by
  have mentions : tokenSuite.mentions = ["signer0", "owner"] := by rfl
  have deployed : tokenRun.moments.all (fun moment => match moment.executed with
      | .ok execution => execution.outcome.succeeded
      | .error _ => true) = true := by
    rfl
  have checked : tokenSuite.check = [] := by decide
  have ran : CanReturn ((Suite.ofDefinition tokenSuite none "local" 0).watch obliging 0
      ⟨.continue, false, none⟩) tokenRun := rfl
  have accounts : ∀ accounts, CanReturn obliging.signers (.ok accounts) → accounts ≠ [] ∧
      ∀ name ∈ tokenSuite.mentions, AccountBelow accounts.length name := by
    intro accounts returned
    cases returned
    refine ⟨List.cons_ne_nil _ _, fun name mentioned account => ?_⟩
    rw [mentions] at mentioned
    rcases List.mem_cons.mp mentioned with rfl | owner
    · exact ⟨0, Nat.zero_lt_one, by rfl⟩
    · rw [List.mem_singleton.mp owner] at account
      exact absurd account (by decide)
  obtain ⟨watches, sound⟩ :=
    soundUntilError_of_check tokenSuite none "local" 0 obliging 0 checked accounts
  refine ⟨by rfl, watches.symm, sound _ ran ?_⟩
  intro moment member name artifact args execution _ executed
  have succeeded := List.all_eq_true.mp deployed moment member
  rwa [executed] at succeeded

end Rehearsal
