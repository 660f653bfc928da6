import Rehearsal.Proofs.Scenario.Judgement
import Rehearsal.Proofs.Suite.Growth

namespace Rehearsal

open MonadAttach (CanReturn)
open LawfulMonadAttach (canReturn_bind_imp' canReturn_map_imp' eq_of_canReturn_pure)

/-! Teardowns. No step of a teardown keeps another one from being executed, whatever becomes of it;
each is executed in the context that the one before it left, and the problems of those that failed
are told together in the end. -/

namespace Moment

def problem? (now : Nat) (moment : Moment) : Option String :=
  Teardown.problem? moment.step moment.after now moment.executed

/-- The step came to an outcome, and this is as expected: where nothing is expected, it succeeded. -/
def Fulfilled (now : Nat) (moment : Moment) : Prop :=
  ∃ execution, moment.executed = .ok execution ∧
    match moment.step.expect with
    | some expectation =>
        expectation.MetBy ⟨moment.after, some execution.signer, now⟩ execution.outcome
    | none => execution.outcome.succeeded = true

/-- An entry begins with the name of the step, and goes on with the error if there was one. -/
def ToldBy (moment : Moment) (entry : String) : Prop :=
  ∃ cause, entry = moment.step.displayName ++ ": " ++ cause ∧
    ∀ e, moment.executed = .error e → cause = e.message

end Moment

namespace Expectation

theorem metBy_succeeds_iff {r : Resolver} {o : Outcome} :
    succeeds.MetBy r o ↔ o.succeeded = true := by
  constructor
  · intro met
    exact met.success
  · intro succeeded
    exact ⟨succeeded, nofun, nofun, nofun, nofun⟩

end Expectation

namespace Moment

variable {moment : Moment} {now : Nat}

theorem problem?_eq_none_iff : moment.problem? now = none ↔ moment.Fulfilled now := by
  obtain ⟨index, step, before, executed, after⟩ := moment
  cases executed with
  | error e =>
      constructor
      · intro missing
        cases missing
      · rintro ⟨execution, reached, -⟩
        cases reached
  | ok execution =>
      have fulfilled_iff : Fulfilled now ⟨index, step, before, .ok execution, after⟩ ↔
          (step.expect.getD .succeeds).MetBy ⟨after, some execution.signer, now⟩
            execution.outcome := by
        unfold Fulfilled
        cases expected : step.expect with
        | none => simp [Expectation.metBy_succeeds_iff]
        | some expectation => simp
      rw [fulfilled_iff, ← Expectation.mismatches_eq_nil_iff, problem?, Teardown.problem?]
      simp only
      split
      · next clean => simp [clean]
      · next amiss => simpa using amiss

instance (now : Nat) : DecidablePred (Fulfilled now) := fun _ =>
  decidable_of_iff _ problem?_eq_none_iff

theorem toldBy_of_problem? {entry : String} (told : moment.problem? now = some entry) :
    moment.ToldBy entry := by
  obtain ⟨index, step, before, executed, after⟩ := moment
  cases executed with
  | error e =>
      cases told
      refine ⟨e.message, rfl, ?_⟩
      rintro other same
      cases same
      rfl
  | ok execution =>
      rw [problem?, Teardown.problem?] at told
      simp only at told
      split at told
      · contradiction
      · cases told
        exact ⟨_, rfl, nofun⟩

theorem forall₂_toldBy (moments : List Moment) (now : Nat) :
    List.Forall₂ ToldBy (moments.filter fun moment => ¬moment.Fulfilled now)
      (moments.filterMap (problem? now)) := by
  induction moments with
  | nil => exact .nil
  | cons moment rest ih =>
      cases told : moment.problem? now with
      | none =>
          have fulfilled := problem?_eq_none_iff.mp told
          rw [List.filterMap_cons_none told, List.filter_cons_of_neg (by simpa using fulfilled)]
          exact ih
      | some entry =>
          have unfulfilled : ¬moment.Fulfilled now := by
            intro fulfilled
            rw [problem?_eq_none_iff.mpr fulfilled] at told
            contradiction
          rw [List.filterMap_cons_some told, List.filter_cons_of_pos (by simpa using unfulfilled)]
          exact .cons (toldBy_of_problem? told) ih

end Moment

variable {m : Type → Type} [Monad m]

namespace Teardown

/-! A teardown that is watched. -/

def watch (chain : Chain m) (now : Nat) :
    (index : Nat) → List Step → Context → m (List Moment × Context)
  | _, [], context => return ([], context)
  | index, step :: rest, context => do
      let (executed, after) ← step.execute chain now context
      let (moments, last) ← watch chain now (index + 1) rest after
      return (⟨index, step, context, executed, after⟩ :: moments, last)

def verdict : List String → Except RunError Unit
  | [] => .ok ()
  | problems => .error (.teardown problems)

/-- What a teardown comes to by its steps as they were executed. -/
def resultOf (now : Nat) (moments : List Moment) : Except RunError Unit :=
  verdict (moments.filterMap (Moment.problem? now))

section

variable [LawfulMonad m] (chain : Chain m) (now : Nat)

theorem problems_eq_watch (index : Nat) (steps : List Step) (context : Context) :
    problems chain now steps context =
      (fun watched => watched.1.filterMap (Moment.problem? now)) <$>
        watch chain now index steps context := by
  induction steps generalizing index context with
  | nil => simp [problems, watch]
  | cons step rest ih =>
      simp only [problems, watch, map_bind, map_pure]
      refine bind_congr fun executed => ?_
      rw [ih (index + 1), bind_map_left]
      refine bind_congr fun watched => ?_
      rw [List.filterMap_cons]
      simp only [Moment.problem?]
      cases problem? step executed.2 now executed.1 with
      | none => rfl
      | some problem => rfl

theorem declared_eq_watch (steps : List Step) (context : Context) :
    declared steps now chain context =
      (fun watched => resultOf now watched.1) <$> watch chain now 0 steps context := by
  rw [declared, problems_eq_watch chain now 0, bind_map_left, map_eq_pure_bind]
  refine bind_congr fun watched => ?_
  unfold resultOf verdict
  split <;> simp [*]

theorem run_watch_recorded (index : Nat) (steps : List Step) (context : Context)
    (marks : List Mark) : (watch chain.recorded now index steps context).run marks =
      (fun watched =>
        (watched, marks ++ (watched.1.flatMap fun moment => moment.asks now).map .asked)) <$>
          watch chain now index steps context := by
  induction steps generalizing index context marks with
  | nil => simp [watch]
  | cons step rest ih =>
      simp only [watch, StateT.run_bind, Step.run_execute_recorded, map_bind, bind_map_left]
      refine bind_congr fun executed => ?_
      simp [ih, Moment.asks]

theorem run_declared_eq_watch (steps : List Step) (context : Context) :
    (declared steps now chain.recorded context).run [] =
      (fun watched => (resultOf now watched.1,
        (watched.1.flatMap fun moment => moment.asks now).map .asked)) <$>
          watch chain now 0 steps context := by
  rw [declared_eq_watch, StateT.run_map, run_watch_recorded, Functor.map_map]
  rfl

end

variable [MonadAttach m] {chain : Chain m} {now : Nat}

theorem trail_of_watch [LawfulMonad m] [LawfulMonadAttach m] {index : Nat} {steps : List Step}
    {context last : Context} {moments : List Moment}
    (ran : CanReturn (watch chain now index steps context) (moments, last)) :
    moments.map Moment.step = steps ∧ Trail chain now context moments last := by
  induction steps generalizing index context moments with
  | nil =>
      cases eq_of_canReturn_pure ran
      exact ⟨rfl, .done _⟩
  | cons step rest ih =>
      obtain ⟨⟨executed, after⟩, stepped, ran⟩ := canReturn_bind_imp' ran
      obtain ⟨⟨others, final⟩, othersRan, returned⟩ := canReturn_bind_imp' ran
      cases eq_of_canReturn_pure returned
      obtain ⟨same, trail⟩ := ih othersRan
      have on : Moment.On chain now ⟨index, step, context, executed, after⟩ := stepped
      exact ⟨congrArg (step :: ·) same, .further on trail⟩

end Teardown

theorem Trail.front [MonadAttach m] {chain : Chain m} {now : Nat} {before last : Context}
    {front back : List Moment} {moment : Moment}
    (trail : Trail chain now before (front ++ moment :: back) last) :
    Trail chain now before front moment.before := by
  induction front generalizing before with
  | nil =>
      cases trail
      exact .done _
  | cons head front ih =>
      cases trail with
      | further on others => exact .further on (ih others)

namespace Teardown

variable [MonadAttach m]

/-- How a teardown goes that starts with a context: which steps are executed, what they ask of the
chain, and what the teardown comes to. -/
structure TornDown (chain : Chain m) (now : Nat) (steps : List Step) (context : Context)
    (moments : List Moment) (marks : List Mark) (result : Except RunError Unit) : Prop where
  executed : moments.map Moment.step = steps
  trail : ∃ last, Trail chain now context moments last
  asked : marks = (moments.flatMap fun moment => moment.asks now).map .asked
  /-- A step finds the contracts that were deployed by the steps before it. -/
  found : ∀ front moment back, moments = front ++ moment :: back →
    Grown chain now context front moment.before
  succeeds : result = .ok () ↔ ∀ moment ∈ moments, moment.Fulfilled now
  fails : result ≠ .ok () → ∃ entries, result = .error (.teardown entries) ∧
    (RunError.teardown entries).message = "Teardown failed: " ++ Text.join ", " entries ∧
    List.Forall₂ Moment.ToldBy (moments.filter fun moment => ¬moment.Fulfilled now) entries

theorem resultOf_eq_ok_iff {now : Nat} {moments : List Moment} :
    resultOf now moments = .ok () ↔ ∀ moment ∈ moments, moment.Fulfilled now := by
  have clean : resultOf now moments = .ok () ↔ moments.filterMap (Moment.problem? now) = [] := by
    unfold resultOf verdict
    split
    · next none => simp [none]
    · next some => simpa using some
  rw [clean, List.filterMap_eq_nil_iff]
  simp only [Moment.problem?_eq_none_iff]

theorem resultOf_of_ne_ok {now : Nat} {moments : List Moment}
    (failed : resultOf now moments ≠ .ok ()) :
    resultOf now moments = .error (.teardown (moments.filterMap (Moment.problem? now))) := by
  unfold resultOf verdict at failed ⊢
  split
  · next none =>
    rw [none] at failed
    contradiction
  · rfl

/-- A teardown executes each of its steps once and in order, whatever becomes of the others, and
tells of those that failed. Recording what the steps ask of the chain changes nothing about it. -/
theorem every_step_torn_down [LawfulMonad m] [LawfulMonadAttach m] (steps : List Step)
    (chain : Chain m) (now : Nat) (context : Context) :
    let recorded := (declared steps now chain.recorded context).run []
    Prod.fst <$> recorded = declared steps now chain context ∧
      ∀ result marks, CanReturn recorded (result, marks) →
        ∃ moments, TornDown chain now steps context moments marks result := by
  intro recorded
  have watched : recorded = _ := run_declared_eq_watch chain now steps context
  constructor
  · rw [watched, declared_eq_watch, Functor.map_map]
  · intro result marks ran
    rw [watched] at ran
    obtain ⟨⟨moments, last⟩, walked, returned⟩ := canReturn_map_imp' ran
    cases returned
    obtain ⟨executed, trail⟩ := trail_of_watch walked
    refine ⟨moments, executed, ⟨last, trail⟩, rfl, ?_, resultOf_eq_ok_iff, fun failed => ?_⟩
    · rintro front moment back rfl
      exact trail.front.grown
    · exact ⟨_, resultOf_of_ne_ok failed, rfl, Moment.forall₂_toldBy moments now⟩

def clearance : List Step :=
  [Step.call "ghost" "leave",
    (Step.deploy "vault" "Chest").expecting (.reverts "full"),
    (Step.deploy "safe" "Chest").withArgs [.string "\x7b\x7bvault.address\x7d\x7d"]]

theorem every_step_torn_down_of_clearance :
    ∃ entries marks moments,
      (declared clearance 0 Suite.obliging.recorded (Setup.withAccounts [.ofLow 1])).run [] =
          (.error (.teardown entries), marks) ∧
        TornDown Suite.obliging 0 clearance (Setup.withAccounts [.ofLow 1]) moments marks
          (.error (.teardown entries)) ∧
        (entries.length, marks.length) = (2, 2) := by
  obtain ⟨-, each⟩ :=
    every_step_torn_down clearance Suite.obliging 0 (Setup.withAccounts [.ofLow 1])
  obtain ⟨moments, torn⟩ := each _ _ rfl
  exact ⟨_, _, moments, rfl, torn, by rfl⟩

end Teardown

end Rehearsal
