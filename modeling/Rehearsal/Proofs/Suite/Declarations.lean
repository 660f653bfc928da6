import Rehearsal.Proofs.Suite.AccountNames

namespace Rehearsal

open MonadAttach (CanReturn)
open LawfulMonadAttach (eq_of_canReturn_pure)

/-! Contexts that know no more than what the check of a suite takes to be declared. Whatever is
resolved in such a context is nothing that the check has an issue with. -/

/-- All contracts of a context are declared, and the check knows all of its signers. -/
structure Context.Within (context : Context) (d : Declared) : Prop where
  contracts : ∀ name, context.HasContract name → name ∈ d.contracts
  signers : ∀ name, context.HasSigner name → d.knowsSigner name = true

variable {context : Context} {d : Declared} {s : Step} {now : Nat}

namespace Check

theorem signer_eq_nil_of_signerIn {address : Address} (within : context.Within d)
    (found : s.signerIn context = .ok address) (location : String) :
    signer d location s.sender = [] := by
  unfold Step.signerIn at found
  cases named : s.sender with
  | none => rfl
  | some name =>
      rw [named] at found
      exact if_pos (within.signers name ⟨address, found⟩)

theorem amount_eq_nil_of_amount {amount : Option Nat} (given : s.amount = .ok amount)
    (location : String) : Check.amount location s.value = [] := by
  unfold Step.amount at given
  cases named : s.value with
  | none => rfl
  | some value =>
      rw [named] at given
      obtain ⟨parsed, same, -⟩ := map_eq_ok.mp given
      simp only [Check.amount, same]

theorem token_eq_none_of_resolveToken {token : Token} {text value : String}
    {active : Option Address} (within : context.Within d)
    (resolved : Resolver.resolveToken ⟨context, active, now⟩ text token = .ok value) :
    Check.token d text token = none := by
  cases token with
  | signer => rfl
  | now => rfl
  | zeroAddress => rfl
  | contractAddress name =>
      simp only [Resolver.resolveToken] at resolved
      split at resolved
      · next handle found =>
        have has : context.HasContract name := ⟨handle, by rw [Context.contract, found]⟩
        exact if_pos (List.contains_iff_mem.mpr (within.contracts name has))
      · contradiction
  | namedSigner name =>
      simp only [Resolver.resolveToken] at resolved
      split at resolved
      · next address found =>
        exact if_pos (within.signers name (Context.hasSigner_of_get? found))
      · contradiction

theorem template_eq_none_of_resolve {value resolved : Json} {active : Option Address}
    (within : context.Within d)
    (found : Resolver.resolve ⟨context, active, now⟩ value = .ok resolved) (location : String) :
    template d location value = none := by
  cases value with
  | string text =>
      simp only [Resolver.resolve] at found
      simp only [template]
      cases parsed : Token.parse? text with
      | none => rfl
      | some token =>
          simp only [parsed] at found
          obtain ⟨value, same, -⟩ := map_eq_ok.mp found
          simp only [Option.bind_some, token_eq_none_of_resolveToken within same, Option.map_none]
  | _ => rfl

theorem templates_eq_nil_of_resolveAll {values resolved : List Json} {active : Option Address}
    (within : context.Within d)
    (all : Resolver.resolveAll ⟨context, active, now⟩ values = .ok resolved) (location : String) :
    templates d location values = [] := by
  rw [templates_eq_nil]
  induction values generalizing resolved with
  | nil => exact List.forall_mem_nil _
  | cons value rest ih =>
      simp only [Resolver.resolveAll, bind_eq_ok] at all
      obtain ⟨head, first, tail, others, -⟩ := all
      exact List.forall_mem_cons.mpr ⟨template_eq_none_of_resolve within first location, ih others⟩

theorem contract_eq_nil_of_request {args : List Json} {options : CallOptions} {action : Action}
    {request : Request} (within : context.Within d)
    (requested : Step.request context args options action = .ok request) (location : String) :
    contract d location action = [] := by
  cases action with
  | deploy name artifact given => rfl
  | call name function given =>
      obtain ⟨handle, found, -⟩ := bind_eq_ok.mp requested
      exact if_pos (List.contains_iff_mem.mpr (within.contracts name ⟨handle, found⟩))

/-- A step that can be planned has no issue but, perhaps, with the events that it expects. -/
theorem step_eq_nil_of_plan {request : Request} (within : context.Within d)
    (planned : s.plan context now = .ok request) (location : String) :
    step d location s = [] ↔ ∀ value ∈ s.expectedArgs, template d location value = none := by
  obtain ⟨_, _, _, signer, amount, args, requested⟩ := Step.plan_eq_ok.mp planned
  have resolved := templates_eq_nil_of_resolveAll within args location
  rw [step_eq_nil]
  constructor
  · rintro ⟨-, -, -, events, -⟩
    exact events
  · intro events
    exact ⟨signer_eq_nil_of_signerIn within signer location, amount_eq_nil_of_amount amount location,
      templates_eq_nil.mp resolved, events,
      contract_eq_nil_of_request within requested location⟩

end Check

theorem Step.Ends.exists_plan {after : Context} {execution : Execution}
    (ends : s.Ends context now (.ok execution) after) :
    ∃ request, s.plan context now = .ok request := by
  cases ends with
  | deployed planned answer => exact ⟨_, planned⟩
  | called planned reads answer => exact ⟨_, planned⟩
  | sent planned writes answer => exact ⟨_, planned⟩

/-! What steps declare. -/

/-- The step deploys a contract under a name. -/
def Step.Deploys (s : Step) (name : String) : Prop :=
  ∃ artifact args, s.action = .deploy name artifact args

/-- All that is declared behind steps. -/
def Declared.declareAll (d : Declared) (steps : List Step) : Declared :=
  steps.foldl (fun d s => Check.declare d s.action) d

theorem Declared.declareAll_append {steps others : List Step} :
    d.declareAll (steps ++ others) = (d.declareAll steps).declareAll others :=
  List.foldl_append

theorem Declared.mem_declare {name : String} :
    name ∈ (Check.declare d s.action).contracts ↔ name ∈ d.contracts ∨ s.Deploys name := by
  unfold Check.declare Step.Deploys
  cases s.action with
  | deploy other artifact args => simp [addContract, eq_comm, or_comm]
  | call other function args => simp

theorem Declared.mem_declareAll {name : String} {steps : List Step} :
    name ∈ (d.declareAll steps).contracts ↔
      name ∈ d.contracts ∨ ∃ s ∈ steps, s.Deploys name := by
  induction steps generalizing d with
  | nil => simp [declareAll]
  | cons s rest ih =>
      rw [declareAll, List.foldl_cons, ← declareAll, ih, mem_declare, or_assoc,
        List.exists_mem_cons_iff]

theorem Declared.signers_declare : (Check.declare d s.action).signers = d.signers := by
  unfold Check.declare
  cases s.action with
  | deploy name artifact args => rfl
  | call name function args => rfl

theorem Check.steps_snd {locate : Nat → Step → String} {position : Nat} {steps : List Step} :
    (Check.steps locate position d steps).2 = d.declareAll steps := by
  induction steps generalizing position d with
  | nil => rfl
  | cons s rest ih => exact ih

theorem Check.scenarios_snd {scenarios : List Scenario} :
    (Check.scenarios d scenarios).2 = d.declareAll (scenarios.flatMap Scenario.steps) := by
  induction scenarios generalizing d with
  | nil => rfl
  | cons s rest ih =>
      have own : (steps (stepLocation s.name) 0 d s.steps).2 = d.declareAll s.steps := steps_snd
      rw [List.flatMap_cons, Declared.declareAll_append, ← own]
      exact ih

/-! What a step leaves is within what is declared behind it, whatever it ends with. -/

namespace Context.Within

theorem mono {e : Declared} (within : context.Within d)
    (contracts : d.contracts ⊆ e.contracts) (signers : d.signers ⊆ e.signers) :
    context.Within e where
  contracts name has := contracts (within.contracts name has)
  signers name has := by
    have known := within.signers name has
    rw [Declared.knowsSigner, Bool.or_eq_true, List.contains_iff_mem] at known ⊢
    exact known.imp_left fun member => signers member

theorem declare (within : context.Within d) (s : Step) :
    context.Within (Check.declare d s.action) :=
  within.mono (fun _ member => Declared.mem_declare.mpr (.inl member))
    (by rw [Declared.signers_declare]; exact List.Subset.refl d.signers)

theorem insertContract (within : context.Within d) (name : String) (handle : Handle) :
    (context.insertContract name handle).Within (d.addContract name) where
  contracts other has := by
    obtain ⟨found, bound⟩ := has
    rw [contract_insertContract] at bound
    split at bound
    · next same => exact same ▸ List.mem_cons_self
    · exact List.mem_cons_of_mem name (within.contracts other ⟨found, bound⟩)
  signers := within.signers

theorem addSigner (within : context.Within d) (name : String) (address : Address) :
    (context.addSigner name address).Within ⟨d.contracts, name :: d.signers⟩ where
  contracts := within.contracts
  signers other has := by
    have kept : context.Within ⟨d.contracts, name :: d.signers⟩ :=
      within.mono (List.Subset.refl d.contracts) (List.subset_cons_self name d.signers)
    rcases hasSigner_addSigner_iff.mp has with rfl | has
    · rw [Declared.knowsSigner, List.contains_iff_mem.mpr List.mem_cons_self, Bool.true_or]
    · exact kept.signers other has

end Context.Within

theorem Step.Ends.within {after : Context} {executed : Except RunError Execution}
    (ends : s.Ends context now executed after) (within : context.Within d) :
    after.Within (Check.declare d s.action) := by
  have kept := within.declare s
  cases ends with
  | refused planned => exact kept
  | called planned reads answer => exact kept
  | sent planned writes answer => exact kept
  | @deployed name artifact args options planned answer =>
      cases answer with
      | error e => exact kept
      | ok deployment =>
          obtain ⟨given, values, action⟩ := Step.action_of_plan_deploy planned
          rw [(Execution.deployed_ok context name deployment).2, action]
          exact within.insertContract name deployment.handle

/-! Setups. -/

/-- The names of the contracts that the setup of a suite attaches and deploys. -/
def SuiteDefinition.provided (definition : SuiteDefinition) : List String :=
  match definition.setup with
  | some plan => plan.attach.map Attachment.name ++ plan.deploy.map InitialDeploy.name
  | none => []

theorem Declared.knowsSigner_accountName (d : Declared) (index : Nat) :
    d.knowsSigner (Setup.accountName index) = true := by
  have digits : Declared.isAccountName (digitName (Text.decimal index)) = true :=
    isAccountName_digitName (Text.decimal_ne_nil index) fun _ => Text.isDecimal_of_mem_decimal
  rw [digitName_decimal] at digits
  rw [knowsSigner, digits, Bool.or_true]

theorem Check.mem_deploys {entries : List InitialDeploy} {name : String} :
    name ∈ (deploys d entries).2.contracts ↔
      name ∈ d.contracts ∨ name ∈ entries.map InitialDeploy.name := by
  induction entries generalizing d with
  | nil => simp [deploys]
  | cons entry rest ih =>
      have first : name ∈ (d.addContract entry.name).contracts ↔
          name = entry.name ∨ name ∈ d.contracts := List.mem_cons
      rw [deploys, ih, first, List.map_cons, List.mem_cons, or_comm (a := name = _), or_assoc]

theorem Check.mem_setup {definition : SuiteDefinition} {name : String} :
    name ∈ (setup definition.setup).2.contracts ↔ name ∈ definition.provided := by
  unfold SuiteDefinition.provided
  cases definition.setup with
  | none => rfl
  | some plan => exact mem_deploys.trans List.mem_append.symm

namespace Setup

theorem contracts_addAccounts (context : Context) (index : Nat) (accounts : List Address) :
    (addAccounts context index accounts).contracts = context.contracts := by
  induction accounts generalizing context index with
  | nil => rfl
  | cons address rest ih => exact ih _ _

theorem contracts_withAccounts (accounts : List Address) :
    (withAccounts accounts).contracts = [] := by
  cases accounts with
  | nil => rfl
  | cons address rest => exact contracts_addAccounts _ _ rest

theorem within_withAccounts (accounts : List Address) : (withAccounts accounts).Within ⟨[], []⟩ where
  contracts name has := by
    obtain ⟨handle, bound⟩ := has
    have member := Context.mem_of_contract bound
    rw [contracts_withAccounts] at member
    contradiction
  signers name has := by
    obtain ⟨index, -, rfl⟩ := (hasSigner_withAccounts_iff accounts name).mp has
    exact Declared.knowsSigner_accountName _ index

theorem addAliases_within {total : Nat} {after : Context} {entries : List (String × Nat)}
    (within : context.Within d) (added : addAliases total context entries = .ok after) :
    after.Within ⟨d.contracts, d.signers ++ entries.map Prod.fst⟩ := by
  induction entries generalizing context d with
  | nil =>
      cases added
      rwa [List.map_nil, List.append_nil]
  | cons entry rest ih =>
      rw [addAliases] at added
      split at added
      · contradiction
      · next address found =>
        refine (ih (within.addSigner entry.1 address) added).mono (List.Subset.refl d.contracts) ?_
        exact List.perm_middle.symm.subset

theorem setDefaultSigner_within {after : Context} {name : String} (within : context.Within d)
    (set : context.setDefaultSigner name = .ok after) : after.Within d := by
  obtain ⟨-, rfl⟩ := setDefaultSigner_eq_ok.mp set
  exact ⟨within.contracts, within.signers⟩

theorem attachAll_within {store : Option Store} {network : String} {after : Context}
    {entries : List Attachment} (within : context.Within d)
    (attached : attachAll store network context entries = .ok after) :
    after.Within ⟨d.contracts ++ entries.map Attachment.name, d.signers⟩ := by
  induction entries generalizing context d with
  | nil =>
      cases attached
      rwa [List.map_nil, List.append_nil]
  | cons entry rest ih =>
      simp only [attachAll, bind_eq_ok] at attached
      obtain ⟨handle, -, attached⟩ := attached
      exact (ih (within.insertContract entry.name handle) attached).mono
        List.perm_middle.symm.subset (List.Subset.refl d.signers)

theorem bind_within {plan : SetupPlan} {store : Option Store} {network : String}
    {accounts : List Address} (bound : Setup.bind plan store network accounts = .ok context) :
    context.Within ⟨plan.attach.map Attachment.name, plan.signers.names⟩ := by
  obtain ⟨aliased, chosen, added, choice, attached⟩ := stages_of_bind bound
  have named := addAliases_within (within_withAccounts accounts) added
  have within : chosen.Within ⟨[], [] ++ plan.signers.map Prod.fst⟩ := by
    rcases choice with rfl | ⟨name, set⟩
    · exact named
    · exact setDefaultSigner_within named set
  have noted : (chosen.addMetadata "network" (.string network)).Within
      ⟨[], [] ++ plan.signers.map Prod.fst⟩ := ⟨within.contracts, within.signers⟩
  exact attachAll_within noted attached

variable {m : Type → Type} [Monad m] [LawfulMonad m] [MonadAttach m] [LawfulMonadAttach m]
  {chain : Chain m}

theorem deployAll_within {after : Context} {entries : List InitialDeploy}
    (within : context.Within d)
    (ran : CanReturn (deployAll chain now entries context) (.ok after)) :
    (Check.deploys d entries).1 = [] ∧ after.Within (Check.deploys d entries).2 := by
  induction entries generalizing context d with
  | nil =>
      cases eq_of_canReturn_pure ran
      exact ⟨rfl, within⟩
  | cons entry rest ih =>
      obtain ⟨execution, left, ends, -, ran⟩ := deployed_of_deployAll ran
      obtain ⟨others, last⟩ := ih (ends.within within) ran
      obtain ⟨request, planned⟩ := ends.exists_plan
      -- No events are expected of what a setup deploys.
      have silent location := Check.step_eq_nil.mp
        ((Check.step_eq_nil_of_plan within planned location).mpr (List.forall_mem_nil _))
      obtain ⟨signer, amount, args, -, -⟩ := silent s!"setup deploy '{entry.name}'"
      refine ⟨?_, last⟩
      simp only [Check.deploys, List.append_eq_nil_iff]
      exact ⟨⟨⟨signer, amount⟩, Check.templates_eq_nil.mpr args⟩, others⟩

theorem setup_within {definition : SuiteDefinition} {store : Option Store} {network : String}
    (ran : CanReturn ((Suite.ofDefinition definition store network now).setup chain)
      (.ok context)) :
    (Check.setup definition.setup).1 = [] ∧ context.Within (Check.setup definition.setup).2 := by
  obtain ⟨accounts, -, stages⟩ := stages_of_setup ran
  cases setup : definition.setup with
  | none =>
      rw [setup] at stages
      exact ⟨rfl, stages ▸ within_withAccounts accounts⟩
  | some plan =>
      rw [setup] at stages
      obtain ⟨ready, bound, deployed⟩ := stages
      have within := bind_within bound
      obtain ⟨silent, last⟩ := deployAll_within within deployed
      refine ⟨?_, last⟩
      simp only [Check.setup, List.append_eq_nil_iff]
      refine ⟨?_, silent⟩
      cases chosen : plan.defaultSigner with
      | none => rfl
      | some name => exact if_pos (within.signers name (hasSigner_of_bind bound chosen))

end Setup

end Rehearsal
