import Rehearsal.Proofs.Suite.Aliases
import Rehearsal.Proofs.Suite.Coverage
import Rehearsal.Suite.Run

namespace Rehearsal

open MonadAttach (CanReturn)
open LawfulMonadAttach (canReturn_bind_imp' eq_of_canReturn_pure)

/-! The context of a setup that succeeds covers what the setup declares. -/

namespace Context

theorem signer_addSigner (c : Context) (name other : String) (address : Address) :
    (c.addSigner name address).signer other =
      if name = other then .ok address else c.signer other := by
  unfold signer
  rw [get?_addSigner]
  by_cases same : name = other
  · rw [if_pos same, if_pos same]
  · rw [if_neg same, if_neg same]

theorem hasSigner_addSigner (c : Context) (name : String) (address : Address) :
    (c.addSigner name address).HasSigner name :=
  ⟨address, by rw [signer_addSigner, if_pos rfl]⟩

theorem HasSigner.addSigner {c : Context} {name : String} (has : c.HasSigner name)
    (other : String) (address : Address) : (c.addSigner other address).HasSigner name := by
  obtain ⟨found, bound⟩ := has
  rw [HasSigner, signer_addSigner]
  split
  · exact ⟨address, rfl⟩
  · exact ⟨found, bound⟩

theorem hasSigner_of_get? {c : Context} {name : String} {address : Address}
    (found : c.signers.get? name = some address) : c.HasSigner name :=
  ⟨address, signer_of_get? found⟩

theorem hasSigner_of_contains {c : Context} {name : String}
    (known : c.signers.contains name = true) : c.HasSigner name := by
  obtain ⟨address, found⟩ := Option.isSome_iff_exists.mp known
  exact hasSigner_of_get? found

end Context

namespace Setup

/-! Accounts. -/

theorem hasSigner_addAccounts {context : Context} {name : String} (has : context.HasSigner name)
    (index : Nat) (accounts : List Address) :
    (addAccounts context index accounts).HasSigner name := by
  induction accounts generalizing context index with
  | nil => exact has
  | cons address rest ih => exact ih (has.addSigner _ _) (index + 1)

theorem hasSigner_accountName (context : Context) (index : Nat) (accounts : List Address) {i : Nat}
    (bound : i < accounts.length) :
    (addAccounts context index accounts).HasSigner (accountName (index + i)) := by
  induction accounts generalizing context index i with
  | nil => contradiction
  | cons address rest ih =>
      cases i with
      | zero => exact hasSigner_addAccounts (context.hasSigner_addSigner _ address) (index + 1) rest
      | succ i =>
          have found := ih (context.addSigner (accountName index) address) (index + 1)
            (Nat.lt_of_succ_lt_succ bound)
          rwa [Nat.add_assoc, Nat.add_comm 1] at found

theorem covers_withAccounts {accounts : List Address} (nonempty : accounts ≠ []) :
    (withAccounts accounts).Covers ⟨[], []⟩ accounts.length := by
  cases accounts with
  | nil => contradiction
  | cons address rest =>
      have known : ∀ index < (address :: rest).length,
          (withAccounts (address :: rest)).HasSigner (accountName index) := by
        intro index bound
        have found := hasSigner_accountName Context.empty 0 (address :: rest) bound
        rwa [Nat.zero_add] at found
      exact ⟨List.forall_mem_nil _, List.forall_mem_nil _, known, accountName 0, rfl,
        known 0 (Nat.zero_lt_succ _)⟩

/-! Names for accounts. -/

theorem addAliases_covers {count total : Nat} {context after : Context} {d : Declared}
    {entries : List (String × Nat)} (covers : context.Covers d count)
    (added : addAliases total context entries = .ok after) :
    after.Covers ⟨d.contracts, d.signers ++ entries.map Prod.fst⟩ count := by
  induction entries generalizing context d with
  | nil =>
      cases added
      rwa [List.map_nil, List.append_nil]
  | cons entry rest ih =>
      obtain ⟨name, index⟩ := entry
      rw [addAliases] at added
      split at added
      · contradiction
      · next address found =>
        obtain ⟨default, named, has⟩ := covers.default
        have first : (context.addSigner name address).Covers
            ⟨d.contracts, d.signers ++ [name]⟩ count := by
          refine ⟨covers.contracts, ?_, fun index bound => (covers.accounts index bound).addSigner _ _,
            default, named, has.addSigner _ _⟩
          intro other member
          rcases List.mem_append.mp member with member | member
          · exact (covers.signers other member).addSigner _ _
          · rw [List.mem_singleton.mp member]
            exact context.hasSigner_addSigner name address
        have others := ih first added
        rwa [List.append_assoc] at others

theorem setDefaultSigner_covers {count : Nat} {context after : Context} {d : Declared}
    {name : String} (covers : context.Covers d count)
    (set : context.setDefaultSigner name = .ok after) : after.Covers d count := by
  obtain ⟨known, rfl⟩ := setDefaultSigner_eq_ok.mp set
  exact ⟨covers.contracts, covers.signers, covers.accounts, name, rfl,
    Context.hasSigner_of_contains known⟩

/-! Contracts. -/

theorem attachAll_covers {count : Nat} {store : Option Store} {network : String}
    {context after : Context} {d : Declared} {entries : List Attachment}
    (covers : context.Covers d count)
    (attached : attachAll store network context entries = .ok after) :
    after.Covers ⟨d.contracts ++ entries.map Attachment.name, d.signers⟩ count := by
  induction entries generalizing context d with
  | nil =>
      cases attached
      rwa [List.map_nil, List.append_nil]
  | cons entry rest ih =>
      simp only [attachAll, bind_eq_ok] at attached
      obtain ⟨handle, -, attached⟩ := attached
      have kept := covers.of_extends (context.extends_insertContract entry.name handle)
      have first : (context.insertContract entry.name handle).Covers
          ⟨d.contracts ++ [entry.name], d.signers⟩ count := by
        refine ⟨?_, kept.signers, kept.accounts, kept.default⟩
        intro other member
        rcases List.mem_append.mp member with member | member
        · exact kept.contracts other member
        · rw [List.mem_singleton.mp member]
          exact context.hasContract_insertContract entry.name handle
      have others := ih first attached
      rwa [List.append_assoc] at others

theorem bind_covers {plan : SetupPlan} {store : Option Store} {network : String}
    {accounts : List Address} {context : Context} (nonempty : accounts ≠ [])
    (bound : Setup.bind plan store network accounts = .ok context) :
    context.Covers ⟨plan.attach.map Attachment.name, plan.signers.names⟩ accounts.length := by
  obtain ⟨aliased, chosen, added, choice, attached⟩ := stages_of_bind bound
  have named := addAliases_covers (covers_withAccounts nonempty) added
  have covers : chosen.Covers ⟨[], [] ++ plan.signers.map Prod.fst⟩ accounts.length := by
    rcases choice with rfl | ⟨name, set⟩
    · exact named
    · exact setDefaultSigner_covers named set
  have noted : (chosen.addMetadata "network" (.string network)).Covers
      ⟨[], [] ++ plan.signers.map Prod.fst⟩ accounts.length :=
    covers.of_extends ⟨fun _ has => has, rfl, rfl⟩
  exact attachAll_covers noted attached

variable {m : Type → Type} [Monad m] [LawfulMonad m] [MonadAttach m] [LawfulMonadAttach m]
  {chain : Chain m} {now : Nat}

theorem deployed_of_deployAll {context after : Context} {entry : InitialDeploy}
    {rest : List InitialDeploy}
    (ran : CanReturn (deployAll chain now (entry :: rest) context) (.ok after)) :
    ∃ execution left, entry.step.Ends context now (.ok execution) left ∧
      execution.outcome.succeeded = true ∧ CanReturn (deployAll chain now rest left) (.ok after) := by
  obtain ⟨⟨executed, left⟩, stepped, ran⟩ := canReturn_bind_imp' ran
  have ends := Step.ends_of_execute stepped
  cases executed with
  | error e => cases eq_of_canReturn_pure ran
  | ok execution =>
      simp only at ran
      split at ran
      · next succeeded => exact ⟨execution, left, ends, succeeded, ran⟩
      · cases eq_of_canReturn_pure ran

theorem deployAll_covers {count : Nat} {context after : Context} {d : Declared}
    {entries : List InitialDeploy} (covers : context.Covers d count)
    (ran : CanReturn (deployAll chain now entries context) (.ok after)) :
    after.Covers (Check.deploys d entries).2 count := by
  induction entries generalizing context d with
  | nil =>
      cases eq_of_canReturn_pure ran
      exact covers
  | cons entry rest ih =>
      obtain ⟨execution, left, ends, succeeded, ran⟩ := deployed_of_deployAll ran
      exact ih (ends.covers covers fun _ _ _ _ => succeeded) ran

/-- A setup takes the accounts of the chain, binds what needs no more of the chain, and deploys. -/
theorem stages_of_setup {definition : SuiteDefinition} {store : Option Store} {network : String}
    {context : Context}
    (ran : CanReturn ((Suite.ofDefinition definition store network now).setup chain)
      (.ok context)) :
    ∃ accounts, CanReturn chain.signers (.ok accounts) ∧
      match definition.setup with
      | none => context = withAccounts accounts
      | some plan => ∃ ready, Setup.bind plan store network accounts = .ok ready ∧
          CanReturn (deployAll chain now plan.deploy ready) (.ok context) := by
  unfold Suite.ofDefinition at ran
  cases setup : definition.setup with
  | none =>
      rw [setup] at ran
      obtain ⟨found, returned, ran⟩ := canReturn_bind_imp' ran
      cases found with
      | error e => cases eq_of_canReturn_pure ran
      | ok accounts =>
          cases eq_of_canReturn_pure ran
          exact ⟨accounts, returned, rfl⟩
  | some plan =>
      rw [setup] at ran
      obtain ⟨found, returned, ran⟩ := canReturn_bind_imp' ran
      cases found with
      | error e => cases eq_of_canReturn_pure ran
      | ok accounts =>
          simp only at ran
          split at ran
          · cases eq_of_canReturn_pure ran
          · next ready bound => exact ⟨accounts, returned, ready, bound, ran⟩

theorem setup_covers {definition : SuiteDefinition} {store : Option Store} {network : String}
    {context : Context}
    (ran : CanReturn ((Suite.ofDefinition definition store network now).setup chain)
      (.ok context)) :
    ∃ accounts, CanReturn chain.signers (.ok accounts) ∧ (accounts ≠ [] →
      context.Covers (Check.setup definition.setup).2 accounts.length) := by
  obtain ⟨accounts, returned, stages⟩ := stages_of_setup ran
  refine ⟨accounts, returned, fun nonempty => ?_⟩
  cases setup : definition.setup with
  | none =>
      rw [setup] at stages
      exact stages ▸ covers_withAccounts nonempty
  | some plan =>
      rw [setup] at stages
      obtain ⟨ready, bound, deployed⟩ := stages
      exact deployAll_covers (bind_covers nonempty bound) deployed

end Setup

end Rehearsal
