import Rehearsal.Proofs.Suite.Growth
import Rehearsal.Proofs.Suite.Preparation

namespace Rehearsal

open MonadAttach (CanReturn)
open LawfulMonadAttach (eq_of_canReturn_pure)

/-! Which signers a context knows behind a setup: the accounts of the chain by their positions, those
that the setup gives names to, and no others. -/

/-- The names that the setup of a suite gives to accounts. -/
def SuiteDefinition.aliases (definition : SuiteDefinition) : List String :=
  match definition.setup with
  | some plan => plan.signers.names
  | none => []

namespace Context

theorem hasSigner_iff_contains {c : Context} {name : String} :
    c.HasSigner name ↔ c.signers.contains name = true := by
  constructor
  · rintro ⟨address, bound⟩
    unfold signer at bound
    split at bound
    · next found => exact Option.isSome_iff_exists.mpr ⟨_, found⟩
    · contradiction
  · exact hasSigner_of_contains

theorem hasSigner_addSigner_iff {c : Context} {name other : String} {address : Address} :
    (c.addSigner name address).HasSigner other ↔ name = other ∨ c.HasSigner other := by
  simp only [HasSigner, signer_addSigner]
  by_cases same : name = other
  · simp [same]
  · simp [same]

theorem hasSigner_congr {c d : Context} (same : c.signers = d.signers) (name : String) :
    c.HasSigner name ↔ d.HasSigner name := by
  rw [hasSigner_iff_contains, hasSigner_iff_contains, same]

end Context

namespace Setup

theorem hasSigner_addAccounts_iff (context : Context) (index : Nat) (accounts : List Address)
    (name : String) : (addAccounts context index accounts).HasSigner name ↔
      context.HasSigner name ∨ ∃ i < accounts.length, name = accountName (index + i) := by
  induction accounts generalizing context index with
  | nil => simp [addAccounts]
  | cons address rest ih =>
      rw [addAccounts, ih, Context.hasSigner_addSigner_iff]
      constructor
      · rintro ((rfl | has) | ⟨i, bound, rfl⟩)
        · exact .inr ⟨0, Nat.zero_lt_succ _, rfl⟩
        · exact .inl has
        · exact .inr ⟨i + 1, Nat.succ_lt_succ bound, by rw [Nat.add_assoc, Nat.add_comm 1]⟩
      · rintro (has | ⟨i, bound, rfl⟩)
        · exact .inl (.inr has)
        · cases i with
          | zero => exact .inl (.inl rfl)
          | succ i =>
              exact .inr ⟨i, Nat.lt_of_succ_lt_succ bound, by rw [Nat.add_assoc, Nat.add_comm 1]⟩

theorem hasSigner_withAccounts_iff (accounts : List Address) (name : String) :
    (withAccounts accounts).HasSigner name ↔ ∃ i < accounts.length, name = accountName i := by
  have signers : (withAccounts accounts).signers = (addAccounts Context.empty 0 accounts).signers := by
    cases accounts with
    | nil => rfl
    | cons address rest => rfl
  have none : ¬Context.empty.HasSigner name := nofun
  rw [Context.hasSigner_congr signers, hasSigner_addAccounts_iff, or_iff_right none]
  simp only [Nat.zero_add]

theorem hasSigner_addAliases_iff {total : Nat} {context after : Context}
    {entries : List (String × Nat)} (added : addAliases total context entries = .ok after)
    (name : String) :
    after.HasSigner name ↔ context.HasSigner name ∨ name ∈ entries.map Prod.fst := by
  induction entries generalizing context with
  | nil =>
      cases added
      simp
  | cons entry rest ih =>
      rw [addAliases] at added
      split at added
      · contradiction
      · rw [ih added, Context.hasSigner_addSigner_iff, List.map_cons, List.mem_cons, eq_comm,
          or_comm (a := name = _), or_assoc]

variable {m : Type → Type} [Monad m] [LawfulMonad m] [MonadAttach m] [LawfulMonadAttach m]
  {chain : Chain m} {now : Nat}

theorem extends_of_deployAll {context after : Context} {entries : List InitialDeploy}
    (ran : CanReturn (deployAll chain now entries context) (.ok after)) :
    after.Extends context := by
  induction entries generalizing context with
  | nil =>
      cases eq_of_canReturn_pure ran
      exact .refl _
  | cons entry rest ih =>
      obtain ⟨execution, left, ends, -, ran⟩ := deployed_of_deployAll ran
      exact (ih ran).trans ends.extends

theorem hasSigner_bind_iff {plan : SetupPlan} {store : Option Store} {network : String}
    {accounts : List Address} {context : Context}
    (bound : Setup.bind plan store network accounts = .ok context) (name : String) :
    context.HasSigner name ↔
      (∃ i < accounts.length, name = accountName i) ∨ name ∈ plan.signers.names := by
  obtain ⟨named, added, same⟩ := signers_of_bind bound
  rw [Context.hasSigner_congr same, hasSigner_addAliases_iff added, hasSigner_withAccounts_iff]
  rfl

theorem hasSigner_setup_iff {definition : SuiteDefinition} {store : Option Store}
    {network : String} {context : Context}
    (ran : CanReturn ((Suite.ofDefinition definition store network now).setup chain)
      (.ok context)) :
    ∃ accounts, CanReturn chain.signers (.ok accounts) ∧ ∀ name, context.HasSigner name ↔
      (∃ i < accounts.length, name = accountName i) ∨ name ∈ definition.aliases := by
  obtain ⟨accounts, returned, stages⟩ := stages_of_setup ran
  refine ⟨accounts, returned, fun name => ?_⟩
  unfold SuiteDefinition.aliases
  cases setup : definition.setup with
  | none =>
      rw [setup] at stages
      rw [stages, hasSigner_withAccounts_iff]
      simp
  | some plan =>
      rw [setup] at stages
      obtain ⟨ready, bound, deployed⟩ := stages
      rw [Context.hasSigner_congr (extends_of_deployAll deployed).signers, hasSigner_bind_iff bound]

end Setup

end Rehearsal
