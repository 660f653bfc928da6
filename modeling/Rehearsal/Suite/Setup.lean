import Rehearsal.Chain.Store
import Rehearsal.Scenario.Execution
import Rehearsal.Suite.Basic
/-!
Setting up the context of a run.

Every account of the chain is a signer by its position, the first one the default. A declared
setup adds names for them, attaches existing contracts and deploys new ones.
-/

namespace Rehearsal.Setup

def accountName (index : Nat) : String := s!"signer{index}"

def addAccounts (context : Context) (index : Nat) : List Address → Context
  | [] => context
  | address :: rest => addAccounts (context.addSigner (accountName index) address) (index + 1) rest

def withAccounts (accounts : List Address) : Context :=
  let context := addAccounts Context.empty 0 accounts
  match accounts with
  | [] => context
  | _ :: _ => { context with defaultSigner := some (accountName 0) }

/-- Binds names to accounts one after the other. Positions are looked up by the names of the
accounts, so a name bound before counts if it is one of these. -/
def addAliases (count : Nat) (context : Context) :
    List (String × Nat) → Except RunError Context
  | [] => .ok context
  | (name, index) :: rest =>
      match context.signers.get? (accountName index) with
      | none => .error (.configuration (.signerIndex name index count))
      | some address => addAliases count (context.addSigner name address) rest

def attachment (store : Option Store) (network : String) (entry : Attachment) :
    Except RunError Handle :=
  match store with
  | none => .error (.configuration (.noStore entry.name))
  | some store =>
      let artifact := entry.artifact.getD entry.name
      match entry.address with
      | some address => do
          let found ← (store.artifact artifact).mapError .chain
          return ⟨artifact, address, found.interface⟩
      | none => do
          let record ← (store.deployment artifact network).mapError .chain
          match record.interface with
          | some interface => return ⟨artifact, record.address, interface⟩
          | none => .error (.configuration (.noInterface artifact))

def attachAll (store : Option Store) (network : String) (context : Context) :
    List Attachment → Except RunError Context
  | [] => .ok context
  | entry :: rest => do
      let handle ← attachment store network entry
      attachAll store network (context.insertContract entry.name handle) rest

/-- All of a declared setup that needs nothing of the chain but its accounts. -/
def bind (plan : SetupPlan) (store : Option Store) (network : String) (accounts : List Address) :
    Except RunError Context := do
  let context := withAccounts accounts
  let context ← addAliases context.signers.length context plan.signers
  let context ← match plan.defaultSigner with
    | some name => context.setDefaultSigner name
    | none => pure context
  attachAll store network (context.addMetadata "network" (.string network)) plan.attach

variable {m : Type → Type} [Monad m]

/-- Deploys contracts one after the other, up to one that fails. -/
def deployAll (chain : Chain m) (now : Nat) :
    List InitialDeploy → Context → m (Except RunError Context)
  | [], context => return .ok context
  | entry :: rest, context => do
      let (executed, context) ← entry.step.execute chain now context
      match executed with
      | .error e => return .error e
      | .ok execution =>
          if execution.outcome.succeeded then deployAll chain now rest context
          else
            return .error (.setup (.deployment entry.name
              (execution.outcome.revertReason.getD "execution reverted")))

def accounts (chain : Chain m) : m (Except RunError Context) := do
  match ← chain.signers with
  | .error e => return .error (.chain e)
  | .ok accounts => return .ok (withAccounts accounts)

/-- Carries out a declared setup. -/
def declared (plan : SetupPlan) (store : Option Store) (network : String) (now : Nat)
    (chain : Chain m) : m (Except RunError Context) := do
  match ← chain.signers with
  | .error e => return .error (.chain e)
  | .ok accounts =>
      match bind plan store network accounts with
      | .error e => return .error e
      | .ok context => deployAll chain now plan.deploy context

end Rehearsal.Setup
