import Rehearsal.Proofs.Scenario.Stepping
import Rehearsal.Suite.Check
import Rehearsal.Suite.Setup

namespace Rehearsal

/-! What a context has to know for the steps of a checked suite. -/

def Context.HasSigner (c : Context) (name : String) : Prop :=
  ∃ address, c.signer name = .ok address

/-- A context covers declared names: each of them is known in it, so are the first accounts by
their names, and steps that name no signer have one. -/
structure Context.Covers (context : Context) (d : Declared) (count : Nat) : Prop where
  contracts : ∀ name ∈ d.contracts, context.HasContract name
  signers : ∀ name ∈ d.signers, context.HasSigner name
  accounts : ∀ index < count, context.HasSigner (Setup.accountName index)
  default : ∃ name, context.defaultSigner = some name ∧ context.HasSigner name

/-- A name that is made like those of accounts is the name of one of the first. -/
def AccountBelow (count : Nat) (name : String) : Prop :=
  Declared.isAccountName name = true → ∃ index < count, name = Setup.accountName index

def namedSigner? : Json → Option String
  | .string text =>
      match Token.parse? text with
      | some (.namedSigner name) => some name
      | _ => none
  | _ => none

def Step.expectedArgs (s : Step) : List Json :=
  (Check.expectedEvents s.expect).flatMap fun event => event.args.map Prod.snd

def Step.mentions (s : Step) : List String :=
  s.sender.toList ++ s.action.args.filterMap namedSigner? ++ s.expectedArgs.filterMap namedSigner?

variable {context : Context} {d : Declared} {count : Nat} {location : String}

theorem Context.Covers.signer {name : String} (covers : context.Covers d count)
    (below : AccountBelow count name) (known : d.knowsSigner name = true) :
    context.HasSigner name := by
  rw [Declared.knowsSigner, Bool.or_eq_true] at known
  rcases known with declared | account
  · exact covers.signers name (List.contains_iff_mem.mp declared)
  · obtain ⟨index, bound, rfl⟩ := below account
    exact covers.accounts index bound

/-! Signers, amounts and tokens without an issue are resolved. -/

theorem signerIn_eq_ok {s : Step} (covers : context.Covers d count)
    (below : ∀ name ∈ s.mentions, AccountBelow count name)
    (checked : Check.signer d location s.sender = []) :
    ∃ address, s.signerIn context = .ok address := by
  unfold Step.signerIn
  cases sender : s.sender with
  | none =>
      obtain ⟨name, named, address, found⟩ := covers.default
      exact ⟨address, by simp only [Context.default, named, found]⟩
  | some name =>
      rw [sender, Check.signer] at checked
      split at checked
      · next known =>
        exact covers.signer (below name (by simp [Step.mentions, sender])) known
      · contradiction

theorem amount_eq_ok {s : Step} (checked : Check.amount location s.value = []) :
    ∃ amount, s.amount = .ok amount := by
  unfold Step.amount
  cases given : s.value with
  | none => exact ⟨none, rfl⟩
  | some value =>
      rw [given, Check.amount] at checked
      split at checked
      · next amount parsed => exact ⟨some amount, map_eq_ok.mpr ⟨amount, parsed, rfl⟩⟩
      · contradiction

theorem resolveToken_eq_ok {token : Token} {text : String} {active : Address} {now : Nat}
    (covers : context.Covers d count)
    (below : ∀ name, token = .namedSigner name → AccountBelow count name)
    (checked : Check.token d text token = none) :
    ∃ value, Resolver.resolveToken ⟨context, some active, now⟩ text token = .ok value := by
  cases token with
  | signer => exact ⟨_, rfl⟩
  | now => exact ⟨_, rfl⟩
  | zeroAddress => exact ⟨_, rfl⟩
  | contractAddress name =>
      rw [Check.token] at checked
      split at checked
      · next declared =>
        obtain ⟨handle, bound⟩ := covers.contracts name (List.contains_iff_mem.mp declared)
        unfold Context.contract at bound
        split at bound
        · next found =>
          cases bound
          exact ⟨handle.address.text, by simp only [Resolver.resolveToken, found]⟩
        · contradiction
      · contradiction
  | namedSigner name =>
      rw [Check.token] at checked
      split at checked
      · next known =>
        obtain ⟨address, bound⟩ := covers.signer (below name rfl) known
        unfold Context.signer at bound
        split at bound
        · next found =>
          cases bound
          exact ⟨address.text, by simp only [Resolver.resolveToken, found]⟩
        · contradiction
      · contradiction

theorem resolve_eq_ok {value : Json} {active : Address} {now : Nat}
    (covers : context.Covers d count)
    (below : ∀ name, namedSigner? value = some name → AccountBelow count name)
    (checked : Check.template d location value = none) :
    ∃ resolved, Resolver.resolve ⟨context, some active, now⟩ value = .ok resolved := by
  cases value with
  | string text =>
      cases parsed : Token.parse? text with
      | none => exact ⟨.string text, by simp only [Resolver.resolve, parsed]⟩
      | some token =>
          have free : Check.token d text token = none := by
            simpa [Check.template, parsed] using checked
          have named : ∀ name, token = .namedSigner name → AccountBelow count name := by
            rintro name rfl
            exact below name (by simp only [namedSigner?, parsed])
          obtain ⟨shown, resolved⟩ := resolveToken_eq_ok covers named free
          exact ⟨.string shown, by
            simp only [Resolver.resolve, parsed]
            exact map_eq_ok.mpr ⟨shown, resolved, rfl⟩⟩
  | _ => exact ⟨_, rfl⟩

theorem resolveAll_eq_ok {resolver : Resolver} {values : List Json}
    (each : ∀ value ∈ values, ∃ resolved, resolver.resolve value = .ok resolved) :
    ∃ resolved, resolver.resolveAll values = .ok resolved := by
  induction values with
  | nil => exact ⟨[], rfl⟩
  | cons value rest ih =>
      obtain ⟨head, first⟩ := each value List.mem_cons_self
      obtain ⟨tail, others⟩ := ih fun other member =>
        each other (List.mem_cons_of_mem value member)
      refine ⟨head :: tail, ?_⟩
      rw [Resolver.resolveAll, first, ok_bind, others]
      rfl

theorem length_of_resolveAll {resolver : Resolver} {values resolved : List Json}
    (all : resolver.resolveAll values = .ok resolved) : resolved.length = values.length := by
  induction values generalizing resolved with
  | nil =>
      cases all
      rfl
  | cons value rest ih =>
      simp only [Resolver.resolveAll, bind_eq_ok, pure_eq_ok] at all
      obtain ⟨head, _, tail, others, rfl⟩ := all
      rw [List.length_cons, List.length_cons, ih others]

theorem contract_eq_ok {name function : String} {args : List Json} (covers : context.Covers d count)
    (checked : Check.contract d location (.call name function args) = []) :
    context.HasContract name := by
  rw [Check.contract] at checked
  split at checked
  · next declared => exact covers.contracts name (List.contains_iff_mem.mp declared)
  · contradiction

/-! Steps without an issue. -/

/-- Nothing that a step refers to is unresolved: neither signer nor contract, amount or token in
the context before it, and no token of an expected event in the context behind it. -/
structure Step.Resolved (s : Step) (before after : Context) (now : Nat) : Prop where
  signer : ∃ address, s.signerIn before = .ok address
  amount : ∃ amount, s.amount = .ok amount
  args : ∀ active, ∃ args, Resolver.resolveAll ⟨before, some active, now⟩ s.action.args = .ok args
  contract : ∀ contract function args, s.action = .call contract function args →
    before.HasContract contract
  events : ∀ active, ∀ value ∈ s.expectedArgs,
    ∃ resolved, Resolver.resolve ⟨after, some active, now⟩ value = .ok resolved

/-- The error that a step ends with tells that its contract has no function of that name and
number of arguments, and the contract has none. -/
def Step.LacksFunction (s : Step) (context : Context) (e : RunError) : Prop :=
  ∃ contract function args handle, s.action = .call contract function args ∧
    context.contract contract = .ok handle ∧
    (∀ f ∈ handle.interface.functions, ¬(f.name = function ∧ f.inputs.length = args.length)) ∧
    e = .reference (.unknownFunction contract function args.length)

theorem Check.templates_eq_nil {values : List Json} : Check.templates d location values = [] ↔
    ∀ value ∈ values, Check.template d location value = none :=
  List.filterMap_eq_nil_iff

theorem Check.step_eq_nil {s : Step} : Check.step d location s = [] ↔
    Check.signer d location s.sender = [] ∧ Check.amount location s.value = [] ∧
      (∀ value ∈ s.action.args, Check.template d location value = none) ∧
      (∀ value ∈ s.expectedArgs, Check.template d location value = none) ∧
      Check.contract d location s.action = [] := by
  have events : ((Check.expectedEvents s.expect).flatMap fun event =>
      Check.templates d location (event.args.map Prod.snd)) =
        Check.templates d location s.expectedArgs :=
    List.filterMap_flatMap.symm
  rw [Check.step, events]
  simp only [List.append_eq_nil_iff, Check.templates_eq_nil, and_assoc]

theorem Step.mem_mentions_of_args {s : Step} {value : Json} {name : String}
    (member : value ∈ s.action.args) (named : namedSigner? value = some name) :
    name ∈ s.mentions :=
  List.mem_append_left _
    (List.mem_append_right _ (List.mem_filterMap.mpr ⟨value, member, named⟩))

theorem Step.mem_mentions_of_expectedArgs {s : Step} {value : Json} {name : String}
    (member : value ∈ s.expectedArgs) (named : namedSigner? value = some name) :
    name ∈ s.mentions :=
  List.mem_append_right _ (List.mem_filterMap.mpr ⟨value, member, named⟩)

theorem Step.resolved_of_covers {s : Step} {after : Context} (now : Nat)
    (checked : Check.step d location s = [])
    (below : ∀ name ∈ s.mentions, AccountBelow count name)
    (covers : context.Covers d count) (coversAfter : after.Covers d count) :
    s.Resolved context after now := by
  obtain ⟨signer, amount, args, events, contract⟩ := Check.step_eq_nil.mp checked
  refine ⟨signerIn_eq_ok covers below signer, amount_eq_ok amount, ?_, ?_, ?_⟩
  · intro active
    have each : ∀ value ∈ s.action.args, ∃ resolved,
        Resolver.resolve ⟨context, some active, now⟩ value = .ok resolved :=
      fun value member => resolve_eq_ok covers
        (fun name named => below name (mem_mentions_of_args member named)) (args value member)
    exact resolveAll_eq_ok each
  · intro name function args called
    rw [called] at contract
    exact contract_eq_ok covers contract
  · intro active value member
    exact resolve_eq_ok coversAfter
      (fun name named => below name (mem_mentions_of_expectedArgs member named))
      (events value member)

theorem Step.lacksFunction_of_plan {s : Step} {after : Context} {now : Nat} {e : RunError}
    (resolved : s.Resolved context after now) (refused : s.plan context now = .error e) :
    s.LacksFunction context e := by
  obtain ⟨address, signer⟩ := resolved.signer
  obtain ⟨amount, value⟩ := resolved.amount
  obtain ⟨args, all⟩ := resolved.args address
  rw [Step.plan, signer, ok_bind, value, ok_bind, all, ok_bind] at refused
  cases action : s.action with
  | deploy contract artifact given =>
      rw [action] at refused
      contradiction
  | call contract function given =>
      obtain ⟨handle, found⟩ := resolved.contract contract function given action
      have length : args.length = given.length := by
        rw [length_of_resolveAll all, action]
        rfl
      rw [action, Step.request, found, ok_bind, Step.findFunction, length] at refused
      split at refused
      · contradiction
      · next missing =>
        cases refused
        refine ⟨contract, function, given, handle, action, found, fun f member same => ?_, rfl⟩
        have other := List.find?_eq_none.mp missing f member
        simp [same.1, same.2] at other

/-! Coverage behind a step. -/

theorem Context.Extends.hasSigner {before after : Context} {name : String}
    (grows : after.Extends before) (has : before.HasSigner name) : after.HasSigner name := by
  rwa [HasSigner, signer, grows.signers]

theorem Context.Covers.of_extends {before after : Context} (covers : before.Covers d count)
    (grows : after.Extends before) : after.Covers d count := by
  obtain ⟨name, named, has⟩ := covers.default
  exact ⟨fun name member => grows.contracts name (covers.contracts name member),
    fun name member => grows.hasSigner (covers.signers name member),
    fun index bound => grows.hasSigner (covers.accounts index bound),
    name, grows.defaultSigner.trans named, grows.hasSigner has⟩

theorem Context.Covers.addContract {name : String} (covers : context.Covers d count)
    (has : context.HasContract name) : context.Covers (d.addContract name) count :=
  ⟨List.forall_mem_cons.mpr ⟨has, covers.contracts⟩, covers.signers, covers.accounts,
    covers.default⟩

theorem Step.Ends.covers {s : Step} {after : Context} {now : Nat} {execution : Execution}
    (ends : s.Ends context now (.ok execution) after) (covers : context.Covers d count)
    (succeeded : ∀ name artifact args, s.action = .deploy name artifact args →
      execution.outcome.succeeded = true) :
    after.Covers (Check.declare d s.action) count := by
  have kept := covers.of_extends ends.extends
  cases ends with
  | deployed planned answer =>
      obtain ⟨given, values, action⟩ := Step.action_of_plan_deploy planned
      rw [action, Check.declare]
      exact kept.addContract
        (Execution.hasContract_deployed (succeeded _ given values action))
  | called planned reads answer =>
      obtain ⟨name, function, values, action, -⟩ := Step.action_of_plan_call planned
      rw [action]
      exact kept
  | sent planned writes answer =>
      obtain ⟨name, function, values, action, -⟩ := Step.action_of_plan_call planned
      rw [action]
      exact kept

end Rehearsal
