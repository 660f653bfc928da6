import Rehearsal.Proofs.Lookup
import Rehearsal.Proofs.Result
import Rehearsal.Scenario.Execution

namespace Rehearsal

open MonadAttach (CanReturn)
open LawfulMonadAttach (canReturn_bind_imp' eq_of_canReturn_pure)

/-! What a step can end with, whatever the chain answers. -/

theorem Step.plan_eq_ok {s : Step} {context : Context} {now : Nat} {request : Request} :
    s.plan context now = .ok request ↔ ∃ signer amount args,
      s.signerIn context = .ok signer ∧ s.amount = .ok amount ∧
      Resolver.resolveAll ⟨context, some signer, now⟩ s.action.args = .ok args ∧
      Step.request context args ⟨signer, amount⟩ s.action = .ok request := by
  simp only [Step.plan, bind_eq_ok]
  constructor
  · rintro ⟨signer, found, amount, given, args, all, requested⟩
    exact ⟨signer, amount, args, found, given, all, requested⟩
  · rintro ⟨signer, amount, args, found, given, all, requested⟩
    exact ⟨signer, found, amount, given, args, all, requested⟩

theorem Step.action_of_plan_deploy {s : Step} {context : Context} {now : Nat}
    {name artifact : String} {args : List Json} {options : CallOptions}
    (planned : s.plan context now = .ok (.deploy name artifact args options)) :
    ∃ given values, s.action = .deploy name given values := by
  obtain ⟨_, _, _, _, _, _, requested⟩ := Step.plan_eq_ok.mp planned
  cases action : s.action with
  | deploy contract given values =>
      rw [action] at requested
      cases requested
      exact ⟨given, values, rfl⟩
  | call contract function values =>
      rw [action] at requested
      simp only [Step.request, bind_eq_ok, pure_eq_ok, reduceCtorEq, and_false, exists_false]
        at requested

theorem Step.action_of_plan_call {s : Step} {context : Context} {now : Nat} {handle : Handle}
    {f : Abi.Function} {args : List Json} {options : CallOptions}
    (planned : s.plan context now = .ok (.call handle f args options)) :
    ∃ name function values, s.action = .call name function values ∧
      context.contract name = .ok handle := by
  obtain ⟨_, _, _, _, _, _, requested⟩ := Step.plan_eq_ok.mp planned
  cases action : s.action with
  | deploy contract given values =>
      rw [action] at requested
      cases requested
  | call contract function values =>
      rw [action] at requested
      simp only [Step.request, bind_eq_ok, pure_eq_ok, Request.call.injEq] at requested
      obtain ⟨_, found, _, _, rfl, _⟩ := requested
      exact ⟨contract, function, values, rfl, found⟩

theorem Step.action_ne_deploy {s : Step} {context : Context} {now : Nat} {handle : Handle}
    {f : Abi.Function} {args values : List Json} {options : CallOptions}
    (planned : s.plan context now = .ok (.call handle f args options)) {name : String}
    {artifact : Option String} : s.action ≠ .deploy name artifact values := by
  obtain ⟨contract, function, given, action, -⟩ := Step.action_of_plan_call planned
  rw [action]
  exact Action.noConfusion

/-- A step ends with an error, and the context stays, when it cannot be planned; otherwise with
what the request comes to by an answer of the chain. -/
inductive Step.Ends (s : Step) (context : Context) (now : Nat) :
    Except RunError Execution → Context → Prop where
  | refused {e : RunError} (planned : s.plan context now = .error e) :
      Ends s context now (.error e) context
  | deployed {name artifact : String} {args : List Json} {options : CallOptions}
      (planned : s.plan context now = .ok (.deploy name artifact args options))
      (answer : Except ChainError Deployment) :
      Ends s context now (.ok ⟨(Execution.deployed context name answer).1, options.sender⟩)
        (Execution.deployed context name answer).2
  | called {handle : Handle} {f : Abi.Function} {args : List Json} {options : CallOptions}
      (planned : s.plan context now = .ok (.call handle f args options))
      (reads : f.isReadOnly = true) (answer : Except ChainError Json) :
      Ends s context now (.ok ⟨Execution.called handle answer, options.sender⟩) context
  | sent {handle : Handle} {f : Abi.Function} {args : List Json} {options : CallOptions}
      (planned : s.plan context now = .ok (.call handle f args options))
      (writes : f.isReadOnly = false) (answer : Except ChainError Receipt) :
      Ends s context now (.ok ⟨Execution.sent context handle answer, options.sender⟩) context

section

variable {m : Type → Type} [Monad m] [LawfulMonad m] [MonadAttach m] [LawfulMonadAttach m]
  {chain : Chain m} {s : Step} {context after : Context} {now : Nat}
  {executed : Except RunError Execution}

theorem Step.performed_of_execute {request : Request} (planned : s.plan context now = .ok request)
    (ran : CanReturn (s.execute chain now context) (executed, after)) :
    ∃ outcome, CanReturn (Execution.perform chain context request) (outcome, after) ∧
      executed = .ok ⟨outcome, request.options.sender⟩ := by
  simp only [Step.execute, planned] at ran
  obtain ⟨⟨outcome, last⟩, performed, ends⟩ := canReturn_bind_imp' ran
  cases eq_of_canReturn_pure ends
  exact ⟨outcome, performed, rfl⟩

theorem Step.deployed_of_execute {name artifact : String} {args : List Json}
    {options : CallOptions}
    (planned : s.plan context now = .ok (.deploy name artifact args options))
    (ran : CanReturn (s.execute chain now context) (executed, after)) :
    ∃ answer, CanReturn (chain.deploy artifact args options) answer ∧
      executed = .ok ⟨(Execution.deployed context name answer).1, options.sender⟩ ∧
      after = (Execution.deployed context name answer).2 := by
  obtain ⟨outcome, performed, rfl⟩ := Step.performed_of_execute planned ran
  obtain ⟨answer, given, ends⟩ := canReturn_bind_imp' performed
  have left : Execution.deployed context name answer = (outcome, after) :=
    eq_of_canReturn_pure ends
  exact ⟨answer, given, by rw [left]; rfl, by rw [left]⟩

theorem Step.ends_of_execute (ran : CanReturn (s.execute chain now context) (executed, after)) :
    s.Ends context now executed after := by
  cases planned : s.plan context now with
  | error e =>
      simp only [Step.execute, planned] at ran
      cases eq_of_canReturn_pure ran
      exact .refused planned
  | ok request =>
      cases request with
      | deploy name artifact args options =>
          obtain ⟨answer, -, rfl, rfl⟩ := Step.deployed_of_execute planned ran
          exact .deployed planned answer
      | call handle f args options =>
          obtain ⟨outcome, performed, rfl⟩ := Step.performed_of_execute planned ran
          cases reads : f.isReadOnly with
          | true =>
              simp only [Execution.perform, reads, if_true] at performed
              obtain ⟨answer, _, ends⟩ := canReturn_bind_imp' performed
              cases eq_of_canReturn_pure ends
              exact .called planned reads answer
          | false =>
              simp only [Execution.perform, reads, Bool.false_eq_true, if_false] at performed
              obtain ⟨answer, _, ends⟩ := canReturn_bind_imp' performed
              cases eq_of_canReturn_pure ends
              exact .sent planned reads answer

end

/-! What a step does to the context. -/

namespace Context

theorem mem_of_contract {c : Context} {name : String} {handle : Handle}
    (known : c.contract name = .ok handle) : (name, handle) ∈ c.contracts := by
  unfold contract at known
  split at known
  · next found =>
    cases known
    exact Json.Mapping.mem_of_get? found
  · contradiction

theorem contract_insertContract (c : Context) (name other : String) (handle : Handle) :
    (c.insertContract name handle).contract other =
      if name = other then .ok handle else c.contract other := by
  rw [contract, get?_insertContract]
  by_cases same : name = other
  · rw [if_pos same, if_pos same]
  · rw [if_neg same, if_neg same, contract]

def HasContract (c : Context) (name : String) : Prop :=
  ∃ handle, c.contract name = .ok handle

theorem hasContract_insertContract (c : Context) (name : String) (handle : Handle) :
    (c.insertContract name handle).HasContract name :=
  ⟨handle, by rw [contract_insertContract, if_pos rfl]⟩

/-- A context has a contract for every name that another one has a contract for, and the same
signers. -/
structure Extends (after before : Context) : Prop where
  contracts : ∀ name, before.HasContract name → after.HasContract name
  signers : after.signers = before.signers
  defaultSigner : after.defaultSigner = before.defaultSigner

theorem Extends.refl (c : Context) : c.Extends c :=
  ⟨fun _ has => has, rfl, rfl⟩

theorem extends_insertContract (c : Context) (name : String) (handle : Handle) :
    (c.insertContract name handle).Extends c := by
  refine ⟨fun other ⟨found, bound⟩ => ?_, rfl, rfl⟩
  rw [HasContract, contract_insertContract]
  split
  · exact ⟨handle, rfl⟩
  · exact ⟨found, bound⟩

end Context

theorem Execution.deployed_ok (context : Context) (name : String) (deployment : Deployment) :
    (deployed context name (.ok deployment)).1.succeeded = true ∧
      (deployed context name (.ok deployment)).2 = context.insertContract name deployment.handle := by
  obtain ⟨handle, receipt⟩ := deployment
  cases receipt with
  | none => exact ⟨rfl, rfl⟩
  | some receipt => exact ⟨rfl, rfl⟩

theorem Execution.extends_deployed (context : Context) (name : String)
    (answer : Except ChainError Deployment) :
    (deployed context name answer).2.Extends context := by
  cases answer with
  | error e => exact .refl context
  | ok deployment =>
      rw [(deployed_ok context name deployment).2]
      exact context.extends_insertContract name _

theorem Execution.hasContract_deployed {context : Context} {name : String}
    {answer : Except ChainError Deployment}
    (succeeded : (deployed context name answer).1.succeeded = true) :
    (deployed context name answer).2.HasContract name := by
  cases answer with
  | error e => contradiction
  | ok deployment =>
      rw [(deployed_ok context name deployment).2]
      exact context.hasContract_insertContract name _

theorem Step.Ends.extends {s : Step} {context after : Context} {now : Nat}
    {executed : Except RunError Execution} (ends : s.Ends context now executed after) :
    after.Extends context := by
  cases ends with
  | refused planned => exact .refl context
  | deployed planned answer => exact Execution.extends_deployed context _ answer
  | called planned reads answer => exact .refl context
  | sent planned writes answer => exact .refl context

end Rehearsal
