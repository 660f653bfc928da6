import Rehearsal.Proofs.Result
import Rehearsal.Proofs.Scenario.Course

namespace Rehearsal

open MonadAttach (CanReturn)
open LawfulMonadAttach (canReturn_map_imp' eq_of_canReturn_pure)

/-! A step asks the chain once or not at all. Whatever it refers to is resolved before that, and an
error can come of nothing else: behind the question, every answer of the chain makes an outcome. -/

def Operation.Answer : Operation → Type
  | .signers => List Address
  | .deploy .. => Deployment
  | .call .. => Json
  | .send .. => Receipt

def Chain.answer {m : Type → Type} (chain : Chain m) :
    (operation : Operation) → m (Except ChainError operation.Answer)
  | .signers => chain.signers
  | .deploy artifact args options => chain.deploy artifact args options
  | .call handle f args options => chain.call handle f args options
  | .send handle f args options => chain.send handle f args options

/-- The receipt that comes with an answer. -/
def Operation.receipt? : (operation : Operation) → operation.Answer → Option Receipt
  | .signers, _ => none
  | .deploy .., deployment => Deployment.receipt deployment
  | .call .., _ => none
  | .send .., receipt => some receipt

/-- The error is about a declaration, a name or a token that cannot be resolved. -/
def RunError.OfResolving : RunError → Prop
  | .configuration _ => True
  | .reference _ => True
  | .template _ _ => True
  | .setup _ => False
  | .teardown _ => False
  | .chain _ => False

/-! Resolving. -/

section

variable {context : Context}

theorem Context.signer_failsWith (name : String) :
    FailsWith RunError.OfResolving (context.signer name) := by
  unfold signer
  split
  · exact .ok _
  · exact .error trivial

theorem Context.contract_failsWith (name : String) :
    FailsWith RunError.OfResolving (context.contract name) := by
  unfold contract
  split
  · exact .ok _
  · exact .error trivial

theorem Amount.parse_failsWith (value : Json) :
    FailsWith RunError.OfResolving (Amount.parse value) := by
  unfold parse
  simp only
  split
  · exact .ok _
  · exact .error trivial

namespace Resolver

variable {r : Resolver}

theorem resolveToken_failsWith (text : String) (token : Token) :
    FailsWith RunError.OfResolving (r.resolveToken text token) := by
  cases token with
  | signer =>
      rw [resolveToken]
      split
      · exact .ok _
      · exact .error trivial
  | now => exact .ok _
  | zeroAddress => exact .ok _
  | contractAddress name =>
      rw [resolveToken]
      split
      · exact .ok _
      · exact .error trivial
  | namedSigner name =>
      rw [resolveToken]
      split
      · exact .ok _
      · exact .error trivial

theorem resolve_failsWith (value : Json) :
    FailsWith RunError.OfResolving (r.resolve value) := by
  unfold resolve
  split
  · split
    · exact (resolveToken_failsWith _ _).map _
    · exact .ok _
  · exact .ok _

theorem resolveAll_failsWith (values : List Json) :
    FailsWith RunError.OfResolving (r.resolveAll values) := by
  induction values with
  | nil => exact .ok _
  | cons value rest ih =>
      exact (resolve_failsWith value).bind fun _ => ih.bind fun _ => .ok _

end Resolver

namespace Step

theorem signerIn_failsWith (s : Step) : FailsWith RunError.OfResolving (s.signerIn context) := by
  unfold signerIn
  split
  · exact Context.signer_failsWith _
  · unfold Context.default
    split
    · exact Context.signer_failsWith _
    · exact .error trivial

theorem amount_failsWith (s : Step) : FailsWith RunError.OfResolving s.amount := by
  unfold amount
  split
  · exact (Amount.parse_failsWith _).map _
  · exact .ok _

theorem request_failsWith (args : List Json) (options : CallOptions) (action : Action) :
    FailsWith RunError.OfResolving (request context args options action) := by
  cases action with
  | deploy contract artifact values => exact .ok _
  | call contract function values =>
      refine (Context.contract_failsWith contract).bind fun handle => .bind ?_ fun _ => .ok _
      unfold findFunction
      split
      · exact .ok _
      · exact .error trivial

theorem plan_failsWith (s : Step) (now : Nat) :
    FailsWith RunError.OfResolving (s.plan context now) :=
  s.signerIn_failsWith.bind fun _ => s.amount_failsWith.bind fun _ =>
    (Resolver.resolveAll_failsWith _).bind fun _ => request_failsWith _ _ _

end Step

end

/-! Asking. -/

/-- An answer to the operation settles the request: no error is a success, and an outcome shows the
status and carries the hash of the receipt that comes with the answer. -/
structure Operation.Settles (operation : Operation) (request : Request) (context : Context)
    (settle : Except ChainError operation.Answer → Outcome × Context) : Prop where
  performs : ∀ {m : Type → Type} [Monad m] [LawfulMonad m] (chain : Chain m),
    Execution.perform chain context request = settle <$> chain.answer operation
  refuses : ∀ e, (settle (.error e)).1.succeeded = false
  shows : ∀ answer receipt, operation.receipt? answer = some receipt →
    (settle (.ok answer)).1.status = receipt.status
  carries : ∀ answered, (settle answered).1.transaction =
    (answered.toOption.bind operation.receipt?).map Receipt.transaction

namespace Execution

theorem transaction_deployed (context : Context) (name : String)
    (answered : Except ChainError Deployment) : (deployed context name answered).1.transaction =
      (answered.toOption.bind Deployment.receipt).map Receipt.transaction := by
  cases answered with
  | error e => rfl
  | ok deployment =>
      obtain ⟨handle, found⟩ := deployment
      cases found with
      | none => rfl
      | some receipt => rfl

theorem transaction_sent (context : Context) (handle : Handle)
    (answered : Except ChainError Receipt) : (sent context handle answered).transaction =
      answered.toOption.map Receipt.transaction := by
  cases answered with
  | error e => rfl
  | ok receipt =>
      simp only [sent]
      split
      · rfl
      · rfl

end Execution

theorem Request.exists_settles (request : Request) (context : Context) :
    ∃ settle, request.operation.Settles request context settle := by
  cases request with
  | deploy name artifact args options =>
      refine ⟨Execution.deployed context name, fun chain => ?_, fun _ => rfl, ?_,
        Execution.transaction_deployed context name⟩
      · exact (map_eq_pure_bind _ (chain.deploy artifact args options)).symm
      · rintro ⟨handle, found⟩ receipt given
        cases given
        rfl
  | call handle f args options =>
      cases reads : f.isReadOnly with
      | true =>
          rw [Request.operation_of_read reads]
          refine ⟨fun answer => (Execution.called handle answer, context), fun chain => ?_,
            fun _ => rfl, fun answer receipt given => ?_, fun answered => ?_⟩
          · rw [Execution.perform, reads]
            exact (map_eq_pure_bind _ (chain.call handle f args options)).symm
          · cases given
          · cases answered with
            | error e => rfl
            | ok value => rfl
      | false =>
          rw [Request.operation_of_write reads]
          refine ⟨fun answer => (Execution.sent context handle answer, context), fun chain => ?_,
            fun _ => rfl, fun answer receipt given => ?_, fun answered => ?_⟩
          · rw [Execution.perform, reads]
            exact (map_eq_pure_bind _ (chain.send handle f args options)).symm
          · cases given
            simp only [Execution.sent]
            split
            · rfl
            · rfl
          · refine (Execution.transaction_sent context handle answered).trans ?_
            cases answered with
            | error e => rfl
            | ok receipt => rfl

theorem Step.exists_settles {s : Step} {context : Context} {now : Nat} {request : Request}
    (planned : s.plan context now = .ok request) :
    ∃ settle, request.operation.Settles request context settle ∧
      ∀ {m : Type → Type} [Monad m] [LawfulMonad m] (chain : Chain m),
        s.execute chain now context = (fun answer =>
          (.ok ⟨(settle answer).1, request.options.sender⟩, (settle answer).2)) <$>
            chain.answer request.operation := by
  obtain ⟨settle, settles⟩ := request.exists_settles context
  refine ⟨settle, settles, fun chain => ?_⟩
  rw [execute, planned]
  simp only [settles.performs, map_eq_pure_bind, bind_assoc, pure_bind]

variable {m : Type → Type} [Monad m] [LawfulMonad m] [MonadAttach m] [LawfulMonadAttach m]

/-- A step ends with an error only if something in it cannot be resolved, and then it asks nothing of
the chain and leaves the context as it is. Otherwise it asks the chain once and comes to an outcome
by any answer. -/
theorem Step.errors_precede_chain (s : Step) (chain : Chain m) (now : Nat) (context : Context) :
    let recorded := (s.execute chain.recorded now context).run []
    Prod.fst <$> recorded = s.execute chain now context ∧
      (∀ e after marks, CanReturn recorded ((.error e, after), marks) →
        marks = [] ∧ after = context ∧ e.OfResolving) ∧
      ((∃ e, recorded = pure ((.error e, context), [])) ∨
        ∃ (operation : Operation)
            (settle : Except ChainError operation.Answer → Execution × Context),
          recorded = (fun answer => ((.ok (settle answer).1, (settle answer).2),
            [.asked operation])) <$> chain.answer operation) := by
  intro recorded
  have runs : recorded = (fun result => (result, (s.asks context now).map .asked)) <$>
      s.execute chain now context := by
    rw [← List.nil_append ((s.asks context now).map Mark.asked)]
    exact s.run_execute_recorded chain now context []
  refine ⟨by rw [runs]; simp, ?_⟩
  cases planned : s.plan context now with
  | error e =>
      have refused : recorded = pure ((.error e, context), []) := by
        rw [runs, asks, execute, planned]
        exact map_pure _ _
      refine ⟨fun other after marks ran => ?_, .inl ⟨e, refused⟩⟩
      rw [refused] at ran
      cases eq_of_canReturn_pure ran
      exact ⟨rfl, rfl, s.plan_failsWith now e planned⟩
  | ok request =>
      obtain ⟨settle, -, executes⟩ := Step.exists_settles planned
      have asked : recorded = (fun answer =>
          ((.ok ⟨(settle answer).1, request.options.sender⟩, (settle answer).2),
            [.asked request.operation])) <$> chain.answer request.operation := by
        rw [runs, asks, planned, executes, ← comp_map]
        rfl
      refine ⟨fun e after marks ran => ?_, .inr ⟨_, fun answer =>
        (⟨(settle answer).1, request.options.sender⟩, (settle answer).2), asked⟩⟩
      rw [asked] at ran
      obtain ⟨answer, -, told⟩ := canReturn_map_imp' ran
      cases told

theorem Step.errors_precede_chain_of_vault :
    (∃ e, ((Step.call "vault" "open").execute idle 0 (Setup.withAccounts [.ofLow 1])).1 = .error e ∧
      e.OfResolving) ∧
    ∃ execution after operation, ((Step.deploy "vault" "Vault").execute idle.recorded 0
      (Setup.withAccounts [.ofLow 1])).run [] = ((.ok execution, after), [.asked operation]) := by
  constructor
  · obtain ⟨-, refused, -⟩ := errors_precede_chain (Step.call "vault" "open") idle 0
      (Setup.withAccounts [.ofLow 1])
    exact ⟨_, rfl, (refused _ _ _ rfl).2.2⟩
  · obtain ⟨-, -, failed | ⟨operation, settle, asked⟩⟩ := errors_precede_chain
      (Step.deploy "vault" "Vault") idle 0 (Setup.withAccounts [.ofLow 1])
    · obtain ⟨e, failed⟩ := failed
      cases congrArg (fun ran : (Except RunError Execution × Context) × List Mark => ran.1.1) failed
    · exact ⟨_, _, operation, asked⟩

end Rehearsal
