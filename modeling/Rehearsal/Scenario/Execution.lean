import Rehearsal.Abi.Revert
import Rehearsal.Scenario.Amount
import Rehearsal.Scenario.Outcome
import Rehearsal.Scenario.Step
import Rehearsal.Scenario.Template
/-!
Executing a step.

A step is planned first: every name, token and amount in it is resolved, and whatever cannot
be is an error before the chain is touched. What the chain then answers is never an error but
an outcome.
-/

namespace Rehearsal

/-- What a planned step asks of the chain. -/
inductive Request where
  /-- Deploys an artifact, to be known as `name`. -/
  | deploy (name artifact : String) (args : List Json) (options : CallOptions)
  | call (handle : Handle) (function : Abi.Function) (args : List Json) (options : CallOptions)
  deriving Repr

def Request.options : Request → CallOptions
  | .deploy _ _ _ options => options
  | .call _ _ _ options => options

namespace Step

def signerIn (s : Step) (context : Context) : Except RunError Address :=
  match s.sender with
  | some name => context.signer name
  | none => context.default

def amount (s : Step) : Except RunError (Option Nat) :=
  match s.value with
  | some value => some <$> Amount.parse value
  | none => .ok none

/-- The function of a contract by its name and the exact number of its arguments. -/
def findFunction (handle : Handle) (contract name : String) (count : Nat) :
    Except RunError Abi.Function :=
  match handle.interface.functions.find? fun f => f.name == name && f.inputs.length == count with
  | some f => .ok f
  | none => .error (.reference (.unknownFunction contract name count))

def request (context : Context) (args : List Json) (options : CallOptions) :
    Action → Except RunError Request
  | .deploy contract artifact _ => .ok (.deploy contract (artifact.getD contract) args options)
  | .call contract function _ => do
      let handle ← context.contract contract
      let f ← findFunction handle contract function args.length
      return .call handle f args options

/-- Resolves everything in a step. The time is that of the run: the clock is taken to stand still. -/
def plan (s : Step) (context : Context) (now : Nat) : Except RunError Request := do
  let signer ← s.signerIn context
  let value ← s.amount
  let args ← Resolver.resolveAll ⟨context, some signer, now⟩ s.action.args
  request context args ⟨signer, value⟩ s.action

end Step

namespace Execution

/-- The event that a log tells of, when a known contract left it and its interface reads it. -/
def eventOf? (context : Context) (log : Abi.Log) : Option EmittedEvent :=
  match context.contractAt? log.address with
  | none => none
  | some handle =>
      match handle.interface.decodeLog? log with
      | some (.ok decoded) =>
          some ⟨decoded.name, log.address, Json.Mapping.ofList decoded.args⟩
      | _ => none

def eventsOf (context : Context) (logs : List Abi.Log) : List EmittedEvent :=
  logs.filterMap (eventOf? context)

/-- The reason of a failed operation: the one given, or the one that the revert data tells. -/
def reasonOf (handle : Option Handle) : ChainError → String
  | .reverted (some reason) _ => reason
  | .reverted none (some data) =>
      let declared := handle.bind fun handle => handle.interface.decodeError? data
      ((Abi.decodeRevert? data).or declared).getD "execution reverted"
  | .reverted none none => "execution reverted"
  | error => error.message

/-- What a deployment comes to: the context with the new contract, and what is seen of it. -/
def deployed (context : Context) (name : String) : Except ChainError Deployment →
    Outcome × Context
  | .error e => (.failed (reasonOf none e), context)
  | .ok deployment =>
      let context := context.insertContract name deployment.handle
      let outcome := { Outcome.success with
        returnValue := some (.string deployment.handle.address.text) }
      match deployment.receipt with
      | none => (outcome, context)
      | some receipt =>
          ({ outcome with emittedEvents := eventsOf context receipt.logs }.withReceipt receipt,
            context)

def called (handle : Handle) : Except ChainError Json → Outcome
  | .error e => .failed (reasonOf (some handle) e)
  | .ok value => { Outcome.success with returnValue := some value }

def sent (context : Context) (handle : Handle) : Except ChainError Receipt → Outcome
  | .error e => .failed (reasonOf (some handle) e)
  | .ok receipt =>
      if receipt.reverted then (Outcome.failed "execution reverted").withReceipt receipt
      else
        { Outcome.success with emittedEvents := eventsOf context receipt.logs }.withReceipt receipt

variable {m : Type → Type} [Monad m]

def perform (chain : Chain m) (context : Context) : Request → m (Outcome × Context)
  | .deploy name artifact args options => do
      let result ← chain.deploy artifact args options
      return deployed context name result
  | .call handle f args options =>
      if f.isReadOnly then do
        let result ← chain.call handle f args options
        return (called handle result, context)
      else do
        let result ← chain.send handle f args options
        return (sent context handle result, context)

end Execution

structure Execution where
  outcome : Outcome
  signer : Address
  deriving Repr

/-- Executes a step: it fails before the chain is touched, or has an outcome. -/
def Step.execute {m : Type → Type} [Monad m] (s : Step) (chain : Chain m) (now : Nat)
    (context : Context) : m (Except RunError Execution × Context) :=
  match s.plan context now with
  | .error e => return (.error e, context)
  | .ok request => do
      let (outcome, context) ← Execution.perform chain context request
      return (.ok ⟨outcome, request.options.sender⟩, context)

end Rehearsal
