import Rehearsal.Scenario.Amount
import Rehearsal.Scenario.Template
import Rehearsal.Suite.Basic
/-!
Checking a suite without a chain: names that nothing declares, and amounts that are none.
-/

namespace Rehearsal

structure Issue where
  location : String
  message : String
  deriving DecidableEq, Repr

def Issue.text (i : Issue) : String :=
  s!"{i.location}: {i.message}"

/-- The names that a suite may refer to at some point. -/
structure Declared where
  contracts : List String
  signers : List String
  deriving DecidableEq, Repr

namespace Declared

def isAccountName (name : String) : Bool :=
  match Text.dropPrefix? "signer".toList name.toList with
  | some digits => !digits.isEmpty && digits.all Text.isDecimal
  | none => false

/-- Declared signers, and those that every chain may have. -/
def knowsSigner (d : Declared) (name : String) : Bool :=
  d.signers.contains name || isAccountName name

def addContract (d : Declared) (name : String) : Declared :=
  { d with contracts := name :: d.contracts }

end Declared

namespace Check

def signer (d : Declared) (location : String) : Option String → List Issue
  | none => []
  | some name =>
      if d.knowsSigner name then []
      else [⟨location, (BadReference.unknownSigner name).message⟩]

def amount (location : String) : Option Json → List Issue
  | none => []
  | some value =>
      match Amount.parse value with
      | .ok _ => []
      | .error e => [⟨location, e.message⟩]

def token (d : Declared) (text : String) : Token → Option String
  | .contractAddress name =>
      if d.contracts.contains name then none
      else some s!"template '{text}' refers to unknown contract '{name}'"
  | .namedSigner name =>
      if d.knowsSigner name then none
      else some s!"template '{text}' refers to unknown identifier '{name}'"
  | _ => none

def template (d : Declared) (location : String) : Json → Option Issue
  | .string text =>
      ((Token.parse? text).bind (token d text)).map fun problem => ⟨location, problem⟩
  | _ => none

def templates (d : Declared) (location : String) (values : List Json) : List Issue :=
  values.filterMap (template d location)

def expectedEvents (expect : Option Expectation) : List EventExpectation :=
  (expect.bind Expectation.events).getD []

def contract (d : Declared) (location : String) : Action → List Issue
  | .deploy .. => []
  | .call name _ _ =>
      if d.contracts.contains name then []
      else [⟨location, (BadReference.unknownContract name).message⟩]

def declare (d : Declared) : Action → Declared
  | .deploy name _ _ => d.addContract name
  | .call .. => d

def step (d : Declared) (location : String) (s : Step) : List Issue :=
  signer d location s.sender ++ amount location s.value ++ templates d location s.action.args
    ++ (expectedEvents s.expect).flatMap (fun event =>
      templates d location (event.args.map Prod.snd))
    ++ contract d location s.action

/-- The issues of steps, the first of them at a position, and what is declared behind them. -/
def steps (locate : Nat → Step → String) :
    (index : Nat) → Declared → List Step → List Issue × Declared
  | _, d, [] => ([], d)
  | index, d, s :: rest =>
      let (issues, after) := steps locate (index + 1) (declare d s.action) rest
      (step d (locate index s) s ++ issues, after)

def deploys : Declared → List InitialDeploy → List Issue × Declared
  | d, [] => ([], d)
  | d, deploy :: rest =>
      let location := s!"setup deploy '{deploy.name}'"
      let (issues, after) := deploys (d.addContract deploy.name) rest
      (signer d location deploy.sender ++ amount location deploy.value
        ++ templates d location deploy.args ++ issues, after)

def defaultSigner (d : Declared) : Option String → List Issue
  | none => []
  | some name =>
      if d.knowsSigner name then []
      else [⟨"setup", (Misconfiguration.undeclaredDefault name).message⟩]

def setup : Option SetupPlan → List Issue × Declared
  | none => ([], ⟨[], []⟩)
  | some plan =>
      let d : Declared := ⟨plan.attach.map Attachment.name, plan.signers.names⟩
      let (issues, after) := deploys d plan.deploy
      (defaultSigner d plan.defaultSigner ++ issues, after)

def stepLocation (scenario : String) (index : Nat) (s : Step) : String :=
  s!"scenario '{scenario}', step {index + 1} '{s.displayName}'"

def teardownLocation (index : Nat) (s : Step) : String :=
  s!"teardown step {index + 1} '{s.displayName}'"

def scenarios : Declared → List Scenario → List Issue × Declared
  | d, [] => ([], d)
  | d, s :: rest =>
      let (own, d) := steps (stepLocation s.name) 0 d s.steps
      let (issues, after) := scenarios d rest
      (own ++ issues, after)

end Check

/-- All issues of a suite, in the order of execution. -/
def SuiteDefinition.check (s : SuiteDefinition) : List Issue :=
  let (inSetup, d) := Check.setup s.setup
  let (inScenarios, d) := Check.scenarios d s.scenarios
  let (inTeardown, _) := Check.steps Check.teardownLocation 0 d (s.teardown.getD [])
  inSetup ++ inScenarios ++ inTeardown

end Rehearsal
