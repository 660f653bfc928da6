import Rehearsal.Json.Basic
/-!
Scenarios and their steps as declared.
-/

namespace Rehearsal

inductive Action where
  /-- Deploys an artifact, by default the one named like the contract. -/
  | deploy (contract : String) (artifact : Option String) (args : List Json)
  | call (contract function : String) (args : List Json)
  deriving Repr

namespace Action

def kind : Action → String
  | .deploy .. => "deploy"
  | .call .. => "call"

def contract : Action → String
  | .deploy contract _ _ => contract
  | .call contract _ _ => contract

def args : Action → List Json
  | .deploy _ _ args => args
  | .call _ _ args => args

def withArgs (args : List Json) : Action → Action
  | .deploy contract artifact _ => .deploy contract artifact args
  | .call contract function _ => .call contract function args

end Action

/-- The type that a returned value is expected to look like. -/
inductive ReturnType where
  | uint
  | int
  | bool
  | address
  | bytes
  | string
  deriving DecidableEq, Repr

def ReturnType.text : ReturnType → String
  | .uint => "uint"
  | .int => "int"
  | .bool => "bool"
  | .address => "address"
  | .bytes => "bytes"
  | .string => "string"

def ReturnType.choices : List (String × ReturnType) :=
  [("uint", .uint), ("uint256", .uint), ("int", .int), ("int256", .int), ("bool", .bool),
    ("address", .address), ("bytes", .bytes), ("string", .string)]

/-- An expected event, by its name alone or with some of its arguments. -/
inductive EventExpectation where
  | bare (name : String)
  | detailed (name : String) (args : Json.Mapping Json)
  deriving Repr

def EventExpectation.eventName : EventExpectation → String
  | .bare name => name
  | .detailed name _ => name

def EventExpectation.args : EventExpectation → Json.Mapping Json
  | .bare _ => []
  | .detailed _ args => args

structure Expectation where
  success : Bool
  returnValue : Option Json
  returnType : Option ReturnType
  /-- Only looked at when the step is to fail. -/
  revertReason : Option String
  events : Option (List EventExpectation)
  deriving Repr

namespace Expectation

def succeeds : Expectation := ⟨true, none, none, none, none⟩

def reverts (reason : String) : Expectation :=
  { succeeds with success := false, revertReason := some reason }

def returning (value : Json) : Expectation :=
  { succeeds with returnValue := some value }

def withEvents (e : Expectation) (events : List EventExpectation) : Expectation :=
  { e with events := some events }

end Expectation

structure Step where
  name : String
  action : Action
  /-- The signer, by default that of the context. -/
  sender : Option String
  value : Option Json
  expect : Option Expectation
  deriving Repr

namespace Step

def ofAction (action : Action) : Step := ⟨"", action, none, none, none⟩

def call (contract function : String) : Step :=
  ofAction (.call contract function [])

def deploy (contract artifact : String) : Step :=
  ofAction (.deploy contract (some artifact) [])

def named (s : Step) (name : String) : Step := { s with name }

def withArgs (s : Step) (args : List Json) : Step :=
  { s with action := s.action.withArgs args }

def withSender (s : Step) (name : String) : Step := { s with sender := some name }

def withValue (s : Step) (value : Json) : Step := { s with value := some value }

def expecting (s : Step) (expectation : Expectation) : Step :=
  { s with expect := some expectation }

/-- The name in reports: the declared one, or else what the step does. -/
def displayName (s : Step) : String :=
  if s.name ≠ "" then s.name
  else
    match s.action with
    | .deploy contract _ _ => s!"deploy {contract}"
    | .call contract function _ => s!"{contract}.{function}"

end Step

/-- Steps that follow one path through a suite's contracts. -/
structure Scenario where
  name : String
  description : Option String
  steps : List Step
  deriving Repr

end Rehearsal
