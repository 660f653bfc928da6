import Rehearsal.Chain.Simulation
/-!
Contracts given by a script.

A script tells for each function what it returns, which events it leaves and what it stores.
Expressions are JSON values in which texts that start with a dollar sign stand for the call,
its arguments and the stored values. All expressions of a call see the state before it.
-/

namespace Rehearsal.Script

structure Scope where
  sender : Address
  this : Address
  value : Nat
  args : List Json
  stored : Json.Mapping Json

/-- A stored value as a number of 64 bits, one higher, as text; anything else counts as zero. -/
def successor (value : Json) : Json :=
  let n : Nat := match value with
    | .string s => (Text.readCount s.toList).getD 0
    | value => value.nat?.getD 0
  .string (String.ofList (Text.decimal ((n + 1) % Text.limit64)))

/-- The value of a name behind the dollar sign, if the name means anything. -/
def lookup? (scope : Scope) (name : List Char) : Option Json :=
  if name = "from".toList then some (.string scope.sender.text)
  else if name = "this".toList then some (.string scope.this.text)
  else if name = "value".toList then some (.string (String.ofList (Text.decimal scope.value)))
  else if name = "args".toList then some (.array scope.args)
  else
    match Text.dropPrefix? "state.".toList name with
    | some key => some ((Json.Mapping.get? (String.ofList key) scope.stored).getD .null)
    | none =>
        match Text.dropPrefix? "inc.".toList name with
        | some key =>
            some (successor ((Json.Mapping.get? (String.ofList key) scope.stored).getD .null))
        | none =>
            (Text.readCount name).map fun index => (scope.args[index]?).getD .null

mutual

def eval (scope : Scope) : Json → Json
  | .array items => .array (evalAll scope items)
  | .string s =>
      match s.toList with
      | '$' :: name => (lookup? scope name).getD (.string s)
      | _ => .string s
  | .null => .null
  | .bool b => .bool b
  | .number n => .number n
  | .object fields => .object fields

def evalAll (scope : Scope) : List Json → List Json
  | [] => []
  | item :: rest => eval scope item :: evalAll scope rest

end

structure Behaviour where
  /-- Callers other than the deployer are refused for this reason. -/
  onlyDeployer : Option String
  revert : Option String
  returns : Json
  emit : List (String × List Json)
  set : Json.Mapping Json

structure Artifact where
  interface : Interface
  constructorRevert : Option String
  constructorSet : Json.Mapping Json
  functions : Json.Mapping Behaviour

structure Contract where
  deployer : Address
  functions : Json.Mapping Behaviour
  stored : Json.Mapping Json

def store (scope : Scope) (set : Json.Mapping Json) : Json.Mapping Json :=
  set.foldl (fun stored entry => Json.Mapping.insert entry.1 (eval scope entry.2) stored)
    scope.stored

def build (artifact : Artifact) (args : List Json) (deployer : Address) :
    Except String Contract :=
  match artifact.constructorRevert with
  | some reason => .error reason
  | none =>
      let scope : Scope := ⟨deployer, Address.zero, 0, args, []⟩
      .ok ⟨deployer, artifact.functions, store scope artifact.constructorSet⟩

def Behaviour.refusal? (b : Behaviour) (deployer sender : Address) : Option String :=
  match b.onlyDeployer with
  | some reason => if sender ≠ deployer then some reason else b.revert
  | none => b.revert

def answer (contract : Contract) (call : Simulation.Call) :
    Except String Simulation.Output × Contract :=
  match Json.Mapping.get? call.function contract.functions with
  | none => (.error s!"unknown function {call.function}", contract)
  | some b =>
      match b.refusal? contract.deployer call.sender with
      | some reason => (.error reason, contract)
      | none =>
          let scope : Scope :=
            ⟨call.sender, call.this, call.value, call.args, contract.stored⟩
          let output : Simulation.Output := {
            value := eval scope b.returns
            events := b.emit.map fun (name, args) => (name, evalAll scope args) }
          (.ok output, { contract with stored := store scope b.set })

def simulation (accounts : Nat) (artifacts : List (String × Artifact))
    (unreachable revertedLate : List String) : Simulation Contract where
  accounts
  artifacts := artifacts.map fun (name, artifact) => (name, ⟨artifact.interface, build artifact⟩)
  answer
  unreachable
  revertedLate

end Rehearsal.Script
