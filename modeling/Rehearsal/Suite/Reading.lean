import Rehearsal.Suite.Basic
import Rehearsal.Yaml.Reader
/-!
Reading suites from YAML.

The action of a step is told by the fields beside its name, signer, value and expectation;
these are read as values of any shape first, so that they may be looked at in any order.
-/

namespace Rehearsal

open Yaml (Reading Value Result)
open Yaml.Reader

namespace Suite.Reading

def flat {α : Type} (read : Yaml.Node → Reading α) (_ : Nat) (node : Yaml.Node) : Reading α :=
  read node

def names (depth : Nat) (node : Yaml.Node) : Reading (List String) := do
  let items ← list (flat string) depth node
  return (Json.Mapping.ofList (items.map fun name => (name, ()))).names

def address (node : Yaml.Node) : Reading Address := do
  match Address.parse? (← string node) with
  | some address => return address
  | none => fail (.expected "an address")

/-! ### Values of fields -/

def text : Value → Result String
  | .string s => .ok s
  | _ => .error (.expected "a string")

def optionalText : Value → Result (Option String)
  | .null => .ok none
  | value => some <$> text value

def items : Value → Result (List Json)
  | .sequence items => Value.toJsonItems items
  | _ => .error (.expected "a sequence")

def fields : Value → Result (Json.Mapping Json)
  | .mapping entries => do return Json.Mapping.ofList (← Value.toJsonEntries entries)
  | _ => .error (.expected "a mapping")

/-- The declared field that a key names, or whose position it gives. -/
def fieldName (declared : List String) : Value → Result (Option String)
  | .string name => .ok (if declared.contains name then some name else none)
  | .integer n => if 0 ≤ n then .ok declared[n.toNat]? else .error (.expected "a field")
  | _ => .error (.expected "a field")

def declaredFields (declared : List String) (entries : List (Value × Value)) :
    Result (List (String × Value)) := do
  let named ← entries.mapM fun (key, value) => do return (← fieldName declared key, value)
  let known := named.filterMap fun (name, value) => name.map fun name => (name, value)
  match repeated? declared known with
  | some name => .error (.repeatedField name)
  | none => return known

def required {α : Type} (fields : List (String × Value)) (name : String)
    (read : Value → Result α) : Result α :=
  match Json.Mapping.get? name fields with
  | some value => read value
  | none => .error (.missingField name)

def withDefault {α : Type} (fields : List (String × Value)) (name : String) (default : α)
    (read : Value → Result α) : Result α :=
  match Json.Mapping.get? name fields with
  | some value => read value
  | none => .ok default

/-! ### Steps -/

def event : Value → Result EventExpectation
  | .string name => .ok (.bare name)
  | .mapping entries => do
      let known ← declaredFields ["name", "args"] entries
      return .detailed (← required known "name" text) (← withDefault known "args" [] fields)
  | _ => .error (.expected "an event")

/-- The kinds of actions, by name or by number. -/
def actionKind : Value → Result String
  | .string "deploy" => .ok "deploy"
  | .string "call" => .ok "call"
  | .integer 0 => .ok "deploy"
  | .integer 1 => .ok "call"
  | .string name => .error (.unknownChoice name)
  | _ => .error (.expected "an action")

def action (fields : List (String × Value)) : Result Action := do
  match repeated? ["action"] fields with
  | some name => .error (.repeatedField name)
  | none =>
      let kind ← required fields "action" actionKind
      let entries := fields.map fun (name, value) => (Value.string name, value)
      if kind = "deploy" then
        let known ← declaredFields ["contract", "artifact", "args"] entries
        return .deploy (← required known "contract" text)
          (← withDefault known "artifact" none optionalText) (← withDefault known "args" [] items)
      else
        let known ← declaredFields ["contract", "function", "args"] entries
        return .call (← required known "contract" text) (← required known "function" text)
          (← withDefault known "args" [] items)

def expectation (depth : Nat) (node : Yaml.Node) : Reading Expectation := do
  let r ← record ["success", "returnValue", "returnType", "revertReason", "events"] depth node
  return {
    success := ← r.withDefault "success" true (flat bool)
    returnValue := ← r.optional "returnValue" json
    returnType := ← r.optional "returnType" (flat (choice ReturnType.choices))
    revertReason := ← r.optional "revertReason" (flat string)
    events := ← r.optional "events" (list fun depth node => do
      ofResult (event (← value depth node))) }

def stepFields : List String := ["name", "from", "value", "expect"]

def step (depth : Nat) (node : Yaml.Node) : Reading Step := do
  let (depth, fields) ← entries depth node
  match repeated? stepFields fields with
  | some name => fail (.repeatedField name)
  | none =>
      let r : Record := ⟨depth, fields⟩
      let others ← (fields.filter fun (name, _) => !stepFields.contains name).mapM
        fun (name, node) => do return (name, ← value depth node)
      let name ← r.withDefault "name" "" (flat string)
      let sender ← r.optional "from" (flat string)
      let amount ← r.optional "value" json
      let expect ← r.optional "expect" expectation
      return { name, action := ← ofResult (action others), sender, value := amount, expect }

def scenario (depth : Nat) (node : Yaml.Node) : Reading Scenario := do
  let r ← record ["name", "description", "steps"] depth node
  return {
    name := ← r.required "name" (flat string)
    description := ← r.optional "description" (flat string)
    steps := ← r.withDefault "steps" [] (list step) }

/-! ### Suites -/

def metadata (depth : Nat) (node : Yaml.Node) : Reading SuiteMetadata := do
  let r ← record ["name", "description", "tags", "version"] depth node
  return {
    name := ← r.required "name" (flat string)
    description := ← r.optional "description" (flat string)
    tags := ← r.withDefault "tags" [] names
    version := ← r.optional "version" (flat string) }

def attachment (depth : Nat) (node : Yaml.Node) : Reading Attachment := do
  let r ← record ["name", "artifact", "address"] depth node
  return {
    name := ← r.required "name" (flat string)
    artifact := ← r.optional "artifact" (flat string)
    address := ← r.optional "address" (flat address) }

def initialDeploy (depth : Nat) (node : Yaml.Node) : Reading InitialDeploy := do
  let r ← record ["name", "artifact", "args", "from", "value"] depth node
  return {
    name := ← r.required "name" (flat string)
    artifact := ← r.optional "artifact" (flat string)
    args := ← r.withDefault "args" [] (list json)
    sender := ← r.optional "from" (flat string)
    value := ← r.optional "value" json }

def setup (depth : Nat) (node : Yaml.Node) : Reading SetupPlan := do
  let r ← record ["signers", "defaultSigner", "attach", "deploy"] depth node
  return {
    signers := ← r.withDefault "signers" [] (mapping (flat nat))
    defaultSigner := ← r.optional "defaultSigner" (flat string)
    attach := ← r.withDefault "attach" [] (list attachment)
    deploy := ← r.withDefault "deploy" [] (list initialDeploy) }

def teardown (depth : Nat) (node : Yaml.Node) : Reading (List Step) := do
  let r ← record ["steps"] depth node
  r.withDefault "steps" [] (list step)

def definition (depth : Nat) (node : Yaml.Node) : Reading SuiteDefinition := do
  let r ← record ["metadata", "setup", "teardown", "scenarios"] depth node
  return {
    metadata := ← r.required "metadata" metadata
    setup := ← r.optional "setup" setup
    teardown := ← r.optional "teardown" teardown
    scenarios := ← r.withDefault "scenarios" [] (list scenario) }

end Suite.Reading

def SuiteDefinition.ofText (text : String) : Yaml.Result SuiteDefinition :=
  Yaml.readText Suite.Reading.definition text

end Rehearsal
