import Rehearsal.Chain.Store
import Rehearsal.Scenario.Outcome
import Rehearsal.Scenario.Step
/-!
Outcomes and expectations as JSON. Fields without a value are left out.
-/

namespace Rehearsal

open Json (Reading)
open Json.Reader

/-- A field that is left out when there is no value. -/
def Json.optionalField {α : Type} (name : String) (write : α → Json) :
    Option α → List (String × Json)
  | some a => [(name, write a)]
  | none => []

namespace EmittedEvent

def toJson (e : EmittedEvent) : Json :=
  .object [("name", .string e.name), ("address", .string e.address.text),
    ("args", .object e.args)]

def read (value : Json) : Reading EmittedEvent := do
  let r ← record ["name", "address", "args"] value
  return {
    name := ← r.required "name" string
    address := ← r.required "address" Address.read
    args := ← r.required "args" (mapping any) }

end EmittedEvent

namespace Outcome

def toJson (o : Outcome) : Json :=
  .object <|
    [("succeeded", .bool o.succeeded)]
    ++ Json.optionalField "returnValue" id o.returnValue
    ++ [("emittedEvents", .array (o.emittedEvents.map EmittedEvent.toJson))]
    ++ Json.optionalField "revertReason" .string o.revertReason
    ++ Json.optionalField "transactionHash" .string o.transaction
    ++ Json.optionalField "status" Json.ofNat o.status
    ++ Json.optionalField "blockNumber" Json.ofNat o.block

def fields : List String :=
  ["succeeded", "returnValue", "emittedEvents", "revertReason", "transactionHash", "status",
    "blockNumber"]

def read (value : Json) : Reading Outcome := do
  let r ← record fields value
  return {
    succeeded := ← r.required "succeeded" bool
    returnValue := ← r.optional "returnValue" any
    emittedEvents := ← r.withDefault "emittedEvents" [] (list EmittedEvent.read)
    revertReason := ← r.optional "revertReason" string
    transaction := ← r.optional "transactionHash" string
    status := ← r.optional "status" nat
    block := ← r.optional "blockNumber" nat }

end Outcome

namespace EventExpectation

def toJson : EventExpectation → Json
  | .bare name => .string name
  | .detailed name args => .object [("name", .string name), ("args", .object args)]

def read : Json → Reading EventExpectation
  | .string name => .ok (.bare name)
  | .object fields => do
      let r ← record ["name", "args"] (.object fields)
      return .detailed (← r.required "name" string) (← r.withDefault "args" [] (mapping any))
  | _ => .error (.expected "an event")

end EventExpectation

namespace Expectation

def toJson (e : Expectation) : Json :=
  .object <|
    [("success", .bool e.success)]
    ++ Json.optionalField "returnValue" id e.returnValue
    ++ Json.optionalField "returnType" (fun type => .string type.text) e.returnType
    ++ Json.optionalField "revertReason" .string e.revertReason
    ++ Json.optionalField "events" (fun events => .array (events.map EventExpectation.toJson))
        e.events

def fields : List String :=
  ["success", "returnValue", "returnType", "revertReason", "events"]

def read (value : Json) : Reading Expectation := do
  let r ← record fields value
  return {
    success := ← r.withDefault "success" true bool
    returnValue := ← r.optional "returnValue" any
    returnType := ← r.optional "returnType" (choice ReturnType.choices)
    revertReason := ← r.optional "revertReason" string
    events := ← r.optional "events" (list EventExpectation.read) }

end Expectation

end Rehearsal
