import Rehearsal.Scenario.Normal
import Rehearsal.Scenario.Outcome
import Rehearsal.Scenario.Step
import Rehearsal.Scenario.Template
/-!
Comparing an outcome with an expectation.

Every expected thing is judged on its own, so that one comparison tells all that is amiss.
-/

namespace Rehearsal

open Rehearsal.Normal (normalize)

/-- Whether a text is a decimal integer without a minus sign. -/
def isUnsigned (s : List Char) : Bool :=
  (Normal.decimal? s).isSome && s.head? != some '-'

def ReturnType.admits : ReturnType → Json → Bool
  | .uint, value => value.nat?.isSome || isUnsigned (Normal.chars value)
  | .int, .number (.integer _) => true
  | .int, .string s => (Normal.decimal? (Text.trim s.toList)).isSome
  | .int, _ => false
  | .bool, .bool _ => true
  | .bool, .string s => s == "true" || s == "false"
  | .bool, _ => false
  | .address, .string s => Normal.isAddress (Text.trim s.toList)
  | .address, _ => false
  | .bytes, .string s => Normal.isHex s.toList && s.toList.length % 2 == 0
  | .bytes, _ => false
  | .string, .string _ => true
  | .string, _ => false

inductive Mismatch where
  | failed (reason : Option String)
  | succeeded
  | otherValue (expected got : Json)
  | noValue (expected : Json)
  | otherType (expected : ReturnType) (got : Json)
  | noType (expected : ReturnType)
  | otherReason (expected got : String)
  | noReason (expected : String)
  | noEvent (position : Nat) (expected : String) (count : Nat)
  | otherEvent (position : Nat) (expected got : String)
  | unresolvedArgument (position : Nat) (event key : String) (error : RunError)
  | noArgument (position : Nat) (event key : String)
  | otherArgument (position : Nat) (event key : String) (expected got : Json)
  deriving Repr

def Mismatch.message : Mismatch → String
  | .failed reason =>
      "expected success but the step failed: " ++ reason.getD "no reason given"
  | .succeeded => "expected the step to revert but it succeeded"
  | .otherValue expected got => s!"returnValue: expected '{expected.shown}', got '{got.shown}'"
  | .noValue expected => s!"returnValue: expected '{expected.shown}' but nothing was returned"
  | .otherType expected got => s!"returnType: expected {expected.text}, got '{got.shown}'"
  | .noType expected => s!"returnType: expected {expected.text} but nothing was returned"
  | .otherReason expected got => s!"revertReason: expected '{expected}', got '{got}'"
  | .noReason expected =>
      s!"revertReason: expected '{expected}' but no revert message was available"
  | .noEvent position expected count =>
      s!"event #{position}: expected {expected} but only {count} event(s) were emitted"
  | .otherEvent position expected got => s!"event #{position}: expected {expected}, got {got}"
  | .unresolvedArgument position event key error =>
      s!"event #{position} {event}: {key}: {error.message}"
  | .noArgument position event key => s!"event #{position} {event}: missing argument '{key}'"
  | .otherArgument position event key expected got =>
      s!"event #{position} {event}: argument '{key}' expected '{expected.shown}', got '{got.shown}'"

namespace Matching

def success (expectation : Expectation) (outcome : Outcome) : List Mismatch :=
  if expectation.success = outcome.succeeded then []
  else if expectation.success then [.failed outcome.revertReason]
  else [.succeeded]

def returnValue (expectation : Expectation) (outcome : Outcome) : List Mismatch :=
  match expectation.returnValue, outcome.returnValue with
  | none, _ => []
  | some expected, none => [.noValue expected]
  | some expected, some got =>
      if normalize got = normalize expected then [] else [.otherValue expected got]

def returnType (expectation : Expectation) (outcome : Outcome) : List Mismatch :=
  match expectation.returnType, outcome.returnValue with
  | none, _ => []
  | some type, none => [.noType type]
  | some type, some got => if type.admits got then [] else [.otherType type got]

/-- The expected reason has to occur in the observed one. -/
def revertReason (expectation : Expectation) (outcome : Outcome) : List Mismatch :=
  if expectation.success then []
  else
    match expectation.revertReason, outcome.revertReason with
    | none, _ => []
    | some expected, none => [.noReason expected]
    | some expected, some got =>
        if Text.contains expected.toList got.toList then [] else [.otherReason expected got]

def argument (position : Nat) (event : EmittedEvent) (key : String) :
    Except RunError Json → List Mismatch
  | .error e => [.unresolvedArgument position event.name key e]
  | .ok expected =>
      match event.args.get? key with
      | none => [.noArgument position event.name key]
      | some got =>
          if normalize got = normalize expected then []
          else [.otherArgument position event.name key expected got]

def event (resolver : Resolver) (emitted : List EmittedEvent) (position : Nat)
    (expectation : EventExpectation) : List Mismatch :=
  match emitted[position - 1]? with
  | none => [.noEvent position expectation.eventName emitted.length]
  | some got =>
      if got.name ≠ expectation.eventName then
        [.otherEvent position expectation.eventName got.name]
      else
        (resolver.resolveMapping expectation.args).flatMap fun (key, expected) =>
          argument position got key expected

def events (resolver : Resolver) (emitted : List EmittedEvent) (position : Nat) :
    List EventExpectation → List Mismatch
  | [] => []
  | expectation :: rest =>
      event resolver emitted position expectation ++ events resolver emitted (position + 1) rest

end Matching

/-- All mismatches of an outcome, in the order in which the expectation lists things. -/
def Expectation.mismatches (e : Expectation) (resolver : Resolver) (outcome : Outcome) :
    List Mismatch :=
  Matching.success e outcome ++ Matching.returnValue e outcome ++ Matching.returnType e outcome
    ++ Matching.revertReason e outcome
    ++ Matching.events resolver outcome.emittedEvents 1 (e.events.getD [])

end Rehearsal
