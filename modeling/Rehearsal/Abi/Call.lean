import Rehearsal.Abi.Decode
import Rehearsal.Abi.Declaration
import Rehearsal.Abi.Encode
/-!
Data of calls: the selector and the arguments going in, the outputs coming out.
-/

namespace Rehearsal.Abi

def Function.encodeCall (f : Function) (args : List Json) : Result (List UInt8) := do
  let types ← paramTypes f.inputs
  let selector ← f.selector
  return selector ++ (← encode types args)

/-- Nothing as null, one output as its value, several as an array. -/
def outputValue : List Json → Json
  | [] => .null
  | [value] => value
  | values => .array values

def Function.decodeOutput (f : Function) (data : List UInt8) : Result Json := do
  let types ← paramTypes f.outputs
  outputValue <$> decode types data

/-- The values of several outputs; a value that is no array stands for none. -/
def outputValues (value : Json) : List Json :=
  value.array?.getD []

def Function.encodeOutput (f : Function) (value : Json) : Result (List UInt8) := do
  match ← paramTypes f.outputs with
  | [] => return []
  | [type] => encode [type] [value]
  | types => encode types (outputValues value)

def Constructor.encodeArguments (c : Constructor) (args : List Json) : Result (List UInt8) := do
  encode (← paramTypes c.inputs) args

end Rehearsal.Abi
