import Rehearsal.Abi.Type
import Rehearsal.Json.Printer
import Rehearsal.Json.Reader
import Rehearsal.Text.Hex
/-!
What can be wrong with a contract interface, with values for it, or with encoded data.
-/

namespace Rehearsal.Abi

inductive Fault where
  | type (fault : AbiType.Fault)
  | malformed (fault : Json.Fault)
  | argumentCount (expected got : Nat)
  /-- A value is not of the shape that its type asks for. -/
  | wrongShape (shape : String) (got : Json)
  | invalidAddress (text : String)
  | invalidUnsigned (text : String)
  | invalidHex (text : String) (fault : Hex.Fault)
  | tooLong (size length : Nat)
  | itemCount (expected got : Nat)
  | insufficientData (need length : Nat)
  | outOfRange (position : Nat)
  | invalidText (fault : Utf8.Fault)
  | missingTopic (event param : String)
  | missingData (event param : String)
  | eventArgumentCount (event : String) (expected got : Nat)
  | undeclaredEvent (event : String)
  | noBytecode (artifact : String)
  | invalidBytecode (fault : Hex.Fault)
  | noConstructor (artifact : String) (got : Nat)
  deriving Repr

def Fault.message : Fault → String
  | .type fault => fault.message
  | .malformed fault => s!"invalid ABI: {fault.message}"
  | .argumentCount expected got => s!"expected {expected} arguments, got {got}"
  | .wrongShape shape got => s!"expected {shape}, got {got.compact}"
  | .invalidAddress text => s!"Invalid address: {text}"
  | .invalidUnsigned text => s!"invalid unsigned integer '{text}'"
  | .invalidHex text fault => s!"invalid hex '{text}': {fault.message}"
  | .tooLong size length => s!"bytes{size} value is {length} bytes long"
  | .itemCount expected got => s!"expected {expected} array elements, got {got}"
  | .insufficientData need length => s!"insufficient data: need {need} bytes, have {length}"
  | .outOfRange position => s!"offset or length {position} out of range"
  | .invalidText fault => s!"invalid UTF-8 in string: {fault.message}"
  | .missingTopic event param => s!"log for '{event}' is missing topic for '{param}'"
  | .missingData event param => s!"log for '{event}' is missing data for '{param}'"
  | .eventArgumentCount event expected got =>
      s!"event '{event}' expects {expected} arguments, got {got}"
  | .undeclaredEvent event => s!"event '{event}' is not declared in the ABI"
  | .noBytecode artifact =>
      s!"artifact '{artifact}' has no bytecode (abstract contract or interface?)"
  | .invalidBytecode fault => s!"invalid bytecode: {fault.message}"
  | .noConstructor artifact got =>
      s!"artifact '{artifact}' has no constructor but {got} arguments were given"

abbrev Result := Except Fault

end Rehearsal.Abi
