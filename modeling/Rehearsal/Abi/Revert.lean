import Rehearsal.Abi.Decode
import Rehearsal.Abi.Declaration
/-!
Revert data: messages, panic codes and the errors that an interface declares.
-/

namespace Rehearsal

namespace Abi

def messageSelector : List UInt8 := [0x08, 0xc3, 0x79, 0xa0]

def panicSelector : List UInt8 := [0x4e, 0x48, 0x7b, 0x71]

def panicDescription (code : Nat) : String :=
  if code = 0x01 then "assertion failed"
  else if code = 0x11 then "arithmetic overflow or underflow"
  else if code = 0x12 then "division or modulo by zero"
  else if code = 0x21 then "invalid enum conversion"
  else if code = 0x22 then "corrupted storage byte array"
  else if code = 0x31 then "pop on empty array"
  else if code = 0x32 then "array index out of bounds"
  else if code = 0x41 then "out of memory"
  else if code = 0x51 then "call to zero-initialized function"
  else "unknown panic"

/-- The text of a panic, whose last eight octets are taken for its code. -/
def panicText (word : List UInt8) : String :=
  let code := Word.ofBigEndian word % Text.limit64
  s!"panic: {panicDescription code} (0x{String.ofList (Text.hexadecimal 2 code)})"

def decodeRevert? (data : List UInt8) : Option String :=
  let payload := data.drop 4
  if data.take 4 = messageSelector then
    match decode [.string] payload with
    | .ok [.string s] => some s
    | _ => none
  else if data.take 4 = panicSelector then
    if payload.length < 32 then none else some (panicText (payload.take 32))
  else none

def CustomError.rendered? (e : CustomError) (data : List UInt8) : Option String :=
  match signatureHash e.name e.inputs with
  | .ok hash =>
      if selectorOf hash = data.take 4 then
        match (do decode (← paramTypes e.inputs) (data.drop 4)) with
        | .ok values => some (e.name ++ "(" ++ Text.join ", " (values.map Json.shown) ++ ")")
        | .error _ => none
      else none
  | .error _ => none

end Abi

namespace Interface

/-- The text of the first declared error that the data is one of. -/
def decodeError? (i : Interface) (data : List UInt8) : Option String :=
  if data.length < 4 then none else i.errors.findSome? fun e => e.rendered? data

end Interface

end Rehearsal
