import Rehearsal.Abi.Declaration
import Rehearsal.Json.Reader
/-!
Reading interfaces from JSON.

An interface is an array of entries. The field `type` of an entry says which kind it is; an
entry of a kind that is not known counts as an entry but is passed over.
-/

namespace Rehearsal

namespace Abi

open Json (Reading)
open Json.Reader

namespace Param

def fields : List String := ["name", "type", "components", "indexed"]

def ofRecord (components : List Param) (r : Record) : Reading Param := do
  let name ← r.withDefault "name" "" string
  let kind ← r.required "type" string
  let indexed ← r.withDefault "indexed" false bool
  return ⟨name, kind, components, indexed⟩

mutual

def read : Json → Reading Param
  | .object entries => do
      let r ← record fields (.object entries)
      ofRecord (← readNamed entries) r
  | .array items => do
      let r ← record fields (.array items)
      ofRecord (← readThird items) r
  | _ => .error (.expected "a parameter")

/-- The components of a parameter given by names. -/
def readNamed : List (String × Json) → Reading (List Param)
  | [] => .ok []
  | (name, value) :: rest => if name = "components" then readAll value else readNamed rest

def readThird : List Json → Reading (List Param)
  | _ :: _ :: value :: _ => readAll value
  | _ => .ok []

def readAll : Json → Reading (List Param)
  | .array items => readItems items
  | _ => .error (.expected "an array of parameters")

def readItems : List Json → Reading (List Param)
  | [] => .ok []
  | item :: rest => do
      let param ← read item
      let params ← readItems rest
      return param :: params

end

end Param

namespace Mutability

def choices : List (String × Mutability) :=
  [Mutability.pure, .view, .nonpayable, .payable].map fun m => (m.text, m)

def read (value : Json) : Reading Mutability :=
  choiceOrEmpty choices value

end Mutability

def Function.read (value : Json) : Reading Function := do
  let r ← record ["name", "inputs", "outputs", "stateMutability", "constant"] value
  return {
    name := ← r.required "name" string
    inputs := ← r.withDefault "inputs" [] Param.readAll
    outputs := ← r.withDefault "outputs" [] Param.readAll
    mutability := ← r.withDefault "stateMutability" .nonpayable Mutability.read
    constant := ← r.optional "constant" bool }

def Constructor.read (value : Json) : Reading Constructor := do
  let r ← record ["inputs", "stateMutability"] value
  return {
    inputs := ← r.withDefault "inputs" [] Param.readAll
    mutability := ← r.withDefault "stateMutability" .nonpayable Mutability.read }

def Event.read (value : Json) : Reading Event := do
  let r ← record ["name", "inputs", "anonymous"] value
  return {
    name := ← r.required "name" string
    inputs := ← r.withDefault "inputs" [] Param.readAll
    anonymous := ← r.withDefault "anonymous" false bool }

def CustomError.read (value : Json) : Reading CustomError := do
  let r ← record ["name", "inputs"] value
  return {
    name := ← r.required "name" string
    inputs := ← r.withDefault "inputs" [] Param.readAll }

/-- An entry of an unknown kind may hold any fields, but as an array nothing else. -/
def readOther : Json → Reading Item
  | .object _ => .ok .other
  | .array [] => .ok .other
  | _ => .error (.expected "no further items")

def Item.split : Json → Reading (String × Json)
  | .object fields =>
      match fields.filter fun entry => entry.1 == "type" with
      | [(_, .string kind)] => .ok (kind, .object (fields.filter fun entry => entry.1 != "type"))
      | [_] => .error (.expected "a kind")
      | [] => .error (.missing "type")
      | _ => .error (.repeated "type")
  | .array (.string kind :: rest) => .ok (kind, .array rest)
  | _ => .error (.expected "an entry")

def Item.read (value : Json) : Reading Item := do
  let (kind, rest) ← Item.split value
  if kind = "function" then Item.function <$> Function.read rest
  else if kind = "event" then Item.event <$> Event.read rest
  else if kind = "constructor" then Item.constructor <$> Constructor.read rest
  else if kind = "error" then Item.error <$> CustomError.read rest
  else readOther rest

end Abi

namespace Interface

def read (value : Json) : Json.Reading Interface :=
  Interface.mk <$> Json.Reader.list Abi.Item.read value

def ofJson (value : Json) : Abi.Result Interface :=
  match read value with
  | .ok i => .ok i
  | .error fault => .error (.malformed fault)

end Interface

end Rehearsal
