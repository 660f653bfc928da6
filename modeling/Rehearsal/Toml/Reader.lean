import Rehearsal.Toml.Parser
/-!
Reading TOML values as data of a given shape.

A record is a table, in which unknown fields are passed over, or an array of its fields in
declared order. A choice is its name, or a table with that name and nothing in it.
-/

namespace Rehearsal.Toml.Reader

/-- The fields of a record by their names. An array may be cut short if its record allows it;
what stands behind the last field is passed over. A moment is a record without known fields. -/
def record (declared : List String) : Value → Result (List (String × Value))
  | .table entries => .ok entries
  | .array items => .ok (declared.zip items)
  | .moment _ => .ok []
  | _ => .error (.expected "a table")

def field? (name : String) (fields : List (String × Value)) : Option Value :=
  (fields.find? fun entry => entry.1 == name).map Prod.snd

def required {α : Type} (fields : List (String × Value)) (name : String)
    (read : Value → Result α) : Result α :=
  match field? name fields with
  | some value => read value
  | none => .error (.missingField name)

def withDefault {α : Type} (fields : List (String × Value)) (name : String) (default : α)
    (read : Value → Result α) : Result α :=
  match field? name fields with
  | some value => read value
  | none => .ok default

def string : Value → Result String
  | .string text => .ok text
  | _ => .error (.expected "a string")

def bool : Value → Result Bool
  | .bool b => .ok b
  | _ => .error (.expected "a boolean")

def nat : Value → Result Nat
  | .integer n => if 0 ≤ n then .ok n.toNat else .error (.expected "an unsigned integer")
  | _ => .error (.expected "an unsigned integer")

def entries {α : Type} (read : Value → Result α) : Value → Result (List (String × α))
  | .table entries => entries.mapM fun entry => do return (entry.1, ← read entry.2)
  | _ => .error (.expected "a table")

def named {α : Type} (choices : List (String × α)) (name : String) : Result α :=
  match (choices.find? fun entry => entry.1 == name) with
  | some (_, choice) => .ok choice
  | none => .error (.unknownChoice name)

def choice {α : Type} (choices : List (String × α)) : Value → Result α
  | .string name => named choices name
  | .table [(name, .table [])] => named choices name
  | .table [(name, .array [])] => named choices name
  | _ => .error (.expected "a choice")

end Rehearsal.Toml.Reader
