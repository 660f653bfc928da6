import Rehearsal.Json.Basic
/-!
Reading records and choices from JSON values.

A record is an object, in which unknown fields are passed over and a known one stands at most
once, or an array of its fields in declared order. A choice is its name, or an object with
that name and null.
-/

namespace Rehearsal.Json

inductive Fault where
  | malformed
  | expected (shape : String)
  | missing (field : String)
  | repeated (field : String)
  | unknownChoice (name : String)
  deriving DecidableEq, Repr

def Fault.message : Fault → String
  | .malformed => "malformed JSON"
  | .expected shape => s!"expected {shape}"
  | .missing field => s!"missing field '{field}'"
  | .repeated field => s!"repeated field '{field}'"
  | .unknownChoice name => s!"unknown choice '{name}'"

abbrev Reading := Except Fault

namespace Reader

/-- The fields of a record: by name, or by position. -/
inductive Record where
  | named (fields : List (String × Json))
  | positional (fields : List (String × Json))

def record (declared : List String) : Json → Reading Record
  | .object fields =>
      let known := fields.filter fun entry => declared.contains entry.1
      match known.find? fun entry => (known.filter fun other => other.1 == entry.1).length > 1 with
      | some (name, _) => .error (.repeated name)
      | none => .ok (.named known)
  | .array items =>
      if items.length ≤ declared.length then .ok (.positional (declared.zip items))
      else .error (.expected s!"at most {declared.length} fields")
  | _ => .error (.expected "a record")

def Record.field? (name : String) : Record → Option Json
  | .named fields => Mapping.get? name fields
  | .positional fields => Mapping.get? name fields

def Record.required {α : Type} (r : Record) (name : String) (read : Json → Reading α) :
    Reading α :=
  match r.field? name with
  | some value => read value
  | none => .error (.missing name)

def Record.withDefault {α : Type} (r : Record) (name : String) (default : α)
    (read : Json → Reading α) : Reading α :=
  match r.field? name with
  | some value => read value
  | none => .ok default

def nullable {α : Type} (read : Json → Reading α) : Json → Reading (Option α)
  | .null => .ok none
  | value => some <$> read value

/-- A field that may be left out or null. -/
def Record.optional {α : Type} (r : Record) (name : String) (read : Json → Reading α) :
    Reading (Option α) :=
  r.withDefault name none (nullable read)

/-- A field that may be null, and may be left out of an object but not of an array. -/
def Record.nullableField {α : Type} (r : Record) (name : String) (read : Json → Reading α) :
    Reading (Option α) :=
  match r with
  | .named _ => r.optional name read
  | .positional _ => r.required name (nullable read)

def any (value : Json) : Reading Json :=
  .ok value.canonical

def string : Json → Reading String
  | .string s => .ok s
  | _ => .error (.expected "a string")

def bool : Json → Reading Bool
  | .bool b => .ok b
  | _ => .error (.expected "a boolean")

def nat (value : Json) : Reading Nat :=
  match value.nat? with
  | some n => .ok n
  | none => .error (.expected "an unsigned integer")

def int (value : Json) : Reading Int :=
  match value.int? with
  | some n => .ok n
  | none => .error (.expected "an integer")

def list {α : Type} (read : Json → Reading α) : Json → Reading (List α)
  | .array items => items.mapM read
  | _ => .error (.expected "an array")

/-- Named values; the last value of a name stays. -/
def mapping {α : Type} (read : Json → Reading α) : Json → Reading (Mapping α)
  | .object fields => do
      let entries ← fields.mapM fun entry => do return (entry.1, ← read entry.2)
      return Mapping.ofList entries
  | _ => .error (.expected "an object")

def named {α : Type} (choices : List (String × α)) (name : String) : Reading α :=
  match Mapping.get? name choices with
  | some choice => .ok choice
  | none => .error (.unknownChoice name)

def choice {α : Type} (choices : List (String × α)) : Json → Reading α
  | .string name => named choices name
  | .object [(name, value)] =>
      match value with
      | .null => named choices name
      | _ => .error (.expected "null")
  | _ => .error (.expected "a choice")

/-- A choice inside an entry of several kinds: an empty record may stand for null. -/
def choiceOrEmpty {α : Type} (choices : List (String × α)) : Json → Reading α
  | .object [(name, .object [])] => named choices name
  | value => choice choices value

end Reader

end Rehearsal.Json
