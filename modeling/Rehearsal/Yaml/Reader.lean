import Rehearsal.Yaml.Value
/-!
Reading nodes and values as data of a given shape.

A reader of nodes follows aliases and counts how many it has followed, so that a small text
cannot stand for a vast value. A plain scalar without text stands for an empty collection.
-/

namespace Rehearsal.Yaml

/-- Reading within a document, with the number of aliases followed so far. -/
abbrev Reading := ReaderT Document (StateT Nat Result)

namespace Reader

def fail {α : Type} (problem : Problem) : Reading α :=
  fun _ _ => .error problem

def ofResult {α : Type} : Result α → Reading α
  | .ok a => return a
  | .error problem => fail problem

/-- How many aliases may be followed for each beginning or end of a node. -/
def aliasesPerEvent : Nat := 100

def depthLimit : Nat := 128

/-- The node itself, or the one that it stands for as an alias. -/
def follow : Node → Reading Node
  | .alias number => do
      let d ← read
      let followed := (← get) + 1
      set followed
      if d.size * aliasesPerEvent < followed then fail .tooManyAliases
      else
        match d.anchor? number with
        | some node => return node
        | none => fail .tooManyAliases
  | node => return node

def string (node : Node) : Reading String := do
  match ← follow node with
  | .scalar _ text _ => return text
  | _ => fail (.expected "a string")

def bool (node : Node) : Reading Bool := do
  match ← follow node with
  | .scalar tag text style =>
      if Scalar.mayDenote "bool" tag style then
        ofResult (Scalar.orExpected "a boolean" (Scalar.bool? text))
      else fail (.expected "a boolean")
  | _ => fail (.expected "a boolean")

def nat (node : Node) : Reading Nat := do
  match ← follow node with
  | .scalar tag text style =>
      match text.toList, Scalar.integer? text.toList with
      | '-' :: _, _ => fail (.expected "an unsigned integer")
      | _, some n =>
          if Scalar.mayDenote "int" tag style && Scalar.fits64 n then return n.toNat
          else fail (.expected "an unsigned integer")
      | _, none => fail (.expected "an unsigned integer")
  | _ => fail (.expected "an unsigned integer")

def isNull : Node → Result Bool
  | .scalar tag text .plain =>
      match tag with
      | none => .ok (text == "" || Scalar.isNullWord text)
      | some tag =>
          if tag = Scalar.coreTag "null" then
            if Scalar.isNullWord text then .ok true else .error (.expected "null")
          else .ok false
  | _ => .ok false

def nullable {α : Type} (read : Node → Reading α) (node : Node) : Reading (Option α) := do
  let node ← follow node
  if ← ofResult (isNull node) then return none else return some (← read node)

def enter (depth : Nat) : Reading Nat :=
  match depth with
  | 0 => fail .tooDeep
  | depth + 1 => return depth

def list {α : Type} (read : (depth : Nat) → Node → Reading α) (depth : Nat) (node : Node) :
    Reading (List α) := do
  match ← follow node with
  | .sequence _ items => items.mapM (read (← enter depth))
  | .scalar _ "" .plain => return []
  | _ => fail (.expected "a sequence")

/-- The entries of a mapping whose keys are scalars, and how deep its values may nest. -/
def entries (depth : Nat) (node : Node) : Reading (Nat × List (String × Node)) := do
  match ← follow node with
  | .mapping _ entries =>
      let depth ← enter depth
      let named ← entries.mapM fun (key, value) => do return (← string key, value)
      return (depth, named)
  | .scalar _ "" .plain => return (depth, [])
  | _ => fail (.expected "a mapping")

def mapping {α : Type} (read : (depth : Nat) → Node → Reading α) (depth : Nat) (node : Node) :
    Reading (Json.Mapping α) := do
  let (depth, named) ← entries depth node
  let named ← named.mapM fun (name, value) => do return (name, ← read depth value)
  return Json.Mapping.ofList named

structure Record where
  depth : Nat
  fields : List (String × Node)

def repeated? {α : Type} (declared : List String) (fields : List (String × α)) : Option String :=
  declared.find? fun name => 1 < fields.countP fun entry => entry.1 == name

/-- Opens a mapping as a record; fields that are not declared are passed over unread. -/
def record (declared : List String) (depth : Nat) (node : Node) : Reading Record := do
  let (depth, fields) ← entries depth node
  match repeated? declared fields with
  | some name => fail (.repeatedField name)
  | none => return ⟨depth, fields⟩

namespace Record

def field? (r : Record) (name : String) : Option Node :=
  Json.Mapping.get? name r.fields

def required {α : Type} (r : Record) (name : String) (read : (depth : Nat) → Node → Reading α) :
    Reading α :=
  match r.field? name with
  | some node => read r.depth node
  | none => fail (.missingField name)

def withDefault {α : Type} (r : Record) (name : String) (default : α)
    (read : (depth : Nat) → Node → Reading α) : Reading α :=
  match r.field? name with
  | some node => read r.depth node
  | none => return default

/-- A field that may be left out or null. -/
def optional {α : Type} (r : Record) (name : String) (read : (depth : Nat) → Node → Reading α) :
    Reading (Option α) :=
  r.withDefault name none fun depth => nullable (read depth)

end Record

def ofNamed {α : Type} (choices : List (String × α)) (name : String) : Reading α :=
  match Json.Mapping.get? name choices with
  | some choice => return choice
  | none => fail (.unknownChoice name)

/-- A choice by its name, or by a tag of that name in front of nothing. -/
def choice {α : Type} (choices : List (String × α)) (node : Node) : Reading α := do
  match ← follow node with
  | .scalar tag text style =>
      match Scalar.localTag? tag with
      | none => ofNamed choices text
      | some name =>
          if style == .plain && (text == "" || Scalar.isNullWord text) then ofNamed choices name
          else fail (.expected "nothing")
  | _ => fail (.expected "a choice")

/-- Tags that are no part of the core schema have no meaning in values. -/
def refuseTag (tag : Option String) : Reading Unit :=
  if (Scalar.localTag? tag).isSome then fail (.expected "a value") else return ()

def value : (depth : Nat) → Node → Reading Value
  | depth, node => do
      match ← follow node with
      | .scalar tag text style => ofResult (Scalar.value tag text style)
      | .sequence tag items =>
          refuseTag tag
          match depth with
          | 0 => fail .tooDeep
          | depth + 1 => return .sequence (← items.mapM (value depth))
      | .mapping tag entries =>
          refuseTag tag
          match depth with
          | 0 => fail .tooDeep
          | depth + 1 =>
              return .mapping (← entries.mapM fun (key, item) => do
                return (← value depth key, ← value depth item))
      | .alias _ => fail .tooManyAliases
termination_by structural depth => depth

def json : (depth : Nat) → Node → Reading Json
  | depth, node => do
      match ← follow node with
      | .scalar tag text style => ofResult (do (← Scalar.value tag text style).toJson)
      | .sequence tag items =>
          refuseTag tag
          match depth with
          | 0 => fail .tooDeep
          | depth + 1 => return .array (← items.mapM (json depth))
      | .mapping tag entries =>
          refuseTag tag
          match depth with
          | 0 => fail .tooDeep
          | depth + 1 =>
              let named ← entries.mapM fun (key, item) => do
                return (← string key, ← json depth item)
              return .object (Json.Mapping.ofList named)
      | .alias _ => fail .tooManyAliases
termination_by structural depth => depth

end Reader

def readText {α : Type} (read : (depth : Nat) → Node → Reading α) (text : String) : Result α := do
  let d ← Document.parse text
  let (a, _) ← (read Reader.depthLimit d.root).run d |>.run 0
  return a

end Rehearsal.Yaml
