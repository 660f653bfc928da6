import Rehearsal.Abi.Fault
import Rehearsal.Keccak
/-!
Contract interfaces: what a contract declares, and how its entries are found.
-/

namespace Rehearsal

namespace Abi

structure Param where
  name : String
  kind : String
  components : List Param
  indexed : Bool
  deriving Repr, Inhabited

mutual

def Param.type : Param → Except AbiType.Fault AbiType
  | ⟨_, kind, components, _⟩ => AbiType.ofKind (fun _ => typesOf components) kind

def typesOf : List Param → Except AbiType.Fault (List AbiType)
  | [] => .ok []
  | param :: rest =>
      match param.type with
      | .error fault => .error fault
      | .ok type =>
          match typesOf rest with
          | .error fault => .error fault
          | .ok types => .ok (type :: types)

end

def typeOf (param : Param) : Result AbiType :=
  param.type.mapError .type

def paramTypes (params : List Param) : Result (List AbiType) :=
  (typesOf params).mapError .type

inductive Mutability where
  | pure
  | view
  | nonpayable
  | payable
  deriving DecidableEq, Repr, Inhabited

def Mutability.text : Mutability → String
  | .pure => "pure"
  | .view => "view"
  | .nonpayable => "nonpayable"
  | .payable => "payable"

structure Function where
  name : String
  inputs : List Param
  outputs : List Param
  mutability : Mutability
  /-- The mark that older interfaces give functions that only read. -/
  constant : Option Bool
  deriving Repr, Inhabited

structure Constructor where
  inputs : List Param
  mutability : Mutability
  deriving Repr, Inhabited

structure Event where
  name : String
  inputs : List Param
  anonymous : Bool
  deriving Repr, Inhabited

structure CustomError where
  name : String
  inputs : List Param
  deriving Repr, Inhabited

inductive Item where
  | function (function : Function)
  | event (event : Event)
  | constructor (constructor : Constructor)
  | error (error : CustomError)
  | other
  deriving Repr, Inhabited

end Abi

structure Interface where
  items : List Abi.Item
  deriving Repr, Inhabited

namespace Abi

def signature (name : String) (params : List Param) : Result String := do
  let types ← paramTypes params
  return name ++ (AbiType.tuple types).canonical

def signatureHash (name : String) (params : List Param) : Result Bytes32 := do
  return Keccak.hash (Utf8.encodeString (← signature name params))

def selectorOf (hash : Bytes32) : List UInt8 :=
  hash.toList.take 4

namespace Function

def isReadOnly (f : Function) : Bool :=
  f.mutability = .view || f.mutability = .pure || f.constant == some true

def signature (f : Function) : Result String :=
  Abi.signature f.name f.inputs

def selector (f : Function) : Result (List UInt8) :=
  selectorOf <$> signatureHash f.name f.inputs

end Function

namespace Event

def signature (e : Event) : Result String :=
  Abi.signature e.name e.inputs

/-- The first topic of the event's logs, unless it is anonymous. -/
def topic (e : Event) : Result Bytes32 :=
  signatureHash e.name e.inputs

end Event

namespace Item

def function? : Item → Option Function
  | .function f => some f
  | _ => none

def event? : Item → Option Event
  | .event e => some e
  | _ => none

def constructor? : Item → Option Constructor
  | .constructor c => some c
  | _ => none

def error? : Item → Option CustomError
  | .error e => some e
  | _ => none

end Item

end Abi

namespace Interface

open Abi

def empty : Interface := ⟨[]⟩

def functions (i : Interface) : List Function :=
  i.items.filterMap Item.function?

def events (i : Interface) : List Event :=
  i.items.filterMap Item.event?

def errors (i : Interface) : List CustomError :=
  i.items.filterMap Item.error?

def constructor? (i : Interface) : Option Constructor :=
  i.items.findSome? Item.constructor?

/-- The first function of a name that takes `count` arguments, or else the first of that name. -/
def function? (i : Interface) (name : String) (count : Nat) : Option Function :=
  let named := i.functions.filter fun f => f.name == name
  (named.find? fun f => f.inputs.length == count).or named.head?

def event? (i : Interface) (name : String) : Option Event :=
  i.events.find? fun e => e.name == name

end Interface

end Rehearsal
