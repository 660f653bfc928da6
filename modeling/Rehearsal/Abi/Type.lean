import Rehearsal.Text.Numeral
import Rehearsal.Text.Search
/-!
Parameter types of contract interfaces and their text.

A type is read from a kind such as `uint256[3]`, together with the types of the components when
its base is a tuple. The canonical text spells every width out.
-/

namespace Rehearsal

inductive AbiType where
  | address
  | uint (bits : Nat)
  | int (bits : Nat)
  | bool
  | string
  | bytes
  | fixedBytes (size : Nat)
  | array (item : AbiType)
  | fixedArray (item : AbiType) (count : Nat)
  | tuple (items : List AbiType)
  deriving Repr, Inhabited

namespace AbiType

mutual

/-- Whether values of the type are encoded behind the head, at a position given in it. -/
def isDynamic : AbiType → Bool
  | .bytes => true
  | .string => true
  | .array _ => true
  | .fixedArray item _ => item.isDynamic
  | .tuple items => anyDynamic items
  | .address => false
  | .uint _ => false
  | .int _ => false
  | .bool => false
  | .fixedBytes _ => false

def anyDynamic : List AbiType → Bool
  | [] => false
  | item :: rest => item.isDynamic || anyDynamic rest

end

mutual

/-- How many octets a value takes in the head of the enclosing tuple. -/
def headLength : AbiType → Nat
  | .fixedArray item count => if item.isDynamic then 32 else item.headLength * count
  | .tuple items => if anyDynamic items then 32 else headLengths items
  | .address => 32
  | .uint _ => 32
  | .int _ => 32
  | .bool => 32
  | .string => 32
  | .bytes => 32
  | .fixedBytes _ => 32
  | .array _ => 32

def headLengths : List AbiType → Nat
  | [] => 0
  | item :: rest => item.headLength + headLengths rest

end

def isHashedInTopic : AbiType → Bool
  | .tuple _ => true
  | .fixedArray _ _ => true
  | type => type.isDynamic

def natText (n : Nat) : String :=
  String.ofList (Text.decimal n)

mutual

def canonical : AbiType → String
  | .address => "address"
  | .uint bits => "uint" ++ natText bits
  | .int bits => "int" ++ natText bits
  | .bool => "bool"
  | .string => "string"
  | .bytes => "bytes"
  | .fixedBytes size => "bytes" ++ natText size
  | .array item => item.canonical ++ "[]"
  | .fixedArray item count => item.canonical ++ "[" ++ natText count ++ "]"
  | .tuple items => "(" ++ Text.join "," (canonicals items) ++ ")"

def canonicals : List AbiType → List String
  | [] => []
  | item :: rest => item.canonical :: canonicals rest

end

inductive Fault where
  | malformedArray (kind : String)
  | malformedSize (kind : String)
  | unsupported (kind : String)
  deriving DecidableEq, Repr

def Fault.message : Fault → String
  | .malformedArray kind => s!"malformed array type '{kind}'"
  | .malformedSize kind => s!"malformed array size in '{kind}'"
  | .unsupported kind => s!"unsupported ABI type '{kind}'"

/-- A width from `step` to `greatest` that `step` divides. -/
def width? (greatest step : Nat) (digits : List Char) : Option Nat :=
  match Text.readCount digits with
  | some n => if 0 < n ∧ n ≤ greatest ∧ n % step = 0 then some n else none
  | none => none

def sized? (kind : List Char) : Option AbiType :=
  ((Text.dropPrefix? "uint".toList kind).bind (width? 256 8)).map AbiType.uint
    <|> ((Text.dropPrefix? "int".toList kind).bind (width? 256 8)).map AbiType.int
    <|> ((Text.dropPrefix? "bytes".toList kind).bind (width? 32 1)).map AbiType.fixedBytes

/-- A kind that is no array; `components` is asked for only when it is a tuple. -/
def ofBase (components : Unit → Except Fault (List AbiType)) (kind : List Char) :
    Except Fault AbiType :=
  if kind = "address".toList then .ok .address
  else if kind = "bool".toList then .ok .bool
  else if kind = "string".toList then .ok .string
  else if kind = "bytes".toList then .ok .bytes
  else if kind = "uint".toList then .ok (.uint 256)
  else if kind = "int".toList then .ok (.int 256)
  else if kind = "tuple".toList then (components ()).map .tuple
  else
    match sized? kind with
    | some type => .ok type
    | none => .error (.unsupported (String.ofList kind))

/-- Reads a kind from its end, one array suffix a step. The type of the items is read before
the size, so that a fault of the items comes first. -/
def ofKindWithin (components : Unit → Except Fault (List AbiType)) :
    (fuel : Nat) → List Char → Except Fault AbiType
  | 0, kind => .error (.unsupported (String.ofList kind))
  | fuel + 1, kind =>
      match Text.dropSuffix? [']'] kind with
      | none => ofBase components kind
      | some stripped =>
          match Text.splitAtLast? '[' stripped with
          | none => .error (.malformedArray (String.ofList kind))
          | some (inner, size) =>
              match ofKindWithin components fuel inner with
              | .error e => .error e
              | .ok item =>
                  if size.isEmpty then .ok (.array item)
                  else
                    match Text.readCount size with
                    | some count => .ok (.fixedArray item count)
                    | none => .error (.malformedSize (String.ofList kind))

def ofKind (components : Unit → Except Fault (List AbiType)) (kind : String) :
    Except Fault AbiType :=
  ofKindWithin components (kind.length + 1) kind.toList

end AbiType

end Rehearsal
