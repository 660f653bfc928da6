import Rehearsal.Abi.Fault
import Rehearsal.Abi.Word
import Rehearsal.Address
/-!
Encoding JSON values by contract types.

A tuple is encoded as its head followed by its tail. A static component stands in the head; a
dynamic one stands in the tail, at a position that the head gives, counted from the start of
the tuple.
-/

namespace Rehearsal.Abi

/-- A word in decimal, or in hexadecimal behind a mark, blanks around it or not. -/
def unsignedOfText (s : List Char) : Result Nat :=
  let s := Text.trim s
  match Word.ofDigits? s with
  | some n => .ok n
  | none => .error (.invalidUnsigned (String.ofList s))

def unsignedOf : Json → Result Nat
  | .string s => unsignedOfText s.toList
  | value =>
      match value.nat? with
      | some n => .ok n
      | none => .error (.wrongShape "unsigned integer" value)

/-- The two's complement of a negative number, the number itself otherwise. -/
def signedWord (negative : Bool) (magnitude : Nat) : Nat :=
  if negative then Word.complement magnitude else magnitude

def signedOf : Json → Result Nat
  | .string s =>
      match Text.trim s.toList with
      | '-' :: rest => (unsignedOfText rest).map (signedWord true)
      | s => (unsignedOfText s).map (signedWord false)
  | value =>
      match value.int? with
      | some n => .ok (signedWord (n < 0) n.natAbs)
      | none => .error (.wrongShape "integer" value)

def octetsOf : Json → Result (List UInt8)
  | .string s =>
      match Hex.decode (Text.dropHexMarks s.toList) with
      | .ok bytes => .ok bytes
      | .error fault => .error (.invalidHex s fault)
  | value => .error (.wrongShape "0x-prefixed hex string" value)

def addressOf : Json → Result Address
  | .string s =>
      match Address.parse? s with
      | some address => .ok address
      | none => .error (.invalidAddress s)
  | value => .error (.wrongShape "address string" value)

def boolOf : Json → Result Bool
  | .bool b => .ok b
  | .string s =>
      if s = "true" then .ok true
      else if s = "false" then .ok false
      else .error (.wrongShape "bool" (.string s))
  | value => .error (.wrongShape "bool" value)

def itemsOf : Json → Result (List Json)
  | .array items => .ok items
  | value => .error (.wrongShape "array" value)

/-- The octets of a text parameter: a string as it is, any other value as compact JSON. -/
def textOctets (value : Json) : List UInt8 :=
  Utf8.encodeString value.shown

/-- Octets filled with zeros to a multiple of thirty-two. -/
def padded (bytes : List UInt8) : List UInt8 :=
  bytes ++ List.replicate ((32 - bytes.length % 32) % 32) 0

/-- Octets of any number: their count, then themselves. -/
def counted (bytes : List UInt8) : List UInt8 :=
  Word.bytes bytes.length ++ padded bytes

inductive Piece where
  | static (bytes : List UInt8)
  | dynamic (bytes : List UInt8)
  deriving DecidableEq, Repr

def Piece.of (type : AbiType) (bytes : List UInt8) : Piece :=
  if type.isDynamic then .dynamic bytes else .static bytes

/-- The head, when the next dynamic component stands at `position`. -/
def heads (position : Nat) : List Piece → List UInt8
  | [] => []
  | .static bytes :: rest => bytes ++ heads position rest
  | .dynamic bytes :: rest => Word.bytes position ++ heads (position + bytes.length) rest

def tails : List Piece → List UInt8
  | [] => []
  | .static _ :: rest => tails rest
  | .dynamic bytes :: rest => bytes ++ tails rest

def assemble (headLength : Nat) (pieces : List Piece) : List UInt8 :=
  heads headLength pieces ++ tails pieces

mutual

def encodeValue : AbiType → Json → Result (List UInt8)
  | .address, value => do
      let address ← addressOf value
      return List.replicate 12 0 ++ address.bytes.toList
  | .uint _, value => Word.bytes <$> unsignedOf value
  | .int _, value => Word.bytes <$> signedOf value
  | .bool, value => do
      let b ← boolOf value
      return Word.bytes (if b then 1 else 0)
  | .fixedBytes size, value => do
      let bytes ← octetsOf value
      if size < bytes.length then .error (.tooLong size bytes.length)
      else return bytes ++ List.replicate (32 - bytes.length) 0
  | .bytes, value => counted <$> octetsOf value
  | .string, value => .ok (counted (textOctets value))
  | .array item, value => do
      let values ← itemsOf value
      let parts ← values.mapM fun value => encodeValue item value
      return Word.bytes values.length
        ++ assemble (item.headLength * values.length) (parts.map (Piece.of item))
  | .fixedArray item count, value => do
      let values ← itemsOf value
      if values.length ≠ count then .error (.itemCount count values.length)
      else
        let parts ← values.mapM fun value => encodeValue item value
        return assemble (item.headLength * values.length) (parts.map (Piece.of item))
  | .tuple types, value => do
      let values ← itemsOf value
      if types.length ≠ values.length then .error (.argumentCount types.length values.length)
      else
        let pieces ← encodePieces types values
        return assemble (AbiType.headLengths types) pieces

def encodePieces : List AbiType → List Json → Result (List Piece)
  | type :: types, value :: values => do
      let bytes ← encodeValue type value
      let rest ← encodePieces types values
      return Piece.of type bytes :: rest
  | _, _ => .ok []

end

/-- Encodes values as a tuple of the given types. Room for the head is taken to be there, however long
the types make it. -/
def encode (types : List AbiType) (values : List Json) : Result (List UInt8) :=
  if types.length ≠ values.length then .error (.argumentCount types.length values.length)
  else do
    let pieces ← encodePieces types values
    return assemble (AbiType.headLengths types) pieces

end Rehearsal.Abi
