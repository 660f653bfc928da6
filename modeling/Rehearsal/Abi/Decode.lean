import Rehearsal.Abi.Fault
import Rehearsal.Abi.Word
import Rehearsal.Address
/-!
Decoding data by contract types.

Integers become decimal text, addresses and octets lower case hexadecimal text, tuples and
arrays JSON arrays. Positions of dynamic values count from the start of the enclosing tuple.
Nothing behind the data is ever read: each read is checked against its length first.
-/

namespace Rehearsal.Abi

def requireLength (data : List UInt8) (need : Nat) : Result Unit :=
  if data.length < need then .error (.insufficientData need data.length) else .ok ()

def slice (data : List UInt8) (position count : Nat) : List UInt8 :=
  (data.drop position).take count

def wordAt (data : List UInt8) (position : Nat) : Result (List UInt8) := do
  requireLength data (position + 32)
  return slice data position 32

def greatestPosition : Nat := Nat.pow 2 32 - 1

def positionAt (data : List UInt8) (position : Nat) : Result Nat := do
  let n := Word.ofBigEndian (← wordAt data position)
  if greatestPosition < n then .error (.outOfRange n) else return n

def countedAt (data : List UInt8) (start : Nat) : Result (List UInt8) := do
  let length ← positionAt data start
  requireLength data (start + 32 + length)
  return slice data (start + 32) length

def natJson (n : Nat) : Json :=
  .string (String.ofList (Text.decimal n))

/-- The number that a word denotes in two's complement, as text. -/
def signedJson (n : Nat) : Json :=
  if Word.limit / 2 ≤ n then .string (String.ofList ('-' :: Text.decimal (Word.limit - n)))
  else natJson n

def truth (word : List UInt8) : Bool :=
  word.getLast? != some 0

def decodeMany (one : (position : Nat) → Result (Json × Nat)) :
    (count position : Nat) → Result (List Json)
  | 0, _ => .ok []
  | count + 1, position => do
      let (value, length) ← one position
      let rest ← decodeMany one count (position + length)
      return value :: rest

mutual

/-- The value whose head stands at `position` in a tuple that starts at `base`, and how many
octets its head takes. -/
def decodeValue (data : List UInt8) :
    AbiType → (base position : Nat) → Result (Json × Nat)
  | .address, _, position => do
      let word ← wordAt data position
      return (.string (Hex.marked (word.drop 12)), 32)
  | .uint _, _, position => do
      let word ← wordAt data position
      return (natJson (Word.ofBigEndian word), 32)
  | .int _, _, position => do
      let word ← wordAt data position
      return (signedJson (Word.ofBigEndian word), 32)
  | .bool, _, position => do
      let word ← wordAt data position
      return (.bool (truth word), 32)
  | .fixedBytes size, _, position => do
      let word ← wordAt data position
      return (.string (Hex.marked (word.take size)), 32)
  | .bytes, base, position => do
      let bytes ← countedAt data (base + (← positionAt data position))
      return (.string (Hex.marked bytes), 32)
  | .string, base, position => do
      let bytes ← countedAt data (base + (← positionAt data position))
      match Utf8.decodeString bytes with
      | .ok s => return (.string s, 32)
      | .error fault => .error (.invalidText fault)
  | .array item, base, position => do
      let start := base + (← positionAt data position)
      let length ← positionAt data start
      requireLength data (start + 32 + length * 32)
      let values ← decodeMany (fun position => decodeValue data item (start + 32) position)
        length (start + 32)
      return (.array values, 32)
  | .fixedArray item count, base, position => do
      if item.isDynamic then
        let start := base + (← positionAt data position)
        let values ← decodeMany (fun position => decodeValue data item start position) count start
        return (.array values, 32)
      else
        let start := position
        let values ← decodeMany (fun position => decodeValue data item start position) count start
        return (.array values, item.headLength * count)
  | .tuple items, base, position => do
      if AbiType.anyDynamic items then
        let start := base + (← positionAt data position)
        return (.array (← decodeEach data items start start), 32)
      else
        return (.array (← decodeEach data items position position), AbiType.headLengths items)

def decodeEach (data : List UInt8) :
    List AbiType → (base position : Nat) → Result (List Json)
  | [], _, _ => .ok []
  | item :: rest, base, position => do
      let (value, length) ← decodeValue data item base position
      let values ← decodeEach data rest base (position + length)
      return value :: values

end

/-- Decodes data as a tuple of the given types; octets left over are passed over. -/
def decode (types : List AbiType) (data : List UInt8) : Result (List Json) :=
  decodeEach data types 0 0

end Rehearsal.Abi
