import Rehearsal.Proofs.Abi.Integer
import Rehearsal.Proofs.Abi.Shape
import Rehearsal.Proofs.Text.Hex

namespace Rehearsal.Abi

/-! The canonical form of a value of a type: integers as decimal text, octets and addresses as
lower case hexadecimal text behind a mark, truth values and texts as themselves, tuples and
arrays item by item. -/

def textOf (value : Json) : List Char :=
  (value.string?.getD "").toList

def octetDigits (s : List Char) : List Char :=
  Text.lower (Text.dropHexMarks s)

def addressDigits (s : List Char) : List Char :=
  Text.lower (Text.dropPairs '0' 'X' (Text.dropHexMarks (Text.trim s)))

def markedJson (digits : List Char) : Json :=
  .string (String.ofList ('0' :: 'x' :: digits))

/-- The truth value that a value denotes, given as itself or by its name. -/
def isTrue : Json → Bool
  | .bool b => b
  | .string s => s = "true"
  | _ => false

mutual

/-- The canonical form of a value that a type accepts. -/
def canonicalForm : AbiType → Json → Json
  | .address, value => markedJson (addressDigits (textOf value))
  | .uint _, value => integerJson (integerOf value)
  | .int _, value => integerJson (integerOf value)
  | .bool, value => .bool (isTrue value)
  | .string, value => .string value.shown
  | .bytes, value => markedJson (octetDigits (textOf value))
  | .fixedBytes size, value =>
      let digits := octetDigits (textOf value)
      markedJson (digits ++ List.replicate (2 * size - digits.length) '0')
  | .array item, value => .array ((value.array?.getD []).map fun v => canonicalForm item v)
  | .fixedArray item _, value =>
      .array ((value.array?.getD []).map fun v => canonicalForm item v)
  | .tuple items, value => .array (canonicalForms items (value.array?.getD []))

def canonicalForms : List AbiType → List Json → List Json
  | type :: types, value :: values => canonicalForm type value :: canonicalForms types values
  | _, _ => []

end

mutual

def EachLeaf (p : AbiType → Json → Prop) : AbiType → Json → Prop
  | .array item, value => ∀ v ∈ value.array?.getD [], EachLeaf p item v
  | .fixedArray item _, value => ∀ v ∈ value.array?.getD [], EachLeaf p item v
  | .tuple items, value => AllLeaves p items (value.array?.getD [])
  | .address, value => p .address value
  | .uint bits, value => p (.uint bits) value
  | .int bits, value => p (.int bits) value
  | .bool, value => p .bool value
  | .string, value => p .string value
  | .bytes, value => p .bytes value
  | .fixedBytes size, value => p (.fixedBytes size) value

def AllLeaves (p : AbiType → Json → Prop) : List AbiType → List Json → Prop
  | type :: types, value :: values => EachLeaf p type value ∧ AllLeaves p types values
  | _, _ => True

end

/-- A signed integer has room in two's complement of 256 bits. -/
def SignedFits : AbiType → Json → Prop
  | .int _, value => -2 ^ 255 ≤ integerOf value ∧ integerOf value < 2 ^ 255
  | _, _ => True

theorem allLeaves_of_forall {p : AbiType → Json → Prop} {types : List AbiType}
    (each : ∀ type ∈ types, ∀ value, EachLeaf p type value) (values : List Json) :
    AllLeaves p types values := by
  induction types generalizing values with
  | nil => trivial
  | cons type types ih =>
      obtain ⟨first, others⟩ := List.forall_mem_cons.mp each
      cases values with
      | nil => trivial
      | cons value values => exact ⟨first value, ih others values⟩

/-! Many values of one type. -/

theorem canonicalForms_replicate (item : AbiType) (values : List Json) :
    canonicalForms (List.replicate values.length item) values =
      values.map fun v => canonicalForm item v := by
  induction values with
  | nil => rfl
  | cons value values ih =>
      rw [List.length_cons, List.replicate_succ, canonicalForms, ih, List.map_cons]

theorem allLeaves_replicate {p : AbiType → Json → Prop} {item : AbiType} {values : List Json} :
    AllLeaves p (List.replicate values.length item) values ↔ ∀ v ∈ values, EachLeaf p item v := by
  induction values with
  | nil => simp [AllLeaves]
  | cons value values ih => simp [List.replicate_succ, AllLeaves, ih]

theorem encodePieces_replicate (item : AbiType) (values : List Json) :
    encodePieces (List.replicate values.length item) values =
      (values.mapM fun v => encodeValue item v).map (List.map (Piece.of item)) := by
  induction values with
  | nil => rfl
  | cons value values ih =>
      rw [List.length_cons, List.replicate_succ, encodePieces, ih, List.mapM_cons]
      cases encodeValue item value with
      | error fault => rfl
      | ok bytes => cases values.mapM fun v => encodeValue item v <;> rfl

/-! What the readers of leaves make of a value is its canonical form. -/

theorem octetsOf_eq_ok {value : Json} {bytes : List UInt8} (read : octetsOf value = .ok bytes) :
    Hex.encode bytes = octetDigits (textOf value) := by
  unfold octetsOf at read
  split at read
  · next s =>
    split at read
    · next decoded =>
      cases read
      exact Hex.encode_of_decode decoded
    · cases read
  · cases read

theorem addressOf_eq_ok {value : Json} {address : Address} (read : addressOf value = .ok address) :
    Hex.encode address.bytes.toList = addressDigits (textOf value) := by
  unfold addressOf at read
  split at read
  · next s =>
    split at read
    · next parsed =>
      cases read
      simp only [Address.parse?] at parsed
      split at parsed
      · split at parsed
        · next bytes decoded =>
          simp only [Address.ofBytes?] at parsed
          split at parsed
          · cases parsed
            exact Hex.encode_of_decode decoded
          · cases parsed
        · cases parsed
      · cases parsed
    · cases read
  · cases read

theorem boolOf_eq_ok {value : Json} {b : Bool} (read : boolOf value = .ok b) :
    b = isTrue value := by
  unfold boolOf at read
  split at read
  · cases read
    rfl
  · next s =>
    split at read
    · next named =>
      cases read
      simp [isTrue, named]
    · split at read
      · next named =>
        cases read
        simp [isTrue, named]
      · cases read
  · cases read

theorem itemsOf_eq_ok {value : Json} {items : List Json} (read : itemsOf value = .ok items) :
    value = .array items := by
  unfold itemsOf at read
  split at read
  · cases read
    rfl
  · cases read

end Rehearsal.Abi
