import Rehearsal.Proofs.Abi.RoundTrip

namespace Rehearsal.Abi

/-! What a decoded value was read from: a word, octets that are counted, or other values one behind
the other. -/

variable {data : List UInt8} {types : List AbiType} {type : AbiType}
  {base position length : Nat} {value : Json} {values : List Json}

theorem length_of_wordAt {word : List UInt8} (read : wordAt data position = .ok word) :
    word.length = 32 := by
  simp only [wordAt, bind_eq_ok, pure_eq_ok] at read
  obtain ⟨_, enough, rfl⟩ := read
  unfold requireLength at enough
  split at enough
  · contradiction
  · rw [slice, List.length_take, List.length_drop]
    omega

theorem length_of_decodeEach (decoded : decodeEach data types base position = .ok values) :
    values.length = types.length := by
  induction types generalizing position values with
  | nil =>
      cases decoded
      rfl
  | cons type types ih =>
      simp only [decodeEach, bind_eq_ok, pure_eq_ok] at decoded
      obtain ⟨⟨value, length⟩, -, rest, others, rfl⟩ := decoded
      rw [List.length_cons, List.length_cons, ih others]

theorem decodeEach_of_decodeMany {item : AbiType} {count : Nat}
    (items : decodeMany (fun position => decodeValue data item base position) count position =
      .ok values) : count = values.length ∧
      decodeEach data (List.replicate values.length item) base position = .ok values := by
  rw [decodeMany_eq_decodeEach] at items
  have length := length_of_decodeEach items
  rw [List.length_replicate] at length
  rw [length]
  exact ⟨rfl, items⟩

inductive Decoded (data : List UInt8) : AbiType → Json → Prop where
  | address {position : Nat} {word : List UInt8} (read : wordAt data position = .ok word) :
      Decoded data .address (.string (Hex.marked (word.drop 12)))
  | uint {bits position : Nat} {word : List UInt8} (read : wordAt data position = .ok word) :
      Decoded data (.uint bits) (natJson (Word.ofBigEndian word))
  | int {bits position : Nat} {word : List UInt8} (read : wordAt data position = .ok word) :
      Decoded data (.int bits) (signedJson (Word.ofBigEndian word))
  | bool {position : Nat} {word : List UInt8} (read : wordAt data position = .ok word) :
      Decoded data .bool (.bool (truth word))
  | fixedBytes {size position : Nat} {word : List UInt8} (read : wordAt data position = .ok word) :
      Decoded data (.fixedBytes size) (.string (Hex.marked (word.take size)))
  | bytes {start : Nat} {octets : List UInt8} (read : countedAt data start = .ok octets) :
      Decoded data .bytes (.string (Hex.marked octets))
  | string {start : Nat} {octets : List UInt8} {s : String}
      (read : countedAt data start = .ok octets) (text : Utf8.decodeString octets = .ok s) :
      Decoded data .string (.string s)
  | array {item : AbiType} {start : Nat} {values : List Json}
      (counted : positionAt data start = .ok values.length)
      (items : decodeEach data (List.replicate values.length item) (start + 32) (start + 32) =
        .ok values) : Decoded data (.array item) (.array values)
  | fixedArray {item : AbiType} {start : Nat} {values : List Json}
      (items : decodeEach data (List.replicate values.length item) start start = .ok values) :
      Decoded data (.fixedArray item values.length) (.array values)
  | tuple {types : List AbiType} {start : Nat} {values : List Json}
      (parts : decodeEach data types start start = .ok values) :
      Decoded data (.tuple types) (.array values)

theorem decoded_of_decodeValue
    (decoded : decodeValue data type base position = .ok (value, length)) :
    Decoded data type value := by
  cases type with
  | address =>
      simp only [decodeValue, bind_eq_ok, pure_eq_ok, Prod.mk.injEq] at decoded
      obtain ⟨word, read, rfl, -⟩ := decoded
      exact .address read
  | uint bits =>
      simp only [decodeValue, bind_eq_ok, pure_eq_ok, Prod.mk.injEq] at decoded
      obtain ⟨word, read, rfl, -⟩ := decoded
      exact .uint read
  | int bits =>
      simp only [decodeValue, bind_eq_ok, pure_eq_ok, Prod.mk.injEq] at decoded
      obtain ⟨word, read, rfl, -⟩ := decoded
      exact .int read
  | bool =>
      simp only [decodeValue, bind_eq_ok, pure_eq_ok, Prod.mk.injEq] at decoded
      obtain ⟨word, read, rfl, -⟩ := decoded
      exact .bool read
  | fixedBytes size =>
      simp only [decodeValue, bind_eq_ok, pure_eq_ok, Prod.mk.injEq] at decoded
      obtain ⟨word, read, rfl, -⟩ := decoded
      exact .fixedBytes read
  | bytes =>
      simp only [decodeValue, bind_eq_ok, pure_eq_ok, Prod.mk.injEq] at decoded
      obtain ⟨offset, -, octets, read, rfl, -⟩ := decoded
      exact .bytes read
  | string =>
      simp only [decodeValue, bind_eq_ok] at decoded
      obtain ⟨offset, -, octets, read, decoded⟩ := decoded
      split at decoded
      · next s text =>
        cases decoded
        exact .string read text
      · contradiction
  | array item =>
      simp only [decodeValue, bind_eq_ok, pure_eq_ok, Prod.mk.injEq] at decoded
      obtain ⟨offset, -, count, counted, -, -, values, items, rfl, -⟩ := decoded
      obtain ⟨rfl, each⟩ := decodeEach_of_decodeMany items
      exact .array counted each
  | fixedArray item count =>
      rw [decodeValue] at decoded
      split at decoded
      · simp only [bind_eq_ok, pure_eq_ok, Prod.mk.injEq] at decoded
        obtain ⟨offset, -, values, items, rfl, -⟩ := decoded
        obtain ⟨rfl, each⟩ := decodeEach_of_decodeMany items
        exact .fixedArray each
      · simp only [bind_eq_ok, pure_eq_ok, Prod.mk.injEq] at decoded
        obtain ⟨values, items, rfl, -⟩ := decoded
        obtain ⟨rfl, each⟩ := decodeEach_of_decodeMany items
        exact .fixedArray each
  | tuple types =>
      rw [decodeValue] at decoded
      split at decoded
      · simp only [bind_eq_ok, pure_eq_ok, Prod.mk.injEq] at decoded
        obtain ⟨offset, -, values, parts, rfl, -⟩ := decoded
        exact .tuple parts
      · simp only [bind_eq_ok, pure_eq_ok, Prod.mk.injEq] at decoded
        obtain ⟨values, parts, rfl, -⟩ := decoded
        exact .tuple parts

end Rehearsal.Abi
