import Rehearsal.Proofs.Abi.Layout
import Rehearsal.Proofs.Abi.Placement
import Rehearsal.Proofs.Text.Utf8

namespace Rehearsal.Abi

/-! Decoding what was encoded. A component of a tuple is placed: a static one stands in the head,
a dynamic one stands where the word in its head says, counted from the start of the tuple. The
offsets that the encoder writes place every component of the tail, so one induction over the type
carries the reading of a placed component through all nestings. -/

/-- A component is placed for a tuple that starts at `base` with its head at `position`. -/
def Piece.PlacedAt (data : List UInt8) (base position : Nat) : Piece → Prop
  | .static bytes => StandsAt data position bytes
  | .dynamic bytes => ∃ offset, offset ≤ greatestPosition ∧
      StandsAt data position (Word.bytes offset) ∧ StandsAt data (base + offset) bytes

/-- Components lie in data for a tuple that starts at `base`: their heads from `position` on, and
their tails from the offset `tail` on. -/
structure LieAt (data : List UInt8) (base position tail : Nat) (pieces : List Piece) : Prop where
  inHead : StandsAt data position (heads tail pieces)
  inTail : StandsAt data (base + tail) (tails pieces)
  room : tail + (tails pieces).length ≤ greatestPosition

def Piece.LiesAt (data : List UInt8) (base position tail : Nat) : Piece → Prop
  | .static bytes => StandsAt data position bytes
  | .dynamic bytes => tail ≤ greatestPosition ∧ StandsAt data position (Word.bytes tail) ∧
      StandsAt data (base + tail) bytes

theorem Piece.LiesAt.placedAt {data : List UInt8} {base position tail : Nat} {piece : Piece}
    (lies : piece.LiesAt data base position tail) : piece.PlacedAt data base position := by
  cases piece with
  | static bytes => exact lies
  | dynamic bytes => exact ⟨tail, lies⟩

theorem LieAt.cons {data : List UInt8} {base position tail : Nat} {piece : Piece}
    {rest : List Piece} (lie : LieAt data base position tail (piece :: rest)) :
    piece.LiesAt data base position tail ∧
      LieAt data base (position + piece.width) (tail + piece.extent) rest := by
  obtain ⟨inHead, inTail, room⟩ := lie
  cases piece with
  | static bytes =>
      obtain ⟨own, inHead⟩ := standsAt_append.mp inHead
      exact ⟨own, inHead, inTail, room⟩
  | dynamic bytes =>
      obtain ⟨word, inHead⟩ := standsAt_append.mp inHead
      obtain ⟨own, inTail⟩ := standsAt_append.mp inTail
      rw [length_bytes] at inHead
      rw [Nat.add_assoc] at inTail
      rw [tails, List.length_append, ← Nat.add_assoc] at room
      exact ⟨⟨by omega, word, own⟩, inHead, inTail, room⟩

/-- The components of a tuple lie where the tuple stands. -/
theorem lieAt_assemble {data : List UInt8} {start length : Nat} {pieces : List Piece}
    (small : data.length ≤ greatestPosition) (heads_length : (heads length pieces).length = length)
    (stands : StandsAt data start (assemble length pieces)) :
    LieAt data start start length pieces := by
  have bound := stands.length_le
  rw [assemble, List.length_append, heads_length] at bound
  obtain ⟨inHead, inTail⟩ := standsAt_append.mp stands
  rw [heads_length] at inTail
  exact ⟨inHead, inTail, by omega⟩

/-- Wherever an encoded value of a type is placed, its canonical form is read there. -/
def ReadsBack (type : AbiType) : Prop :=
  ∀ data value bytes base position, encodeValue type value = .ok bytes →
    EachLeaf SignedFits type value → data.length ≤ greatestPosition →
    (Piece.of type bytes).PlacedAt data base position →
    ∃ length, decodeValue data type base position = .ok (canonicalForm type value, length)

theorem decodeMany_eq_decodeEach (data : List UInt8) (item : AbiType)
    (base count position : Nat) :
    decodeMany (fun position => decodeValue data item base position) count position =
      decodeEach data (List.replicate count item) base position := by
  induction count generalizing position with
  | zero => rfl
  | succ count ih =>
      rw [List.replicate_succ, decodeMany, decodeEach]
      simp only [ih]

theorem decodeEach_of_lieAt {data : List UInt8} {types : List AbiType} {values : List Json}
    {pieces : List Piece} {base position tail : Nat}
    (keeps : ∀ type ∈ types, KeepsWidth type) (reads : ∀ type ∈ types, ReadsBack type)
    (same : types.length = values.length) (encoded : encodePieces types values = .ok pieces)
    (fits : AllLeaves SignedFits types values) (small : data.length ≤ greatestPosition)
    (lie : LieAt data base position tail pieces) :
    decodeEach data types base position = .ok (canonicalForms types values) := by
  induction types generalizing values pieces position tail with
  | nil =>
      cases values with
      | nil => rfl
      | cons value values => simp at same
  | cons type types ih =>
      cases values with
      | nil => simp at same
      | cons value values =>
          obtain ⟨bytes, rest, first, others, rfl⟩ := encodePieces_cons encoded
          obtain ⟨lies, lieBehind⟩ := lie.cons
          rw [keeps type List.mem_cons_self value bytes first] at lieBehind
          obtain ⟨length, readFirst⟩ := reads type List.mem_cons_self data value bytes base
            position first fits.1 small lies.placedAt
          have readRest := ih (fun other member => keeps other (List.mem_cons_of_mem type member))
            (fun other member => reads other (List.mem_cons_of_mem type member))
            (by simpa using same) others fits.2
            (headLength_of_decodeValue readFirst ▸ lieBehind)
          rw [decodeEach, readFirst, ok_bind]
          simp only
          rw [readRest, ok_bind]
          rfl

theorem decodeEach_assemble {data : List UInt8} {types : List AbiType} {values : List Json}
    {pieces : List Piece} {start : Nat}
    (keeps : ∀ type ∈ types, KeepsWidth type) (reads : ∀ type ∈ types, ReadsBack type)
    (same : types.length = values.length) (encoded : encodePieces types values = .ok pieces)
    (fits : AllLeaves SignedFits types values) (small : data.length ≤ greatestPosition)
    (stands : StandsAt data start (assemble (AbiType.headLengths types) pieces)) :
    decodeEach data types start start = .ok (canonicalForms types values) :=
  decodeEach_of_lieAt keeps reads same encoded fits small
    (lieAt_assemble small (length_heads_encodePieces keeps same encoded _) stands)

/-! Elementary types. -/

theorem decodeValue_address : ReadsBack .address := by
  intro data value bytes base position encoded _ _ placed
  simp only [encodeValue, bind_eq_ok, pure_eq_ok] at encoded
  obtain ⟨address, read, rfl⟩ := encoded
  refine ⟨32, ?_⟩
  rw [decodeValue, wordAt_of_standsAt placed (by simp), ok_bind, canonicalForm, markedJson,
    ← addressOf_eq_ok read]
  rfl

theorem decodeValue_uint (bits : Nat) : ReadsBack (.uint bits) := by
  intro data value bytes base position encoded _ _ placed
  obtain ⟨n, read, rfl⟩ := map_eq_ok.mp encoded
  obtain ⟨denoted, small⟩ := unsignedOf_eq_ok read
  refine ⟨32, ?_⟩
  rw [decodeValue, wordAt_of_standsAt placed (length_bytes n), ok_bind, ofBigEndian_bytes small,
    natJson_eq_integerJson, ← denoted]
  rfl

theorem decodeValue_int (bits : Nat) : ReadsBack (.int bits) := by
  intro data value bytes base position encoded fits _ placed
  obtain ⟨word, read, rfl⟩ := map_eq_ok.mp encoded
  have denoted := signedOf_eq_ok read
  have small : word < Word.limit := by
    have positive : (0 : Int) < Word.limit := by decide
    have bound := Int.emod_lt_of_pos (integerOf value) positive
    omega
  refine ⟨32, ?_⟩
  rw [decodeValue, wordAt_of_standsAt placed (length_bytes word), ok_bind,
    ofBigEndian_bytes small, denoted, signedJson_emod fits.1 fits.2]
  rfl

theorem truth_bytes (b : Bool) : truth (Word.bytes (if b then 1 else 0)) = b := by
  cases b <;> decide

theorem decodeValue_bool : ReadsBack .bool := by
  intro data value bytes base position encoded _ _ placed
  simp only [encodeValue, bind_eq_ok, pure_eq_ok] at encoded
  obtain ⟨b, read, rfl⟩ := encoded
  refine ⟨32, ?_⟩
  rw [decodeValue, wordAt_of_standsAt placed (length_bytes _), ok_bind, truth_bytes,
    boolOf_eq_ok read]
  rfl

theorem decodeValue_fixedBytes {size : Nat} (room : size ≤ 32) : ReadsBack (.fixedBytes size) := by
  intro data value bytes base position encoded _ _ placed
  simp only [encodeValue, bind_eq_ok] at encoded
  obtain ⟨octets, read, encoded⟩ := encoded
  split at encoded
  · contradiction
  · next short =>
    cases encoded
    have filled : (octets ++ List.replicate (32 - octets.length) 0).take size =
        octets ++ List.replicate (size - octets.length) 0 := by
      rw [List.take_append, List.take_of_length_le (by omega), List.take_replicate]
      congr 2
      omega
    refine ⟨32, ?_⟩
    rw [decodeValue, wordAt_of_standsAt placed (by simp; omega), ok_bind, filled, Hex.marked,
      Hex.encode_append, Hex.encode_replicate_zero, canonicalForm, ← octetsOf_eq_ok read,
      Hex.length_encode, Nat.mul_sub]
    rfl

theorem decodeValue_bytes : ReadsBack .bytes := by
  intro data value bytes base position encoded _ small placed
  obtain ⟨octets, read, rfl⟩ := map_eq_ok.mp encoded
  obtain ⟨offset, bound, word, own⟩ := placed
  refine ⟨32, ?_⟩
  rw [decodeValue, positionAt_of_standsAt word bound, ok_bind, countedAt_of_standsAt own small,
    ok_bind, Hex.marked, octetsOf_eq_ok read]
  rfl

theorem decodeValue_string : ReadsBack .string := by
  intro data value bytes base position encoded _ small placed
  rw [encodeValue] at encoded
  obtain rfl := Except.ok.inj encoded
  obtain ⟨offset, bound, word, own⟩ := placed
  refine ⟨32, ?_⟩
  rw [decodeValue, positionAt_of_standsAt word bound, ok_bind, countedAt_of_standsAt own small,
    ok_bind, textOctets, Utf8.decodeString_encodeString, canonicalForm]
  rfl

/-! Composite types, by what their components are read as. -/

theorem decodeValue_array {item : AbiType} (keeps : KeepsWidth item) (reads : ReadsBack item)
    (takesRoom : 0 < item.headLength) : ReadsBack (.array item) := by
  intro data value bytes base position encoded fits small placed
  have dynamic : (AbiType.array item).isDynamic = true := rfl
  rw [Piece.of_dynamic dynamic] at placed
  obtain ⟨offset, bound, word, own⟩ := placed
  obtain ⟨values, pieces, rfl, each, whole⟩ := encodeValue_array encoded
  rw [whole] at own
  obtain ⟨count, content⟩ := standsAt_append.mp own
  rw [length_bytes] at content
  have keepsEach : ∀ type ∈ List.replicate values.length item, KeepsWidth type :=
    fun type member => List.eq_of_mem_replicate member ▸ keeps
  have readsEach : ∀ type ∈ List.replicate values.length item, ReadsBack type :=
    fun type member => List.eq_of_mem_replicate member ▸ reads
  have countBound := count.length_le
  have contentBound := content.length_le
  rw [length_bytes] at countBound
  rw [assemble, List.length_append,
    length_heads_encodePieces keepsEach List.length_replicate each,
    AbiType.headLengths_replicate] at contentBound
  -- Every item has at least one word in the head, so the count is checked against enough data.
  have oneWord : values.length * 32 ≤ item.headLength * values.length := by
    rw [Nat.mul_comm item.headLength]
    exact Nat.mul_le_mul_left _ (AbiType.le_headLength (Nat.ne_of_gt takesRoom))
  refine ⟨32, ?_⟩
  rw [decodeValue, positionAt_of_standsAt word bound, ok_bind]
  simp only
  rw [positionAt_of_standsAt count (by omega), ok_bind, requireLength_of_le (by omega), ok_bind,
    decodeMany_eq_decodeEach,
    decodeEach_assemble keepsEach readsEach List.length_replicate each
      (allLeaves_replicate.mpr fits) small content, canonicalForms_replicate, ok_bind,
    canonicalForm]
  rfl

theorem decodeValue_fixedArray {item : AbiType} {count : Nat} (keeps : KeepsWidth item)
    (reads : ReadsBack item) : ReadsBack (.fixedArray item count) := by
  intro data value bytes base position encoded fits small placed
  obtain ⟨values, pieces, rfl, rfl, each, rfl⟩ := encodeValue_fixedArray encoded
  have readAt : ∀ start, 
      StandsAt data start
        (assemble (AbiType.headLengths (List.replicate values.length item)) pieces) →
      decodeEach data (List.replicate values.length item) start start =
        .ok (values.map fun v => canonicalForm item v) := by
    intro start stands
    rw [decodeEach_assemble (fun type member => List.eq_of_mem_replicate member ▸ keeps)
      (fun type member => List.eq_of_mem_replicate member ▸ reads) List.length_replicate each
      (allLeaves_replicate.mpr fits) small stands, canonicalForms_replicate]
  cases dynamic : item.isDynamic with
  | false =>
      have static : (AbiType.fixedArray item values.length).isDynamic = false := dynamic
      rw [Piece.of_static static] at placed
      refine ⟨item.headLength * values.length, ?_⟩
      simp only [decodeValue, decodeMany_eq_decodeEach, dynamic]
      rw [if_neg Bool.false_ne_true, readAt position placed, ok_bind]
      rfl
  | true =>
      have notStatic : (AbiType.fixedArray item values.length).isDynamic = true := dynamic
      rw [Piece.of_dynamic notStatic] at placed
      obtain ⟨offset, bound, word, own⟩ := placed
      refine ⟨32, ?_⟩
      simp only [decodeValue, decodeMany_eq_decodeEach, dynamic]
      rw [if_pos trivial, positionAt_of_standsAt word bound, ok_bind, readAt (base + offset) own,
        ok_bind]
      rfl

theorem decodeValue_tuple {types : List AbiType} (keeps : ∀ type ∈ types, KeepsWidth type)
    (reads : ∀ type ∈ types, ReadsBack type) : ReadsBack (.tuple types) := by
  intro data value bytes base position encoded fits small placed
  obtain ⟨values, pieces, rfl, same, each, rfl⟩ := encodeValue_tuple encoded
  have readAt := fun {start : Nat}
      (stands : StandsAt data start (assemble (AbiType.headLengths types) pieces)) =>
    decodeEach_assemble keeps reads same each fits small stands
  cases dynamic : AbiType.anyDynamic types with
  | false =>
      have static : (AbiType.tuple types).isDynamic = false := dynamic
      rw [Piece.of_static static] at placed
      refine ⟨AbiType.headLengths types, ?_⟩
      simp only [decodeValue, dynamic]
      rw [if_neg Bool.false_ne_true, readAt placed, ok_bind]
      rfl
  | true =>
      have notStatic : (AbiType.tuple types).isDynamic = true := dynamic
      rw [Piece.of_dynamic notStatic] at placed
      obtain ⟨offset, bound, word, own⟩ := placed
      refine ⟨32, ?_⟩
      simp only [decodeValue, dynamic]
      rw [if_pos trivial, positionAt_of_standsAt word bound, ok_bind, readAt own, ok_bind]
      rfl

theorem readsBack (type : AbiType) (fitsWord : type.Everywhere AbiType.FitsWord)
    (takesRoom : type.Everywhere AbiType.ItemsTakeRoom) : ReadsBack type := by
  induction type with
  | address => exact decodeValue_address
  | uint bits => exact decodeValue_uint bits
  | int bits => exact decodeValue_int bits
  | bool => exact decodeValue_bool
  | string => exact decodeValue_string
  | bytes => exact decodeValue_bytes
  | fixedBytes size => exact decodeValue_fixedBytes fitsWord
  | array item ih =>
      exact decodeValue_array (keepsWidth item fitsWord.2) (ih fitsWord.2 takesRoom.2) takesRoom.1
  | fixedArray item count ih =>
      exact decodeValue_fixedArray (keepsWidth item fitsWord.2) (ih fitsWord.2 takesRoom.2)
  | tuple types ih =>
      have eachFits := AbiType.allEverywhere_iff.mp fitsWord.2
      have eachRoom := AbiType.allEverywhere_iff.mp takesRoom.2
      exact decodeValue_tuple (fun type member => keepsWidth type (eachFits type member))
        fun type member => ih type member (eachFits type member) (eachRoom type member)

/-- Data that begins with encoded values is decoded to their canonical forms, whatever follows. -/
theorem decode_of_standsAt {types : List AbiType} {values : List Json} {bytes data : List UInt8}
    (fitsWord : AbiType.AllEverywhere AbiType.FitsWord types)
    (takesRoom : AbiType.AllEverywhere AbiType.ItemsTakeRoom types)
    (fits : AllLeaves SignedFits types values) (encoded : encode types values = .ok bytes)
    (stands : StandsAt data 0 bytes) (small : data.length ≤ greatestPosition) :
    decode types data = .ok (canonicalForms types values) := by
  have eachFits := AbiType.allEverywhere_iff.mp fitsWord
  have eachRoom := AbiType.allEverywhere_iff.mp takesRoom
  obtain ⟨same, pieces, each, rfl⟩ := encode_eq_ok encoded
  exact decodeEach_assemble (fun type member => keepsWidth type (eachFits type member))
    (fun type member => readsBack type (eachFits type member) (eachRoom type member))
    same each fits small stands

/-- Decoding undoes encoding up to the canonical form of each value. Types that are read from
declarations have octets of a fixed number in one word at most, see `fitsWord_of_typesOf`. -/
theorem decode_encode {types : List AbiType} {values : List Json} {data : List UInt8}
    (fitsWord : AbiType.AllEverywhere AbiType.FitsWord types)
    (takesRoom : AbiType.AllEverywhere AbiType.ItemsTakeRoom types)
    (fits : AllLeaves SignedFits types values) (encoded : encode types values = .ok data)
    (small : data.length ≤ 2 ^ 32 - 1) :
    decode types data = .ok (canonicalForms types values) :=
  decode_of_standsAt fitsWord takesRoom fits encoded (standsAt_self data) small

set_option maxRecDepth 4000 in
theorem decode_encode_nested :
    ∃ data, encode [.array (.tuple [.int 8, .bytes])]
        [.array [.array [.string " -0x01", .string "0x0xAb"]]] = .ok data ∧
      decode [.array (.tuple [.int 8, .bytes])] data =
        .ok [.array [.array [.string "-1", .string "0xab"]]] := by
  have length : (encode [.array (.tuple [.int 8, .bytes])]
      [.array [.array [.string " -0x01", .string "0x0xAb"]]]).map List.length = .ok 224 := rfl
  obtain ⟨data, encoded, short⟩ := Except.map_eq_ok.mp length
  have denoted : integerOf (.string " -0x01") = -1 := rfl
  have canonical : canonicalForms [.array (.tuple [.int 8, .bytes])]
        [.array [.array [.string " -0x01", .string "0x0xAb"]]] =
      [.array [.array [.string "-1", .string "0xab"]]] := rfl
  refine ⟨data, encoded, ?_⟩
  rw [← canonical]
  refine decode_encode ?_ ?_ ?_ encoded (by omega)
  · simp [AbiType.AllEverywhere, AbiType.Everywhere, AbiType.FitsWord]
  · simp [AbiType.AllEverywhere, AbiType.Everywhere, AbiType.ItemsTakeRoom, AbiType.headLength,
      AbiType.anyDynamic, AbiType.isDynamic]
  · simp [AllLeaves, EachLeaf, SignedFits, Json.array?, denoted]

end Rehearsal.Abi
