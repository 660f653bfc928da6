import Rehearsal.Proofs.Abi.Canonical

namespace Rehearsal.Abi

/-! What the encoder makes of composite values, and how much of it stands in the head: the values
of a type take the head length of the type, whichever they are. -/

def Piece.width : Piece → Nat
  | .static bytes => bytes.length
  | .dynamic _ => 32

def Piece.extent : Piece → Nat
  | .static _ => 0
  | .dynamic bytes => bytes.length

theorem Piece.of_static {type : AbiType} (static : type.isDynamic = false) (bytes : List UInt8) :
    Piece.of type bytes = .static bytes := by
  rw [Piece.of, static]
  rfl

theorem Piece.of_dynamic {type : AbiType} (dynamic : type.isDynamic = true)
    (bytes : List UInt8) : Piece.of type bytes = .dynamic bytes := by
  rw [Piece.of, dynamic]
  rfl

theorem encodePieces_cons {type : AbiType} {types : List AbiType} {value : Json}
    {values : List Json} {pieces : List Piece}
    (encoded : encodePieces (type :: types) (value :: values) = .ok pieces) :
    ∃ bytes rest, encodeValue type value = .ok bytes ∧ encodePieces types values = .ok rest ∧
      pieces = Piece.of type bytes :: rest := by
  simp only [encodePieces, bind_eq_ok, pure_eq_ok] at encoded
  obtain ⟨bytes, first, rest, tail, rfl⟩ := encoded
  exact ⟨bytes, rest, first, tail, rfl⟩

theorem encodePieces_of_mapM {item : AbiType} {values : List Json} {parts : List (List UInt8)}
    (encoded : (values.mapM fun v => encodeValue item v) = .ok parts) :
    encodePieces (List.replicate values.length item) values =
      .ok (parts.map (Piece.of item)) := by
  rw [encodePieces_replicate, encoded]
  rfl

theorem encodeValue_array {item : AbiType} {value : Json} {bytes : List UInt8}
    (encoded : encodeValue (.array item) value = .ok bytes) :
    ∃ values pieces, value = .array values ∧
      encodePieces (List.replicate values.length item) values = .ok pieces ∧
      bytes = Word.bytes values.length ++
        assemble (AbiType.headLengths (List.replicate values.length item)) pieces := by
  simp only [encodeValue, bind_eq_ok, pure_eq_ok] at encoded
  obtain ⟨values, items, parts, each, rfl⟩ := encoded
  refine ⟨values, _, itemsOf_eq_ok items, encodePieces_of_mapM each, ?_⟩
  rw [AbiType.headLengths_replicate]

theorem encodeValue_fixedArray {item : AbiType} {count : Nat} {value : Json}
    {bytes : List UInt8} (encoded : encodeValue (.fixedArray item count) value = .ok bytes) :
    ∃ values pieces, value = .array values ∧ values.length = count ∧
      encodePieces (List.replicate values.length item) values = .ok pieces ∧
      bytes = assemble (AbiType.headLengths (List.replicate values.length item)) pieces := by
  simp only [encodeValue, bind_eq_ok] at encoded
  obtain ⟨values, items, encoded⟩ := encoded
  split at encoded
  · contradiction
  · next same =>
    simp only [bind_eq_ok, pure_eq_ok] at encoded
    obtain ⟨parts, each, rfl⟩ := encoded
    refine ⟨values, _, itemsOf_eq_ok items, not_not.mp same, encodePieces_of_mapM each, ?_⟩
    rw [AbiType.headLengths_replicate]

theorem encodeValue_tuple {types : List AbiType} {value : Json} {bytes : List UInt8}
    (encoded : encodeValue (.tuple types) value = .ok bytes) :
    ∃ values pieces, value = .array values ∧ types.length = values.length ∧
      encodePieces types values = .ok pieces ∧
      bytes = assemble (AbiType.headLengths types) pieces := by
  simp only [encodeValue, bind_eq_ok] at encoded
  obtain ⟨values, items, encoded⟩ := encoded
  split at encoded
  · contradiction
  · next same =>
    simp only [bind_eq_ok, pure_eq_ok] at encoded
    obtain ⟨pieces, each, rfl⟩ := encoded
    exact ⟨values, pieces, itemsOf_eq_ok items, not_not.mp same, each, rfl⟩

theorem encode_eq_ok {types : List AbiType} {values : List Json} {bytes : List UInt8}
    (encoded : encode types values = .ok bytes) :
    types.length = values.length ∧ ∃ pieces, encodePieces types values = .ok pieces ∧
      bytes = assemble (AbiType.headLengths types) pieces := by
  unfold encode at encoded
  split at encoded
  · contradiction
  · next same =>
    simp only [bind_eq_ok, pure_eq_ok] at encoded
    obtain ⟨pieces, each, rfl⟩ := encoded
    exact ⟨not_not.mp same, pieces, each, rfl⟩

/-! A single value: itself if it is static, and behind its position in the other case. -/

theorem encode_static {type : AbiType} (static : type.isDynamic = false) (value : Json) :
    encode [type] [value] = encodeValue type value := by
  have same : [type].length = [value].length := rfl
  rw [encode, if_neg (not_not_intro same), encodePieces]
  cases encodeValue type value with
  | error fault => rfl
  | ok bytes =>
      change Except.ok (assemble _ [Piece.of type bytes]) = .ok bytes
      rw [Piece.of_static static]
      simp [assemble, heads, tails]

theorem encode_dynamic {type : AbiType} (dynamic : type.isDynamic = true) (value : Json) :
    encode [type] [value] = (Word.bytes 32 ++ ·) <$> encodeValue type value := by
  have same : [type].length = [value].length := rfl
  rw [encode, if_neg (not_not_intro same), encodePieces]
  cases encodeValue type value with
  | error fault => rfl
  | ok bytes =>
      change Except.ok (assemble (type.headLength + 0) [Piece.of type bytes]) =
        .ok (Word.bytes 32 ++ bytes)
      rw [Piece.of_dynamic dynamic, AbiType.headLength_of_isDynamic dynamic]
      simp [assemble, heads, tails]

/-! The head is as long as the types say. -/

theorem length_heads (position : Nat) (pieces : List Piece) :
    (heads position pieces).length = (pieces.map Piece.width).sum := by
  induction pieces generalizing position with
  | nil => rfl
  | cons piece rest ih =>
      cases piece with
      | static bytes => simp [heads, Piece.width, ih]
      | dynamic bytes => simp [heads, Piece.width, ih]

theorem length_tails_cons (piece : Piece) (rest : List Piece) :
    (tails (piece :: rest)).length = piece.extent + (tails rest).length := by
  cases piece with
  | static bytes => exact (Nat.zero_add _).symm
  | dynamic bytes => exact List.length_append

/-- Values of a type take the head length of the type in the head of a tuple. -/
def KeepsWidth (type : AbiType) : Prop :=
  ∀ value bytes, encodeValue type value = .ok bytes →
    (Piece.of type bytes).width = type.headLength

theorem keepsWidth_of_dynamic {type : AbiType} (dynamic : type.isDynamic = true) :
    KeepsWidth type := by
  intro value bytes _
  rw [Piece.of_dynamic dynamic, AbiType.headLength_of_isDynamic dynamic, Piece.width]

theorem keepsWidth_of_static {type : AbiType} (static : type.isDynamic = false)
    (length : ∀ value bytes, encodeValue type value = .ok bytes →
      bytes.length = type.headLength) : KeepsWidth type := by
  intro value bytes encoded
  rw [Piece.of_static static, Piece.width, length value bytes encoded]

theorem length_heads_encodePieces {types : List AbiType} {values : List Json}
    {pieces : List Piece} (keeps : ∀ type ∈ types, KeepsWidth type)
    (same : types.length = values.length) (encoded : encodePieces types values = .ok pieces)
    (position : Nat) : (heads position pieces).length = AbiType.headLengths types := by
  rw [length_heads]
  induction types generalizing values pieces with
  | nil =>
      cases encoded
      rfl
  | cons type types ih =>
      cases values with
      | nil => simp at same
      | cons value values =>
          obtain ⟨bytes, rest, first, tail, rfl⟩ := encodePieces_cons encoded
          rw [List.map_cons, List.sum_cons, keeps type List.mem_cons_self value bytes first,
            ih (fun other member => keeps other (List.mem_cons_of_mem type member))
              (by simpa using same) tail, AbiType.headLengths]

theorem tails_of_static {types : List AbiType} {values : List Json} {pieces : List Piece}
    (static : ∀ type ∈ types, type.isDynamic = false)
    (encoded : encodePieces types values = .ok pieces) : tails pieces = [] := by
  induction types generalizing values pieces with
  | nil =>
      cases encoded
      rfl
  | cons type types ih =>
      cases values with
      | nil =>
          cases encoded
          rfl
      | cons value values =>
          obtain ⟨bytes, rest, first, tail, rfl⟩ := encodePieces_cons encoded
          rw [Piece.of_static (static type List.mem_cons_self), tails]
          exact ih (fun other member => static other (List.mem_cons_of_mem type member)) tail

theorem length_assemble {types : List AbiType} {values : List Json} {pieces : List Piece}
    (keeps : ∀ type ∈ types, KeepsWidth type) (same : types.length = values.length)
    (encoded : encodePieces types values = .ok pieces) :
    (assemble (AbiType.headLengths types) pieces).length =
      AbiType.headLengths types + (tails pieces).length := by
  rw [assemble, List.length_append, length_heads_encodePieces keeps same encoded]

theorem length_assemble_static {types : List AbiType} {values : List Json}
    {pieces : List Piece} (static : ∀ type ∈ types, type.isDynamic = false)
    (keeps : ∀ type ∈ types, KeepsWidth type) (same : types.length = values.length)
    (encoded : encodePieces types values = .ok pieces) :
    (assemble (AbiType.headLengths types) pieces).length = AbiType.headLengths types := by
  rw [length_assemble keeps same encoded, tails_of_static static encoded]
  rfl

/-! Values without components are encoded as one word, if they stand in the head. -/

def OctetsFitWord : AbiType → Json → Prop
  | .fixedBytes size, value =>
      ∀ octets, octetsOf value = .ok octets → octets.length ≤ size → octets.length ≤ 32
  | _, _ => True

theorem eachLeaf_octetsFitWord {type : AbiType} (fitsWord : type.Everywhere AbiType.FitsWord)
    (value : Json) : EachLeaf OctetsFitWord type value := by
  induction type generalizing value with
  | fixedBytes size => exact fun octets _ short => Nat.le_trans short fitsWord
  | array item ih => exact fun v _ => ih fitsWord.2 v
  | fixedArray item count ih => exact fun v _ => ih fitsWord.2 v
  | tuple types ih =>
      have eachFits := AbiType.allEverywhere_iff.mp fitsWord.2
      exact allLeaves_of_forall (fun type member => ih type member (eachFits type member)) _
  | _ => trivial

theorem length_of_isElementary {type : AbiType} {value : Json} {bytes : List UInt8}
    (elementary : type.IsElementary) (static : type.isDynamic = false)
    (fits : EachLeaf OctetsFitWord type value) (encoded : encodeValue type value = .ok bytes) :
    bytes.length = 32 := by
  cases type with
  | array item => contradiction
  | fixedArray item count => contradiction
  | tuple types => contradiction
  | string => contradiction
  | bytes => contradiction
  | address =>
      simp only [encodeValue, bind_eq_ok, pure_eq_ok] at encoded
      obtain ⟨address, _, rfl⟩ := encoded
      simp
  | uint bits =>
      obtain ⟨n, _, rfl⟩ := map_eq_ok.mp encoded
      exact length_bytes n
  | int bits =>
      obtain ⟨n, _, rfl⟩ := map_eq_ok.mp encoded
      exact length_bytes n
  | bool =>
      simp only [encodeValue, bind_eq_ok, pure_eq_ok] at encoded
      obtain ⟨b, _, rfl⟩ := encoded
      exact length_bytes _
  | fixedBytes size =>
      simp only [encodeValue, bind_eq_ok] at encoded
      obtain ⟨octets, read, encoded⟩ := encoded
      split at encoded
      · contradiction
      · next short =>
        cases encoded
        have room : octets.length ≤ 32 := fits octets read (Nat.not_lt.mp short)
        simp only [List.length_append, List.length_replicate]
        omega

theorem keepsWidth_of_isElementary {type : AbiType} (elementary : type.IsElementary)
    (static : type.isDynamic = false) (fitsWord : type.Everywhere AbiType.FitsWord) :
    KeepsWidth type := by
  apply keepsWidth_of_static static
  intro value bytes encoded
  rw [AbiType.headLength_of_isElementary elementary]
  exact length_of_isElementary elementary static (eachLeaf_octetsFitWord fitsWord value) encoded

theorem keepsWidth (type : AbiType) (fitsWord : type.Everywhere AbiType.FitsWord) :
    KeepsWidth type := by
  induction type with
  | string => exact keepsWidth_of_dynamic rfl
  | bytes => exact keepsWidth_of_dynamic rfl
  | array item => exact keepsWidth_of_dynamic rfl
  | address => exact keepsWidth_of_isElementary trivial rfl fitsWord
  | uint bits => exact keepsWidth_of_isElementary trivial rfl fitsWord
  | int bits => exact keepsWidth_of_isElementary trivial rfl fitsWord
  | bool => exact keepsWidth_of_isElementary trivial rfl fitsWord
  | fixedBytes size => exact keepsWidth_of_isElementary trivial rfl fitsWord
  | fixedArray item count ih =>
      cases dynamic : (AbiType.fixedArray item count).isDynamic with
      | true => exact keepsWidth_of_dynamic dynamic
      | false =>
          have itemStatic : item.isDynamic = false := dynamic
          refine keepsWidth_of_static dynamic fun value bytes encoded => ?_
          obtain ⟨values, pieces, rfl, rfl, each, rfl⟩ := encodeValue_fixedArray encoded
          rw [length_assemble_static ?_ ?_ List.length_replicate each,
            AbiType.headLengths_replicate, AbiType.headLength, itemStatic]
          · rfl
          · exact fun type member => List.eq_of_mem_replicate member ▸ itemStatic
          · exact fun type member => List.eq_of_mem_replicate member ▸ ih fitsWord.2
  | tuple types ih =>
      cases dynamic : (AbiType.tuple types).isDynamic with
      | true => exact keepsWidth_of_dynamic dynamic
      | false =>
          have noneDynamic : AbiType.anyDynamic types = false := dynamic
          refine keepsWidth_of_static dynamic fun value bytes encoded => ?_
          obtain ⟨values, pieces, rfl, same, each, rfl⟩ := encodeValue_tuple encoded
          rw [length_assemble_static (AbiType.anyDynamic_eq_false.mp noneDynamic) ?_ same each,
            AbiType.headLength, noneDynamic]
          · rfl
          · exact fun type member =>
              ih type member (AbiType.allEverywhere_iff.mp fitsWord.2 type member)

end Rehearsal.Abi
