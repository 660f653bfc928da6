import Mathlib.Data.List.Forall2
import Rehearsal.Proofs.Abi.Decoding
import Rehearsal.Proofs.Address
import Rehearsal.Proofs.Json.Scalar

namespace Rehearsal

/-! Encoding what was decoded. Data that is decoded need not be what the encoder writes: words may
be dirty, and values may share their octets or lie in any order. None of this is left in the values.
They are in canonical form and the encoder takes them, so that they are decoded again from the
layout that it gives them. -/

namespace Text

theorem isBlank_of_isDecimal {c : Char} (decimal : isDecimal c = true) : isBlank c = false :=
  forall_ascii (p := fun c => isDecimal c = true → isBlank c = false) (by decide)
    (toNat_lt_of_digitValue? (digitValue?_of_isDecimal decimal)) decimal

theorem trim_decimal (n : Nat) : trim (decimal n) = decimal n := by
  apply trim_of_ink
  intro c member
  exact isBlank_of_isDecimal (isDecimal_of_mem_decimal member)

theorem trim_minus_decimal (n : Nat) : trim ('-' :: decimal n) = '-' :: decimal n := by
  apply trim_of_ink
  intro c member
  rcases List.mem_cons.mp member with rfl | member
  · rfl
  · exact isBlank_of_isDecimal (isDecimal_of_mem_decimal member)

end Text

namespace Word

theorem ofBigEndian_lt (bytes : List UInt8) : ofBigEndian bytes < 256 ^ bytes.length := by
  induction bytes using List.reverseRecOn with
  | nil => decide
  | append_singleton bytes b ih =>
      have octet := b.toNat_lt
      rw [ofBigEndian_concat, List.length_append, List.length_singleton, Nat.pow_succ]
      omega

theorem ofDigits?_decimal {n : Nat} (small : n < limit) :
    ofDigits? (Text.decimal n) = some n := by
  have noLetter : ∀ c, c ∈ Text.decimal n → c ≠ 'x' ∧ c ≠ 'X' := by
    rintro c member
    have decimal := Text.isDecimal_of_mem_decimal member
    refine ⟨?_, ?_⟩
    · rintro rfl
      contradiction
    · rintro rfl
      contradiction
  unfold ofDigits?
  split
  · next marked => exact absurd rfl (noLetter 'x' (by rw [marked]; simp)).1
  · next marked => exact absurd rfl (noLetter 'X' (by rw [marked]; simp)).2
  · rw [ofDecimal?, Text.readDigits_decimal]
    exact if_pos small

end Word

namespace Abi

/-! The texts that the decoder writes are read back. -/

theorem unsignedOfText_decimal {n : Nat} (small : n < Word.limit) :
    unsignedOfText (Text.decimal n) = .ok n := by
  simp only [unsignedOfText, Text.trim_decimal, Word.ofDigits?_decimal small]

theorem unsignedOf_natJson {n : Nat} (small : n < Word.limit) :
    unsignedOf (natJson n) = .ok n := by
  rw [natJson, unsignedOf, String.toList_ofList, unsignedOfText_decimal small]

theorem magnitude_decimal {n : Nat} (small : n < Word.limit) : magnitude (Text.decimal n) = n :=
  (unsignedOfText_eq_ok (unsignedOfText_decimal small)).1.symm

theorem decimal_ne_minus (n : Nat) (rest : List Char) : Text.decimal n ≠ '-' :: rest := by
  intro minus
  have decimal : Text.isDecimal '-' = true := by
    apply Text.isDecimal_of_mem_decimal (n := n)
    rw [minus]
    exact List.mem_cons_self
  contradiction

theorem signedJson_of_negative {n : Nat} (negative : Word.limit / 2 ≤ n) :
    signedJson n = .string (String.ofList ('-' :: Text.decimal (Word.limit - n))) :=
  if_pos negative

theorem signedJson_of_nonneg {n : Nat} (nonneg : ¬Word.limit / 2 ≤ n) : signedJson n = natJson n :=
  if_neg nonneg

theorem signedOf_natJson {n : Nat} (small : n < Word.limit) : signedOf (natJson n) = .ok n := by
  rw [natJson, signedOf, String.toList_ofList, Text.trim_decimal]
  split
  · next minus => exact absurd minus (decimal_ne_minus n _)
  · rw [unsignedOfText_decimal small]
    rfl

theorem signedOf_signedJson {n : Nat} (small : n < Word.limit) :
    signedOf (signedJson n) = .ok n := by
  by_cases negative : Word.limit / 2 ≤ n
  · have positive : 0 < Word.limit / 2 := by decide
    have back : signedWord true (Word.limit - n) = n := by
      rw [signedWord, if_pos rfl, Word.complement, Nat.sub_sub_self small.le, Nat.mod_eq_of_lt small]
    rw [signedJson_of_negative negative, signedOf, String.toList_ofList, Text.trim_minus_decimal]
    simp only
    rw [unsignedOfText_decimal (by omega), Except.map, back]
  · rw [signedJson_of_nonneg negative, signedOf_natJson small]

theorem integerOf_natJson {n : Nat} (small : n < Word.limit) : integerOf (natJson n) = n :=
  (unsignedOf_eq_ok (unsignedOf_natJson small)).1

theorem signedFits_signedJson {n : Nat} (small : n < Word.limit) (bits : Nat) :
    SignedFits (.int bits) (signedJson n) := by
  have limit : Word.limit = 2 * 2 ^ 255 := by decide
  rw [SignedFits]
  by_cases negative : Word.limit / 2 ≤ n
  · have denoted : integerOf (signedJson n) = -((Word.limit - n : Nat) : Int) := by
      rw [signedJson_of_negative negative, integerOf, String.toList_ofList,
        Text.trim_minus_decimal]
      simp only
      rw [magnitude_decimal (by omega)]
    rw [denoted]
    omega
  · rw [signedJson_of_nonneg negative, integerOf_natJson small]
    omega

theorem dropHexMarks_marked {digits : List Char}
    (hex : ∀ c ∈ digits, Text.isHexadecimal c = true) :
    Text.dropHexMarks ('0' :: 'x' :: digits) = digits := by
  rw [Text.dropHexMarks, Text.dropPairs, if_pos ⟨rfl, rfl⟩]
  apply Address.dropPairs_of_notMem
  intro member
  exact (Text.ink_of_isHexadecimal (hex 'x' member)).2.1 rfl

theorem octetsOf_marked (bytes : List UInt8) :
    octetsOf (.string (Hex.marked bytes)) = .ok bytes := by
  rw [octetsOf, Hex.marked, String.toList_ofList,
    dropHexMarks_marked fun c => Hex.isHexadecimal_of_mem_encode, Hex.decode_encode_octets]

theorem octetDigits_marked (bytes : List UInt8) :
    octetDigits (textOf (.string (Hex.marked bytes))) = Hex.encode bytes :=
  (octetsOf_eq_ok (octetsOf_marked bytes)).symm

theorem addressOf_text (a : Address) : addressOf (.string a.text) = .ok a := by
  rw [addressOf, Address.parse?_text]

/-! Values that the encoder takes and that decoding leaves as they are. -/

structure Canonical (type : AbiType) (value : Json) : Prop where
  encodes : ∃ bytes, encodeValue type value = .ok bytes
  canonical : canonicalForm type value = value
  fits : EachLeaf SignedFits type value

namespace Canonical

theorem address (a : Address) : Canonical .address (.string a.text) where
  encodes := ⟨_, bind_eq_ok.mpr ⟨a, addressOf_text a, rfl⟩⟩
  canonical := by
    rw [canonicalForm, ← addressOf_eq_ok (addressOf_text a)]
    rfl
  fits := trivial

theorem uint {n : Nat} (small : n < Word.limit) (bits : Nat) :
    Canonical (.uint bits) (natJson n) where
  encodes := ⟨_, map_eq_ok.mpr ⟨n, unsignedOf_natJson small, rfl⟩⟩
  canonical := by rw [canonicalForm, integerOf_natJson small, natJson_eq_integerJson]
  fits := trivial

theorem int {n : Nat} (small : n < Word.limit) (bits : Nat) :
    Canonical (.int bits) (signedJson n) where
  encodes := ⟨_, map_eq_ok.mpr ⟨n, signedOf_signedJson small, rfl⟩⟩
  canonical := by
    have fits := signedFits_signedJson small bits
    rw [canonicalForm, ← signedJson_emod fits.1 fits.2, ← signedOf_eq_ok (signedOf_signedJson small)]
  fits := signedFits_signedJson small bits

theorem bool (b : Bool) : Canonical .bool (.bool b) where
  encodes := ⟨_, rfl⟩
  canonical := rfl
  fits := trivial

theorem bytes (octets : List UInt8) : Canonical .bytes (.string (Hex.marked octets)) where
  encodes := ⟨_, map_eq_ok.mpr ⟨octets, octetsOf_marked octets, rfl⟩⟩
  canonical := by
    rw [canonicalForm, octetDigits_marked]
    rfl
  fits := trivial

theorem string (s : String) : Canonical .string (.string s) where
  encodes := ⟨_, rfl⟩
  canonical := rfl
  fits := trivial

theorem fixedBytes (octets : List UInt8) :
    Canonical (.fixedBytes octets.length) (.string (Hex.marked octets)) where
  encodes := by
    rw [encodeValue, octetsOf_marked, ok_bind, if_neg (Nat.lt_irrefl _)]
    exact ⟨_, rfl⟩
  canonical := by
    rw [canonicalForm]
    simp only [octetDigits_marked, Hex.length_encode, Nat.sub_self, List.replicate_zero,
      List.append_nil]
    rfl
  fits := trivial

variable {types : List AbiType} {values : List Json} {item : AbiType}

theorem exists_encodePieces (each : List.Forall₂ Canonical types values) :
    ∃ pieces, encodePieces types values = .ok pieces := by
  induction each with
  | nil => exact ⟨[], rfl⟩
  | cons head tail ih =>
      obtain ⟨bytes, first⟩ := head.encodes
      obtain ⟨pieces, rest⟩ := ih
      rw [encodePieces, first, ok_bind, rest]
      exact ⟨_, rfl⟩

theorem exists_encode (each : List.Forall₂ Canonical types values) :
    ∃ bytes, encode types values = .ok bytes := by
  obtain ⟨pieces, encoded⟩ := exists_encodePieces each
  rw [encode, if_neg (not_not_intro each.length_eq), encoded]
  exact ⟨_, rfl⟩

theorem canonicalForms_eq (each : List.Forall₂ Canonical types values) :
    canonicalForms types values = values := by
  induction each with
  | nil => rfl
  | cons head tail ih => rw [canonicalForms, head.canonical, ih]

theorem allLeaves (each : List.Forall₂ Canonical types values) :
    AllLeaves SignedFits types values := by
  induction each with
  | nil => trivial
  | cons head tail ih => exact ⟨head.fits, ih⟩

theorem items (each : List.Forall₂ Canonical (List.replicate values.length item) values) :
    (∃ parts, (values.mapM fun v => encodeValue item v) = .ok parts) ∧
      values.map (fun v => canonicalForm item v) = values ∧
      ∀ v ∈ values, EachLeaf SignedFits item v := by
  refine ⟨?_, ?_, ?_⟩
  · obtain ⟨pieces, encoded⟩ := exists_encodePieces each
    rw [encodePieces_replicate] at encoded
    obtain ⟨parts, encoded, -⟩ := Except.map_eq_ok.mp encoded
    exact ⟨parts, encoded⟩
  · rw [← canonicalForms_replicate]
    exact canonicalForms_eq each
  · exact allLeaves_replicate.mp (allLeaves each)

theorem array (each : List.Forall₂ Canonical (List.replicate values.length item) values) :
    Canonical (.array item) (.array values) := by
  obtain ⟨⟨parts, encoded⟩, canonical, fits⟩ := items each
  refine ⟨?_, ?_, fits⟩
  · rw [encodeValue, itemsOf, ok_bind, encoded]
    exact ⟨_, rfl⟩
  · rw [canonicalForm]
    exact congrArg Json.array canonical

theorem fixedArray (each : List.Forall₂ Canonical (List.replicate values.length item) values) :
    Canonical (.fixedArray item values.length) (.array values) := by
  obtain ⟨⟨parts, encoded⟩, canonical, fits⟩ := items each
  refine ⟨?_, ?_, fits⟩
  · rw [encodeValue, itemsOf, ok_bind, if_neg (not_not_intro rfl), encoded]
    exact ⟨_, rfl⟩
  · rw [canonicalForm]
    exact congrArg Json.array canonical

theorem tuple (each : List.Forall₂ Canonical types values) :
    Canonical (.tuple types) (.array values) := by
  refine ⟨?_, ?_, allLeaves each⟩
  · obtain ⟨pieces, encoded⟩ := exists_encodePieces each
    rw [encodeValue, itemsOf, ok_bind, if_neg (not_not_intro each.length_eq), encoded]
    exact ⟨_, rfl⟩
  · rw [canonicalForm]
    exact congrArg Json.array (canonicalForms_eq each)

end Canonical

/-! Whatever is decoded is canonical. -/

theorem ofBigEndian_of_wordAt {data word : List UInt8} {position : Nat}
    (read : wordAt data position = .ok word) : Word.ofBigEndian word < Word.limit := by
  have bound := Word.ofBigEndian_lt word
  rw [length_of_wordAt read] at bound
  exact bound

def DecodesCanonical (type : AbiType) : Prop :=
  ∀ (data : List UInt8) (base position length : Nat) (value : Json),
    decodeValue data type base position = .ok (value, length) → Canonical type value

theorem canonical_of_decodeEach {data : List UInt8} {types : List AbiType} {base position : Nat}
    {values : List Json} (each : ∀ type ∈ types, DecodesCanonical type)
    (decoded : decodeEach data types base position = .ok values) :
    List.Forall₂ Canonical types values := by
  induction types generalizing position values with
  | nil =>
      cases decoded
      exact .nil
  | cons type types ih =>
      simp only [decodeEach, bind_eq_ok, pure_eq_ok] at decoded
      obtain ⟨⟨value, length⟩, first, rest, others, rfl⟩ := decoded
      obtain ⟨head, tail⟩ := List.forall_mem_cons.mp each
      exact .cons (head _ _ _ _ _ first) (ih tail others)

theorem decodesCanonical (type : AbiType) (fitsWord : type.Everywhere AbiType.FitsWord) :
    DecodesCanonical type := by
  intro data base position length value decoded
  induction type generalizing data base position length value with
  | address =>
      cases decoded_of_decodeValue decoded with
      | @address _ word read =>
          have twenty : (word.drop 12).length = 20 := by
            rw [List.length_drop, length_of_wordAt read]
          exact Canonical.address ⟨⟨(word.drop 12).toArray, twenty⟩⟩
  | uint bits =>
      cases decoded_of_decodeValue decoded with
      | uint read => exact Canonical.uint (ofBigEndian_of_wordAt read) bits
  | int bits =>
      cases decoded_of_decodeValue decoded with
      | int read => exact Canonical.int (ofBigEndian_of_wordAt read) bits
  | bool =>
      cases decoded_of_decodeValue decoded
      exact Canonical.bool _
  | string =>
      cases decoded_of_decodeValue decoded
      exact Canonical.string _
  | bytes =>
      cases decoded_of_decodeValue decoded
      exact Canonical.bytes _
  | fixedBytes size =>
      cases decoded_of_decodeValue decoded with
      | @fixedBytes _ _ word read =>
          have room : size ≤ 32 := fitsWord
          have taken : (word.take size).length = size := by
            rw [List.length_take, length_of_wordAt read]
            exact Nat.min_eq_left room
          have canonical := Canonical.fixedBytes (word.take size)
          rwa [taken] at canonical
  | array item ih =>
      cases decoded_of_decodeValue decoded with
      | array counted items =>
          apply Canonical.array (canonical_of_decodeEach _ items)
          exact fun type member => List.eq_of_mem_replicate member ▸ ih fitsWord.2
  | fixedArray item count ih =>
      cases decoded_of_decodeValue decoded with
      | fixedArray items =>
          apply Canonical.fixedArray (canonical_of_decodeEach _ items)
          exact fun type member => List.eq_of_mem_replicate member ▸ ih fitsWord.2
  | tuple types ih =>
      have eachFits := AbiType.allEverywhere_iff.mp fitsWord.2
      cases decoded_of_decodeValue decoded with
      | tuple parts =>
          apply Canonical.tuple (canonical_of_decodeEach _ parts)
          exact fun type member => ih type member (eachFits type member)

theorem canonical_of_decode {types : List AbiType} {data : List UInt8} {values : List Json}
    (fitsWord : AbiType.AllEverywhere AbiType.FitsWord types)
    (decoded : decode types data = .ok values) : List.Forall₂ Canonical types values := by
  apply canonical_of_decodeEach _ decoded
  intro type member
  exact decodesCanonical type (AbiType.allEverywhere_iff.mp fitsWord type member)

/-- Decoded values can be encoded, and are decoded again from what they are encoded as, whatever
data they came from. Types that are read from declarations have octets of a fixed number in one word
at most, see `fitsWord_of_typesOf`. -/
theorem decode_reencoded {types : List AbiType} {data : List UInt8} {values : List Json}
    (fitsWord : AbiType.AllEverywhere AbiType.FitsWord types)
    (takesRoom : AbiType.AllEverywhere AbiType.ItemsTakeRoom types)
    (decoded : decode types data = .ok values) :
    ∃ bytes, encode types values = .ok bytes ∧
      (bytes.length ≤ 2 ^ 32 - 1 → decode types bytes = .ok values) := by
  have each := canonical_of_decode fitsWord decoded
  obtain ⟨bytes, encoded⟩ := Canonical.exists_encode each
  refine ⟨bytes, encoded, ?_⟩
  intro small
  have again := decode_of_standsAt fitsWord takesRoom (Canonical.allLeaves each) encoded
    (standsAt_self bytes) small
  rwa [Canonical.canonicalForms_eq each] at again

def untidy : List UInt8 :=
  List.replicate 32 0xFF ++ List.replicate 31 0xEE ++ [2] ++ Word.bytes 96 ++
    Word.bytes 2 ++ Word.bytes 64 ++ Word.bytes 64 ++ Word.bytes 1 ++ [0xAB]

def untidyTypes : List AbiType := [.int 8, .bool, .array .bytes]

def untidyValues : List Json :=
  [.string "-1", .bool true, .array [.string "0xab", .string "0xab"]]

set_option maxRecDepth 4000 in
theorem decode_reencoded_untidy :
    decode untidyTypes untidy = .ok untidyValues ∧ untidy.length = 225 ∧
      ∃ bytes, encode untidyTypes untidyValues = .ok bytes ∧ bytes.length = 320 ∧
        decode untidyTypes bytes = .ok untidyValues := by
  have decoded : decode untidyTypes untidy = .ok untidyValues := rfl
  have fitsWord : AbiType.AllEverywhere AbiType.FitsWord untidyTypes := by
    simp [untidyTypes, AbiType.AllEverywhere, AbiType.Everywhere, AbiType.FitsWord]
  have takesRoom : AbiType.AllEverywhere AbiType.ItemsTakeRoom untidyTypes := by
    simp [untidyTypes, AbiType.AllEverywhere, AbiType.Everywhere, AbiType.ItemsTakeRoom,
      AbiType.headLength]
  obtain ⟨bytes, encoded, again⟩ := decode_reencoded fitsWord takesRoom decoded
  have length : bytes.length = 320 := by
    have whole : (encode untidyTypes untidyValues).map List.length = .ok 320 := rfl
    rw [encoded] at whole
    exact Except.ok.inj whole
  exact ⟨decoded, rfl, bytes, encoded, length, again (by omega)⟩

end Abi

end Rehearsal
