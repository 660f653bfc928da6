import Rehearsal.Proofs.Abi.Spelling
import Rehearsal.Proofs.Scenario.Octets
import Rehearsal.Proofs.Scenario.ResultTags

namespace Rehearsal

/-! Values as they are encoded and as they are compared. What is compared has no type, so that forty
digits behind a mark are an address also where an integer is meant. Apart from these, two spellings that
are encoded alike are compared as equal, and as equal to what is decoded of them. -/

namespace Abi

variable {v w : Json} {data : List UInt8} {type : AbiType}

theorem counted_injective : Function.Injective counted := by
  intro left right same
  have whole := congrArg List.length same
  simp only [counted, padded, List.length_append, List.length_replicate, length_bytes] at whole
  obtain ⟨counts, contents⟩ :=
    List.append_inj same ((length_bytes _).trans (length_bytes _).symm)
  have residues : left.length % Word.limit = right.length % Word.limit := by
    have numbers := congrArg Word.ofBigEndian counts
    rwa [Word.bytes, Word.bytes, Word.ofBigEndian_bigEndian, Word.ofBigEndian_bigEndian] at numbers
  have length : left.length = right.length := by
    have limit : Word.limit = 2 ^ 256 := by decide
    rw [limit] at residues
    omega
  exact (List.append_inj contents length).1

theorem canonicalForms_eq_of_same_encoding {types : List AbiType} {values others : List Json}
    (fitsWord : AbiType.AllEverywhere AbiType.FitsWord types)
    (takesRoom : AbiType.AllEverywhere AbiType.ItemsTakeRoom types)
    (fits : AllLeaves SignedFits types values) (otherFits : AllLeaves SignedFits types others)
    (encoded : encode types values = .ok data) (otherEncoded : encode types others = .ok data)
    (small : data.length ≤ greatestPosition) :
    canonicalForms types values = canonicalForms types others := by
  have stands := standsAt_self data
  have decoded := decode_of_standsAt fitsWord takesRoom fits encoded stands small
  have otherDecoded := decode_of_standsAt fitsWord takesRoom otherFits otherEncoded stands small
  exact Except.ok.inj (decoded.symm.trans otherDecoded)

end Abi

namespace Normal

open Abi

def IsForty (value : Json) : Prop :=
  ∃ s digits, value = .string s ∧ Marked digits s ∧ digits.length = 40

/-- The integer that a value spells where one is meant, forty digits behind a mark included. -/
inductive SpellsNumber : Json → Int → Prop where
  | integer {value : Json} {n : Int} (spells : SpellsInteger value n) : SpellsNumber value n
  | forty {s : String} {digits : List Char} (marked : Marked digits s)
      (forty : digits.length = 40) : SpellsNumber (.string s) (Text.numeral 16 digits)

/-- A value of a type in a form by which it can be compared. Integers are in decimal or in hexadecimal,
signed ones of 256 bits; addresses and octets are behind one mark, and more octets than an integer
may have are in lower case. -/
inductive Written : AbiType → Json → Prop where
  | uint {bits : Nat} {value : Json} {n : Int} (spells : SpellsNumber value n) :
      Written (.uint bits) value
  | int {bits : Nat} {value : Json} {n : Int} (spells : SpellsNumber value n)
      (low : -2 ^ 255 ≤ n) (high : n < 2 ^ 255) : Written (.int bits) value
  | address {s : String} {digits : List Char} (marked : Marked digits s) :
      Written .address (.string s)
  | bool (value : Json) : Written .bool value
  | bytes {s : String} {digits : List Char} (whole : s.toList = '0' :: 'x' :: digits)
      (hex : ∀ c ∈ digits, Text.isHexadecimal c = true)
      (plain : digits.length ≤ 64 ∨ Text.lower digits = digits) : Written .bytes (.string s)

/-- An integer that is compared as an address. -/
def IsTakenForAddress : AbiType → Json → Prop
  | .uint _, value => IsForty value
  | .int _, value => IsForty value
  | _, _ => False

variable {v w value : Json} {data bytes : List UInt8} {type : AbiType} {digits : List Char}
  {s : String} {n : Int} {bits : Nat}

/-! The encoder's reading of integers. -/

def IsRead (value : Json) : Prop :=
  (∃ n, unsignedOf value = .ok n) ∨ ∃ word, signedOf value = .ok word

theorem integerOf_of_marked (marked : Marked digits s) :
    integerOf (.string s) = Text.numeral 16 digits := by
  obtain ⟨⟨mark, isMark, padded⟩, hex⟩ := marked
  have ink := ink_marked isMark hex
  have number : magnitude ('0' :: mark :: digits) = Text.numeral 16 digits := by
    rw [magnitude, Text.trim_of_ink ink]
    rcases isMark with rfl | rfl
    · rfl
    · rfl
  rw [integerOf, padded.trim_eq ink, ← number]
  rfl

theorem magnitude_of_decimals (decimals : ∀ c ∈ digits, Text.isDecimal c = true) :
    magnitude digits = Text.numeral 10 digits := by
  have ink : ∀ c ∈ digits, Text.isBlank c = false :=
    fun c member => Text.isBlank_of_isDecimal (decimals c member)
  rw [magnitude, Text.trim_of_ink ink]
  split
  · next rest => exact absurd (decimals 'x' (by simp)) (by decide)
  · next rest => exact absurd (decimals 'X' (by simp)) (by decide)
  · rfl

theorem not_isRead_of_plus (plus : Text.trim s.toList = '+' :: digits) : ¬IsRead (.string s) := by
  have refused (n : Nat) : Word.ofDigits? ('+' :: digits) ≠ some n := by
    have plain : Word.ofDigits? ('+' :: digits) = Word.ofDecimal? ('+' :: digits) := rfl
    intro read
    obtain ⟨decimals, -⟩ := Word.ofDecimal?_eq_some_iff.mp (plain ▸ read)
    exact absurd (decimals '+' List.mem_cons_self) (by decide)
  rintro (⟨n, read⟩ | ⟨word, read⟩)
  · rw [unsignedOf, unsignedOfText_eq_ok_iff, plus] at read
    exact refused n read
  · simp only [signedOf, plus] at read
    obtain ⟨n, read, -⟩ := Except.map_eq_ok.mp read
    rw [unsignedOfText_eq_ok_iff, ← plus, Text.trim_trim, plus] at read
    exact refused n read

theorem integerOf_of_spellsInteger (spells : SpellsInteger value n) (read : IsRead value) :
    integerOf value = n := by
  cases spells with
  | number n => rfl
  | @decimal s digits sign padded some decimals =>
      have trimmed := padded.trim_eq (ink_signed sign decimals)
      cases sign with
      | none =>
          have same : Text.trim s.toList = digits := trimmed
          rw [integerOf, same]
          split
          · next rest => exact absurd (decimals '-' List.mem_cons_self) (by decide)
          · rw [magnitude_of_decimals decimals]
            rfl
      | minus =>
          have same : Text.trim s.toList = '-' :: digits := trimmed
          rw [integerOf, same, ← magnitude_of_decimals decimals]
          rfl
      | plus => exact absurd read (not_isRead_of_plus trimmed)
  | hexadecimal marked => exact integerOf_of_marked marked

theorem SpellsNumber.integerOf_eq (spells : SpellsNumber value n) (read : IsRead value) :
    integerOf value = n := by
  cases spells with
  | integer spells => exact integerOf_of_spellsInteger spells read
  | forty marked _ => exact integerOf_of_marked marked

/-! What is compared. -/

theorem chars_integerJson (n : Int) : chars (integerJson n) = (Json.Number.integer n).text :=
  (denotesInteger_integerJson n).chars_eq

theorem SpellsNumber.chars_eq_or_isForty (spells : SpellsNumber value n) :
    chars value = chars (integerJson n) ∨ IsForty value := by
  cases spells with
  | integer spells => exact .inl ((chars_of_spellsInteger spells).trans (chars_integerJson n).symm)
  | forty marked forty => exact .inr ⟨_, _, rfl, marked, forty⟩

theorem IsForty.chars_ne (forty : IsForty value) (n : Int) : chars value ≠ chars (integerJson n) := by
  obtain ⟨s, digits, rfl, marked, count⟩ := forty
  rw [marked.chars_of_forty count, chars_integerJson]
  exact (text_integer_ne_marked n 'x' _).symm

theorem chars_eq_of_lower_eq {t : String} {others : List Char} (marked : Marked digits s)
    (otherMarked : Marked others t) (same : Text.lower digits = Text.lower others)
    (some : digits ≠ []) (most : digits.length ≤ 64) : chars (.string s) = chars (.string t) := by
  have count : others.length = digits.length := by
    have lengths := congrArg List.length same
    rw [Text.lower, Text.lower, List.length_map, List.length_map] at lengths
    exact lengths.symm
  by_cases forty : digits.length = 40
  · rw [marked.chars_of_forty forty, otherMarked.chars_of_forty (count.trans forty), same]
  · have otherSome : others ≠ [] := by
      rw [← List.length_pos_iff] at some ⊢
      omega
    rw [marked.chars_of_number some most forty,
      otherMarked.chars_of_number otherSome (by omega) (by omega),
      ← Text.numeral_lower marked.hexadecimal, same, Text.numeral_lower otherMarked.hexadecimal]

theorem chars_eq_of_isForty (forty : IsForty v) (otherForty : IsForty w)
    (same : integerOf v = integerOf w) : chars v = chars w := by
  obtain ⟨s, digits, rfl, marked, count⟩ := forty
  obtain ⟨t, others, rfl, otherMarked, otherCount⟩ := otherForty
  obtain ⟨bytes, read⟩ := Hex.exists_decode (by rw [count]) marked.hexadecimal
  obtain ⟨otherBytes, otherRead⟩ := Hex.exists_decode (by rw [otherCount]) otherMarked.hexadecimal
  have length := length_of_decode read
  have otherLength := length_of_decode otherRead
  rw [integerOf_of_marked marked, integerOf_of_marked otherMarked, Int.natCast_inj,
    Text.numeral_of_decode marked.hexadecimal read,
    Text.numeral_of_decode otherMarked.hexadecimal otherRead] at same
  obtain rfl := Word.ofBigEndian_injective_of_length (by omega) same
  have lower := (Hex.encode_of_decode read).symm.trans (Hex.encode_of_decode otherRead)
  exact chars_eq_of_lower_eq marked otherMarked lower (List.length_pos_iff.mp (by omega)) (by omega)

theorem addressDigits_of_marked (marked : Marked digits s) :
    addressDigits s.toList = Text.lower digits := by
  obtain ⟨⟨mark, isMark, padded⟩, hex⟩ := marked
  have letters {c : Char} (member : c ∈ digits) := Text.ink_of_isHexadecimal (hex c member)
  have lower : 'x' ∉ digits := fun member => (letters member).2.1 rfl
  have upper : 'X' ∉ digits := fun member => (letters member).2.2 rfl
  rw [addressDigits, padded.trim_eq (ink_marked isMark hex)]
  rcases isMark with rfl | rfl
  · rw [dropHexMarks_marked hex, Address.dropPairs_of_notMem upper]
  · have absent : 'x' ∉ '0' :: 'X' :: digits := by simpa using lower
    rw [Text.dropHexMarks, Address.dropPairs_of_notMem absent, Text.dropPairs, if_pos ⟨rfl, rfl⟩,
      Address.dropPairs_of_notMem upper]

theorem chars_eq_of_encode {octets : List UInt8} (marked : Marked digits s)
    (same : Hex.encode octets = Text.lower digits) (some : digits ≠ [])
    (most : digits.length ≤ 64) : chars (.string s) = chars (.string (Hex.marked octets)) := by
  have lower : Text.lower digits = Text.lower (Hex.encode octets) :=
    same.symm.trans (Hex.encode_of_decode (Hex.decode_encode_octets octets))
  exact chars_eq_of_lower_eq marked (marked_marked octets) lower some most

/-! Written values that are encoded alike. -/

theorem isRead_of_unsigned (encoded : encodeValue (.uint bits) value = .ok bytes) :
    IsRead value := by
  obtain ⟨n, read, -⟩ := map_eq_ok.mp encoded
  exact .inl ⟨n, read⟩

theorem isRead_of_signed (encoded : encodeValue (.int bits) value = .ok bytes) :
    IsRead value := by
  obtain ⟨word, read, -⟩ := map_eq_ok.mp encoded
  exact .inr ⟨word, read⟩

theorem chars_of_boolOf {b : Bool} (read : boolOf value = .ok b) : chars value = chars (.bool b) := by
  unfold boolOf at read
  split at read
  · cases read
    rfl
  · split at read
    · next named =>
      cases read
      rw [named]
      rfl
    · split at read
      · next named =>
        cases read
        rw [named]
        rfl
      · contradiction
  · contradiction

namespace Written

variable (written : Written type value)

include written

theorem shape : AbiType.AllEverywhere AbiType.FitsWord [type] ∧
    AbiType.AllEverywhere AbiType.ItemsTakeRoom [type] := by
  cases written with
  | uint | int | address | bool | bytes => exact ⟨⟨trivial, trivial⟩, trivial, trivial⟩

theorem signedFits (encoded : encodeValue type value = .ok bytes) :
    AllLeaves SignedFits [type] [value] := by
  refine ⟨?_, trivial⟩
  cases written with
  | int spells low high =>
      have denoted := spells.integerOf_eq (isRead_of_signed encoded)
      rw [EachLeaf, SignedFits, denoted]
      exact ⟨low, high⟩
  | uint | address | bool | bytes => trivial

theorem chars_eq (encoded : encodeValue type value = .ok bytes)
    (notTaken : ¬IsTakenForAddress type value) : chars value = chars (canonicalForm type value) := by
  cases written with
  | uint spells =>
      rw [canonicalForm, spells.integerOf_eq (isRead_of_unsigned encoded)]
      exact spells.chars_eq_or_isForty.resolve_right notTaken
  | int spells =>
      rw [canonicalForm, spells.integerOf_eq (isRead_of_signed encoded)]
      exact spells.chars_eq_or_isForty.resolve_right notTaken
  | @address s digits marked =>
      obtain ⟨a, read, -⟩ := bind_eq_ok.mp encoded
      have lower : Hex.encode a.bytes.toList = Text.lower digits :=
        (addressOf_eq_ok read).trans (addressDigits_of_marked marked)
      have count : digits.length = 40 := by
        have lengths := congrArg List.length lower
        rw [Hex.length_encode, Vector.length_toList, Text.lower, List.length_map] at lengths
        exact lengths.symm
      rw [canonicalForm, ← addressOf_eq_ok read]
      exact chars_eq_of_encode marked lower (List.length_pos_iff.mp (by omega)) (by omega)
  | bool =>
      obtain ⟨b, read, -⟩ := bind_eq_ok.mp encoded
      rw [canonicalForm, ← boolOf_eq_ok read]
      exact chars_of_boolOf read
  | @bytes s digits whole hex plain =>
      obtain ⟨octets, read, -⟩ := map_eq_ok.mp encoded
      have lower : Hex.encode octets = Text.lower digits := by
        have text : textOf (.string s) = '0' :: 'x' :: digits := whole
        rw [octetsOf_eq_ok read, text, octetDigits, dropHexMarks_marked hex]
      have told : canonicalForm .bytes (.string s) = .string (Hex.marked octets) := by
        rw [canonicalForm, ← octetsOf_eq_ok read]
        rfl
      rw [told]
      by_cases same : Text.lower digits = digits
      · rw [Hex.marked, lower, same, ← whole, String.ofList_toList]
      · have some : digits ≠ [] := by
          rintro rfl
          exact same rfl
        exact chars_eq_of_encode (marked_of_toList whole hex) lower some (plain.resolve_right same)

end Written

theorem exists_encodeValue (encoded : encode [type] [value] = .ok data) :
    ∃ bytes, encodeValue type value = .ok bytes := by
  cases dynamic : type.isDynamic with
  | false =>
      rw [encode_static dynamic] at encoded
      exact ⟨data, encoded⟩
  | true =>
      rw [encode_dynamic dynamic] at encoded
      obtain ⟨bytes, inner, -⟩ := map_eq_ok.mp encoded
      exact ⟨bytes, inner⟩

theorem canonicalForm_eq_of_same_encoding (written : Written type v) (otherWritten : Written type w)
    (encoded : encode [type] [v] = .ok data) (otherEncoded : encode [type] [w] = .ok data) :
    canonicalForm type v = canonicalForm type w := by
  by_cases octets : type = .bytes
  · subst octets
    rw [encode_dynamic rfl] at encoded otherEncoded
    obtain ⟨_, counts, rfl⟩ := map_eq_ok.mp encoded
    obtain ⟨_, otherCounts, same⟩ := map_eq_ok.mp otherEncoded
    obtain ⟨octets, read, rfl⟩ := map_eq_ok.mp counts
    obtain ⟨others, otherRead, rfl⟩ := map_eq_ok.mp otherCounts
    obtain rfl := counted_injective (List.append_cancel_left same)
    rw [canonicalForm, canonicalForm, ← octetsOf_eq_ok read, ← octetsOf_eq_ok otherRead]
  · have word : type.IsElementary ∧ type.isDynamic = false := by
      cases written with
      | bytes => contradiction
      | uint | int | address | bool => exact ⟨trivial, rfl⟩
    obtain ⟨elementary, static⟩ := word
    obtain ⟨fitsWord, takesRoom⟩ := written.shape
    have inner := (encode_static static v).symm.trans encoded
    have otherInner := (encode_static static w).symm.trans otherEncoded
    have length : data.length = 32 :=
      length_of_isElementary elementary static (eachLeaf_octetsFitWord fitsWord.1 v) inner
    have forms := canonicalForms_eq_of_same_encoding fitsWord takesRoom (written.signedFits inner)
      (otherWritten.signedFits otherInner) encoded otherEncoded (length ▸ by decide)
    exact (List.cons.inj forms).1

theorem IsTakenForAddress.isForty (taken : IsTakenForAddress type value) :
    IsForty value ∧ canonicalForm type value = integerJson (integerOf value) := by
  cases type with
  | uint | int => exact ⟨taken, rfl⟩
  | _ => contradiction

theorem Written.chars_eq_iff (written : Written type value)
    (encoded : encodeValue type value = .ok bytes) :
    chars value = chars (canonicalForm type value) ↔ ¬IsTakenForAddress type value := by
  constructor
  · intro same taken
    obtain ⟨forty, number⟩ := taken.isForty
    rw [number] at same
    exact forty.chars_ne _ same
  · exact written.chars_eq encoded

theorem chars_eq_of_isTakenForAddress (taken : IsTakenForAddress type v)
    (otherTaken : IsTakenForAddress type w)
    (same : canonicalForm type v = canonicalForm type w) : chars v = chars w := by
  obtain ⟨forty, number⟩ := taken.isForty
  obtain ⟨otherForty, otherNumber⟩ := otherTaken.isForty
  rw [number, otherNumber] at same
  have texts := congrArg chars same
  rw [chars_integerJson, chars_integerJson] at texts
  exact chars_eq_of_isForty forty otherForty (text_integer_injective texts)

theorem returnValue_eq_nil_iff {e : Expectation} {o : Outcome} {expected got : Json}
    (declared : e.returnValue = some expected) (returned : o.returnValue = some got) :
    Matching.returnValue e o = [] ↔ normalize got = normalize expected := by
  rw [Matching.returnValue, declared, returned]
  simp

/-- Two spellings that are encoded alike are compared as equal, unless just one of them is taken for an
address. An expectation in such a spelling is met by a contract that gives the encoded value back, unless
the spelling is taken for an address. -/
theorem normalize_eq_iff_of_same_encoding (written : Written type v) (otherWritten : Written type w)
    (encoded : encode [type] [v] = .ok data) (otherEncoded : encode [type] [w] = .ok data) :
    (normalize v = normalize w ↔ (IsTakenForAddress type v ↔ IsTakenForAddress type w)) ∧
    (data.length ≤ 2 ^ 32 - 1 → ∃ told, decode [type] data = .ok [told] ∧
      ∀ (e : Expectation) (o : Outcome), e.returnValue = some v → o.returnValue = some told →
        (Matching.returnValue e o = [] ↔ ¬IsTakenForAddress type v)) := by
  have same := canonicalForm_eq_of_same_encoding written otherWritten encoded otherEncoded
  obtain ⟨bytes, inner⟩ := exists_encodeValue encoded
  obtain ⟨otherBytes, otherInner⟩ := exists_encodeValue otherEncoded
  have own := written.chars_eq_iff inner
  have other := otherWritten.chars_eq_iff otherInner
  rw [normalize_eq_iff]
  constructor
  · by_cases taken : IsTakenForAddress type v
    · by_cases otherTaken : IsTakenForAddress type w
      · exact iff_of_true (chars_eq_of_isTakenForAddress taken otherTaken same)
          (iff_of_true taken otherTaken)
      · refine iff_of_false ?_ fun both => otherTaken (both.mp taken)
        intro equal
        rw [equal, same] at own
        exact own.mp (other.mpr otherTaken) taken
    · by_cases otherTaken : IsTakenForAddress type w
      · refine iff_of_false ?_ fun both => taken (both.mpr otherTaken)
        intro equal
        rw [← equal, ← same] at other
        exact other.mp (own.mpr taken) otherTaken
      · refine iff_of_true ?_ (iff_of_false taken otherTaken)
        rw [own.mpr taken, same, other.mpr otherTaken]
  · intro small
    obtain ⟨fitsWord, takesRoom⟩ := written.shape
    have decoded : decode [type] data = .ok [canonicalForm type v] :=
      decode_of_standsAt fitsWord takesRoom (written.signedFits inner) encoded (standsAt_self data)
        small
    refine ⟨_, decoded, ?_⟩
    intro e o declared returned
    rw [returnValue_eq_nil_iff declared returned, normalize_eq_iff, eq_comm, own]

def sixteen : Json := .string "0x0000000000000000000000000000000000000010"

set_option maxRecDepth 4000 in
theorem normalize_eq_iff_of_sixteen :
    normalize (.string "0X10") = normalize (.string " 016") ∧
    normalize sixteen ≠ normalize (.string " 016") ∧
    ∃ told, decode [.uint 256] (Word.bytes 16) = .ok [told] ∧
      ∀ (e : Expectation) (o : Outcome), e.returnValue = some (.string "0X10") →
        o.returnValue = some told → Matching.returnValue e o = [] := by
  have quantity : Marked ['1', '0'] "0X10" :=
    ⟨⟨'X', .inr rfl, [], [], rfl, nofun, nofun⟩, List.all_eq_true.mp rfl⟩
  have short : Written (.uint 256) (.string "0X10") :=
    .uint (.integer (.hexadecimal quantity (by decide) (by decide) (by decide)))
  have decimal : Written (.uint 256) (.string " 016") :=
    .uint (.integer (@SpellsInteger.decimal _ ['0', '1', '6'] .none
      ⟨[' '], [], rfl, List.all_eq_true.mp rfl, nofun⟩ (by decide) (List.all_eq_true.mp rfl)))
  have forty : Marked (List.replicate 38 '0' ++ ['1', '0'])
      "0x0000000000000000000000000000000000000010" :=
    marked_of_toList rfl (List.all_eq_true.mp rfl)
  have long : Written (.uint 256) sixteen := .uint (.forty forty rfl)
  have shortEncoded : encode [.uint 256] [.string "0X10"] = .ok (Word.bytes 16) := rfl
  have decimalEncoded : encode [.uint 256] [.string " 016"] = .ok (Word.bytes 16) := rfl
  have longEncoded : encode [.uint 256] [sixteen] = .ok (Word.bytes 16) := rfl
  have taken : IsTakenForAddress (.uint 256) sixteen := ⟨_, _, rfl, forty, rfl⟩
  have notTaken (s : String) (count : (Text.trim s.toList).length ≠ 42) :
      ¬IsTakenForAddress (.uint 256) (.string s) := by
    rintro ⟨_, digits, same, ⟨⟨mark, isMark, padded⟩, hex⟩, forty⟩
    cases same
    rw [padded.trim_eq (ink_marked isMark hex), List.length_cons, List.length_cons, forty] at count
    exact count rfl
  have shortKept := notTaken "0X10" (by decide)
  have decimalKept := notTaken " 016" (by decide)
  obtain ⟨alike, met⟩ :=
    normalize_eq_iff_of_same_encoding short decimal shortEncoded decimalEncoded
  obtain ⟨apart, -⟩ := normalize_eq_iff_of_same_encoding long decimal longEncoded decimalEncoded
  obtain ⟨told, decoded, returned⟩ := met (by decide)
  refine ⟨alike.mpr (iff_of_false shortKept decimalKept), ?_, told, decoded, ?_⟩
  · exact fun same => decimalKept ((apart.mp same).mp taken)
  · exact fun e o declared value => (returned e o declared value).mpr shortKept

set_option maxRecDepth 4000 in
theorem same_encoding_compared_otherwise :
    (¬∀ (v w : Json) (data : List UInt8), encode [.uint 256] [v] = .ok data →
      encode [.uint 256] [w] = .ok data → normalize v = normalize w) ∧
    ¬∀ (v w : Json) (data : List UInt8), encode [.bytes] [v] = .ok data →
      encode [.bytes] [w] = .ok data → normalize v = normalize w := by
  constructor
  · intro agree
    have encoded : encode [.uint 256] [sixteen] = .ok (Word.bytes 16) := rfl
    have plain : encode [.uint 256] [.string "16"] = .ok (Word.bytes 16) := rfl
    exact absurd (agree _ _ _ encoded plain) (by decide)
  · intro agree
    have bare : encode [.bytes] [.string "12"] = .ok (Word.bytes 32 ++ counted [0x12]) := rfl
    have marked : encode [.bytes] [.string "0x12"] = .ok (Word.bytes 32 ++ counted [0x12]) := rfl
    exact absurd (agree _ _ _ bare marked) (by decide)

end Normal

end Rehearsal
