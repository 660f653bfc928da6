import Rehearsal.Proofs.Abi.Unsigned
import Rehearsal.Proofs.Scenario.Elements

namespace Rehearsal

/-! What spelled values mean. An integer is spelled as a JSON integer, in decimal or in hexadecimal,
an address as forty hexadecimal digits. The normal form of a spelling is the plain text of what it
means, so that two spellings are compared by their meanings, whatever their signs, zeros, cases and
blanks. -/

namespace Text

def Padded (core : List Char) (s : String) : Prop :=
  ∃ front back, s.toList = front ++ core ++ back ∧ (∀ c ∈ front, isBlank c = true) ∧
    ∀ c ∈ back, isBlank c = true

theorem Padded.trim_eq {core : List Char} {s : String} (padded : Padded core s)
    (ink : ∀ c ∈ core, isBlank c = false) : trim s.toList = core := by
  obtain ⟨front, back, whole, before, behind⟩ := padded
  rw [whole, trim_padded before behind ink]

theorem padded_trim (s : String) : Padded (trim s.toList) s := by
  refine ⟨s.toList.takeWhile isBlank, (trimLeft s.toList).rtakeWhile isBlank, ?_,
    fun c => List.mem_takeWhile_imp, fun c => List.mem_rtakeWhile_imp⟩
  calc s.toList = s.toList.takeWhile isBlank ++ trimLeft s.toList :=
        List.takeWhile_append_dropWhile.symm
    _ = s.toList.takeWhile isBlank ++
          (trim s.toList ++ (trimLeft s.toList).rtakeWhile isBlank) :=
        congrArg _ List.rdropWhile_append_rtakeWhile.symm
    _ = _ := (List.append_assoc ..).symm

end Text

namespace Normal

/-! Spellings. -/

/-- Hexadecimal digits behind a mark, with blanks around them or not. -/
structure Marked (digits : List Char) (s : String) : Prop where
  padded : ∃ mark, (mark = 'x' ∨ mark = 'X') ∧ Text.Padded ('0' :: mark :: digits) s
  hexadecimal : ∀ c ∈ digits, Text.isHexadecimal c = true

/-- The integer that a value spells. Forty digits behind a mark spell no integer. -/
inductive SpellsInteger : Json → Int → Prop where
  | number (n : Int) : SpellsInteger (.number (.integer n)) n
  | decimal {s : String} {digits : List Char} (sign : Sign)
      (padded : Text.Padded (sign.text ++ digits) s) (some : digits ≠ [])
      (decimals : ∀ c ∈ digits, Text.isDecimal c = true) :
      SpellsInteger (.string s) (sign.apply (Text.numeral 10 digits))
  | hexadecimal {s : String} {digits : List Char} (marked : Marked digits s)
      (some : digits ≠ []) (most : digits.length ≤ 64) (noAddress : digits.length ≠ 40) :
      SpellsInteger (.string s) (Text.numeral 16 digits)

/-- The octets that a value spells, two digits for each. -/
inductive SpellsOctets : Json → List UInt8 → Prop where
  | marked {s : String} {digits : List Char} {bytes : List UInt8} (marked : Marked digits s)
      (read : Hex.decode digits = .ok bytes) : SpellsOctets (.string s) bytes

def SpellsAddress (value : Json) (address : Address) : Prop :=
  SpellsOctets value address.bytes.toList

/-- A spelling of an integer, or of an address: forty digits behind a mark. -/
inductive IsSpelling : Json → Prop where
  | integer {value : Json} {n : Int} (spells : SpellsInteger value n) : IsSpelling value
  | address {s : String} {digits : List Char} (marked : Marked digits s)
      (forty : digits.length = 40) : IsSpelling (.string s)

theorem marked_of_toList {s : String} {digits : List Char} (whole : s.toList = '0' :: 'x' :: digits)
    (hex : ∀ c ∈ digits, Text.isHexadecimal c = true) : Marked digits s := by
  refine ⟨⟨'x', .inl rfl, [], [], ?_, nofun, nofun⟩, hex⟩
  rw [whole, List.nil_append, List.append_nil]

theorem marked_marked (bytes : List UInt8) : Marked (Hex.encode bytes) (Hex.marked bytes) := by
  apply marked_of_toList
  · rw [Hex.marked, String.toList_ofList]
  · exact fun c => Hex.isHexadecimal_of_mem_encode

theorem spellsOctets_marked (bytes : List UInt8) :
    SpellsOctets (.string (Hex.marked bytes)) bytes :=
  .marked (marked_marked bytes) (Hex.decode_encode_octets bytes)

variable {digits : List Char} {s : String} {value : Json} {mark : Char}

/-! Normal forms of digits behind a mark: an address if there are forty, a number if there are others
and at most sixty-four, and the text itself otherwise. -/

theorem decimal?_marked (isMark : mark = 'x' ∨ mark = 'X') (digits : List Char) :
    decimal? ('0' :: mark :: digits) = none := by
  rcases isMark with rfl | rfl
  · rfl
  · rfl

theorem isHex_marked (isMark : mark = 'x' ∨ mark = 'X')
    (hex : ∀ c ∈ digits, Text.isHexadecimal c = true) : isHex ('0' :: mark :: digits) = true := by
  rcases isMark with rfl | rfl
  · exact List.all_eq_true.mpr hex
  · exact List.all_eq_true.mpr hex

theorem ink_marked (isMark : mark = 'x' ∨ mark = 'X')
    (hex : ∀ c ∈ digits, Text.isHexadecimal c = true) :
    ∀ c ∈ '0' :: mark :: digits, Text.isBlank c = false := by
  refine List.forall_mem_cons.mpr ⟨rfl, List.forall_mem_cons.mpr ⟨?_, ?_⟩⟩
  · rcases isMark with rfl | rfl
    · rfl
    · rfl
  · exact fun c member => (Text.ink_of_isHexadecimal (hex c member)).1

theorem unsignedOfText_marked (isMark : mark = 'x' ∨ mark = 'X')
    (hex : ∀ c ∈ digits, Text.isHexadecimal c = true) (most : digits.length ≤ 64) :
    Abi.unsignedOfText ('0' :: mark :: digits) = .ok (Text.numeral 16 digits) := by
  rw [Abi.unsignedOfText_eq_ok_iff, Text.trim_of_ink (ink_marked isMark hex),
    Abi.ofDigits?_of_mark isMark]
  exact Word.ofHex?_eq_some_iff.mpr ⟨digits, .inl rfl, hex, most, rfl⟩

theorem isAddress_marked (isMark : mark = 'x' ∨ mark = 'X')
    (hex : ∀ c ∈ digits, Text.isHexadecimal c = true) :
    isAddress ('0' :: mark :: digits) = decide (digits.length = 40) := by
  rw [isAddress, isHex_marked isMark hex, Bool.true_and, List.length_cons, List.length_cons]
  exact decide_eq_decide.mpr (by omega)

theorem lower_marked (isMark : mark = 'x' ∨ mark = 'X') (digits : List Char) :
    Text.lower ('0' :: mark :: digits) = '0' :: 'x' :: Text.lower digits := by
  rcases isMark with rfl | rfl
  · rfl
  · rfl

namespace Marked

variable (marked : Marked digits s)

include marked

theorem chars_of_number (some : digits ≠ []) (most : digits.length ≤ 64)
    (noAddress : digits.length ≠ 40) :
    chars (.string s) = Text.decimal (Text.numeral 16 digits) := by
  obtain ⟨⟨mark, isMark, padded⟩, hex⟩ := marked
  have count : digits.length ≠ 0 := List.length_eq_zero_iff.not.mpr some
  have taken : isHex ('0' :: mark :: digits) = true ∧ ('0' :: mark :: digits).length ≠ 2 ∧
      ('0' :: mark :: digits).length ≤ 66 := by
    rw [List.length_cons, List.length_cons]
    exact ⟨isHex_marked isMark hex, by omega, by omega⟩
  have number : hex? ('0' :: mark :: digits) = .some (Text.decimal (Text.numeral 16 digits)) := by
    rw [hex?, if_pos taken, unsignedOfText_marked isMark hex most]
  rw [chars, ofText, padded.trim_eq (ink_marked isMark hex)]
  simp only [decimal?_marked isMark, isAddress_marked isMark hex, decide_eq_true_eq, noAddress,
    if_false, number]

theorem chars_of_forty (forty : digits.length = 40) :
    chars (.string s) = '0' :: 'x' :: Text.lower digits := by
  obtain ⟨⟨mark, isMark, padded⟩, hex⟩ := marked
  rw [chars, ofText, padded.trim_eq (ink_marked isMark hex)]
  simp only [decimal?_marked isMark, isAddress_marked isMark hex, forty, decide_true, if_true,
    lower_marked isMark]

theorem chars_of_other (other : digits = [] ∨ 64 < digits.length) :
    ∃ mark, (mark = 'x' ∨ mark = 'X') ∧ chars (.string s) = '0' :: mark :: digits := by
  obtain ⟨⟨mark, isMark, padded⟩, hex⟩ := marked
  have count : digits.length = 0 ∨ 64 < digits.length :=
    other.imp_left List.length_eq_zero_iff.mpr
  have notTaken : ¬(isHex ('0' :: mark :: digits) = true ∧ ('0' :: mark :: digits).length ≠ 2 ∧
      ('0' :: mark :: digits).length ≤ 66) := by
    rw [List.length_cons, List.length_cons]
    omega
  have noNumber : hex? ('0' :: mark :: digits) = none := if_neg notTaken
  have noAddress : digits.length ≠ 40 := by omega
  have noTruth : ¬(Text.lower ('0' :: mark :: digits) = "true".toList ∨
      Text.lower ('0' :: mark :: digits) = "false".toList) := by
    rw [lower_marked isMark]
    rintro (same | same) <;> cases same
  refine ⟨mark, isMark, ?_⟩
  rw [chars, ofText, padded.trim_eq (ink_marked isMark hex)]
  simp only [decimal?_marked isMark, isAddress_marked isMark hex, decide_eq_true_eq, noAddress,
    if_false, noNumber, if_neg noTruth]

end Marked

/-! What the normal form of a spelling is. -/

theorem chars_of_spellsInteger {n : Int} (spells : SpellsInteger value n) :
    chars value = (Json.Number.integer n).text := by
  cases spells with
  | number n => exact chars_integer n
  | decimal sign padded some decimals =>
      rw [chars, ofText, padded.trim_eq (ink_signed sign decimals)]
      simp only [decimal?_signed sign some decimals]
  | hexadecimal marked some most noAddress =>
      rw [marked.chars_of_number some most noAddress,
        Json.Number.text_integer_of_nonneg (by omega), Int.natAbs_natCast]

theorem length_of_decode {bytes : List UInt8} (read : Hex.decode digits = .ok bytes) :
    digits.length = 2 * bytes.length := by
  have lower := congrArg List.length (Hex.encode_of_decode read)
  rw [Hex.length_encode, Text.lower, List.length_map] at lower
  exact lower.symm

theorem chars_of_spellsAddress {a : Address} (spells : SpellsAddress value a) :
    chars value = a.text.toList := by
  cases spells with
  | marked marked read =>
      have forty := length_of_decode read
      rw [Vector.length_toList] at forty
      rw [marked.chars_of_forty forty, ← Hex.encode_of_decode read, Address.text, Hex.marked,
        String.toList_ofList]

theorem exists_spellsAddress (marked : Marked digits s) (forty : digits.length = 40) :
    ∃ a, SpellsAddress (.string s) a := by
  obtain ⟨bytes, read⟩ := Hex.exists_decode (by rw [forty]) marked.hexadecimal
  have twenty : bytes.length = 20 := by
    have length := length_of_decode read
    omega
  exact ⟨⟨⟨bytes.toArray, twenty⟩⟩, .marked marked read⟩

theorem IsSpelling.exists (spelling : IsSpelling value) :
    (∃ n, SpellsInteger value n) ∨ ∃ a, SpellsAddress value a := by
  cases spelling with
  | integer spells => exact .inl ⟨_, spells⟩
  | address marked forty => exact .inr (exists_spellsAddress marked forty)

theorem text_integer_injective {m n : Int}
    (same : (Json.Number.integer m).text = (Json.Number.integer n).text) : m = n := by
  have minus (k : Nat) (rest : List Char) := Abi.decimal_ne_minus k rest
  by_cases negative : m < 0
  · by_cases otherNegative : n < 0
    · rw [Json.Number.text_integer_of_negative negative,
        Json.Number.text_integer_of_negative otherNegative, List.cons.injEq] at same
      have magnitude := Text.decimal_injective same.2
      omega
    · rw [Json.Number.text_integer_of_negative negative,
        Json.Number.text_integer_of_nonneg (Int.not_lt.mp otherNegative)] at same
      exact absurd same.symm (minus _ _)
  · by_cases otherNegative : n < 0
    · rw [Json.Number.text_integer_of_nonneg (Int.not_lt.mp negative),
        Json.Number.text_integer_of_negative otherNegative] at same
      exact absurd same (minus _ _)
    · rw [Json.Number.text_integer_of_nonneg (Int.not_lt.mp negative),
        Json.Number.text_integer_of_nonneg (Int.not_lt.mp otherNegative)] at same
      have magnitude := Text.decimal_injective same
      omega

theorem text_integer_ne_marked (n : Int) (mark : Char) (rest : List Char) :
    (Json.Number.integer n).text ≠ '0' :: mark :: rest := by
  intro same
  by_cases negative : n < 0
  · rw [Json.Number.text_integer_of_negative negative] at same
    cases same
  · rw [Json.Number.text_integer_of_nonneg (Int.not_lt.mp negative)] at same
    cases Text.decimal_of_head_zero same

theorem address_text_injective {a b : Address} (same : a.text.toList = b.text.toList) : a = b := by
  apply Option.some.inj
  rw [← Address.parse?_text a, String.toList_inj.mp same, Address.parse?_text b]

/-- Two spellings have one normal form just when they spell the same integer or the same address. -/
theorem normalize_eq_iff_same_meaning {v w : Json} (spelling : IsSpelling v)
    (otherSpelling : IsSpelling w) :
    normalize v = normalize w ↔
      (∃ n, SpellsInteger v n ∧ SpellsInteger w n) ∨
        ∃ a, SpellsAddress v a ∧ SpellsAddress w a := by
  have notBoth {n : Int} {a : Address} : (Json.Number.integer n).text ≠ a.text.toList := by
    rw [Address.text, Hex.marked, String.toList_ofList]
    exact text_integer_ne_marked n 'x' _
  rw [normalize_eq_iff]
  constructor
  · intro same
    rcases spelling.exists with ⟨m, spells⟩ | ⟨a, spells⟩
    · rw [chars_of_spellsInteger spells] at same
      rcases otherSpelling.exists with ⟨n, otherSpells⟩ | ⟨b, otherSpells⟩
      · rw [chars_of_spellsInteger otherSpells] at same
        obtain rfl := text_integer_injective same
        exact .inl ⟨m, spells, otherSpells⟩
      · rw [chars_of_spellsAddress otherSpells] at same
        exact absurd same notBoth
    · rw [chars_of_spellsAddress spells] at same
      rcases otherSpelling.exists with ⟨n, otherSpells⟩ | ⟨b, otherSpells⟩
      · rw [chars_of_spellsInteger otherSpells] at same
        exact absurd same.symm notBoth
      · rw [chars_of_spellsAddress otherSpells] at same
        obtain rfl := address_text_injective same
        exact .inr ⟨a, spells, otherSpells⟩
  · rintro (⟨n, spells, otherSpells⟩ | ⟨a, spells, otherSpells⟩)
    · rw [chars_of_spellsInteger spells, chars_of_spellsInteger otherSpells]
    · rw [chars_of_spellsAddress spells, chars_of_spellsAddress otherSpells]

theorem same_meaning_of_byte :
    normalize (.string " 0X00fF\t") = normalize (.string "+0255") ∧
      normalize (.string "0X00000000000000000000000000000000000000AB") =
        normalize (.string (Address.ofLow 0xab).text) := by
  have hexadecimal : SpellsInteger (.string " 0X00fF\t") 255 :=
    @SpellsInteger.hexadecimal _ ['0', '0', 'f', 'F']
      ⟨⟨'X', .inr rfl, [' '], ['\t'], rfl, List.all_eq_true.mp rfl, List.all_eq_true.mp rfl⟩,
        List.all_eq_true.mp rfl⟩
      (by decide) (by decide) (by decide)
  have decimal : SpellsInteger (.string "+0255") 255 :=
    @SpellsInteger.decimal _ ['0', '2', '5', '5'] .plus ⟨[], [], rfl, nofun, nofun⟩
      (by decide) (List.all_eq_true.mp rfl)
  have upper : Marked (List.replicate 38 '0' ++ ['A', 'B'])
      "0X00000000000000000000000000000000000000AB" :=
    ⟨⟨'X', .inr rfl, [], [], rfl, nofun, nofun⟩, List.all_eq_true.mp rfl⟩
  have lower := marked_marked (Address.ofLow 0xab).bytes.toList
  refine ⟨?_, ?_⟩
  · exact (normalize_eq_iff_same_meaning (.integer hexadecimal) (.integer decimal)).mpr
      (.inl ⟨255, hexadecimal, decimal⟩)
  · exact (normalize_eq_iff_same_meaning (.address upper rfl) (.address lower rfl)).mpr
      (.inr ⟨Address.ofLow 0xab, .marked upper rfl, spellsOctets_marked _⟩)

end Normal

end Rehearsal
