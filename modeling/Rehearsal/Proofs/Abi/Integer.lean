import Mathlib.Tactic.ByContra
import Rehearsal.Abi.Decode
import Rehearsal.Abi.Encode
import Rehearsal.Proofs.Json.Scalar
import Rehearsal.Proofs.Result
import Rehearsal.Proofs.Text.Hex

namespace Rehearsal

/-! The integers that JSON values denote, and the words that stand for them: a word is the
denoted integer modulo `2 ^ 256`, and a word read in two's complement gives back every integer
that two's complement has room for. -/

namespace Abi

/-- The number that a spelling without sign denotes: hexadecimal behind a mark, decimal
otherwise, blanks around it or not. -/
def magnitude (s : List Char) : Nat :=
  match Text.trim s with
  | '0' :: 'x' :: digits => Text.numeral 16 digits
  | '0' :: 'X' :: digits => Text.numeral 16 digits
  | digits => Text.numeral 10 digits

/-- The integer that a JSON value denotes; values that denote none count as zero. -/
def integerOf : Json → Int
  | .number (.integer n) => n
  | .string s =>
      match Text.trim s.toList with
      | '-' :: rest => -(magnitude rest : Int)
      | s => magnitude s
  | _ => 0

def integerJson (n : Int) : Json :=
  .string (String.ofList (Json.Number.integer n).text)

end Abi

namespace Word

variable {digits : List Char} {n : Nat}

theorem ofDecimal?_eq_some_iff : ofDecimal? digits = some n ↔
    (∀ c ∈ digits, Text.isDecimal c = true) ∧ Text.numeral 10 digits = n ∧ n < limit := by
  have decimals : (∀ c ∈ digits, Text.isDecimal c = true) ↔
      ∀ c ∈ digits, ∃ d, Text.digitValue? c = some d ∧ d < 10 := by
    simp only [Text.isDecimal_iff, and_comm]
  rw [decimals, ← and_assoc, ← Text.readDigits_eq_some_iff, ofDecimal?]
  cases Text.readDigits 10 0 digits with
  | none => simp
  | some m =>
      simp only [Option.some.injEq]
      split
      · next small =>
        constructor
        · rintro ⟨⟩
          exact ⟨rfl, small⟩
        · rintro ⟨rfl, -⟩
          rfl
      · next large =>
        constructor
        · intro read
          contradiction
        · rintro ⟨rfl, small⟩
          contradiction

theorem readDigits_hexadecimal_eq_some_iff : Text.readDigits 16 0 digits = some n ↔
    (∀ c ∈ digits, Text.isHexadecimal c = true) ∧ Text.numeral 16 digits = n := by
  simp only [Text.readDigits_eq_some_iff, Text.isHexadecimal_iff]

theorem ofHex?_eq_some_iff : ofHex? digits = some n ↔
    ∃ kept, (digits = kept ∨ digits = '0' :: 'x' :: kept) ∧
      (∀ c ∈ kept, Text.isHexadecimal c = true) ∧ kept.length ≤ 64 ∧ Text.numeral 16 kept = n := by
  rw [ofHex?]
  cases second : Text.dropPrefix? ['0', 'x'] digits with
  | some rest =>
      obtain rfl := Text.dropPrefix?_eq_some_iff.mp second
      simp only [Option.getD_some, Option.ite_none_right_eq_some, readDigits_hexadecimal_eq_some_iff]
      constructor
      · rintro ⟨short, hex, sum⟩
        exact ⟨rest, .inr rfl, hex, short, sum⟩
      · rintro ⟨kept, rfl | same, hex, short, sum⟩
        · exact absurd hex Text.not_hexadecimal_of_mark
        · cases same
          exact ⟨short, hex, sum⟩
  | none =>
      simp only [Option.getD_none, Option.ite_none_right_eq_some, readDigits_hexadecimal_eq_some_iff]
      constructor
      · rintro ⟨short, hex, sum⟩
        exact ⟨digits, .inl rfl, hex, short, sum⟩
      · rintro ⟨kept, rfl | rfl, hex, short, sum⟩
        · exact ⟨short, hex, sum⟩
        · cases second

theorem numeral_lt_limit (hex : ∀ c ∈ digits, Text.isHexadecimal c = true)
    (short : digits.length ≤ 64) : Text.numeral 16 digits < limit := by
  have small : ∀ c ∈ digits, Text.digitValue c < 16 := by
    intro c member
    obtain ⟨d, digit, bound⟩ := Text.exists_digitValue? (hex c member)
    rw [Text.digitValue, digit]
    exact bound
  exact Nat.lt_of_lt_of_le (Text.numeral_lt (by decide) small)
    (Nat.pow_le_pow_right (by decide) short)

theorem ofHex?_eq_some (read : ofHex? digits = some n) :
    n = Text.numeral 16 digits ∧ n < limit := by
  obtain ⟨kept, rfl | rfl, hex, short, rfl⟩ := ofHex?_eq_some_iff.mp read
  · exact ⟨rfl, numeral_lt_limit hex short⟩
  · refine ⟨?_, numeral_lt_limit hex short⟩
    rw [Text.numeral_cons_zero rfl, Text.numeral_cons_zero rfl]

end Word

namespace Abi

theorem unsignedOfText_eq_ok_iff {s : List Char} {n : Nat} :
    unsignedOfText s = .ok n ↔ Word.ofDigits? (Text.trim s) = some n := by
  rw [unsignedOfText]
  cases Word.ofDigits? (Text.trim s) with
  | none => simp
  | some m => simp

theorem unsignedOfText_eq_ok {s : List Char} {n : Nat} (read : unsignedOfText s = .ok n) :
    n = magnitude s ∧ n < Word.limit := by
  rw [unsignedOfText_eq_ok_iff] at read
  unfold Word.ofDigits? at read
  split at read
  · next rest marked =>
    simp only [magnitude, marked]
    exact Word.ofHex?_eq_some read
  · next rest marked =>
    simp only [magnitude, marked]
    exact Word.ofHex?_eq_some read
  · next notLower notUpper =>
    obtain ⟨-, sum, small⟩ := Word.ofDecimal?_eq_some_iff.mp read
    simp only [magnitude]
    exact ⟨sum.symm, small⟩

theorem ne_minus_of_unsignedOfText {s rest : List Char} {n : Nat}
    (read : unsignedOfText s = .ok n) : Text.trim s ≠ '-' :: rest := by
  intro minus
  simp only [unsignedOfText, minus, Word.ofDigits?] at read
  split at read
  · next value digits =>
    obtain ⟨decimals, -⟩ := Word.ofDecimal?_eq_some_iff.mp digits
    exact absurd (decimals '-' List.mem_cons_self) (by decide)
  · contradiction

theorem magnitude_trim (s : List Char) : magnitude (Text.trim s) = magnitude s := by
  simp only [magnitude, Text.trim_trim]

theorem unsignedOf_eq_ok {value : Json} {n : Nat} (read : unsignedOf value = .ok n) :
    integerOf value = n ∧ n < Word.limit := by
  unfold unsignedOf at read
  split at read
  · next s =>
    obtain ⟨sum, small⟩ := unsignedOfText_eq_ok read
    refine ⟨?_, small⟩
    simp only [integerOf]
    split
    · next minus => exact absurd minus (ne_minus_of_unsignedOfText read)
    · rw [magnitude_trim, sum]
  · next notText =>
    split at read
    · next value found =>
      cases read
      obtain ⟨rfl, small⟩ := Json.nat?_eq_some_iff.mp found
      have below : Json.integerLimit < (Word.limit : Int) := by decide
      exact ⟨rfl, by omega⟩
    · contradiction

theorem emod_limit_of_nonneg {n : Nat} (small : n < Word.limit) :
    ((n : Int) % Word.limit).toNat = n := by
  rw [Int.emod_eq_of_lt (by omega) (by omega), Int.toNat_natCast]

theorem signedWord_true {n : Nat} (small : n < Word.limit) :
    signedWord true n = (-(n : Int) % Word.limit).toNat := by
  rw [signedWord, if_pos rfl, Word.complement]
  have positive : 0 < Word.limit := by decide
  generalize Word.limit = limit at small positive
  cases n with
  | zero => simp
  | succ n =>
      rw [Nat.mod_eq_of_lt (by omega), show -((n + 1 : Nat) : Int) =
        ((limit - (n + 1) : Nat) : Int) + (-1) * limit by omega, Int.add_mul_emod_self_right,
        Int.emod_eq_of_lt (by omega) (by omega), Int.toNat_natCast]

theorem exists_signed_of_signedOf {value : Json} {word : Nat} (read : signedOf value = .ok word) :
    ∃ (negative : Bool) (n : Nat), n < Word.limit ∧ word = signedWord negative n ∧
      integerOf value = if negative then -(n : Int) else n := by
  unfold signedOf at read
  split at read
  · next s =>
    split at read
    · next rest minus =>
      obtain ⟨n, readRest, rfl⟩ := Except.map_eq_ok.mp read
      obtain ⟨sum, small⟩ := unsignedOfText_eq_ok readRest
      refine ⟨true, n, small, rfl, ?_⟩
      simp only [integerOf, minus, if_true, sum]
    · next notMinus =>
      obtain ⟨n, readText, rfl⟩ := Except.map_eq_ok.mp read
      obtain ⟨sum, small⟩ := unsignedOfText_eq_ok readText
      refine ⟨false, n, small, rfl, ?_⟩
      simp only [integerOf, Bool.false_eq_true, if_false, sum]
  · next notText =>
    split at read
    · next n found =>
      cases read
      obtain ⟨rfl, low, high⟩ := Json.int?_eq_some_iff.mp found
      have room : -Json.leastInteger < (Word.limit : Int) := by decide
      refine ⟨n < 0, n.natAbs, by omega, rfl, ?_⟩
      simp only [integerOf, decide_eq_true_eq]
      split
      · omega
      · omega
    · contradiction

theorem signedOf_eq_ok {value : Json} {word : Nat} (read : signedOf value = .ok word) :
    word = (integerOf value % Word.limit).toNat := by
  obtain ⟨negative, n, small, rfl, denoted⟩ := exists_signed_of_signedOf read
  rw [denoted]
  cases negative with
  | true => exact signedWord_true small
  | false => exact (emod_limit_of_nonneg small).symm

theorem ofBigEndian_bytes {n : Nat} (small : n < Word.limit) :
    Word.ofBigEndian (Word.bytes n) = n := by
  rw [Word.bytes, Word.ofBigEndian_bigEndian]
  exact Nat.mod_eq_of_lt small

@[simp] theorem length_bytes (n : Nat) : (Word.bytes n).length = 32 :=
  Word.length_bigEndian 32 n

theorem natJson_eq_integerJson (n : Nat) : natJson n = integerJson n := by
  have notNegative : ¬ (n : Int) < 0 := by omega
  rw [natJson, integerJson, Json.Number.text, if_neg notNegative, Int.natAbs_natCast]

theorem signedJson_emod {n : Int} (low : -2 ^ 255 ≤ n) (high : n < 2 ^ 255) :
    signedJson (n % Word.limit).toNat = integerJson n := by
  have limit : (Word.limit : Int) = 2 * 2 ^ 255 := by decide
  have half : Word.limit / 2 = 2 ^ 255 := by decide
  by_cases negative : n < 0
  · have word : (n % Word.limit).toNat = Word.limit - n.natAbs := by
      rw [← Int.add_mul_emod_self_right n 1, Int.emod_eq_of_lt (by omega) (by omega)]
      omega
    rw [signedJson, word, if_pos (by omega), integerJson, Json.Number.text, if_pos negative,
      show Word.limit - (Word.limit - n.natAbs) = n.natAbs by omega]
  · have word : (n % Word.limit).toNat = n.natAbs := by
      rw [Int.emod_eq_of_lt (by omega) (by omega)]
      omega
    rw [signedJson, word, if_neg (by omega), natJson_eq_integerJson]
    congr 1
    omega

end Abi

end Rehearsal
