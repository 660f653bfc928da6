import Rehearsal.Proofs.Abi.Integer

namespace Rehearsal

/-! Texts of unsigned integers. Their grammar asks for digits, in decimal or behind a mark in
hexadecimal, of a number that a word has room for. The reader goes by it except in four kinds of
texts: it takes digits that are missing for zero, passes over a second mark, and counts hexadecimal
digits rather than looking at what they denote. -/

namespace Abi

/-- A text without blanks spells an unsigned integer. -/
inductive SpellsUnsigned : List Char → Nat → Prop where
  | decimal {digits : List Char} (some : digits ≠ [])
      (decimals : ∀ c ∈ digits, Text.isDecimal c = true)
      (fits : Text.numeral 10 digits < Word.limit) :
      SpellsUnsigned digits (Text.numeral 10 digits)
  | hexadecimal {mark : Char} {digits : List Char} (isMark : mark = 'x' ∨ mark = 'X')
      (some : digits ≠ []) (hex : ∀ c ∈ digits, Text.isHexadecimal c = true)
      (fits : Text.numeral 16 digits < Word.limit) :
      SpellsUnsigned ('0' :: mark :: digits) (Text.numeral 16 digits)

/-- A text is not read by the grammar, but as another number or, though the grammar has it, not at
all. -/
inductive Strays : List Char → Option Nat → Prop where
  | empty : Strays [] (some 0)
  | bare {mark : Char} (isMark : mark = 'x' ∨ mark = 'X') : Strays ['0', mark] (some 0)
  | repeated {mark : Char} {digits : List Char} (isMark : mark = 'x' ∨ mark = 'X')
      (hex : ∀ c ∈ digits, Text.isHexadecimal c = true) (short : digits.length ≤ 64) :
      Strays ('0' :: mark :: '0' :: 'x' :: digits) (some (Text.numeral 16 digits))
  | long {mark : Char} {digits : List Char} (isMark : mark = 'x' ∨ mark = 'X')
      (hex : ∀ c ∈ digits, Text.isHexadecimal c = true) (long : 64 < digits.length)
      (fits : Text.numeral 16 digits < Word.limit) :
      Strays ('0' :: mark :: digits) none

variable {text digits : List Char} {mark : Char} {n : Nat}

theorem ofDigits?_of_mark (isMark : mark = 'x' ∨ mark = 'X') :
    Word.ofDigits? ('0' :: mark :: digits) = Word.ofHex? digits := by
  rcases isMark with rfl | rfl
  · rfl
  · rfl

theorem ofDigits?_of_decimals (decimals : ∀ c ∈ digits, Text.isDecimal c = true) :
    Word.ofDigits? digits = Word.ofDecimal? digits := by
  unfold Word.ofDigits?
  split
  · next rest => exact absurd (decimals 'x' (by simp)) (by decide)
  · next rest => exact absurd (decimals 'X' (by simp)) (by decide)
  · rfl

theorem not_decimals_of_mark (isMark : mark = 'x' ∨ mark = 'X') :
    ¬∀ c ∈ '0' :: mark :: digits, Text.isDecimal c = true := by
  intro decimals
  have digit := decimals mark (by simp)
  rcases isMark with rfl | rfl
  · contradiction
  · contradiction

/-! What is read of texts that stray, and of those that do not. -/

theorem Strays.read {told : Option Nat} (strays : Strays text told) :
    Word.ofDigits? text = told := by
  cases strays with
  | empty => rfl
  | bare isMark =>
      rw [ofDigits?_of_mark isMark]
      rfl
  | repeated isMark hex short =>
      rw [ofDigits?_of_mark isMark, Word.ofHex?_eq_some_iff]
      exact ⟨_, .inr rfl, hex, short, rfl⟩
  | long isMark hex long fits =>
      rw [ofDigits?_of_mark isMark, Option.eq_none_iff_forall_ne_some]
      intro n read
      obtain ⟨kept, rfl | rfl, -, short, -⟩ := Word.ofHex?_eq_some_iff.mp read
      · omega
      · exact Text.not_hexadecimal_of_mark hex

theorem Strays.not_spells {m : Nat} (strays : Strays text (some m)) : ¬SpellsUnsigned text n := by
  intro spells
  cases strays with
  | empty =>
      cases spells with
      | decimal some => exact some rfl
  | bare isMark =>
      cases spells with
      | decimal some decimals => exact not_decimals_of_mark isMark decimals
      | hexadecimal other some => exact some rfl
  | repeated isMark hex short =>
      cases spells with
      | decimal some decimals => exact not_decimals_of_mark isMark decimals
      | hexadecimal other some hex => exact Text.not_hexadecimal_of_mark hex

theorem Strays.exists_spells (strays : Strays text none) : ∃ n, SpellsUnsigned text n := by
  cases strays with
  | long isMark hex long fits =>
      refine ⟨_, .hexadecimal isMark ?_ hex fits⟩
      rintro rfl
      exact Nat.not_lt_zero 64 long

theorem SpellsUnsigned.read_or_strays (spells : SpellsUnsigned text n) :
    Word.ofDigits? text = some n ∨ Strays text none := by
  cases spells with
  | decimal some decimals fits =>
      left
      rw [ofDigits?_of_decimals decimals]
      exact Word.ofDecimal?_eq_some_iff.mpr ⟨decimals, rfl, fits⟩
  | @hexadecimal mark digits isMark some hex fits =>
      by_cases short : digits.length ≤ 64
      · left
        rw [ofDigits?_of_mark isMark]
        exact Word.ofHex?_eq_some_iff.mpr ⟨digits, .inl rfl, hex, short, rfl⟩
      · exact .inr (.long isMark hex (Nat.not_le.mp short) fits)

theorem spells_or_strays_of_ofHex? (isMark : mark = 'x' ∨ mark = 'X')
    (read : Word.ofHex? digits = some n) :
    SpellsUnsigned ('0' :: mark :: digits) n ∨ Strays ('0' :: mark :: digits) (some n) := by
  obtain ⟨kept, rfl | rfl, hex, short, rfl⟩ := Word.ofHex?_eq_some_iff.mp read
  · cases digits with
    | nil => exact .inr (.bare isMark)
    | cons c rest =>
        exact .inl (.hexadecimal isMark (List.cons_ne_nil c rest) hex
          (Word.numeral_lt_limit hex short))
  · exact .inr (.repeated isMark hex short)

theorem spells_or_strays (read : Word.ofDigits? text = some n) :
    SpellsUnsigned text n ∨ Strays text (some n) := by
  unfold Word.ofDigits? at read
  split at read
  · exact spells_or_strays_of_ofHex? (.inl rfl) read
  · exact spells_or_strays_of_ofHex? (.inr rfl) read
  · obtain ⟨decimals, rfl, fits⟩ := Word.ofDecimal?_eq_some_iff.mp read
    cases text with
    | nil => exact .inr .empty
    | cons c rest => exact .inl (.decimal (List.cons_ne_nil c rest) decimals fits)

theorem ofDigits?_spells_iff : (∀ n, Word.ofDigits? text = some n ↔ SpellsUnsigned text n) ↔
    ¬∃ told, Strays text told := by
  constructor
  · rintro follows ⟨told, strays⟩
    have read := strays.read
    cases told with
    | none =>
        obtain ⟨n, spells⟩ := strays.exists_spells
        rw [(follows n).mpr spells] at read
        contradiction
    | some n => exact strays.not_spells ((follows n).mp read)
  · intro kept n
    constructor
    · intro read
      rcases spells_or_strays read with spells | strays
      · exact spells
      · exact absurd ⟨_, strays⟩ kept
    · intro spells
      rcases spells.read_or_strays with read | strays
      · exact read
      · exact absurd ⟨_, strays⟩ kept

theorem toOption_unsignedOfText (s : List Char) :
    (unsignedOfText s).toOption = Word.ofDigits? (Text.trim s) := by
  apply Option.ext
  intro n
  rw [toOption_eq_some, unsignedOfText_eq_ok_iff]

end Abi

end Rehearsal
