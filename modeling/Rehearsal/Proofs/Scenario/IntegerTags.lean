import Rehearsal.Proofs.Scenario.Meaning
import Rehearsal.Scenario.Matching

namespace Rehearsal

/-! Values that pass for integers. A value passes for a signed integer when it denotes one in decimal,
and for an unsigned one when that integer is not negative. The unsigned check looks at the normal form,
so that it takes quantities in hexadecimal besides, which the signed check does not. -/

namespace Decimal

/-! Texts of binary fractions have a point or an exponent, and no letter but that of the exponent. -/

variable {layout : Layout} {d : Digits}

def IsNumeric (layout : Layout) (c : Char) : Prop :=
  Text.isDecimal c = true ∨ c ∈ ['-', '+', '.', layout.mark]

theorem isNumeric_replicate_zero (count : Nat) :
    ∀ c ∈ List.replicate count '0', IsNumeric layout c := by
  intro c member
  rw [List.eq_of_mem_replicate member]
  exact .inl rfl

theorem isNumeric_positional (decimals : ∀ c ∈ d.digits, IsNumeric layout c) :
    ∀ c ∈ positional d, IsNumeric layout c := by
  have point : IsNumeric layout '.' := .inr (by simp)
  have zero : IsNumeric layout '0' := .inl rfl
  rw [positional]
  split
  · exact List.forall_mem_cons.mpr ⟨zero, List.forall_mem_cons.mpr ⟨point,
      List.forall_mem_append.mpr ⟨isNumeric_replicate_zero _, decimals⟩⟩⟩
  · split
    · simp only [List.forall_mem_append, List.forall_mem_cons]
      exact ⟨⟨decimals, isNumeric_replicate_zero _⟩, point, zero, List.forall_mem_nil _⟩
    · simp only [List.forall_mem_append, List.forall_mem_cons]
      exact ⟨fun c digit => decimals c (List.mem_of_mem_take digit), point,
        fun c digit => decimals c (List.mem_of_mem_drop digit)⟩

theorem isNumeric_exponential (decimals : ∀ c ∈ d.digits, IsNumeric layout c) :
    ∀ c ∈ exponential layout d, IsNumeric layout c := by
  simp only [exponential, List.forall_mem_append]
  refine ⟨⟨⟨⟨fun c digit => decimals c (List.mem_of_mem_take digit), ?_⟩, ?_⟩, ?_⟩,
    fun c digit => .inl (Text.isDecimal_of_mem_decimal digit)⟩
  · split
    · exact List.forall_mem_nil _
    · next rest _ =>
      refine List.forall_mem_cons.mpr ⟨.inr (by simp), fun c digit => ?_⟩
      exact decimals c (List.mem_of_mem_drop digit)
  · simp [IsNumeric]
  · split
    · simp [IsNumeric]
    · split <;> simp [IsNumeric]

theorem isNumeric_write (layout : Layout) (x : Binary64) :
    ∀ c ∈ write layout x, IsNumeric layout c := by
  have decimals : ∀ c ∈ (shortest x).digits, IsNumeric layout c := by
    intro c member
    simp only [shortest, List.mem_reverse] at member
    have kept := List.mem_reverse.mp (List.dropWhile_subset _ member)
    exact .inl (Text.isDecimal_of_mem_decimal kept)
  have sign : ∀ c ∈ (if x.negative then ['-'] else []), IsNumeric layout c := by
    split <;> simp [IsNumeric]
  rw [write]
  split
  · refine List.forall_mem_append.mpr ⟨sign, ?_⟩
    simp [IsNumeric, Text.isDecimal]
  · refine List.forall_mem_append.mpr ⟨sign, ?_⟩
    split
    · exact isNumeric_positional decimals
    · exact isNumeric_exponential decimals

theorem point_mem_positional (d : Digits) : '.' ∈ positional d := by
  rw [positional]
  split
  · simp
  · split <;> simp

theorem mark_mem_exponential (layout : Layout) (d : Digits) :
    layout.mark ∈ exponential layout d := by
  simp [exponential]

theorem fractional_write (layout : Layout) (x : Binary64) :
    '.' ∈ write layout x ∨ layout.mark ∈ write layout x := by
  rw [write]
  split
  · exact .inl (List.mem_append_right _ (by simp))
  · refine Or.imp (List.mem_append_right _) (List.mem_append_right _) ?_
    split
    · exact .inl (point_mem_positional _)
    · exact .inr (mark_mem_exponential layout _)

end Decimal

namespace Normal

/-- The integer that a text denotes in decimal, with a sign or none. -/
inductive SpellsDecimal : List Char → Int → Prop where
  | digits (sign : Sign) {digits : List Char} (some : digits ≠ [])
      (decimals : ∀ c ∈ digits, Text.isDecimal c = true) :
      SpellsDecimal (sign.text ++ digits) (sign.apply (Text.numeral 10 digits))

/-- The integer that a value denotes in decimal: itself, or that of its text without the blanks
around it. -/
inductive DenotesInteger : Json → Int → Prop where
  | number (n : Int) : DenotesInteger (.number (.integer n)) n
  | text {s : String} {n : Int} (spells : SpellsDecimal (Text.trim s.toList) n) :
      DenotesInteger (.string s) n

/-- Hexadecimal digits behind a mark that are compared as a number: up to sixty-four, but not the
forty of an address. -/
def SpellsQuantity (value : Json) : Prop :=
  ∃ s digits, value = .string s ∧ Marked digits s ∧ digits ≠ [] ∧ digits.length ≤ 64 ∧
    digits.length ≠ 40

variable {text kept : List Char} {value : Json} {n : Int}

theorem decimal?_of_spellsDecimal (spells : SpellsDecimal text n) :
    decimal? text = some (Json.Number.integer n).text := by
  cases spells with
  | digits sign some decimals => exact decimal?_signed sign some decimals

theorem exists_spellsDecimal (read : decimal? text = some kept) : ∃ n, SpellsDecimal text n := by
  -- Behind whichever sign, there are digits, since nothing is read of a text without them.
  have digits (sign : Sign) (rest : List Char) (whole : text = sign.text ++ rest)
      (taken : rest ≠ [] ∧ rest.all Text.isDecimal = true) : ∃ n, SpellsDecimal text n := by
    subst whole
    exact ⟨_, .digits sign taken.1 (List.all_eq_true.mp taken.2)⟩
  unfold decimal? at read
  split at read
  next negative rest split =>
  have taken : rest ≠ [] ∧ rest.all Text.isDecimal = true := by
    by_contra none
    rw [if_neg none] at read
    contradiction
  split at split
  · cases split
    exact digits .minus _ rfl taken
  · cases split
    exact digits .plus _ rfl taken
  · cases split
    exact digits .none _ rfl taken

theorem decimal?_eq_none_of_mem {c : Char} (member : c ∈ text) (noDigit : Text.isDecimal c = false)
    (noSign : c ≠ '-' ∧ c ≠ '+') : decimal? text = none := by
  rw [Option.eq_none_iff_forall_ne_some]
  intro kept read
  obtain ⟨n, spells⟩ := exists_spellsDecimal read
  cases spells with
  | digits sign some decimals =>
      rcases List.mem_append.mp member with inSign | digit
      · cases sign <;> simp_all [Sign.text]
      · rw [decimals c digit] at noDigit
        contradiction

/-! What is read of a normal form. -/

theorem isUnsigned_eq_false (noInteger : decimal? text = none) : isUnsigned text = false := by
  rw [isUnsigned, noInteger]
  rfl

theorem isUnsigned_text_integer (n : Int) :
    isUnsigned (Json.Number.integer n).text = true ↔ 0 ≤ n := by
  obtain ⟨sign, m, spelled, value⟩ := exists_sign n
  have read := decimal?_signed sign (Text.decimal_ne_nil m)
    fun c member => Text.isDecimal_of_mem_decimal member
  rw [isUnsigned, spelled, read, Option.isSome_some, Bool.true_and, ← spelled]
  by_cases negative : n < 0
  · rw [Json.Number.text_integer_of_negative negative]
    simpa using negative
  · have nonneg := Int.not_lt.mp negative
    refine iff_of_true ?_ nonneg
    rw [Json.Number.text_integer_of_nonneg nonneg, bne_iff_ne, ne_eq, List.head?_eq_some_iff]
    rintro ⟨rest, minus⟩
    exact Abi.decimal_ne_minus _ rest minus

theorem exists_marked_of_isHex (hex : isHex text = true) :
    ∃ mark digits, (mark = 'x' ∨ mark = 'X') ∧ text = '0' :: mark :: digits ∧
      ∀ c ∈ digits, Text.isHexadecimal c = true := by
  unfold isHex at hex
  split at hex
  · exact ⟨'x', _, .inl rfl, rfl, List.all_eq_true.mp hex⟩
  · exact ⟨'X', _, .inr rfl, rfl, List.all_eq_true.mp hex⟩
  · contradiction

theorem spells_of_isUnsigned_ofText {s : String} (unsigned : isUnsigned (ofText s.toList) = true) :
    (∃ n, SpellsDecimal (Text.trim s.toList) n) ∨ SpellsQuantity (.string s) := by
  have padded := Text.padded_trim s
  simp only [ofText] at unsigned
  generalize Text.trim s.toList = text at padded unsigned ⊢
  split at unsigned
  · next read => exact .inl (exists_spellsDecimal read)
  · next noInteger =>
    right
    split at unsigned
    · next address =>
      rw [isAddress, Bool.and_eq_true] at address
      obtain ⟨mark, digits, isMark, rfl, -⟩ := exists_marked_of_isHex address.1
      rw [lower_marked isMark, isUnsigned_eq_false (decimal?_marked (.inl rfl) _)] at unsigned
      contradiction
    · next noAddress =>
      split at unsigned
      · next read =>
        unfold hex? at read
        split at read
        · next taken =>
          obtain ⟨hex, some, most⟩ := taken
          obtain ⟨mark, digits, isMark, rfl, hexadecimal⟩ := exists_marked_of_isHex hex
          rw [isAddress_marked isMark hexadecimal, decide_eq_true_eq] at noAddress
          simp only [List.length_cons] at some most
          refine ⟨s, digits, rfl, ⟨⟨mark, isMark, padded⟩, hexadecimal⟩, ?_, by omega, noAddress⟩
          rintro rfl
          exact some rfl
        · contradiction
      · split at unsigned
        · next truth =>
          rcases truth with same | same
          · rw [same] at unsigned
            contradiction
          · rw [same] at unsigned
            contradiction
        · rw [isUnsigned_eq_false noInteger] at unsigned
          contradiction

theorem not_isUnsigned_float (x : Binary64) :
    isUnsigned (chars (.number (.float x))) = false := by
  have numeric := Decimal.isNumeric_write Json.layout x
  have fractional := Decimal.fractional_write Json.layout x
  have ink : ∀ c ∈ Decimal.write Json.layout x, Text.isBlank c = false := by
    have signs : (['-', '+', '.', Json.layout.mark].all fun c => !Text.isBlank c) = true := rfl
    intro c member
    rcases numeric c member with decimal | sign
    · exact Text.isBlank_of_isDecimal decimal
    · simpa using List.all_eq_true.mp signs c sign
  have trimmed : Text.trim (String.ofList (Decimal.write Json.layout x)).toList =
      Decimal.write Json.layout x := by
    rw [String.toList_ofList, Text.trim_of_ink ink]
  rw [Bool.eq_false_iff]
  intro unsigned
  rw [chars, Json.Number.text, ← String.toList_ofList (l := Decimal.write Json.layout x)] at unsigned
  rcases spells_of_isUnsigned_ofText unsigned with ⟨n, spells⟩ | ⟨s, digits, same, marked, -⟩
  · rw [trimmed] at spells
    have read := decimal?_of_spellsDecimal spells
    rcases fractional with point | mark
    · rw [decimal?_eq_none_of_mem point rfl (by decide)] at read
      contradiction
    · rw [decimal?_eq_none_of_mem mark rfl (by decide)] at read
      contradiction
  · cases same
    obtain ⟨⟨mark, isMark, padded⟩, hexadecimal⟩ := marked
    rw [padded.trim_eq (ink_marked isMark hexadecimal)] at trimmed
    have inText : mark ∈ Decimal.write Json.layout x := by
      rw [← trimmed]
      simp
    rcases isMark with rfl | rfl
    · exact absurd (numeric _ inText) (by simp [Decimal.IsNumeric, Json.layout, Text.isDecimal])
    · exact absurd (numeric _ inText) (by simp [Decimal.IsNumeric, Json.layout, Text.isDecimal])

namespace DenotesInteger

theorem spellsInteger (denotes : DenotesInteger value n) : SpellsInteger value n := by
  cases denotes with
  | number n => exact .number n
  | @text s _ spells =>
      have padded := Text.padded_trim s
      generalize Text.trim s.toList = text at padded spells
      cases spells with
      | digits sign some decimals => exact .decimal sign padded some decimals

theorem chars_eq (denotes : DenotesInteger value n) : chars value = (Json.Number.integer n).text :=
  chars_of_spellsInteger denotes.spellsInteger

theorem unique {m : Int} (denotes : DenotesInteger value m) (other : DenotesInteger value n) :
    m = n :=
  text_integer_injective (denotes.chars_eq.symm.trans other.chars_eq)

theorem admits_uint_iff (denotes : DenotesInteger value n) :
    ReturnType.uint.admits value = true ↔ 0 ≤ n := by
  rw [ReturnType.admits, denotes.chars_eq, Bool.or_eq_true, isUnsigned_text_integer]
  refine or_iff_right_of_imp ?_
  intro fits
  obtain ⟨m, found⟩ := Option.isSome_iff_exists.mp fits
  obtain ⟨rfl, -⟩ := Json.nat?_eq_some_iff.mp found
  rw [denotes.unique (.number m)]
  exact Int.natCast_nonneg m

end DenotesInteger

theorem admits_int_iff : ReturnType.int.admits value = true ↔ ∃ n, DenotesInteger value n := by
  constructor
  · intro admitted
    cases value with
    | number number =>
        cases number with
        | integer n => exact ⟨n, .number n⟩
        | float x => contradiction
    | string s =>
        obtain ⟨kept, read⟩ := Option.isSome_iff_exists.mp admitted
        obtain ⟨n, spells⟩ := exists_spellsDecimal read
        exact ⟨n, .text spells⟩
    | null | bool _ | array _ | object _ => contradiction
  · rintro ⟨n, denotes⟩
    cases denotes with
    | number n => rfl
    | text spells => rw [ReturnType.admits, decimal?_of_spellsDecimal spells, Option.isSome_some]

theorem not_isUnsigned_of_bracket {c : Char} (bracket : c = '[' ∨ c = '\x7b') (rest : List Char) :
    isUnsigned (c :: rest) = false := by
  apply isUnsigned_eq_false
  rcases bracket with rfl | rfl
  · exact decimal?_eq_none_of_mem List.mem_cons_self rfl (by decide)
  · exact decimal?_eq_none_of_mem List.mem_cons_self rfl (by decide)

theorem denotes_or_spells_of_admits_uint (admitted : ReturnType.uint.admits value = true) :
    (∃ n, DenotesInteger value n) ∨ SpellsQuantity value := by
  rw [ReturnType.admits, Bool.or_eq_true] at admitted
  rcases admitted with fits | unsigned
  · obtain ⟨n, found⟩ := Option.isSome_iff_exists.mp fits
    obtain ⟨rfl, -⟩ := Json.nat?_eq_some_iff.mp found
    exact .inl ⟨n, .number n⟩
  · cases value with
    | null => contradiction
    | bool b => cases b <;> contradiction
    | number number =>
        cases number with
        | integer n => exact .inl ⟨n, .number n⟩
        | float x =>
            rw [not_isUnsigned_float] at unsigned
            contradiction
    | string s => exact (spells_of_isUnsigned_ofText unsigned).imp_left fun ⟨n, spells⟩ => ⟨n, .text spells⟩
    | array items =>
        rw [chars, not_isUnsigned_of_bracket (.inl rfl)] at unsigned
        contradiction
    | object fields =>
        rw [chars, Json.compactChars, not_isUnsigned_of_bracket (.inr rfl)] at unsigned
        contradiction

namespace SpellsQuantity

theorem admits_uint (spells : SpellsQuantity value) : ReturnType.uint.admits value = true := by
  obtain ⟨s, digits, rfl, marked, some, most, noAddress⟩ := spells
  have denoted := chars_of_spellsInteger (.hexadecimal marked some most noAddress)
  rw [ReturnType.admits, denoted, Bool.or_eq_true, isUnsigned_text_integer]
  exact .inr (Int.natCast_nonneg _)

theorem not_denotesInteger (spells : SpellsQuantity value) : ¬DenotesInteger value n := by
  obtain ⟨s, digits, rfl, ⟨⟨mark, isMark, padded⟩, hexadecimal⟩, -⟩ := spells
  rintro (_ | spelled)
  have read := decimal?_of_spellsDecimal spelled
  rw [padded.trim_eq (ink_marked isMark hexadecimal), decimal?_marked isMark] at read
  contradiction

end SpellsQuantity

end Normal

open Rehearsal.Normal

/-- A value passes for a signed integer just when it denotes an integer in decimal, and only one. It
passes for an unsigned one when that integer is not negative, and when it is a quantity in hexadecimal.
Of the values that pass for unsigned integers, the latter are just those that do not for signed ones. -/
theorem integer_tags_iff (value : Json) :
    (ReturnType.int.admits value = true ↔ ∃! n, DenotesInteger value n) ∧
    (ReturnType.uint.admits value = true ↔
      (∃ n, DenotesInteger value n ∧ 0 ≤ n) ∨ SpellsQuantity value) ∧
    (ReturnType.uint.admits value = true ∧ ReturnType.int.admits value = false ↔
      SpellsQuantity value) := by
  refine ⟨?_, ⟨?_, ?_⟩, ⟨?_, ?_⟩⟩
  · rw [admits_int_iff]
    constructor
    · rintro ⟨n, denotes⟩
      exact ⟨n, denotes, fun m other => other.unique denotes⟩
    · exact ExistsUnique.exists
  · intro admitted
    refine (denotes_or_spells_of_admits_uint admitted).imp_left ?_
    rintro ⟨n, denotes⟩
    exact ⟨n, denotes, denotes.admits_uint_iff.mp admitted⟩
  · rintro (⟨n, denotes, nonneg⟩ | spells)
    · exact denotes.admits_uint_iff.mpr nonneg
    · exact spells.admits_uint
  · rintro ⟨admitted, noInteger⟩
    refine (denotes_or_spells_of_admits_uint admitted).resolve_left ?_
    rw [← admits_int_iff, noInteger]
    exact Bool.false_ne_true
  · intro spells
    refine ⟨spells.admits_uint, ?_⟩
    rw [Bool.eq_false_iff, ne_eq, admits_int_iff]
    rintro ⟨n, denotes⟩
    exact spells.not_denotesInteger denotes

theorem uint_without_int :
    ¬∀ value : Json, ReturnType.uint.admits value = true → ReturnType.int.admits value = true := by
  intro each
  have passes : ReturnType.uint.admits (.string "0x64") = true := rfl
  have fails : ReturnType.int.admits (.string "0x64") = false := rfl
  rw [each _ passes] at fails
  contradiction

end Rehearsal
