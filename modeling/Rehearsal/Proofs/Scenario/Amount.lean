import Mathlib.Data.List.TakeWhile
import Rehearsal.Proofs.Abi.Spelling
import Rehearsal.Proofs.Abi.Unsigned
import Rehearsal.Proofs.Text.Search
import Rehearsal.Scenario.Amount

namespace Rehearsal

/-! Amounts of native currency. With a unit, an amount is a decimal fraction that has to be a whole
number of the smallest unit: digits are moved and never dropped. Without one it is read like any
other unsigned integer. -/

namespace Text

variable {text front back : List Char} {mark : Char}

/-- A text up to its first blank, and what follows that blank. -/
def SplitsAtBlank (text front back : List Char) : Prop :=
  ∃ blank, text = front ++ blank :: back ∧ isBlank blank = true ∧ ∀ c ∈ front, isBlank c = false

theorem splitAtBlank_of_ink (ink : ∀ c ∈ text, isBlank c = false) : splitAtBlank text = none := by
  have none : text.dropWhile (fun c => !isBlank c) = [] :=
    List.dropWhile_eq_nil_iff.mpr fun c member => by rw [ink c member]; rfl
  rw [splitAtBlank, none]

theorem splitAtBlank_eq_some_iff :
    splitAtBlank text = some (front, back) ↔ SplitsAtBlank text front back := by
  constructor
  · intro split
    cases left : text.dropWhile (fun c => !isBlank c) with
    | nil =>
        rw [splitAtBlank, left] at split
        contradiction
    | cons blank rest =>
        have whole := List.takeWhile_append_dropWhile (p := fun c => !isBlank c) (l := text)
        have stops := List.head?_dropWhile_not (fun c => !isBlank c) text
        rw [left] at whole stops
        rw [splitAtBlank, left] at split
        cases split
        refine ⟨blank, whole.symm, by simpa using stops, fun c member => ?_⟩
        simpa using List.mem_takeWhile_imp member
  · rintro ⟨blank, rfl, isBlank, ink⟩
    have each : ∀ c ∈ front, (!Text.isBlank c) = true := fun c member => by rw [ink c member]; rfl
    have dropped : (blank :: back).dropWhile (fun c => !Text.isBlank c) = blank :: back :=
      List.dropWhile_cons_of_neg (by simp [isBlank])
    have taken : (blank :: back).takeWhile (fun c => !Text.isBlank c) = [] :=
      List.takeWhile_cons_of_neg (by simp [isBlank])
    rw [splitAtBlank, List.dropWhile_append_of_pos each, dropped,
      List.takeWhile_append_of_pos each, taken, List.append_nil]

theorem exists_splitsAtBlank (blank : ∃ c ∈ text, isBlank c = true) :
    ∃ front back, SplitsAtBlank text front back := by
  cases split : splitAtBlank text with
  | some both => exact ⟨_, _, splitAtBlank_eq_some_iff.mp split⟩
  | none =>
      obtain ⟨c, member, isBlank⟩ := blank
      rw [splitAtBlank] at split
      split at split
      · next left =>
        have ink := List.dropWhile_eq_nil_iff.mp left c member
        rw [isBlank] at ink
        contradiction
      · contradiction

theorem numeral_padded (digits : List Char) (count : Nat) :
    numeral 10 (digits ++ List.replicate count '0') = numeral 10 digits * 10 ^ count := by
  have zeros : numeral 10 (List.replicate count '0') = 0 := by
    induction count with
    | zero => rfl
    | succ count ih => rw [List.replicate_succ, numeral_cons_zero rfl, ih]
  rw [numeral_append, zeros, Nat.add_zero, List.length_replicate]

theorem toUpper_toLower {c : Char} (capital : 'A' ≤ c ∧ c ≤ 'Z') : c.toLower.toUpper = c :=
  forall_ascii (p := fun c => 'A' ≤ c ∧ c ≤ 'Z' → c.toLower.toUpper = c) (by decide)
    (Nat.lt_of_le_of_lt capital.2 (by decide)) capital

theorem toLower_toUpper {c : Char} (small : 'a' ≤ c ∧ c ≤ 'z') : c.toUpper.toLower = c :=
  forall_ascii (p := fun c => 'a' ≤ c ∧ c ≤ 'z' → c.toUpper.toLower = c) (by decide)
    (Nat.lt_of_le_of_lt small.2 (by decide)) small

theorem toLower_eq_iff {letter c : Char} (small : 'a' ≤ letter ∧ letter ≤ 'z') :
    c.toLower = letter ↔ c = letter ∨ c = letter.toUpper := by
  constructor
  · rintro rfl
    by_cases capital : 'A' ≤ c ∧ c ≤ 'Z'
    · exact .inr (toUpper_toLower capital).symm
    · have kept : c.toLower = c := dif_neg capital
      exact .inl kept.symm
  · rintro (rfl | rfl)
    · have noCapital : ¬('A' ≤ c ∧ c ≤ 'Z') := by
        intro capital
        exact absurd (Nat.le_trans small.1 capital.2) (by decide)
      exact dif_neg noCapital
    · exact toLower_toUpper small

def InAnyCase (name text : List Char) : Prop :=
  List.Forall₂ (fun letter c => c = letter ∨ c = letter.toUpper) name text

theorem lower_eq_iff {name : List Char} (small : ∀ letter ∈ name, 'a' ≤ letter ∧ letter ≤ 'z') :
    lower text = name ↔ InAnyCase name text := by
  induction name generalizing text with
  | nil => simp [lower, InAnyCase]
  | cons letter name ih =>
      obtain ⟨first, others⟩ := List.forall_mem_cons.mp small
      cases text with
      | nil => simp [lower, InAnyCase]
      | cons c text =>
          rw [InAnyCase, List.forall₂_cons, ← toLower_eq_iff first, ← InAnyCase, ← ih others]
          exact List.cons_eq_cons

end Text

namespace Amount

def units : List (String × Nat) :=
  [("wei", 0), ("gwei", 9), ("ether", 18), ("eth", 18)]

def IsUnit (text : List Char) (decimals : Nat) : Prop :=
  ∃ name, (name, decimals) ∈ units ∧ Text.InAnyCase name.toList text

/-- An amount is written with what stands before a point and behind it, or without a point. -/
inductive Written (whole : List Char) : (fraction amount : List Char) → Prop where
  | plain : Written whole [] whole
  | pointed (fraction : List Char) : Written whole fraction (whole ++ '.' :: fraction)

/-- An amount of a unit is a whole number of the smallest unit, which a word has room for. -/
inductive Denotes (amount unit : List Char) : Nat → Prop where
  | exact {decimals : Nat} {whole fraction : List Char} (isUnit : IsUnit unit decimals)
      (written : Written whole fraction amount)
      (digits : ∀ c ∈ whole ++ fraction, Text.isDecimal c = true) (some : whole ++ fraction ≠ [])
      (fine : fraction.length ≤ decimals)
      (fits : Text.numeral 10 (whole ++ fraction) * 10 ^ (decimals - fraction.length) < Word.limit) :
      Denotes amount unit
        (Text.numeral 10 (whole ++ fraction) * 10 ^ (decimals - fraction.length))

variable {amount unit whole fraction : List Char} {decimals n : Nat}

theorem decimals?_eq_some_iff : decimals? unit = some decimals ↔ IsUnit (Text.trim unit) decimals := by
  have small : ∀ entry ∈ units, ∀ letter ∈ entry.1.toList, 'a' ≤ letter ∧ letter ≤ 'z' := by
    simp [units]
  have named {name : String} {k : Nat} (member : (name, k) ∈ units) :
      Text.lower (Text.trim unit) = name.toList ↔ Text.InAnyCase name.toList (Text.trim unit) :=
    Text.lower_eq_iff (small _ member)
  have spelled : IsUnit (Text.trim unit) decimals ↔
      ∃ name, (name, decimals) ∈ units ∧ Text.lower (Text.trim unit) = name.toList :=
    exists_congr fun name => and_congr_right fun member => (named member).symm
  rw [spelled, decimals?]
  generalize Text.lower (Text.trim unit) = text
  simp only [units, List.mem_cons, Prod.mk.injEq, List.not_mem_nil, or_false]
  constructor
  · intro known
    split at known
    · next same => exact ⟨"wei", by simpa using known.symm, same⟩
    · split at known
      · next same => exact ⟨"gwei", by simpa using known.symm, same⟩
      · split at known
        · next same =>
          rcases same with same | same
          · exact ⟨"ether", by simpa using known.symm, same⟩
          · exact ⟨"eth", by simpa using known.symm, same⟩
        · cases known
  · rintro ⟨name, ⟨rfl, rfl⟩ | ⟨rfl, rfl⟩ | ⟨rfl, rfl⟩ | ⟨rfl, rfl⟩, rfl⟩
    · rfl
    · rfl
    · rfl
    · rfl

theorem written_parts (amount : List Char) : Written (parts amount).1 (parts amount).2 amount := by
  rw [parts]
  cases split : Text.splitAt? '.' amount with
  | none => exact .plain
  | some both =>
      obtain ⟨front, back⟩ := both
      rw [Text.append_of_splitAt? split]
      exact .pointed back

theorem Written.parts_eq (written : Written whole fraction amount)
    (digits : ∀ c ∈ whole, Text.isDecimal c = true) : parts amount = (whole, fraction) := by
  have noPoint : '.' ∉ whole := by
    intro point
    exact absurd (digits '.' point) (by decide)
  cases written with
  | plain => rw [parts, Text.splitAt?_of_notMem noPoint, Option.getD_none]
  | pointed => rw [parts, Text.splitAt?_append noPoint, Option.getD_some]

theorem scale?_eq_some_iff : scale? amount decimals = some n ↔
    ∃ whole fraction, Written whole fraction amount ∧
      (∀ c ∈ whole ++ fraction, Text.isDecimal c = true) ∧ whole ++ fraction ≠ [] ∧
      fraction.length ≤ decimals ∧
      Text.numeral 10 (whole ++ fraction) * 10 ^ (decimals - fraction.length) = n ∧
      n < Word.limit := by
  constructor
  · intro scaled
    have written := written_parts amount
    unfold scale? at scaled
    simp only at scaled
    split at scaled
    · next accepted =>
      obtain ⟨fine, inWhole, inFraction, some⟩ := accepted
      obtain ⟨-, sum, fits⟩ := Word.ofDecimal?_eq_some_iff.mp scaled
      rw [Text.numeral_padded] at sum
      refine ⟨_, _, written, ?_, by simpa using some, fine, sum, fits⟩
      rw [List.forall_mem_append]
      exact ⟨List.all_eq_true.mp inWhole, List.all_eq_true.mp inFraction⟩
    · contradiction
  · rintro ⟨whole, fraction, written, digits, some, fine, sum, fits⟩
    obtain ⟨inWhole, inFraction⟩ := List.forall_mem_append.mp digits
    have accepted : fraction.length ≤ decimals ∧ whole.all Text.isDecimal = true ∧
        fraction.all Text.isDecimal = true ∧ ¬(whole = [] ∧ fraction = []) :=
      ⟨fine, List.all_eq_true.mpr inWhole, List.all_eq_true.mpr inFraction, by simpa using some⟩
    unfold scale?
    simp only [written.parts_eq inWhole, if_pos accepted]
    refine Word.ofDecimal?_eq_some_iff.mpr ⟨?_, by rw [Text.numeral_padded, sum], fits⟩
    rw [List.forall_mem_append]
    refine ⟨digits, fun c member => ?_⟩
    rw [List.eq_of_mem_replicate member]
    rfl

theorem scaled_iff_denotes : (decimals? unit).bind (scale? amount) = some n ↔
    Denotes amount (Text.trim unit) n := by
  rw [Option.bind_eq_some_iff]
  constructor
  · rintro ⟨decimals, isUnit, scaled⟩
    obtain ⟨whole, fraction, written, digits, some, fine, rfl, fits⟩ := scale?_eq_some_iff.mp scaled
    exact .exact (decimals?_eq_some_iff.mp isUnit) written digits some fine fits
  · rintro ⟨isUnit, written, digits, some, fine, fits⟩
    exact ⟨_, decimals?_eq_some_iff.mpr isUnit,
      scale?_eq_some_iff.mpr ⟨_, _, written, digits, some, fine, rfl, fits⟩⟩

variable {s : String}

theorem parse_string_eq_ok_iff : parse (.string s) = .ok n ↔ ofText? s.toList = some n := by
  rw [parse]
  cases ofText? s.toList with
  | none => simp
  | some m => simp

theorem parse_string_of_forall_ne (none : ∀ n, parse (.string s) ≠ .ok n) :
    parse (.string s) = .error (.configuration (.malformedValue (.string s))) := by
  have refused : ofText? s.toList = Option.none := by
    rw [Option.eq_none_iff_forall_ne_some]
    exact fun n found => none n (parse_string_eq_ok_iff.mpr found)
  simp only [parse, refused]

/-- An amount with a unit is the number that it denotes, and where it denotes none it is an error. -/
theorem parse_with_unit (blank : ∃ c ∈ Text.trim s.toList, Text.isBlank c = true) :
    ∃ amount unit, Text.SplitsAtBlank (Text.trim s.toList) amount unit ∧
      (∀ n, parse (.string s) = .ok n ↔ Denotes amount (Text.trim unit) n) ∧
      ((∀ n, ¬Denotes amount (Text.trim unit) n) →
        parse (.string s) = .error (.configuration (.malformedValue (.string s)))) := by
  obtain ⟨amount, unit, splits⟩ := Text.exists_splitsAtBlank blank
  have denoted (n : Nat) : parse (.string s) = .ok n ↔ Denotes amount (Text.trim unit) n := by
    rw [parse_string_eq_ok_iff, ofText?, ← scaled_iff_denotes]
    simp only [Text.splitAtBlank_eq_some_iff.mpr splits]
  refine ⟨amount, unit, splits, denoted, fun none => ?_⟩
  exact parse_string_of_forall_ne fun n found => none n ((denoted n).mp found)

theorem parse_with_unit_of_fraction :
    parse (.string " 1.50\tEther ") = .ok 1500000000000000000 ∧
      parse (.string "1 parsec") = .error (.configuration (.malformedValue (.string "1 parsec"))) := by
  constructor
  · obtain ⟨amount, unit, splits, denoted, -⟩ := parse_with_unit (s := " 1.50\tEther ")
      ⟨'\t', by decide, rfl⟩
    cases Text.splitAtBlank_eq_some_iff.mpr splits
    have ether : IsUnit "Ether".toList 18 := ⟨"ether", by decide, by simp [Text.InAnyCase]⟩
    have written : Written ['1'] ['5', '0'] ['1', '.', '5', '0'] := .pointed ['5', '0']
    exact (denoted _).mpr
      (.exact ether written (List.all_eq_true.mp rfl) (by decide) (by decide) (by decide))
  · obtain ⟨amount, unit, splits, -, refused⟩ := parse_with_unit (s := "1 parsec")
      ⟨' ', by decide, rfl⟩
    cases Text.splitAtBlank_eq_some_iff.mpr splits
    refine refused fun n denotes => ?_
    cases denotes with
    | exact isUnit => cases decimals?_eq_some_iff.mpr isUnit

theorem parse_without_unit (ink : ∀ c ∈ Text.trim s.toList, Text.isBlank c = false) :
    parse (.string s) = .ok n ↔ Abi.unsignedOfText s.toList = .ok n := by
  rw [parse_string_eq_ok_iff, ofText?]
  simp only [Text.splitAtBlank_of_ink ink]
  rw [toOption_eq_some, Abi.unsignedOfText_eq_ok_iff, Abi.unsignedOfText_eq_ok_iff, Text.trim_trim]

end Amount

open Abi (unsignedOfText SpellsUnsigned Strays)

/-- A text is read as the unsigned integer that it spells just when it does not stray, and one that
strays is read otherwise. Whatever is read is the same for an amount without a unit and for an
argument. -/
theorem unsigned_by_grammar_iff (s : String) :
    ((∀ n, unsignedOfText s.toList = .ok n ↔ SpellsUnsigned (Text.trim s.toList) n) ↔
      ¬∃ told, Strays (Text.trim s.toList) told) ∧
    (∀ told, Strays (Text.trim s.toList) told → (unsignedOfText s.toList).toOption = told) ∧
    ((∀ c ∈ Text.trim s.toList, Text.isBlank c = false) →
      ∀ n, Amount.parse (.string s) = .ok n ↔ unsignedOfText s.toList = .ok n) ∧
    ∀ bits data, Abi.encode [.uint bits] [.string s] = .ok data ↔
      ∃ n, unsignedOfText s.toList = .ok n ∧ Word.bytes n = data := by
  refine ⟨?_, ?_, fun ink n => Amount.parse_without_unit ink, fun bits data => ?_⟩
  · simp only [Abi.unsignedOfText_eq_ok_iff]
    exact Abi.ofDigits?_spells_iff
  · intro told strays
    rw [Abi.toOption_unsignedOfText, strays.read]
  · rw [Abi.encode_uint, map_eq_ok]
    rfl

theorem unsigned_by_grammar_of_padded :
    Amount.parse (.string " 0X00fF\t") = .ok 255 ∧
      (unsignedOfText "0x0x10".toList).toOption = some 16 := by
  have core : Text.trim " 0X00fF\t".toList = ['0', 'X', '0', '0', 'f', 'F'] := rfl
  obtain ⟨follows, -, amount, -⟩ := unsigned_by_grammar_iff " 0X00fF\t"
  obtain ⟨-, told, -⟩ := unsigned_by_grammar_iff "0x0x10"
  rw [core] at follows amount
  have keeps : ¬∃ told, Strays ['0', 'X', '0', '0', 'f', 'F'] told := by
    rintro ⟨told, strays⟩
    cases strays with
    | long isMark hex long => exact absurd long (by decide)
  have spells : SpellsUnsigned ['0', 'X', '0', '0', 'f', 'F'] 255 :=
    @SpellsUnsigned.hexadecimal 'X' ['0', '0', 'f', 'F'] (.inr rfl) (by decide)
      (List.all_eq_true.mp rfl) (by decide)
  constructor
  · refine (amount ?_ 255).mpr ((follows.mpr keeps 255).mpr spells)
    simp only [List.forall_mem_cons]
    exact ⟨rfl, rfl, rfl, rfl, rfl, rfl, nofun⟩
  · exact told _ (@Strays.repeated 'x' ['1', '0'] (.inl rfl) (List.all_eq_true.mp rfl) (by decide))

theorem not_by_grammar_of_empty :
    ¬∀ (s : String) (n : Nat),
      unsignedOfText s.toList = .ok n ↔ SpellsUnsigned (Text.trim s.toList) n := by
  intro follows
  exact Strays.empty.not_spells ((follows "" 0).mp rfl)

end Rehearsal
