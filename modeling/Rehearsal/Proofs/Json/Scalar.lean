import Rehearsal.Json.Parser
import Rehearsal.Json.Printer
import Rehearsal.Proofs.Text.Numeral

namespace Rehearsal

/-! Texts of strings and of whole numbers are read back. A string ends with its own quote; a number
ends with whatever cannot go on with it, so that it matters what stands behind it. -/

namespace Text

theorem isDecimal_iff {c : Char} : isDecimal c = true ↔ ∃ d, d < 10 ∧ digitValue? c = some d := by
  constructor
  · intro decimal
    have range : '0' ≤ c ∧ c ≤ '9' := by simpa [isDecimal] using decimal
    refine ⟨c.toNat - '0'.toNat, ?_, if_pos range⟩
    have upper : c.toNat ≤ '9'.toNat := range.2
    have nine : '9'.toNat = '0'.toNat + 9 := rfl
    omega
  · rintro ⟨d, small, digit⟩
    unfold digitValue? at digit
    split at digit
    · next range => simpa [isDecimal] using range
    · split at digit
      · cases digit
        omega
      · split at digit
        · cases digit
          omega
        · cases digit

theorem digitValue?_of_isDecimal {c : Char} (decimal : isDecimal c = true) :
    digitValue? c = some (c.toNat - '0'.toNat) := by
  have range : '0' ≤ c ∧ c ≤ '9' := by simpa [isDecimal] using decimal
  exact if_pos range

theorem isDecimal_of_mem_decimal {n : Nat} {c : Char} (member : c ∈ decimal n) :
    isDecimal c = true := by
  obtain ⟨-, each⟩ := readDigits_eq_some (readDigits_decimal n)
  obtain ⟨some, small⟩ := each c member
  obtain ⟨d, digit⟩ := Option.isSome_iff_exists.mp some
  rw [digitValue, digit] at small
  exact isDecimal_iff.mpr ⟨d, small, digit⟩

theorem decimal_ne_nil (n : Nat) : decimal n ≠ [] := by
  intro none
  have length : 0 < (Nat.toDigits 10 n).length := Nat.length_toDigits_pos
  rw [← decimal, none] at length
  exact Nat.lt_irrefl 0 length

theorem decimal_of_head_zero {n : Nat} {rest : List Char} (head : decimal n = '0' :: rest) :
    rest = [] := by
  induction n using Nat.strong_induction_on generalizing rest with
  | h n ih =>
      by_cases small : n < 10
      · rw [decimal, Nat.toDigits_of_lt_base small] at head
        exact (List.cons.inj head).2.symm
      · have large : 10 ≤ n := Nat.not_lt.mp small
        rw [decimal, Nat.toDigits_of_base_le (by decide) large] at head
        obtain nothing | ⟨front, before, _⟩ := List.append_eq_cons_iff.mp head
        · exact absurd nothing.1 (decimal_ne_nil _)
        · have zero := ih (n / 10) (Nat.div_lt_self (by omega) (by decide)) before
          subst zero
          -- The digits of the quotient would be a single zero.
          have value := readDigits_decimal (n / 10)
          rw [decimal, before] at value
          have quotient : 0 = n / 10 := Option.some.inj value
          omega

end Text

namespace Decimal

theorem positional_ne_nil (d : Digits) : positional d ≠ [] := by
  rw [positional]
  split
  · exact List.cons_ne_nil _ _
  · split
    · simp
    · simp

theorem exponential_ne_nil (layout : Layout) (d : Digits) : exponential layout d ≠ [] := by
  simp [exponential]

theorem write_ne_nil (layout : Layout) (x : Binary64) : write layout x ≠ [] := by
  rw [write]
  split
  · simp
  · apply List.append_ne_nil_of_right_ne_nil
    split
    · exact positional_ne_nil _
    · exact exponential_ne_nil layout _

end Decimal

namespace Json

theorem Number.text_integer_of_negative {n : Int} (negative : n < 0) :
    (Number.integer n).text = '-' :: Text.decimal n.natAbs :=
  if_pos negative

theorem Number.text_integer_of_nonneg {n : Int} (nonneg : 0 ≤ n) :
    (Number.integer n).text = Text.decimal n.natAbs :=
  if_neg (Int.not_lt.mpr nonneg)

theorem Number.text_ne_nil (n : Number) : n.text ≠ [] := by
  cases n with
  | integer n =>
      rw [Number.text]
      split
      · exact List.cons_ne_nil _ _
      · exact Text.decimal_ne_nil _
  | float x => exact Decimal.write_ne_nil layout x

/-- What may stand behind a value that is laid out by lines. -/
inductive Closes : List Char → Prop where
  | nothing : Closes []
  | comma (rest : List Char) : Closes (',' :: rest)
  | line (rest : List Char) : Closes ('\n' :: rest)

namespace Parser

/-! Numbers. -/

theorem foldl_integerDigit {digits : List Char} {acc n : Nat}
    (decimal : ∀ c ∈ digits, Text.isDecimal c = true)
    (read : Text.readDigits 10 acc digits = some n) (fits : n < Text.limit64) :
    digits.foldl Significand.integerDigit ⟨acc, 0, false⟩ = ⟨n, 0, false⟩ := by
  induction digits generalizing acc with
  | nil =>
      cases read
      rfl
  | cons c digits ih =>
      have digit := Text.digitValue?_of_isDecimal (decimal c List.mem_cons_self)
      obtain ⟨d, small, same⟩ := Text.isDecimal_iff.mp (decimal c List.mem_cons_self)
      rw [digit] at same
      cases same
      rw [Text.readDigits, digit] at read
      simp only [if_pos small] at read
      obtain ⟨sum, -⟩ := Text.readDigits_eq_some read
      have positive : 0 < 10 ^ digits.length := Nat.pow_pos (by decide)
      have least : acc * 10 + (c.toNat - '0'.toNat) ≤ n := by
        rw [sum]
        exact Nat.le_trans (Nat.le_mul_of_pos_right _ positive) (Nat.le_add_right _ _)
      have next : Significand.integerDigit ⟨acc, 0, false⟩ c =
          ⟨acc * 10 + (c.toNat - '0'.toNat), 0, false⟩ := by
        have inside : ¬Text.limit64 ≤ acc * 10 + (c.toNat - '0'.toNat) := by omega
        simp only [Significand.integerDigit, Bool.false_eq_true, false_or, if_neg inside]
      rw [List.foldl_cons, next]
      exact ih (fun c member => decimal c (List.mem_cons_of_mem _ member)) read

/-! A number is read alike whatever stands behind it. -/

theorem span_append {rest : List Char} (closes : Closes rest) (t : List Char) :
    (t ++ rest).takeWhile Text.isDecimal = t.takeWhile Text.isDecimal ∧
      (t ++ rest).dropWhile Text.isDecimal = t.dropWhile Text.isDecimal ++ rest := by
  induction t with
  | nil =>
      cases closes with
      | nothing => exact ⟨rfl, rfl⟩
      | comma rest => exact ⟨rfl, rfl⟩
      | line rest => exact ⟨rfl, rfl⟩
  | cons c t ih =>
      obtain ⟨taken, dropped⟩ := ih
      cases decimal : Text.isDecimal c with
      | true => simp [decimal, taken, dropped]
      | false => simp [decimal]

theorem exponent_append {rest : List Char} (closes : Closes rest) (t : List Char) :
    exponent (t ++ rest) = (exponent t).map fun read => (read.1, read.2 ++ rest) := by
  cases t with
  | nil =>
      cases closes with
      | nothing => rfl
      | comma rest => rfl
      | line rest => rfl
  | cons c t =>
      by_cases plus : c = '+'
      · subst plus
        obtain ⟨taken, dropped⟩ := span_append closes t
        simp only [List.cons_append, exponent, taken, dropped]
        cases Text.readNat 10 (t.takeWhile Text.isDecimal) <;> rfl
      · by_cases minus : c = '-'
        · subst minus
          obtain ⟨taken, dropped⟩ := span_append closes t
          simp only [List.cons_append, exponent, taken, dropped]
          cases Text.readNat 10 (t.takeWhile Text.isDecimal) <;> rfl
        · have unsigned : ∀ s, exponent (c :: s) =
              (Text.readNat 10 ((c :: s).takeWhile Text.isDecimal)).map fun n =>
                ((n : Int), (c :: s).dropWhile Text.isDecimal) := by
            intro s
            cases found : Text.readNat 10 ((c :: s).takeWhile Text.isDecimal) with
            | none => simp [exponent, plus, minus, found]
            | some n => simp [exponent, plus, minus, found]
          obtain ⟨taken, dropped⟩ := span_append closes (c :: t)
          rw [List.cons_append] at taken dropped
          rw [List.cons_append, unsigned, unsigned, taken, dropped, Option.map_map]
          rfl

theorem finish_append {rest : List Char} (closes : Closes rest) (negative : Bool)
    (s : Significand) (t : List Char) :
    finish negative s (t ++ rest) =
      (finish negative s t).map fun read => (read.1, read.2 ++ rest) := by
  cases t with
  | nil =>
      cases closes with
      | nothing => cases float negative s 0 <;> simp [finish]
      | comma rest => cases float negative s 0 <;> simp [finish]
      | line rest => cases float negative s 0 <;> simp [finish]
  | cons c t =>
      rw [List.cons_append, finish, finish]
      split
      · rw [exponent_append closes]
        cases exponent t with
        | none => rfl
        | some read => cases float negative s read.1 <;> simp [*]
      · cases float negative s 0 <;> rfl

theorem number_append {rest : List Char} (closes : Closes rest) (negative : Bool)
    (t : List Char) : number negative (t ++ rest) =
      (number negative t).map fun read => (read.1, read.2 ++ rest) := by
  obtain ⟨taken, dropped⟩ := span_append closes t
  unfold number
  simp only [taken, dropped]
  split
  · rfl
  · rfl
  · cases t.dropWhile Text.isDecimal with
    | nil =>
        cases closes with
        | nothing => cases whole negative _ <;> simp
        | comma rest => cases whole negative _ <;> simp
        | line rest => cases whole negative _ <;> simp
    | cons c u =>
        by_cases point : c = '.'
        · subst point
          obtain ⟨taken, dropped⟩ := span_append closes u
          simp only [List.cons_append, taken, dropped]
          split
          · rfl
          · rw [finish_append closes]
        · simp only [List.cons_append]
          split
          · rw [← List.cons_append, finish_append closes]
          · cases whole negative _ <;> simp

theorem isSpace_of_isDecimal {c : Char} (decimal : Text.isDecimal c = true) :
    isSpace c = false := by
  by_contra space
  simp only [isSpace, Bool.not_eq_false, Bool.or_eq_true, beq_iff_eq] at space
  rcases space with ((rfl | rfl) | rfl) | rfl
  all_goals contradiction

theorem isDecimal_of_number {c : Char} {t : List Char} {negative : Bool}
    {read : Number × List Char} (found : number negative (c :: t) = some read) :
    Text.isDecimal c = true := by
  by_contra other
  rw [number, List.takeWhile_cons_of_neg other] at found
  cases found

theorem skip_cons {c : Char} (ink : isSpace c = false) (rest : List Char) :
    skip (c :: rest) = c :: rest :=
  List.dropWhile_cons_of_neg (by simp [ink])

theorem value_of_decimal {c : Char} (decimal : Text.isDecimal c = true) (fuel depth : Nat)
    (rest : List Char) : value (fuel + 1) depth (c :: rest) =
      (number false (c :: rest)).map fun read => (.number read.1, read.2) := by
  rw [value, skip_cons (isSpace_of_isDecimal decimal)]
  split
  case h_8 =>
    cases number false (c :: rest) with
    | none => rfl
    | some read => rfl
  -- No other value begins with a digit.
  all_goals
    rename_i same
    cases same
    contradiction

theorem value_of_minus (fuel depth : Nat) (rest : List Char) :
    value (fuel + 1) depth ('-' :: rest) =
      (number true rest).map fun read => (.number read.1, read.2) := by
  rw [value, skip_cons rfl]
  simp only
  cases number true rest with
  | none => rfl
  | some read => rfl

theorem value_append_of_number {t rest : List Char} {n : Number}
    (alone : value 1 0 t = some (.number n, [])) (fuel depth : Nat) (closes : Closes rest) :
    value (fuel + 1) depth (t ++ rest) = some (.number n, rest) := by
  cases ink : skip t with
  | nil =>
      rw [value, ink] at alone
      cases alone
  | cons c u =>
      have front : skip (t ++ rest) = c :: (u ++ rest) := by
        rw [skip] at ink ⊢
        rw [List.dropWhile_append, ink]
        rfl
      rw [value, ink] at alone
      split at alone
      case h_4 body _ =>
        cases found : stringBody body with
        | none => simp [found] at alone
        | some read => simp [found] at alone
      case h_7 same =>
        cases same
        cases found : number true u with
        | none => simp [found] at alone
        | some read =>
            simp only [found, Option.bind_eq_bind, Option.bind_some, Option.pure_def,
              Option.some.injEq, Prod.mk.injEq, Json.number.injEq] at alone
            rw [value, front]
            simp [number_append closes, found, alone]
      case h_8 =>
        cases found : number false (c :: u) with
        | none => simp [found] at alone
        | some read =>
            simp only [found, Option.bind_eq_bind, Option.bind_some, Option.pure_def,
              Option.some.injEq, Prod.mk.injEq, Json.number.injEq] at alone
            have decimal := isDecimal_of_number found
            have same : value (fuel + 1) depth (t ++ rest) =
                value (fuel + 1) depth (c :: u ++ rest) := by
              rw [value, value, front, List.cons_append, skip_cons (isSpace_of_isDecimal decimal)]
            rw [same, List.cons_append, value_of_decimal decimal, ← List.cons_append,
              number_append closes, found]
            simp [alone]
      -- No other value is a number.
      all_goals simp at alone

theorem number_decimal {n : Nat} (fits : n < Text.limit64) (negative : Bool) :
    number negative (Text.decimal n) =
      (whole negative ⟨n, 0, false⟩).map fun number => (number, []) := by
  have all : ∀ c ∈ Text.decimal n, Text.isDecimal c = true := fun c => Text.isDecimal_of_mem_decimal
  have digits : (Text.decimal n).takeWhile Text.isDecimal = Text.decimal n :=
    List.takeWhile_eq_self_iff.mpr all
  have behind : (Text.decimal n).dropWhile Text.isDecimal = [] :=
    List.dropWhile_eq_nil_iff.mpr all
  have folded : (Text.decimal n).foldl Significand.integerDigit ⟨0, 0, false⟩ = ⟨n, 0, false⟩ :=
    foldl_integerDigit all (Text.readDigits_decimal n) fits
  rw [number]
  simp only [digits, behind]
  split
  · next none => exact absurd none (Text.decimal_ne_nil n)
  · next zero => cases Text.decimal_of_head_zero zero
  · rw [folded]
    cases whole negative ⟨n, 0, false⟩ <;> rfl

/-! Strings. -/

theorem stringBody_plain {c : Char} (printable : ¬c.toNat < 0x20) (notQuote : c ≠ '"')
    (notBackslash : c ≠ '\\') (rest : List Char) :
    stringBody (c :: rest) = (stringBody rest).map fun read => (c :: read.1, read.2) := by
  rw [stringBody.eq_def]
  split
  · next same => exact absurd (List.cons.inj same).1 notQuote
  · next same => exact absurd (List.cons.inj same).1 notBackslash
  · next same => exact absurd (List.cons.inj same).1 notBackslash
  · next other behind _ _ _ same =>
    cases same
    rw [if_neg (by simp [printable, notBackslash])]
    cases stringBody rest with
    | none => rfl
    | some read => rfl
  · next same => cases same

theorem stringBody_short {e c : Char} (short : unescape e = some c) (rest : List Char) :
    stringBody ('\\' :: e :: rest) = (stringBody rest).map fun read => (c :: read.1, read.2) := by
  rw [stringBody.eq_def]
  split
  · next same => cases same
  · next same =>
    cases same
    cases short
  · next same =>
    cases same
    simp only [short, Option.bind_eq_bind, Option.bind_some]
    cases stringBody rest with
    | none => rfl
    | some read => rfl
  · next other same =>
    cases same
    exact absurd rfl (other e rest rfl)
  · next same => cases same

theorem code?_hexadecimal {n : Nat} (small : n < 0x20) : ∃ a b c d,
    Text.hexadecimal 4 n = [a, b, c, d] ∧ code? a b c d = some n := by
  have table : ∀ n : Fin 0x20, code? ((Text.hexadecimal 4 n.val).getD 0 ' ')
      ((Text.hexadecimal 4 n.val).getD 1 ' ') ((Text.hexadecimal 4 n.val).getD 2 ' ')
      ((Text.hexadecimal 4 n.val).getD 3 ' ') = some n.val ∧
      (Text.hexadecimal 4 n.val).length = 4 := by decide
  obtain ⟨code, length⟩ := table ⟨n, small⟩
  match digits : Text.hexadecimal 4 n, length with
  | [a, b, c, d], _ =>
      simp only [digits] at code
      exact ⟨a, b, c, d, rfl, code⟩

theorem stringBody_escape (c : Char) (rest : List Char) :
    stringBody (escape c ++ rest) = (stringBody rest).map fun read => (c :: read.1, read.2) := by
  unfold escape
  split
  case h_8 notQuote notBackslash _ _ _ _ _ =>
    split
    · next control =>
      obtain ⟨a, b, d, e, digits, code⟩ := code?_hexadecimal control
      rw [digits]
      simp only [List.cons_append, List.nil_append]
      rw [stringBody, code]
      have below : c.toNat < 0xD800 ∨ 0xDFFF < c.toNat := .inl (by omega)
      simp only [Option.bind_eq_bind, Option.bind_some, if_pos below, Char.ofNat_toNat]
      cases stringBody rest with
      | none => rfl
      | some read => rfl
    · next printable => exact stringBody_plain printable notQuote notBackslash rest
  all_goals exact stringBody_short rfl rest

theorem stringBody_escaped (text rest : List Char) :
    stringBody (text.flatMap escape ++ '"' :: rest) = some (text, rest) := by
  induction text with
  | nil => rfl
  | cons c text ih =>
      rw [List.flatMap_cons, List.append_assoc, stringBody_escape, ih]
      rfl

end Parser

/-! Values without others inside them. -/

namespace Number

/-- The number is read back from its text alone. For an integer this takes that 64 bits hold it. -/
def Legible : Number → Prop
  | .integer n => leastInteger ≤ n ∧ n < integerLimit
  | .float x => Parser.value 1 0 (float x).text = some (.number (.float x), [])

end Number

theorem value_text_alone {n : Number} (legible : n.Legible) :
    Parser.value 1 0 n.text = some (.number n, []) := by
  cases n with
  | float x => exact legible
  | integer n =>
      obtain ⟨lower, upper⟩ := legible
      have least : leastInteger = -(2 ^ 63) := rfl
      have limit : integerLimit = 2 ^ 64 := rfl
      have limitNat : Text.limit64 = 2 ^ 64 := rfl
      have fits : n.natAbs < Text.limit64 := by omega
      by_cases negative : n < 0
      · have large : ¬(n.natAbs = 0 ∨ Nat.pow 2 63 < n.natAbs) := by
          have half : Nat.pow 2 63 = 2 ^ 63 := rfl
          omega
        have whole : Parser.whole true ⟨n.natAbs, 0, false⟩ = some (.integer n) := by
          have same : -(n.natAbs : Int) = n := by omega
          simp only [Parser.whole, Bool.not_true, Bool.false_eq_true, if_false, if_neg large, same]
        rw [Number.text, if_pos negative, Parser.value_of_minus, Parser.number_decimal fits true,
          whole]
        rfl
      · have whole : Parser.whole false ⟨n.natAbs, 0, false⟩ = some (.integer n) := by
          have same : (n.natAbs : Int) = n := by omega
          simp only [Parser.whole, Bool.not_false, Bool.false_eq_true, if_false, if_true, same]
        obtain ⟨c, digits, first⟩ := List.exists_cons_of_ne_nil (Text.decimal_ne_nil n.natAbs)
        have decimal : Text.isDecimal c = true :=
          Text.isDecimal_of_mem_decimal (n := n.natAbs) (by rw [first]; exact List.mem_cons_self)
        have read := Parser.number_decimal fits false
        rw [whole, first] at read
        rw [Number.text, if_neg negative, first, Parser.value_of_decimal decimal, read]
        rfl

theorem value_text {n : Number} (legible : n.Legible) (fuel depth : Nat) {rest : List Char}
    (closes : Closes rest) :
    Parser.value (fuel + 1) depth (n.text ++ rest) = some (.number n, rest) :=
  Parser.value_append_of_number (value_text_alone legible) fuel depth closes

theorem value_quote (s : String) (fuel depth : Nat) (rest : List Char) :
    Parser.value (fuel + 1) depth (quote s ++ rest) = some (.string s, rest) := by
  have read := Parser.stringBody_escaped s.toList rest
  rw [quote, List.cons_append, List.append_assoc, List.singleton_append, Parser.value,
    Parser.skip_cons rfl]
  simp only [read, Option.bind_eq_bind, Option.bind_some, String.ofList_toList]
  rfl

/-! Integers that 64 bits hold. -/

theorem nat?_eq_some_iff {value : Json} {n : Nat} :
    value.nat? = some n ↔ value = .number (.integer n) ∧ (n : Int) < integerLimit := by
  constructor
  · intro found
    unfold nat? at found
    split at found
    · split at found
      · next bounds =>
        cases found
        rw [Int.toNat_of_nonneg bounds.1]
        exact ⟨rfl, bounds.2⟩
      · contradiction
    · contradiction
  · rintro ⟨rfl, small⟩
    rw [nat?, if_pos ⟨Int.natCast_nonneg n, small⟩, Int.toNat_natCast]

theorem int?_eq_some_iff {value : Json} {n : Int} :
    value.int? = some n ↔ value = .number (.integer n) ∧ leastInteger ≤ n ∧ n < -leastInteger := by
  constructor
  · intro found
    unfold int? at found
    split at found
    · split at found
      · next bounds =>
        cases found
        exact ⟨rfl, bounds⟩
      · contradiction
    · contradiction
  · rintro ⟨rfl, bounds⟩
    exact if_pos bounds

end Json

end Rehearsal
