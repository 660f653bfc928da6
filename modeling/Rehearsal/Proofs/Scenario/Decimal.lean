import Rehearsal.Proofs.Abi.Reencoding
import Rehearsal.Scenario.Normal

namespace Rehearsal

/-! Normal forms of decimal texts. Blanks, a plus sign and zeros in front are dropped, so that what is
left is the plain text of the integer that the digits denote. -/

namespace Text

theorem numeral_decimal (n : Nat) : numeral 10 (decimal n) = n := by
  have denoted := (readDigits_eq_some (readDigits_decimal n)).1
  omega

theorem decimal_digitValue {c : Char} (digit : isDecimal c = true) :
    digitValue c < 10 ∧ decimal (digitValue c) = [c] :=
  forall_ascii
    (p := fun c => isDecimal c = true → digitValue c < 10 ∧ decimal (digitValue c) = [c])
    (by decide) (toNat_lt_of_digitValue? (digitValue?_of_isDecimal digit)) digit

theorem decimal_numeral {c : Char} {rest : List Char} (notZero : c ≠ '0')
    (digits : ∀ d ∈ c :: rest, isDecimal d = true) :
    decimal (numeral 10 (c :: rest)) = c :: rest ∧ 0 < numeral 10 (c :: rest) := by
  induction rest using List.reverseRecOn with
  | nil =>
      obtain ⟨-, text⟩ := decimal_digitValue (digits c List.mem_cons_self)
      rw [numeral_singleton]
      refine ⟨text, Nat.pos_of_ne_zero ?_⟩
      intro zero
      rw [zero] at text
      exact notZero (List.cons.inj text).1.symm
  | append_singleton rest last ih =>
      obtain ⟨front, positive⟩ := ih fun d member => digits d (by
        rw [← List.cons_append]
        exact List.mem_append_left _ member)
      obtain ⟨small, text⟩ := decimal_digitValue (digits last (by simp))
      have value : numeral 10 (c :: (rest ++ [last])) =
          10 * numeral 10 (c :: rest) + digitValue last := by
        rw [← List.cons_append, numeral_append, numeral_singleton, List.length_singleton,
          Nat.pow_one, Nat.mul_comm]
      rw [value]
      refine ⟨?_, by omega⟩
      rw [decimal, ← Nat.toDigits_append_toDigits (by decide) positive small, ← decimal, ← decimal,
        front, text, List.cons_append]

theorem dropWhile_zero {digits : List Char} (decimals : ∀ d ∈ digits, isDecimal d = true) :
    digits.dropWhile (· == '0') =
      if numeral 10 digits = 0 then [] else decimal (numeral 10 digits) := by
  induction digits with
  | nil => rfl
  | cons c rest ih =>
      by_cases zero : c = '0'
      · subst zero
        rw [numeral_cons_zero rfl, ← ih fun d member => decimals d (List.mem_cons_of_mem _ member)]
        rfl
      · obtain ⟨text, positive⟩ := decimal_numeral zero decimals
        rw [if_neg positive.ne', text]
        exact List.dropWhile_cons_of_neg (by simpa using zero)

end Text

namespace Normal

inductive Sign where
  | none
  | plus
  | minus
  deriving DecidableEq

namespace Sign

def text : Sign → List Char
  | none => []
  | plus => ['+']
  | minus => ['-']

def apply (n : Nat) : Sign → Int
  | none => n
  | plus => n
  | minus => -n

end Sign

variable {digits : List Char}

theorem kept_digits (negative : Bool) (decimals : ∀ c ∈ digits, Text.isDecimal c = true) :
    (match digits.dropWhile (· == '0') with
      | [] => some ['0']
      | kept => some (if negative then '-' :: kept else kept)) =
    some (Json.Number.integer
      (if negative then -(Text.numeral 10 digits) else Text.numeral 10 digits)).text := by
  rw [Text.dropWhile_zero decimals]
  by_cases zero : Text.numeral 10 digits = 0
  · rw [zero]
    cases negative with
    | true => rfl
    | false => rfl
  · rw [if_neg zero]
    split
    · next none => exact absurd none (Text.decimal_ne_nil _)
    · cases negative with
      | true =>
          simp only [if_true]
          rw [Json.Number.text_integer_of_negative (by omega), Int.natAbs_neg, Int.natAbs_natCast]
      | false =>
          simp only [Bool.false_eq_true, if_false]
          rw [Json.Number.text_integer_of_nonneg (by omega), Int.natAbs_natCast]

theorem decimal?_signed (sign : Sign) (some : digits ≠ [])
    (decimals : ∀ c ∈ digits, Text.isDecimal c = true) :
    decimal? (sign.text ++ digits) =
      .some (Json.Number.integer (sign.apply (Text.numeral 10 digits))).text := by
  have taken : digits ≠ [] ∧ digits.all Text.isDecimal = true :=
    ⟨some, List.all_eq_true.mpr decimals⟩
  cases sign with
  | none =>
      obtain ⟨c, rest, rfl⟩ := List.exists_cons_of_ne_nil some
      have digit := decimals c List.mem_cons_self
      rw [Sign.text, List.nil_append, decimal?, if_pos taken]
      · exact kept_digits false decimals
      · intro rest signed
        cases signed
        contradiction
      · intro rest signed
        cases signed
        contradiction
  | plus =>
      simp only [Sign.text, List.singleton_append, decimal?]
      rw [if_pos taken]
      exact kept_digits false decimals
  | minus =>
      simp only [Sign.text, List.singleton_append, decimal?]
      rw [if_pos taken]
      exact kept_digits true decimals

theorem ink_signed (sign : Sign) (decimals : ∀ c ∈ digits, Text.isDecimal c = true) :
    ∀ c ∈ sign.text ++ digits, Text.isBlank c = false := by
  intro c member
  rcases List.mem_append.mp member with inSign | digit
  · cases sign with
    | none => contradiction
    | plus =>
        cases List.mem_singleton.mp inSign
        rfl
    | minus =>
        cases List.mem_singleton.mp inSign
        rfl
  · exact Text.isBlank_of_isDecimal (decimals c digit)

theorem ofText_signed (sign : Sign) (some : digits ≠ [])
    (decimals : ∀ c ∈ digits, Text.isDecimal c = true) :
    ofText (sign.text ++ digits) =
      (Json.Number.integer (sign.apply (Text.numeral 10 digits))).text := by
  rw [ofText, Text.trim_of_ink (ink_signed sign decimals)]
  simp only [decimal?_signed sign some decimals]

theorem exists_sign (n : Int) : ∃ (sign : Sign) (m : Nat),
    (Json.Number.integer n).text = sign.text ++ Text.decimal m ∧ sign.apply m = n := by
  by_cases negative : n < 0
  · refine ⟨.minus, n.natAbs, Json.Number.text_integer_of_negative negative, ?_⟩
    rw [Sign.apply]
    omega
  · refine ⟨.none, n.natAbs, Json.Number.text_integer_of_nonneg (Int.not_lt.mp negative), ?_⟩
    rw [Sign.apply]
    omega

theorem chars_integer (n : Int) :
    chars (.number (.integer n)) = (Json.Number.integer n).text := by
  obtain ⟨sign, m, text, value⟩ := exists_sign n
  have whole := ofText_signed sign (Text.decimal_ne_nil m)
    (fun c member => Text.isDecimal_of_mem_decimal member)
  rw [Text.numeral_decimal, value] at whole
  rw [chars, text, whole, text]

end Normal

end Rehearsal
