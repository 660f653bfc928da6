import Mathlib.Data.List.DropRight
import Mathlib.Data.Nat.Digits.Defs
import Mathlib.Data.Nat.Digits.Lemmas
import Mathlib.Tactic.Ring
import Rehearsal.Text.Blank
import Rehearsal.Text.Numeral

namespace Rehearsal.Text

/-! The number that a numeral denotes, and the reader of digits, which finds just this number. -/

def digitValue (c : Char) : Nat :=
  (digitValue? c).getD 0

/-- The number that digits of a base denote, most significant first. -/
def numeral (base : Nat) (digits : List Char) : Nat :=
  Nat.ofDigits base (digits.reverse.map digitValue)

theorem numeral_cons (base : Nat) (c : Char) (digits : List Char) :
    numeral base (c :: digits) = digitValue c * base ^ digits.length + numeral base digits := by
  simp only [numeral, List.reverse_cons, List.map_append, Nat.ofDigits_append, List.map_cons,
    List.map_nil, Nat.ofDigits_singleton, List.length_map, List.length_reverse]
  rw [Nat.add_comm, Nat.mul_comm]

theorem numeral_cons_zero {base : Nat} {c : Char} (zero : digitValue c = 0)
    (digits : List Char) : numeral base (c :: digits) = numeral base digits := by
  rw [numeral_cons, zero, Nat.zero_mul, Nat.zero_add]

theorem readDigits_eq_some {base acc n : Nat} {digits : List Char}
    (read : readDigits base acc digits = some n) :
    n = acc * base ^ digits.length + numeral base digits ∧
      ∀ c ∈ digits, (digitValue? c).isSome ∧ digitValue c < base := by
  induction digits generalizing acc with
  | nil =>
      cases read
      exact ⟨by simp [numeral], fun c member => absurd member List.not_mem_nil⟩
  | cons c digits ih =>
      cases value : digitValue? c with
      | none => simp [readDigits, value] at read
      | some d =>
          have known : digitValue c = d := by rw [digitValue, value]; rfl
          simp only [readDigits, value] at read
          split at read
          · next small =>
            obtain ⟨sum, others⟩ := ih read
            refine ⟨?_, ?_⟩
            · rw [sum, numeral_cons, known, List.length_cons, Nat.pow_succ]
              ring
            · intro other member
              rcases List.mem_cons.mp member with rfl | member
              · exact ⟨by rw [value]; rfl, known ▸ small⟩
              · exact others other member
          · contradiction

theorem numeral_lt {base : Nat} {digits : List Char} (base1 : 1 < base)
    (small : ∀ c ∈ digits, digitValue c < base) : numeral base digits < base ^ digits.length := by
  have bound := Nat.ofDigits_lt_base_pow_length base1 (l := digits.reverse.map digitValue)
    (by
      intro d member
      obtain ⟨c, inDigits, rfl⟩ := List.mem_map.mp member
      exact small c (List.mem_reverse.mp inDigits))
  simpa [numeral] using bound

theorem numeral_append (base : Nat) (front back : List Char) :
    numeral base (front ++ back) = numeral base front * base ^ back.length + numeral base back := by
  simp only [numeral, List.reverse_append, List.map_append, Nat.ofDigits_append, List.length_map,
    List.length_reverse]
  rw [Nat.add_comm, Nat.mul_comm]

theorem numeral_singleton (base : Nat) (c : Char) : numeral base [c] = digitValue c := by
  simp [numeral]

theorem readDigits_of_digits {base : Nat} {digits : List Char}
    (each : ∀ c ∈ digits, ∃ d, digitValue? c = some d ∧ d < base) (acc : Nat) :
    readDigits base acc digits = some (acc * base ^ digits.length + numeral base digits) := by
  have read : (readDigits base acc digits).isSome = true := by
    induction digits generalizing acc with
    | nil => rfl
    | cons c digits ih =>
        obtain ⟨⟨d, value, small⟩, others⟩ := List.forall_mem_cons.mp each
        simp only [readDigits, value, if_pos small]
        exact ih others _
  obtain ⟨n, found⟩ := Option.isSome_iff_exists.mp read
  rw [found, (readDigits_eq_some found).1]

theorem readDigits_eq_some_iff {base n : Nat} {digits : List Char} :
    readDigits base 0 digits = some n ↔
      (∀ c ∈ digits, ∃ d, digitValue? c = some d ∧ d < base) ∧ numeral base digits = n := by
  constructor
  · intro read
    obtain ⟨sum, each⟩ := readDigits_eq_some read
    refine ⟨fun c member => ?_, by rw [sum, Nat.zero_mul, Nat.zero_add]⟩
    obtain ⟨known, small⟩ := each c member
    obtain ⟨d, digit⟩ := Option.isSome_iff_exists.mp known
    rw [digitValue, digit] at small
    exact ⟨d, digit, small⟩
  · rintro ⟨each, rfl⟩
    rw [readDigits_of_digits each, Nat.zero_mul, Nat.zero_add]

/-! Numerals that are written are read back. -/

theorem digitValue?_digitChar {d : Nat} (small : d < 16) :
    digitValue? (Nat.digitChar d) = some d := by
  have table : ∀ d : Fin 16, digitValue? (Nat.digitChar d.val) = some d.val := by decide
  exact table ⟨d, small⟩

theorem readDigits_concat (base acc : Nat) (digits : List Char) (c : Char) :
    readDigits base acc (digits ++ [c]) =
      (readDigits base acc digits).bind fun n => readDigits base n [c] := by
  induction digits generalizing acc with
  | nil => rfl
  | cons first digits ih =>
      simp only [List.cons_append, readDigits]
      cases digitValue? first with
      | none => rfl
      | some d =>
          simp only
          split
          · exact ih _
          · rfl

theorem readDigits_digitChar {base d : Nat} (small : d < base) (most : base ≤ 16) (acc : Nat) :
    readDigits base acc [Nat.digitChar d] = some (acc * base + d) := by
  rw [readDigits, digitValue?_digitChar (by omega)]
  simp only [if_pos small, readDigits]

theorem readDigits_toDigits {base : Nat} (least : 1 < base) (most : base ≤ 16) (n : Nat) :
    readDigits base 0 (Nat.toDigits base n) = some n := by
  induction n using Nat.strong_induction_on with
  | h n ih =>
      by_cases small : n < base
      · rw [Nat.toDigits_of_lt_base small, readDigits_digitChar small most, Nat.zero_mul, Nat.zero_add]
      · have shorter : n / base < n := Nat.div_lt_self (by omega) least
        rw [Nat.toDigits_of_base_le least (Nat.not_lt.mp small), readDigits_concat, ih _ shorter]
        simp only [Option.bind_some]
        rw [readDigits_digitChar (Nat.mod_lt n (by omega)) most, Nat.div_add_mod' n base]

theorem readDigits_decimal (n : Nat) : readDigits 10 0 (decimal n) = some n :=
  readDigits_toDigits (by decide) (by decide) n

theorem decimal_injective : Function.Injective decimal := by
  intro m n same
  apply Option.some.inj
  rw [← readDigits_decimal m, same, readDigits_decimal]

theorem toString_injective : Function.Injective (toString : Nat → String) := by
  intro m n same
  apply decimal_injective
  simpa [decimal, Nat.toString_eq_ofList_toDigits] using congrArg String.toList same

theorem readDigits_replicate_zero {base : Nat} (least : 0 < base) (count : Nat) (digits : List Char) :
    readDigits base 0 (List.replicate count '0' ++ digits) = readDigits base 0 digits := by
  induction count with
  | zero => rfl
  | succ count ih =>
      have zero : digitValue? '0' = some 0 := rfl
      simp only [List.replicate_succ, List.cons_append, readDigits, zero, if_pos least, Nat.zero_mul]
      exact ih

theorem readDigits_hexadecimal (width n : Nat) : readDigits 16 0 (hexadecimal width n) = some n := by
  rw [hexadecimal, readDigits_replicate_zero (by decide), readDigits_toDigits (by decide) (by decide)]

theorem hexadecimal_injective (width : Nat) : Function.Injective (hexadecimal width) := by
  intro m n same
  apply Option.some.inj
  rw [← readDigits_hexadecimal width m, same, readDigits_hexadecimal]

/-! Blanks at the ends of a text. -/

theorem dropWhile_of_ink {text : List Char} (ink : ∀ c ∈ text, isBlank c = false) :
    text.dropWhile isBlank = text := by
  cases text with
  | nil => rfl
  | cons c rest => exact List.dropWhile_cons_of_neg (by simp [ink c List.mem_cons_self])

theorem trim_padded {front core back : List Char} (before : ∀ c ∈ front, isBlank c = true)
    (behind : ∀ c ∈ back, isBlank c = true) (ink : ∀ c ∈ core, isBlank c = false) :
    trim (front ++ core ++ back) = core := by
  have left : ∃ tail, (∀ c ∈ tail, isBlank c = true) ∧
      trimLeft (front ++ core ++ back) = core ++ tail := by
    rw [trimLeft, List.append_assoc, List.dropWhile_append_of_pos before]
    cases core with
    | nil => exact ⟨_, fun c member => behind c (List.dropWhile_subset _ member), rfl⟩
    | cons c rest =>
        exact ⟨back, behind, List.dropWhile_cons_of_neg (by simp [ink c List.mem_cons_self])⟩
  obtain ⟨tail, blank, trimmed⟩ := left
  rw [trim, trimmed, trimRight, List.reverse_append,
    List.dropWhile_append_of_pos fun c member => blank c (List.mem_reverse.mp member),
    dropWhile_of_ink fun c member => ink c (List.mem_reverse.mp member), List.reverse_reverse]

theorem trim_of_ink {text : List Char} (ink : ∀ c ∈ text, isBlank c = false) :
    trim text = text := by
  have padded := @trim_padded [] text [] nofun nofun ink
  rwa [List.nil_append, List.append_nil] at padded

theorem trimLeft_trim (s : List Char) : trimLeft (trim s) = trim s := by
  have front : trim s <+: trimLeft s := List.rdropWhile_prefix isBlank (trimLeft s)
  cases trimmed : trim s with
  | nil => rfl
  | cons c rest =>
      rw [trimmed] at front
      obtain ⟨tail, whole⟩ := front
      have notBlank : ¬ isBlank c = true := by
        have first := List.head?_dropWhile_not isBlank s
        rw [← trimLeft, ← whole] at first
        simpa using first
      exact List.dropWhile_cons_of_neg notBlank

@[simp] theorem trim_trim (s : List Char) : trim (trim s) = trim s := by
  calc trim (trim s) = trimRight (trim s) := congrArg trimRight (trimLeft_trim s)
    _ = trim s := List.rdropWhile_idempotent isBlank (trimLeft s)

end Rehearsal.Text
