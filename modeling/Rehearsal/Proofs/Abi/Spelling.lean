import Rehearsal.Proofs.Abi.Reencoding

namespace Rehearsal.Abi

/-! An integer given as a JSON number and as its decimal text. Unsigned types take every JSON integer
that is not negative, and its text. Signed types take the text of every JSON integer, but only those
numbers that a signed integer of 64 bits holds: from `2 ^ 63` on, the number is refused. -/

variable {n : Int}

/-! What the readers of integers make of the two spellings. -/

theorem integerJson_of_nonneg (nonneg : 0 ≤ n) : integerJson n = natJson n.toNat := by
  rw [natJson_eq_integerJson, Int.toNat_of_nonneg nonneg]

theorem unsignedOf_number (nonneg : 0 ≤ n) (high : n < 2 ^ 64) :
    unsignedOf (.number (.integer n)) = .ok n.toNat := by
  have found : (Json.number (.integer n)).nat? = some n.toNat := if_pos ⟨nonneg, high⟩
  simp only [unsignedOf, found]

theorem unsignedOf_negative (negative : n < 0) :
    unsignedOf (.number (.integer n)) =
      .error (.wrongShape "unsigned integer" (.number (.integer n))) := by
  have none : (Json.number (.integer n)).nat? = none := if_neg fun bounds => by omega
  simp only [unsignedOf, none]

theorem unsignedOf_negative_text (negative : n < 0) :
    ∃ fault, unsignedOf (integerJson n) = .error fault := by
  rw [integerJson, Json.Number.text_integer_of_negative negative, unsignedOf, String.toList_ofList]
  cases read : unsignedOfText ('-' :: Text.decimal n.natAbs) with
  | error fault => exact ⟨fault, rfl⟩
  | ok value => exact absurd (Text.trim_minus_decimal n.natAbs) (ne_minus_of_unsignedOfText read)

theorem unsignedOf_alike (high : n < 2 ^ 64) :
    EndAlike (unsignedOf (.number (.integer n))) (unsignedOf (integerJson n)) := by
  by_cases negative : n < 0
  · obtain ⟨fault, refused⟩ := unsignedOf_negative_text negative
    exact .of_errors (unsignedOf_negative negative) refused
  · have nonneg : 0 ≤ n := Int.not_lt.mp negative
    have limit : 2 ^ 64 < Word.limit := by decide
    apply EndAlike.of_eq
    rw [unsignedOf_number nonneg high, integerJson_of_nonneg nonneg, unsignedOf_natJson (by omega)]

theorem signedOf_number (low : -2 ^ 63 ≤ n) (high : n < 2 ^ 63) :
    signedOf (.number (.integer n)) = .ok (signedWord (n < 0) n.natAbs) := by
  have found : (Json.number (.integer n)).int? = some n := if_pos ⟨low, high⟩
  simp only [signedOf, found]

theorem signedOf_large (large : 2 ^ 63 ≤ n) :
    signedOf (.number (.integer n)) = .error (.wrongShape "integer" (.number (.integer n))) := by
  have none : (Json.number (.integer n)).int? = none :=
    if_neg fun bounds => Int.not_lt.mpr large bounds.2
  simp only [signedOf, none]

theorem signedOf_text (fits : n.natAbs < Word.limit) :
    signedOf (integerJson n) = .ok (signedWord (n < 0) n.natAbs) := by
  by_cases negative : n < 0
  · rw [integerJson, Json.Number.text_integer_of_negative negative, signedOf, String.toList_ofList,
      Text.trim_minus_decimal, decide_eq_true negative]
    simp only
    rw [unsignedOfText_decimal fits]
    rfl
  · have nonneg : 0 ≤ n := Int.not_lt.mp negative
    rw [integerJson_of_nonneg nonneg, signedOf_natJson (by omega), decide_eq_false negative]
    change Except.ok n.toNat = .ok n.natAbs
    congr 1
    omega

/-! Encoding a single integer. -/

theorem encode_uint (bits : Nat) (value : Json) :
    encode [.uint bits] [value] = Word.bytes <$> unsignedOf value :=
  encode_static rfl value

theorem encode_int (bits : Nat) (value : Json) :
    encode [.int bits] [value] = Word.bytes <$> signedOf value :=
  encode_static rfl value

/-- The number and its text are encoded alike by every unsigned type, and by a signed one just when
the number is below `2 ^ 63`. From there on, a signed type refuses the number and takes the text. -/
theorem spelled_alike_iff (low : -2 ^ 63 ≤ n) (high : n < 2 ^ 64) (bits : Nat) :
    EndAlike (encode [.uint bits] [.number (.integer n)]) (encode [.uint bits] [integerJson n]) ∧
    (EndAlike (encode [.int bits] [.number (.integer n)]) (encode [.int bits] [integerJson n]) ↔
      n < 2 ^ 63) ∧
    (2 ^ 63 ≤ n →
      encode [.int bits] [.number (.integer n)] =
        .error (.wrongShape "integer" (.number (.integer n))) ∧
      encode [.int bits] [integerJson n] = .ok (Word.bytes n.toNat)) := by
  have limit : 2 ^ 64 < Word.limit := by decide
  have text := signedOf_text (n := n) (by omega)
  simp only [encode_uint, encode_int, text]
  refine ⟨(unsignedOf_alike high).map _, ⟨?_, ?_⟩, ?_⟩
  · intro alike
    by_contra large
    rw [signedOf_large (Int.not_lt.mp large)] at alike
    cases (alike _).mpr rfl
  · intro small
    rw [signedOf_number low small]
    exact .of_eq rfl
  · intro large
    have magnitude : n.natAbs = n.toNat := by omega
    rw [signedOf_large large, decide_eq_false (by omega), magnitude]
    exact ⟨rfl, rfl⟩

theorem spelled_alike_of_least :
    EndAlike (encode [.int 64] [.number (.integer (-2 ^ 63))])
      (encode [.int 64] [integerJson (-2 ^ 63)]) :=
  (spelled_alike_iff (by decide) (by decide) 64).2.1.mpr (by decide)

theorem not_spelled_alike_of_large :
    ¬∀ n : Int, -2 ^ 63 ≤ n → n < 2 ^ 64 →
      EndAlike (encode [.int 256] [.number (.integer n)]) (encode [.int 256] [integerJson n]) := by
  intro alike
  have both := alike (2 ^ 63) (by decide) (by decide)
  rw [encode_int, encode_int, signedOf_large (Int.le_refl _), signedOf_text (by decide)] at both
  cases (both _).mpr rfl

end Rehearsal.Abi
