import Rehearsal.Proofs.Abi.Integer

namespace Rehearsal.Abi

/-! Octets that stand at a position of data, and what the reading operations find there. -/

def StandsAt (data : List UInt8) (position : Nat) (bytes : List UInt8) : Prop :=
  bytes <+: data.drop position

variable {data left right bytes : List UInt8} {position : Nat}

theorem standsAt_self (data : List UInt8) : StandsAt data 0 data := by
  rw [StandsAt, List.drop_zero]

theorem standsAt_append : StandsAt data position (left ++ right) ↔
    StandsAt data position left ∧ StandsAt data (position + left.length) right := by
  simp only [StandsAt, ← List.drop_drop]
  constructor
  · rintro ⟨rest, whole⟩
    rw [← whole, List.append_assoc]
    exact ⟨List.prefix_append left _, by simp⟩
  · rintro ⟨⟨rest, first⟩, second⟩
    rw [← first, List.drop_left] at second
    rw [← first]
    exact (List.prefix_append_right_inj left).mpr second

theorem StandsAt.length_le (stands : StandsAt data position bytes) :
    bytes.length ≤ data.length - position := by
  have bound := List.IsPrefix.length_le stands
  rwa [List.length_drop] at bound

theorem StandsAt.slice_eq (stands : StandsAt data position bytes) :
    slice data position bytes.length = bytes :=
  (List.prefix_iff_eq_take.mp stands).symm

theorem requireLength_of_le {need : Nat} (enough : need ≤ data.length) :
    requireLength data need = .ok () :=
  if_neg (Nat.not_lt.mpr enough)

theorem wordAt_of_standsAt (stands : StandsAt data position bytes) (word : bytes.length = 32) :
    wordAt data position = .ok bytes := by
  have bound := stands.length_le
  rw [wordAt, requireLength_of_le (by omega), ← word, stands.slice_eq]
  rfl

theorem positionAt_of_standsAt {n : Nat} (stands : StandsAt data position (Word.bytes n))
    (small : n ≤ greatestPosition) : positionAt data position = .ok n := by
  have below : greatestPosition < Word.limit := by decide
  rw [positionAt, wordAt_of_standsAt stands (length_bytes n), ok_bind,
    ofBigEndian_bytes (Nat.lt_of_le_of_lt small below)]
  exact if_neg (Nat.not_lt.mpr small)

theorem countedAt_of_standsAt (stands : StandsAt data position (counted bytes))
    (small : data.length ≤ greatestPosition) : countedAt data position = .ok bytes := by
  obtain ⟨count, content⟩ := standsAt_append.mp stands
  obtain ⟨content, _⟩ := standsAt_append.mp content
  have countBound := count.length_le
  have bound := content.length_le
  rw [length_bytes] at countBound bound content
  rw [countedAt, positionAt_of_standsAt count (by omega), ok_bind,
    requireLength_of_le (by omega), ok_bind, content.slice_eq]
  rfl

/-- The head of a value takes as many octets as its type says, whatever the octets are. -/
theorem headLength_of_decodeValue {type : AbiType} {base length : Nat} {value : Json}
    (read : decodeValue data type base position = .ok (value, length)) :
    length = type.headLength := by
  cases type with
  | address | uint _ | int _ | bool | fixedBytes _ | bytes | array _ =>
      simp only [decodeValue, bind_eq_ok, pure_eq_ok, Prod.mk.injEq] at read
      grind [AbiType.headLength]
  | string =>
      simp only [decodeValue, bind_eq_ok] at read
      obtain ⟨_, _, octets, _, read⟩ := read
      split at read
      · cases read
        rfl
      · contradiction
  | fixedArray item count =>
      simp only [decodeValue] at read
      cases dynamic : item.isDynamic
      all_goals
        simp only [dynamic, Bool.false_eq_true, if_true, if_false, bind_eq_ok, pure_eq_ok,
          Prod.mk.injEq] at read
        grind [AbiType.headLength]
  | tuple types =>
      simp only [decodeValue] at read
      cases dynamic : AbiType.anyDynamic types
      all_goals
        simp only [dynamic, Bool.false_eq_true, if_true, if_false, bind_eq_ok, pure_eq_ok,
          Prod.mk.injEq] at read
        grind [AbiType.headLength]

end Rehearsal.Abi
