import Rehearsal.Text.Utf8

namespace Rehearsal.Utf8

/-! Text read back from its octets. A character is followed through its width: the first octet
gives the width and bounds the second one, and the bounds hold because a character is neither a
surrogate nor past the last code point. -/

theorem toNat_ofNat_lt {n : Nat} (small : n < 256) : (UInt8.ofNat n).toNat = n := by
  rw [UInt8.toNat_ofNat']
  exact Nat.mod_eq_of_lt small

theorem lt_ofNat {n : Nat} (small : n < 0x80) : UInt8.ofNat n < 0x80 := by
  rw [UInt8.lt_iff_toNat_lt, toNat_ofNat_lt (by omega)]
  exact small

theorem not_lt_ofNat {n : Nat} (large : 0x80 ≤ n) (small : n < 256) :
    ¬ UInt8.ofNat n < 0x80 := by
  rw [UInt8.lt_iff_toNat_lt, toNat_ofNat_lt small]
  exact Nat.not_lt.mpr large

theorem lead_two {n : Nat} (low : 2 ≤ n) (high : n < 32) :
    lead (UInt8.ofNat (n + 0xC0)) = some (2, 0x80, 0xBF) := by
  have table : ∀ n : Fin 32, 2 ≤ n.val →
      lead (UInt8.ofNat (n.val + 0xC0)) = some (2, 0x80, 0xBF) := by decide
  exact table ⟨n, high⟩ low

theorem lead_three {n : Nat} (high : n < 16) :
    lead (UInt8.ofNat (n + 0xE0)) =
      some (3, if n = 0 then 0xA0 else 0x80, if n = 13 then 0x9F else 0xBF) := by
  have table : ∀ n : Fin 16, lead (UInt8.ofNat (n.val + 0xE0)) =
      some (3, if n.val = 0 then 0xA0 else 0x80, if n.val = 13 then 0x9F else 0xBF) := by decide
  exact table ⟨n, high⟩

theorem lead_four {n : Nat} (high : n < 5) :
    lead (UInt8.ofNat (n + 0xF0)) =
      some (4, if n = 0 then 0x90 else 0x80, if n = 4 then 0x8F else 0xBF) := by
  have table : ∀ n : Fin 5, lead (UInt8.ofNat (n.val + 0xF0)) =
      some (4, if n.val = 0 then 0x90 else 0x80, if n.val = 4 then 0x8F else 0xBF) := by decide
  exact table ⟨n, high⟩

theorem isTail_ofNat {n : Nat} (small : n < 64) : isTail (UInt8.ofNat (n + 0x80)) = true := by
  have table : ∀ n : Fin 64, isTail (UInt8.ofNat (n.val + 0x80)) = true := by decide
  exact table ⟨n, small⟩

theorem tailBits_ofNat {n : Nat} (small : n < 64) :
    tailBits (UInt8.ofNat (n + 0x80)) = n := by
  rw [tailBits, toNat_ofNat_lt (by omega)]
  omega

theorem second_within (low high : UInt8) {b : Nat} (small : b < 64)
    (lower : low.toNat ≤ b + 0x80) (upper : b + 0x80 ≤ high.toNat) :
    low ≤ UInt8.ofNat (b + 0x80) ∧ UInt8.ofNat (b + 0x80) ≤ high := by
  rw [UInt8.le_iff_toNat_le, UInt8.le_iff_toNat_le, toNat_ofNat_lt (by omega)]
  exact ⟨lower, upper⟩

theorem decodeFrom_one {n : Nat} (small : n < 0x80) (valid : Nat) (rest : List UInt8) :
    decodeFrom valid (UInt8.ofNat n :: rest) =
      (decodeFrom (valid + 1) rest).map (Char.ofNat n :: ·) := by
  rw [decodeFrom, if_pos (lt_ofNat small), toNat_ofNat_lt (by omega)]
  cases decodeFrom (valid + 1) rest <;> rfl

theorem decodeFrom_two {a b : Nat} (lower : 2 ≤ a) (upper : a < 32) (hb : b < 64)
    (valid : Nat) (rest : List UInt8) :
    decodeFrom valid (UInt8.ofNat (a + 0xC0) :: UInt8.ofNat (b + 0x80) :: rest) =
      (decodeFrom (valid + 2) rest).map (Char.ofNat (a * 64 + b) :: ·) := by
  have bounds : 0x80 ≤ UInt8.ofNat (b + 0x80) ∧ UInt8.ofNat (b + 0x80) ≤ 0xBF :=
    second_within 0x80 0xBF hb (Nat.le_add_left 128 b) (by change b + 0x80 ≤ 0xBF; omega)
  have first : (UInt8.ofNat (a + 0xC0)).toNat % 32 = a := by
    rw [toNat_ofNat_lt (by omega)]
    omega
  rw [decodeFrom, if_neg (not_lt_ofNat (by omega) (by omega)), lead_two lower upper]
  simp only
  rw [if_neg (not_not_intro bounds), if_pos trivial, first, tailBits_ofNat hb]
  cases decodeFrom (valid + 2) rest <;> rfl

theorem decodeFrom_three {a b c : Nat} (ha : a < 16) (hb : b < 64) (hc : c < 64)
    (notOverlong : a = 0 → 32 ≤ b) (noSurrogate : a = 13 → b < 32)
    (valid : Nat) (rest : List UInt8) :
    decodeFrom valid (UInt8.ofNat (a + 0xE0) :: UInt8.ofNat (b + 0x80) ::
        UInt8.ofNat (c + 0x80) :: rest) =
      (decodeFrom (valid + 3) rest).map (Char.ofNat ((a * 64 + b) * 64 + c) :: ·) := by
  have bounds := second_within (if a = 0 then 0xA0 else 0x80) (if a = 13 then 0x9F else 0xBF) hb
    (by split <;> simp only [UInt8.reduceToNat] <;> omega)
    (by split <;> simp only [UInt8.reduceToNat] <;> omega)
  have first : (UInt8.ofNat (a + 0xE0)).toNat % 16 = a := by
    rw [toNat_ofNat_lt (by omega)]
    omega
  rw [decodeFrom, if_neg (not_lt_ofNat (by omega) (by omega)), lead_three ha]
  simp only
  rw [if_neg (not_not_intro bounds), if_neg (by decide), isTail_ofNat hc, if_neg (by decide),
    if_pos trivial, first, tailBits_ofNat hb, tailBits_ofNat hc]
  cases decodeFrom (valid + 3) rest <;> rfl

theorem decodeFrom_four {a b c d : Nat} (ha : a < 5) (hb : b < 64) (hc : c < 64) (hd : d < 64)
    (notOverlong : a = 0 → 16 ≤ b) (notPastLast : a = 4 → b < 16)
    (valid : Nat) (rest : List UInt8) :
    decodeFrom valid (UInt8.ofNat (a + 0xF0) :: UInt8.ofNat (b + 0x80) ::
        UInt8.ofNat (c + 0x80) :: UInt8.ofNat (d + 0x80) :: rest) =
      (decodeFrom (valid + 4) rest).map
        (Char.ofNat (((a * 64 + b) * 64 + c) * 64 + d) :: ·) := by
  have bounds := second_within (if a = 0 then 0x90 else 0x80) (if a = 4 then 0x8F else 0xBF) hb
    (by split <;> simp only [UInt8.reduceToNat] <;> omega)
    (by split <;> simp only [UInt8.reduceToNat] <;> omega)
  have first : (UInt8.ofNat (a + 0xF0)).toNat % 8 = a := by
    rw [toNat_ofNat_lt (by omega)]
    omega
  rw [decodeFrom, if_neg (not_lt_ofNat (by omega) (by omega)), lead_four ha]
  simp only
  rw [if_neg (not_not_intro bounds), if_neg (by decide), isTail_ofNat hc, if_neg (by decide),
    if_neg (by decide), isTail_ofNat hd, if_neg (by decide), first, tailBits_ofNat hb,
    tailBits_ofNat hc, tailBits_ofNat hd]
  cases decodeFrom (valid + 4) rest <;> rfl

theorem decodeFrom_encodeChar (c : Char) (valid : Nat) (rest : List UInt8) :
    decodeFrom valid (String.utf8EncodeChar c ++ rest) =
      (decodeFrom (valid + (String.utf8EncodeChar c).length) rest).map (c :: ·) := by
  have back : Char.ofNat c.val.toNat = c := Char.ofNat_toNat c
  have scalar : c.val.toNat < 0xD800 ∨ 0xDFFF < c.val.toNat ∧ c.val.toNat < 0x110000 := c.valid
  simp only [String.utf8EncodeChar]
  split
  · next one =>
    exact (decodeFrom_one (by omega) valid rest).trans (by rw [back]; rfl)
  · split
    · next two =>
      refine (decodeFrom_two (by omega) (by omega) (by omega) valid rest).trans ?_
      rw [show c.val.toNat / 64 % 32 * 64 + c.val.toNat % 64 = c.val.toNat by omega, back]
      rfl
    · split
      · next three =>
        refine (decodeFrom_three (by omega) (by omega) (by omega) (by omega) (by omega)
          valid rest).trans ?_
        rw [show (c.val.toNat / 4096 % 16 * 64 + c.val.toNat / 64 % 64) * 64 +
          c.val.toNat % 64 = c.val.toNat by omega, back]
        rfl
      · next four =>
        refine (decodeFrom_four (by omega) (by omega) (by omega) (by omega) (by omega) (by omega)
          valid rest).trans ?_
        rw [show ((c.val.toNat / 262144 % 8 * 64 + c.val.toNat / 4096 % 64) * 64 +
          c.val.toNat / 64 % 64) * 64 + c.val.toNat % 64 = c.val.toNat by omega, back]
        rfl

theorem encode_cons (c : Char) (s : List Char) :
    encode (c :: s) = String.utf8EncodeChar c ++ encode s := rfl

theorem decodeFrom_encode (s : List Char) (valid : Nat) :
    decodeFrom valid (encode s) = .ok s := by
  induction s generalizing valid with
  | nil => rfl
  | cons c s ih =>
      rw [encode_cons, decodeFrom_encodeChar, ih]
      rfl

theorem decode_encode_chars (s : List Char) : decode (encode s) = .ok s :=
  decodeFrom_encode s 0

theorem decodeString_encodeString (s : String) : decodeString (encodeString s) = .ok s := by
  rw [decodeString, encodeString, decode_encode_chars]
  simp [Except.map]

theorem encodeString_injective : Function.Injective encodeString := by
  intro s t same
  have read : decodeString (encodeString s) = .ok t := by rw [same, decodeString_encodeString]
  exact Except.ok.inj ((decodeString_encodeString s).symm.trans read)

theorem encodeChar_one {c : Char} (small : c.toNat < 0x80) :
    String.utf8EncodeChar c = [UInt8.ofNat c.toNat] := by
  have value : c.val.toNat ≤ 0x7F := Nat.le_of_lt_succ small
  simp only [String.utf8EncodeChar, value, if_true]
  rfl

theorem exists_encodeChar {c : Char} (large : 0x80 ≤ c.toNat) :
    ∃ n rest, String.utf8EncodeChar c = UInt8.ofNat n :: rest ∧ 0x80 ≤ n ∧ n < 256 := by
  have value : ¬ c.val.toNat ≤ 0x7F := Nat.not_le.mpr large
  simp only [String.utf8EncodeChar, value, if_false]
  split
  · exact ⟨_, _, rfl, by omega, by omega⟩
  · split <;> exact ⟨_, _, rfl, by omega, by omega⟩

end Rehearsal.Utf8
