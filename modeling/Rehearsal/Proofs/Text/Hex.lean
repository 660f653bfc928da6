import Mathlib.Tactic.ByContra
import Rehearsal.Proofs.Text.Utf8
import Rehearsal.Text.Blank
import Rehearsal.Text.Hex

namespace Rehearsal

/-! Hexadecimal text and the octets it denotes: reading digits and writing the octets again gives
the same digits in lower case. -/

namespace Text

theorem toNat_lt_of_digitValue? {c : Char} {d : Nat} (digit : digitValue? c = some d) :
    c.toNat < 0x80 := by
  unfold digitValue? at digit
  split at digit
  · next range => exact Nat.lt_of_le_of_lt range.2 (by decide)
  · split at digit
    · next range => exact Nat.lt_of_le_of_lt range.2 (by decide)
    · split at digit
      · next range => exact Nat.lt_of_le_of_lt range.2 (by decide)
      · contradiction

theorem forall_ascii {p : Char → Prop} (table : ∀ n : Fin 128, p (Char.ofNat n.val)) {c : Char}
    (ascii : c.toNat < 0x80) : p c := by
  have entry := table ⟨c.toNat, ascii⟩
  rwa [Char.ofNat_toNat] at entry

theorem digitChar_of_digitValue? {c : Char} {d : Nat} (digit : digitValue? c = some d) :
    d < 16 ∧ Nat.digitChar d = c.toLower :=
  forall_ascii (p := fun c => ∀ d ∈ digitValue? c, d < 16 ∧ Nat.digitChar d = c.toLower)
    (by decide) (toNat_lt_of_digitValue? digit) d digit

theorem exists_digitValue? {c : Char} (hex : isHexadecimal c = true) :
    ∃ d, digitValue? c = some d ∧ d < 16 := by
  obtain ⟨d, digit⟩ := Option.isSome_iff_exists.mp hex
  exact ⟨d, digit, (digitChar_of_digitValue? digit).1⟩

theorem isHexadecimal_iff {c : Char} :
    isHexadecimal c = true ↔ ∃ d, digitValue? c = some d ∧ d < 16 := by
  constructor
  · exact exists_digitValue?
  · rintro ⟨d, digit, -⟩
    rw [isHexadecimal, digit]
    rfl

theorem ink_of_isHexadecimal {c : Char} (hex : isHexadecimal c = true) :
    isBlank c = false ∧ c ≠ 'x' ∧ c ≠ 'X' := by
  obtain ⟨d, digit, -⟩ := exists_digitValue? hex
  exact forall_ascii
    (p := fun c => isHexadecimal c = true → isBlank c = false ∧ c ≠ 'x' ∧ c ≠ 'X')
    (by decide) (toNat_lt_of_digitValue? digit) hex

theorem not_hexadecimal_of_mark {digits : List Char} :
    ¬∀ c ∈ '0' :: 'x' :: digits, isHexadecimal c = true := by
  intro hex
  exact (ink_of_isHexadecimal (hex 'x' (by simp))).2.1 rfl

end Text

namespace Hex

def lowerOctet (b : UInt8) : Char :=
  (Char.ofNat b.toNat).toLower

theorem octetValue?_lt {b : UInt8} {d : Nat} (digit : octetValue? b = some d) : b < 0x80 := by
  by_contra large
  have upper : ∀ n : Fin 128, Text.digitValue? (Char.ofNat (n.val + 0x80)) = none := by decide
  rw [UInt8.lt_iff_toNat_lt] at large
  have bound : 0x80 ≤ b.toNat := Nat.not_lt.mp large
  have none := upper ⟨b.toNat - 0x80, by have := b.toNat_lt; omega⟩
  rw [Nat.sub_add_cancel bound] at none
  rw [octetValue?, none] at digit
  contradiction

theorem encode_cons (b : UInt8) (bytes : List UInt8) :
    encode (b :: bytes) = digit (b.toNat / 16) :: digit (b.toNat % 16) :: encode bytes := rfl

@[simp] theorem length_encode (bytes : List UInt8) : (encode bytes).length = 2 * bytes.length := by
  induction bytes with
  | nil => rfl
  | cons b bytes ih =>
      simp only [encode_cons, List.length_cons, ih]
      omega

theorem encode_append (left right : List UInt8) :
    encode (left ++ right) = encode left ++ encode right := by
  simp [encode]

theorem encode_replicate_zero (count : Nat) :
    encode (List.replicate count 0) = List.replicate (2 * count) '0' := by
  induction count with
  | zero => rfl
  | succ count ih =>
      rw [List.replicate_succ, encode_cons, ih, Nat.mul_succ, List.replicate_succ,
        List.replicate_succ]
      rfl

theorem encode_of_decodePairs {octets bytes : List UInt8} {position : Nat}
    (even : octets.length % 2 = 0) (read : decodePairs position octets = .ok bytes) :
    encode bytes = octets.map lowerOctet ∧ ∀ b ∈ octets, b < 0x80 := by
  fun_induction decodePairs position octets generalizing bytes with
  | case1 position hi lo rest h l loDigit hiDigit tail tailRead ih =>
      cases read
      obtain ⟨tailText, tailAscii⟩ := ih (by simp at even; omega) tailRead
      obtain ⟨hSmall, hText⟩ := Text.digitChar_of_digitValue? hiDigit
      obtain ⟨lSmall, lText⟩ := Text.digitChar_of_digitValue? loDigit
      have value : (UInt8.ofNat (h * 16 + l)).toNat = h * 16 + l :=
        Utf8.toNat_ofNat_lt (by omega)
      refine ⟨?_, ?_⟩
      · rw [encode_cons, value, show (h * 16 + l) / 16 = h by omega,
          show (h * 16 + l) % 16 = l by omega, tailText]
        simp only [List.map_cons, lowerOctet, ← hText, ← lText]
        rfl
      · intro b member
        simp only [List.mem_cons] at member
        rcases member with rfl | rfl | member
        · exact octetValue?_lt hiDigit
        · exact octetValue?_lt loDigit
        · exact tailAscii b member
  | case2 => contradiction
  | case3 => contradiction
  | case4 => contradiction
  | case5 octets position short =>
      cases read
      match octets, short with
      | [], _ => exact ⟨rfl, fun b member => absurd member List.not_mem_nil⟩
      | [b], _ => simp at even
      | hi :: lo :: rest, short => exact absurd rfl (short hi lo rest)

theorem map_lowerOctet_encode {text : List Char}
    (ascii : ∀ b ∈ Utf8.encode text, b < 0x80) :
    (Utf8.encode text).map lowerOctet = Text.lower text := by
  induction text with
  | nil => rfl
  | cons c text ih =>
      rw [Utf8.encode_cons] at ascii ⊢
      have small : c.toNat < 0x80 := by
        by_contra large
        obtain ⟨n, rest, octets, lower, upper⟩ :=
          Utf8.exists_encodeChar (Nat.not_lt.mp large)
        exact Utf8.not_lt_ofNat lower upper (ascii _ (by simp [octets]))
      have value : (UInt8.ofNat c.toNat).toNat = c.toNat := Utf8.toNat_ofNat_lt (by omega)
      rw [List.map_append, ih fun b member => ascii b (List.mem_append_right _ member),
        Utf8.encodeChar_one small]
      simp only [List.map_cons, List.map_nil, lowerOctet, value, Char.ofNat_toNat]
      rfl

theorem encode_of_decode {text : List Char} {bytes : List UInt8}
    (read : decode text = .ok bytes) : encode bytes = Text.lower text := by
  simp only [decode] at read
  split at read
  · next even =>
    obtain ⟨written, ascii⟩ := encode_of_decodePairs even read
    rw [written, map_lowerOctet_encode ascii]
  · contradiction

theorem decode_eq_ok_nil_iff {text : List Char} : decode text = .ok [] ↔ text = [] := by
  constructor
  · intro read
    exact List.map_eq_nil_iff.mp (encode_of_decode read).symm
  · rintro rfl
    rfl

/-! Octets that have been written are read again. -/

theorem digit_spec {n : Nat} (small : n < 16) :
    (digit n).toNat < 0x80 ∧ octetValue? (UInt8.ofNat (digit n).toNat) = some n := by
  have table : ∀ n : Fin 16, (digit n.val).toNat < 0x80 ∧
      octetValue? (UInt8.ofNat (digit n.val).toNat) = some n.val := by decide
  exact table ⟨n, small⟩

theorem encode_digits_cons (b : UInt8) (bytes : List UInt8) :
    Utf8.encode (encode (b :: bytes)) = UInt8.ofNat (digit (b.toNat / 16)).toNat ::
      UInt8.ofNat (digit (b.toNat % 16)).toNat :: Utf8.encode (encode bytes) := by
  have octet := b.toNat_lt
  have high := digit_spec (n := b.toNat / 16) (by omega)
  have low := digit_spec (n := b.toNat % 16) (by omega)
  rw [encode_cons, Utf8.encode_cons, Utf8.encode_cons, Utf8.encodeChar_one high.1,
    Utf8.encodeChar_one low.1]
  rfl

theorem length_octets_encode (bytes : List UInt8) :
    (Utf8.encode (encode bytes)).length = 2 * bytes.length := by
  induction bytes with
  | nil => rfl
  | cons b bytes ih =>
      rw [encode_digits_cons, List.length_cons, List.length_cons, ih, List.length_cons]
      omega

theorem decodePairs_encode (bytes : List UInt8) (position : Nat) :
    decodePairs position (Utf8.encode (encode bytes)) = .ok bytes := by
  induction bytes generalizing position with
  | nil => rfl
  | cons b bytes ih =>
      have octet := b.toNat_lt
      have high := digit_spec (n := b.toNat / 16) (by omega)
      have low := digit_spec (n := b.toNat % 16) (by omega)
      have whole : b.toNat / 16 * 16 + b.toNat % 16 = b.toNat := by omega
      rw [encode_digits_cons, decodePairs, high.2, low.2]
      simp only [ih, whole, UInt8.ofNat_toNat]

theorem decode_encode_octets (bytes : List UInt8) : decode (encode bytes) = .ok bytes := by
  have even : (Utf8.encode (encode bytes)).length % 2 = 0 := by
    rw [length_octets_encode]
    omega
  rw [decode, if_pos even]
  exact decodePairs_encode bytes 0

theorem marked_injective : Function.Injective marked := by
  intro left right same
  have digits : encode left = encode right :=
    (List.cons.inj (List.cons.inj (String.ofList_injective same)).2).2
  have read : decode (encode left) = .ok right := by rw [digits, decode_encode_octets]
  exact Except.ok.inj ((decode_encode_octets left).symm.trans read)

theorem isHexadecimal_of_mem_encode {bytes : List UInt8} {c : Char} (member : c ∈ encode bytes) :
    Text.isHexadecimal c = true := by
  have table : ∀ n : Fin 16, Text.isHexadecimal (digit n.val) = true := by decide
  obtain ⟨b, -, written⟩ := List.mem_flatMap.mp member
  have octet := b.toNat_lt
  simp only [List.mem_cons, List.not_mem_nil, or_false] at written
  rcases written with rfl | rfl
  · exact table ⟨b.toNat / 16, by omega⟩
  · exact table ⟨b.toNat % 16, by omega⟩

/-! An even number of digits is read, whatever their case. -/

theorem encode_cons_of_digit {c : Char} (hex : Text.isHexadecimal c = true) (rest : List Char) :
    Utf8.encode (c :: rest) = UInt8.ofNat c.toNat :: Utf8.encode rest ∧
      octetValue? (UInt8.ofNat c.toNat) = Text.digitValue? c := by
  obtain ⟨d, digit⟩ := Option.isSome_iff_exists.mp hex
  have small := Text.toNat_lt_of_digitValue? digit
  constructor
  · rw [Utf8.encode_cons, Utf8.encodeChar_one small]
    rfl
  · rw [octetValue?, Utf8.toNat_ofNat_lt (by omega), Char.ofNat_toNat]

theorem length_octets_digits {digits : List Char}
    (hex : ∀ c ∈ digits, Text.isHexadecimal c = true) :
    (Utf8.encode digits).length = digits.length := by
  induction digits with
  | nil => rfl
  | cons c rest ih =>
      obtain ⟨first, others⟩ := List.forall_mem_cons.mp hex
      rw [(encode_cons_of_digit first rest).1, List.length_cons, ih others, List.length_cons]

theorem exists_decodePairs {digits : List Char} (even : digits.length % 2 = 0)
    (hex : ∀ c ∈ digits, Text.isHexadecimal c = true) (position : Nat) :
    ∃ bytes, decodePairs position (Utf8.encode digits) = .ok bytes := by
  match digits, even, hex with
  | [], _, _ => exact ⟨[], rfl⟩
  | hi :: lo :: rest, even, hex =>
      obtain ⟨hiHex, hex⟩ := List.forall_mem_cons.mp hex
      obtain ⟨loHex, hex⟩ := List.forall_mem_cons.mp hex
      obtain ⟨hiOctet, hiValue⟩ := encode_cons_of_digit hiHex (lo :: rest)
      obtain ⟨loOctet, loValue⟩ := encode_cons_of_digit loHex rest
      obtain ⟨h, hiDigit⟩ := Option.isSome_iff_exists.mp hiHex
      obtain ⟨l, loDigit⟩ := Option.isSome_iff_exists.mp loHex
      simp only [List.length_cons] at even
      obtain ⟨bytes, read⟩ := exists_decodePairs (by omega) hex (position + 2)
      refine ⟨UInt8.ofNat (h * 16 + l) :: bytes, ?_⟩
      rw [hiOctet, loOctet, decodePairs, hiValue, hiDigit, loValue, loDigit]
      simp only [read]

theorem exists_decode {digits : List Char} (even : digits.length % 2 = 0)
    (hex : ∀ c ∈ digits, Text.isHexadecimal c = true) : ∃ bytes, decode digits = .ok bytes := by
  rw [decode, if_pos (by rwa [length_octets_digits hex])]
  exact exists_decodePairs even hex 0

end Hex

end Rehearsal
