import Rehearsal.Proofs.Scenario.Judgement
import Rehearsal.Proofs.Scenario.Meaning

namespace Rehearsal

/-! Octets compared by their normal forms. The text of one to thirty-two octets, but not of twenty,
is read as a number, so that zeros in front of it are lost. All other octets keep their text. So
octets are told apart from others of the same number always, and from others of another number
unless both are numbers and differ by zeros in front alone. -/

namespace Text

theorem digitValue_toLower {c : Char} (hex : isHexadecimal c = true) :
    digitValue c.toLower = digitValue c := by
  obtain ⟨d, digit, -⟩ := exists_digitValue? hex
  exact forall_ascii
    (p := fun c => isHexadecimal c = true → digitValue c.toLower = digitValue c)
    (by decide) (toNat_lt_of_digitValue? digit) hex

theorem numeral_lower {base : Nat} {digits : List Char}
    (hex : ∀ c ∈ digits, isHexadecimal c = true) :
    numeral base (lower digits) = numeral base digits := by
  induction digits with
  | nil => rfl
  | cons c rest ih =>
      obtain ⟨first, others⟩ := List.forall_mem_cons.mp hex
      have behind := ih others
      rw [lower] at behind ⊢
      rw [List.map_cons, numeral_cons, numeral_cons, digitValue_toLower first, behind,
        List.length_map]

theorem digitValue_digit {n : Nat} (small : n < 16) : digitValue (Hex.digit n) = n := by
  rw [Hex.digit, digitValue, digitValue?_digitChar small, Option.getD_some]

theorem numeral_encode (bytes : List UInt8) :
    numeral 16 (Hex.encode bytes) = Word.ofBigEndian bytes := by
  induction bytes using List.reverseRecOn with
  | nil => rfl
  | append_singleton bytes b ih =>
      have octet := b.toNat_lt
      have last : numeral 16 (Hex.encode [b]) = b.toNat := by
        rw [Hex.encode_cons, numeral_cons, digitValue_digit (by omega)]
        change b.toNat / 16 * 16 ^ 1 + numeral 16 [Hex.digit (b.toNat % 16)] = b.toNat
        rw [numeral_singleton, digitValue_digit (by omega)]
        omega
      rw [Hex.encode_append, numeral_append, ih, last, Hex.length_encode, Word.ofBigEndian_concat]
      rfl

theorem numeral_of_decode {digits : List Char} {bytes : List UInt8}
    (hex : ∀ c ∈ digits, isHexadecimal c = true) (read : Hex.decode digits = .ok bytes) :
    numeral 16 digits = Word.ofBigEndian bytes := by
  rw [← numeral_lower hex, ← Hex.encode_of_decode read, numeral_encode]

end Text

theorem Word.ofBigEndian_injective_of_length {a b : List UInt8} (count : a.length = b.length)
    (same : ofBigEndian a = ofBigEndian b) : a = b := by
  induction a using List.reverseRecOn generalizing b with
  | nil => exact (List.length_eq_zero_iff.mp count.symm).symm
  | append_singleton a x ih =>
      rcases List.eq_nil_or_concat b with rfl | ⟨b, y, rfl⟩
      · simp at count
      · have xOctet := x.toNat_lt
        have yOctet := y.toNat_lt
        rw [List.concat_eq_append] at count same ⊢
        rw [ofBigEndian_concat, ofBigEndian_concat] at same
        have last : x = y := UInt8.toNat_inj.mp (by omega)
        rw [ih (by simpa using count) (by omega), last]

/-- Octets of which the text is read as a number. -/
def IsQuantity (bytes : List UInt8) : Prop :=
  bytes ≠ [] ∧ bytes.length ≤ 32 ∧ bytes.length ≠ 20

/-- Octets that differ at most by zeros in front, all of them read as numbers. -/
structure SameQuantity (a b : List UInt8) : Prop where
  left : IsQuantity a
  right : IsQuantity b
  value : Word.ofBigEndian a = Word.ofBigEndian b

theorem SameQuantity.eq_of_length {a b : List UInt8} (same : SameQuantity a b)
    (count : a.length = b.length) : a = b :=
  Word.ofBigEndian_injective_of_length count same.value

namespace Normal

variable {value other : Json} {bytes : List UInt8} {a b : List UInt8}

theorem chars_of_quantity (spells : SpellsOctets value bytes) (quantity : IsQuantity bytes) :
    chars value = Text.decimal (Word.ofBigEndian bytes) := by
  cases spells with
  | @marked s digits _ marked read =>
      obtain ⟨some, most, noAddress⟩ := quantity
      have count := length_of_decode read
      have positive := List.length_pos_iff.mpr some
      have digit : digits ≠ [] := List.length_pos_iff.mp (by omega)
      rw [marked.chars_of_number digit (by omega) (by omega),
        Text.numeral_of_decode marked.hexadecimal read]

theorem chars_of_not_quantity (spells : SpellsOctets value bytes) (raw : ¬IsQuantity bytes) :
    ∃ mark digits, chars value = '0' :: mark :: digits ∧ Hex.decode digits = .ok bytes := by
  cases spells with
  | @marked s digits _ marked read =>
      have count := length_of_decode read
      by_cases forty : digits.length = 40
      · refine ⟨'x', _, marked.chars_of_forty forty, ?_⟩
        rw [← Hex.encode_of_decode read, Hex.decode_encode_octets]
      · have other : digits = [] ∨ 64 < digits.length := by
          by_contra neither
          obtain ⟨some, most⟩ := not_or.mp neither
          have positive := List.length_pos_iff.mpr some
          exact raw ⟨List.length_pos_iff.mp (by omega), by omega, by omega⟩
        obtain ⟨mark, -, whole⟩ := marked.chars_of_other other
        exact ⟨mark, digits, whole, read⟩

theorem octets_of_normalize_eq (spells : SpellsOctets value a) (otherSpells : SpellsOctets other b)
    (same : normalize value = normalize other) : a = b ∨ SameQuantity a b := by
  have notBoth (n : Nat) (mark : Char) (rest : List Char) :
      Text.decimal n ≠ '0' :: mark :: rest := by
    intro marked
    cases Text.decimal_of_head_zero marked
  rw [normalize_eq_iff] at same
  by_cases quantity : IsQuantity a
  · rw [chars_of_quantity spells quantity] at same
    by_cases otherQuantity : IsQuantity b
    · rw [chars_of_quantity otherSpells otherQuantity] at same
      exact .inr ⟨quantity, otherQuantity, Text.decimal_injective same⟩
    · obtain ⟨mark, digits, text, -⟩ := chars_of_not_quantity otherSpells otherQuantity
      exact absurd (same.trans text) (notBoth _ _ _)
  · obtain ⟨mark, digits, text, read⟩ := chars_of_not_quantity spells quantity
    rw [text] at same
    by_cases otherQuantity : IsQuantity b
    · rw [chars_of_quantity otherSpells otherQuantity] at same
      exact absurd same.symm (notBoth _ _ _)
    · obtain ⟨otherMark, otherDigits, otherText, otherRead⟩ :=
        chars_of_not_quantity otherSpells otherQuantity
      obtain ⟨-, rfl, rfl⟩ : '0' = '0' ∧ mark = otherMark ∧ digits = otherDigits := by
        simpa using same.trans otherText
      exact .inl (Except.ok.inj (read.symm.trans otherRead))

theorem normalize_eq_of_sameQuantity (spells : SpellsOctets value a)
    (otherSpells : SpellsOctets other b) (same : SameQuantity a b) :
    normalize value = normalize other := by
  rw [normalize_eq_iff, chars_of_quantity spells same.left,
    chars_of_quantity otherSpells same.right, same.value]

theorem normalize_marked_eq_iff :
    normalize (.string (Hex.marked a)) = normalize (.string (Hex.marked b)) ↔
      a = b ∨ SameQuantity a b := by
  have spells := spellsOctets_marked a
  have otherSpells := spellsOctets_marked b
  constructor
  · exact octets_of_normalize_eq spells otherSpells
  · rintro (rfl | same)
    · rfl
    · exact normalize_eq_of_sameQuantity spells otherSpells same

end Normal

/-! Octets in the outcome of a step. -/

/-- A value of the outcome and the value that the expectation declares for it: what was returned, or
an argument of an event. -/
inductive Compared (e : Expectation) (r : Resolver) (o : Outcome) :
    (got expected : Json) → Prop where
  | returnValue {got expected : Json} (declared : e.returnValue = some expected)
      (returned : o.returnValue = some got) : Compared e r o got expected
  | argument {events : List EventExpectation} {index : Nat} {event : EventExpectation}
      {seen : EmittedEvent} {key : String} {declared got expected : Json}
      (listed : e.events = some events) (placed : events[index]? = some event)
      (shown : o.emittedEvents[index]? = some seen) (named : (key, declared) ∈ event.args)
      (resolved : r.resolve declared = .ok expected) (found : seen.args.get? key = some got) :
      Compared e r o got expected

theorem Compared.same {e : Expectation} {r : Resolver} {o : Outcome} {got expected : Json}
    (compared : Compared e r o got expected) (met : e.mismatches r o = []) :
    Normal.normalize got = Normal.normalize expected := by
  have met := Expectation.mismatches_eq_nil_iff.mp met
  cases compared with
  | returnValue declared returned =>
      obtain ⟨other, otherReturned, same⟩ := met.returnValue _ declared
      cases Option.some.inj (returned.symm.trans otherReturned)
      exact same
  | argument listed placed shown named resolved found =>
      obtain ⟨other, otherShown, -, args⟩ := met.events _ listed _ _ placed
      cases Option.some.inj (shown.symm.trans otherShown)
      obtain ⟨_, otherResolved, _, otherFound, same⟩ := args _ named
      cases Except.ok.inj (resolved.symm.trans otherResolved)
      cases Option.some.inj (found.symm.trans otherFound)
      exact same

def AbiType.TellsOctets (type : AbiType) : Prop :=
  type = .bytes ∨ ∃ size, type = .fixedBytes size

theorem Abi.exists_octets_of_decodeValue {data : List UInt8} {type : AbiType}
    {base position length : Nat} {value : Json} (octets : type.TellsOctets)
    (decoded : decodeValue data type base position = .ok (value, length)) :
    ∃ bytes, value = .string (Hex.marked bytes) := by
  have source := decoded_of_decodeValue decoded
  rcases octets with rfl | ⟨size, rfl⟩
  · cases source with
    | bytes read => exact ⟨_, rfl⟩
  · cases source with
    | fixedBytes read => exact ⟨_, rfl⟩

/-- The texts of octets have one normal form just when the octets are the same, or quantities that
differ at most by zeros in front. So a step that meets its expectation has told the expected octets,
or such a quantity in place of another one. -/
theorem octets_told_up_to_zeros :
    (∀ a b : List UInt8,
      (Normal.normalize (.string (Hex.marked a)) = Normal.normalize (.string (Hex.marked b)) ↔
        a = b ∨ SameQuantity a b) ∧
      (SameQuantity a b → a.length = b.length → a = b)) ∧
    ∀ (data : List UInt8) (type : AbiType) (base position : Nat) (got : Json) (length : Nat),
      type.TellsOctets → Abi.decodeValue data type base position = .ok (got, length) →
      ∃ a, got = .string (Hex.marked a) ∧
        ∀ (e : Expectation) (r : Resolver) (o : Outcome) (expected : Json) (b : List UInt8),
          e.mismatches r o = [] → Compared e r o got expected →
          Normal.SpellsOctets expected b → a = b ∨ SameQuantity a b := by
  refine ⟨fun a b => ⟨Normal.normalize_marked_eq_iff, SameQuantity.eq_of_length⟩, ?_⟩
  intro data type base position got length octets decoded
  obtain ⟨a, rfl⟩ := Abi.exists_octets_of_decodeValue octets decoded
  refine ⟨a, rfl, ?_⟩
  intro e r o expected b met compared spells
  exact Normal.octets_of_normalize_eq (Normal.spellsOctets_marked a) spells (compared.same met)

def pairWord : List UInt8 := 0 :: 1 :: List.replicate 30 0

def toldOctets (bytes : List UInt8) : Outcome :=
  { Outcome.success with returnValue := some (.string (Hex.marked bytes)) }

theorem mismatches_toldOctets {bytes : List UInt8} {value : Json}
    (same : Normal.normalize (.string (Hex.marked bytes)) = Normal.normalize value) (r : Resolver) :
    (Expectation.returning value).mismatches r (toldOctets bytes) = [] := by
  rw [Expectation.mismatches_eq_nil_iff]
  refine ⟨rfl, ?_, nofun, nofun, nofun⟩
  rintro _ ⟨rfl⟩
  exact ⟨_, rfl, same⟩

theorem octets_told_of_pair :
    Abi.decodeValue pairWord (.fixedBytes 2) 0 0 = .ok (.string (Hex.marked [0, 1]), 32) ∧
    ∀ r, (Expectation.returning (.string "0X0001")).mismatches r (toldOctets [0, 1]) = [] ∧
      ∃ a, Hex.marked [0, 1] = Hex.marked a ∧ (a = [0, 1] ∨ SameQuantity a [0, 1]) := by
  have decoded : Abi.decodeValue pairWord (.fixedBytes 2) 0 0
      = .ok (.string (Hex.marked [0, 1]), 32) := rfl
  have spells : Normal.SpellsOctets (.string "0X0001") [0, 1] :=
    @Normal.SpellsOctets.marked _ "0001".toList _
      ⟨⟨'X', .inr rfl, [], [], by decide, nofun, nofun⟩, List.all_eq_true.mp rfl⟩ rfl
  have quantity : IsQuantity [0, 1] := ⟨List.cons_ne_nil _ _, by decide, by decide⟩
  have same := Normal.normalize_eq_of_sameQuantity (Normal.spellsOctets_marked [0, 1]) spells
    ⟨quantity, quantity, rfl⟩
  refine ⟨decoded, ?_⟩
  intro r
  have met := mismatches_toldOctets same r
  obtain ⟨a, text, told⟩ := octets_told_up_to_zeros.2 _ _ _ _ _ _ (.inr ⟨2, rfl⟩) decoded
  exact ⟨met, a, Json.string.inj text, told _ r _ _ _ met (.returnValue rfl rfl) spells⟩

theorem zeros_not_told :
    Normal.normalize (.string (Hex.marked [0])) = Normal.normalize (.string (Hex.marked [0, 0])) ∧
      ([0] : List UInt8) ≠ [0, 0] ∧
      ∀ r, (Expectation.returning (.string (Hex.marked [0, 0]))).mismatches r (toldOctets [0])
        = [] :=
  ⟨rfl, by decide, mismatches_toldOctets rfl⟩

end Rehearsal
