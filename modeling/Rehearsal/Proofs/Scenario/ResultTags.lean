import Rehearsal.Proofs.Abi.Plain
import Rehearsal.Proofs.Scenario.IntegerTags

namespace Rehearsal

/-! Results pass for what they are declared as. The decoder writes each value in the form by which the
check of its type knows it, whatever data it was read from. -/

def AbiType.tag? : AbiType → Option ReturnType
  | .uint _ => some .uint
  | .int _ => some .int
  | .bool => some .bool
  | .address => some .address
  | .bytes => some .bytes
  | .fixedBytes _ => some .bytes
  | .string => some .string
  | _ => none

/-- The integer that a word stands for in two's complement. -/
def Word.signed (word : List UInt8) : Int :=
  (BitVec.ofNat 256 (ofBigEndian word)).toInt

namespace Abi

variable {data word : List UInt8} {value : Json} {type : AbiType}

theorem signedJson_eq_integerJson (count : word.length = 32) :
    signedJson (Word.ofBigEndian word) = integerJson (Word.signed word) := by
  have small : Word.ofBigEndian word < 2 ^ 256 := by
    have bound := Word.ofBigEndian_lt word
    rwa [count] at bound
  have limit : (Word.limit : Int) = 2 ^ 256 := by decide
  have unsigned : (BitVec.ofNat 256 (Word.ofBigEndian word)).toNat = Word.ofBigEndian word := by
    rw [BitVec.toNat_ofNat, Nat.mod_eq_of_lt small]
  have low : -2 ^ 255 ≤ Word.signed word := BitVec.le_toInt _
  have high : Word.signed word < 2 ^ 255 := BitVec.toInt_lt
  have back : Word.ofBigEndian word = (Word.signed word % Word.limit).toNat := by
    rw [limit, Word.signed, BitVec.toInt_eq_toNat_cond, unsigned]
    split
    · omega
    · omega
  rw [back, signedJson_emod low high]

theorem Function.decodeValue_of_decodeOutput {f : Function} {param : Param}
    (single : f.outputs = [param]) (typed : param.type = .ok type)
    (decoded : f.decodeOutput data = .ok value) :
    ∃ length, decodeValue data type 0 0 = .ok (value, length) := by
  have types : paramTypes f.outputs = .ok [type] := by
    rw [paramTypes, single, typesOf_cons.mpr ⟨type, [], typed, rfl, rfl⟩]
    rfl
  rw [decodeOutput, types, ok_bind, map_eq_ok] at decoded
  obtain ⟨values, told, rfl⟩ := decoded
  simp only [decode, decodeEach, bind_eq_ok, pure_eq_ok] at told
  obtain ⟨⟨first, length⟩, read, rest, ⟨⟩, rfl⟩ := told
  exact ⟨length, read⟩

end Abi

namespace Normal

theorem denotesInteger_integerJson (n : Int) : DenotesInteger (Abi.integerJson n) n := by
  obtain ⟨sign, m, text, rfl⟩ := exists_sign n
  have decimals : ∀ c ∈ Text.decimal m, Text.isDecimal c = true :=
    fun c member => Text.isDecimal_of_mem_decimal member
  have spells := SpellsDecimal.digits sign (Text.decimal_ne_nil m) decimals
  rw [Text.numeral_decimal] at spells
  refine .text ?_
  rwa [String.toList_ofList, text, Text.trim_of_ink (ink_signed sign decimals)]

theorem admits_marked (bytes : List UInt8) :
    ReturnType.bytes.admits (.string (Hex.marked bytes)) = true ∧
    (bytes.length = 20 → ReturnType.address.admits (.string (Hex.marked bytes)) = true) := by
  have hex : ∀ c ∈ Hex.encode bytes, Text.isHexadecimal c = true :=
    fun c => Hex.isHexadecimal_of_mem_encode
  have isMark : 'x' = 'x' ∨ 'x' = 'X' := .inl rfl
  simp only [ReturnType.admits, Hex.marked, String.toList_ofList,
    Text.trim_of_ink (ink_marked isMark hex), isAddress_marked isMark hex, isHex_marked isMark hex,
    List.length_cons, Hex.length_encode]
  refine ⟨?_, ?_⟩
  · rw [Bool.true_and, beq_iff_eq]
    omega
  · intro twenty
    rw [decide_eq_true_eq]
    omega

end Normal

namespace Abi

open Rehearsal.Normal

variable {data : List UInt8} {value : Json} {type : AbiType}

theorem admits_of_decoded (decoded : Decoded data type value) :
    ∀ tag ∈ type.tag?, tag.admits value = true := by
  intro tag own
  cases decoded with
  | uint read =>
      cases own
      rw [natJson_eq_integerJson, (denotesInteger_integerJson _).admits_uint_iff]
      exact Int.natCast_nonneg _
  | int read =>
      cases own
      rw [signedJson_eq_integerJson (length_of_wordAt read)]
      exact admits_int_iff.mpr ⟨_, denotesInteger_integerJson _⟩
  | bool read =>
      cases own
      rfl
  | address read =>
      cases own
      apply (admits_marked _).2
      rw [List.length_drop, length_of_wordAt read]
  | bytes read =>
      cases own
      exact (admits_marked _).1
  | fixedBytes read =>
      cases own
      exact (admits_marked _).1
  | string read text =>
      cases own
      rfl
  | array counted items => contradiction
  | fixedArray items => contradiction
  | tuple parts => contradiction

/-- What a function with one output returns passes for the type of that output. An unsigned integer
passes for a signed one besides, and a signed one for an unsigned one just when the word that it was
read from stands for no negative number. -/
theorem Function.result_carries_tag {f : Function} {param : Param} (single : f.outputs = [param])
    (typed : param.type = .ok type) (decoded : f.decodeOutput data = .ok value) :
    (∀ tag ∈ type.tag?, tag.admits value = true) ∧
    (∀ bits, type = .uint bits → ReturnType.int.admits value = true) ∧
    ∀ bits, type = .int bits → DenotesInteger value (Word.signed (data.take 32)) ∧
      (ReturnType.uint.admits value = true ↔ 0 ≤ Word.signed (data.take 32)) := by
  obtain ⟨length, read⟩ := decodeValue_of_decodeOutput single typed decoded
  refine ⟨admits_of_decoded (decoded_of_decodeValue read), ?_, ?_⟩
  · rintro bits rfl
    cases decoded_of_decodeValue read with
    | uint _ =>
        rw [natJson_eq_integerJson]
        exact admits_int_iff.mpr ⟨_, denotesInteger_integerJson _⟩
  · rintro bits rfl
    simp only [decodeValue, bind_eq_ok, pure_eq_ok, Prod.mk.injEq] at read
    obtain ⟨word, found, rfl, -⟩ := read
    have count := length_of_wordAt found
    simp only [wordAt, bind_eq_ok, pure_eq_ok] at found
    obtain ⟨_, -, rfl⟩ := found
    rw [signedJson_eq_integerJson count]
    have denotes := denotesInteger_integerJson (Word.signed (slice data 0 32))
    exact ⟨denotes, denotes.admits_uint_iff⟩

def balance : Function :=
  ⟨"balance", [], [⟨"", "int8", [], false⟩], .view, none⟩

def ones : List UInt8 := List.replicate 32 0xFF

set_option maxRecDepth 4000 in
theorem Function.result_carries_tag_of_ones :
    balance.decodeOutput ones = .ok (.string "-1") ∧
      ReturnType.int.admits (.string "-1") = true ∧
      DenotesInteger (.string "-1") (Word.signed ones) ∧ Word.signed ones = -1 ∧
      ReturnType.uint.admits (.string "-1") = false := by
  have decoded : balance.decodeOutput ones = .ok (.string "-1") := rfl
  have typed : Param.type ⟨"", "int8", [], false⟩ = .ok (.int 8) := rfl
  obtain ⟨own, -, signed⟩ := result_carries_tag rfl typed decoded
  obtain ⟨denotes, unsigned⟩ := signed 8 rfl
  have word : Word.signed ones = -1 := by decide
  refine ⟨decoded, own _ rfl, denotes, word, ?_⟩
  rw [Bool.eq_false_iff, ne_eq, unsigned, show ones.take 32 = ones from rfl, word]
  decide

end Abi

end Rehearsal
