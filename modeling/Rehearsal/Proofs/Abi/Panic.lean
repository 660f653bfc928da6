import Rehearsal.Abi.Revert
import Rehearsal.Proofs.Text.Hex
import Rehearsal.Proofs.Text.Numeral
import Rehearsal.Proofs.Text.Search

namespace Rehearsal.Abi

/-! What is told of a panic. Its code is a word, but only the last eight octets of the word are read.
The number that they make up can be read off the text, and the panic is called by a name just when this
number is the code that the name stands for. The octets in front of them leave no trace. -/

inductive NamedPanic where
  | assertion
  | arithmetic
  | division
  | enumeration
  | storage
  | emptyArray
  | outOfBounds
  | outOfMemory
  | missingFunction
  deriving DecidableEq, Repr

namespace NamedPanic

def code : NamedPanic → Nat
  | assertion => 0x01
  | arithmetic => 0x11
  | division => 0x12
  | enumeration => 0x21
  | storage => 0x22
  | emptyArray => 0x31
  | outOfBounds => 0x32
  | outOfMemory => 0x41
  | missingFunction => 0x51

def name : NamedPanic → String
  | assertion => "assertion failed"
  | arithmetic => "arithmetic overflow or underflow"
  | division => "division or modulo by zero"
  | enumeration => "invalid enum conversion"
  | storage => "corrupted storage byte array"
  | emptyArray => "pop on empty array"
  | outOfBounds => "array index out of bounds"
  | outOfMemory => "out of memory"
  | missingFunction => "call to zero-initialized function"

theorem name_injective : Function.Injective name := by
  intro p q
  cases p <;> cases q <;> decide

theorem name_ne_unknown (p : NamedPanic) : p.name ≠ "unknown panic" := by
  cases p <;> decide

end NamedPanic

def panicData (code : Nat) : List UInt8 :=
  panicSelector ++ Word.bytes code

/-- The text tells of a panic by a name and a code, the code in hexadecimal digits. -/
def TellsPanic (text name : String) (code : Nat) : Prop :=
  ∃ digits, (∀ c ∈ digits, Text.isHexadecimal c = true) ∧ Text.numeral 16 digits = code ∧
    text = "panic: " ++ name ++ " (0x" ++ String.ofList digits ++ ")"

variable {text name otherName : String} {code other : Nat}

/-! Names. -/

theorem panicDescription_code (p : NamedPanic) : panicDescription p.code = p.name := by
  cases p <;> rfl

theorem panicDescription_of_unnamed (unnamed : ∀ p : NamedPanic, code ≠ p.code) :
    panicDescription code = "unknown panic" :=
  (if_neg (unnamed .assertion)).trans <| (if_neg (unnamed .arithmetic)).trans <|
  (if_neg (unnamed .division)).trans <| (if_neg (unnamed .enumeration)).trans <|
  (if_neg (unnamed .storage)).trans <| (if_neg (unnamed .emptyArray)).trans <|
  (if_neg (unnamed .outOfBounds)).trans <| (if_neg (unnamed .outOfMemory)).trans <|
  if_neg (unnamed .missingFunction)

theorem panicDescription_eq_name_iff {p : NamedPanic} :
    panicDescription code = p.name ↔ code = p.code := by
  constructor
  · intro called
    by_cases named : ∃ q : NamedPanic, code = q.code
    · obtain ⟨q, rfl⟩ := named
      rw [panicDescription_code] at called
      rw [NamedPanic.name_injective called]
    · rw [not_exists] at named
      rw [panicDescription_of_unnamed named] at called
      exact absurd called.symm p.name_ne_unknown
  · rintro rfl
    exact panicDescription_code p

theorem panicDescription_eq_unknown_iff :
    panicDescription code = "unknown panic" ↔ ∀ p : NamedPanic, code ≠ p.code := by
  constructor
  · rintro called p rfl
    rw [panicDescription_code] at called
    exact p.name_ne_unknown called
  · exact panicDescription_of_unnamed

/-! Texts. -/

theorem TellsPanic.split (tells : TellsPanic text name code) :
    ∃ digits, Text.numeral 16 digits = code ∧ Text.splitAtLast? '(' text.toList =
      some ("panic: ".toList ++ name.toList ++ [' '], ['0', 'x'] ++ digits ++ [')']) := by
  obtain ⟨digits, hex, denoted, rfl⟩ := tells
  -- A name may have brackets in it, but behind the one in front of the code there is none.
  have noBracket : '(' ∉ digits := fun member => Bool.false_ne_true (hex _ member)
  refine ⟨digits, denoted, ?_⟩
  rw [Text.splitAtLast?_eq_some_iff]
  exact ⟨by simp, by simp [noBracket]⟩

theorem TellsPanic.unique (tells : TellsPanic text name code)
    (tellsOther : TellsPanic text otherName other) : name = otherName ∧ code = other := by
  obtain ⟨digits, rfl, split⟩ := tells.split
  obtain ⟨others, rfl, splitOther⟩ := tellsOther.split
  obtain ⟨names, codes⟩ := Prod.ext_iff.mp (Option.some.inj (split.symm.trans splitOther))
  constructor
  · exact String.toList_inj.mp (List.append_cancel_left (List.append_cancel_right names))
  · rw [List.append_cancel_left (List.append_cancel_right codes)]

theorem tellsPanic_panicText (word : List UInt8) : TellsPanic (panicText word)
    (panicDescription (Word.ofBigEndian word % Text.limit64))
    (Word.ofBigEndian word % Text.limit64) := by
  unfold panicText
  generalize Word.ofBigEndian word % Text.limit64 = code
  obtain ⟨each, denoted⟩ := Text.readDigits_eq_some_iff.mp (Text.readDigits_hexadecimal 2 code)
  refine ⟨Text.hexadecimal 2 code, ?_, denoted, rfl⟩
  exact fun c member => Text.isHexadecimal_iff.mpr (each c member)

/-! Revert data. -/

theorem decodeRevert?_panicData (code : Nat) :
    decodeRevert? (panicData code) = some (panicText (Word.bytes code)) := by
  have selector (word : List UInt8) : (panicSelector ++ word).take 4 = panicSelector := rfl
  have payload (word : List UInt8) : (panicSelector ++ word).drop 4 = word := rfl
  have length : (Word.bytes code).length = 32 := Word.length_bigEndian 32 code
  have noMessage : panicSelector ≠ messageSelector := by decide
  rw [panicData, decodeRevert?, selector, payload, if_neg noMessage, if_pos rfl, length,
    if_neg (Nat.lt_irrefl 32), List.take_of_length_le (Nat.le_of_eq length)]

theorem ofBigEndian_bytes_mod (code : Nat) :
    Word.ofBigEndian (Word.bytes code) % Text.limit64 = code % 2 ^ 64 := by
  have divides : 2 ^ 64 ∣ Nat.pow 256 32 := ⟨2 ^ 192, by decide⟩
  rw [Word.bytes, Word.ofBigEndian_bigEndian]
  exact Nat.mod_mod_of_dvd code divides

theorem decodeRevert?_panicData_congr (same : code % 2 ^ 64 = other % 2 ^ 64) :
    decodeRevert? (panicData code) = decodeRevert? (panicData other) := by
  rw [decodeRevert?_panicData, decodeRevert?_panicData, panicText, panicText,
    ofBigEndian_bytes_mod, ofBigEndian_bytes_mod, same]

theorem tellsPanic_panicData (code : Nat) : ∃ text, decodeRevert? (panicData code) = some text ∧
    TellsPanic text (panicDescription (code % 2 ^ 64)) (code % 2 ^ 64) := by
  have tells := tellsPanic_panicText (Word.bytes code)
  rw [ofBigEndian_bytes_mod] at tells
  exact ⟨_, decodeRevert?_panicData code, tells⟩

example : decodeRevert? (panicSelector ++ Word.bytes 0x11) =
    some "panic: arithmetic overflow or underflow (0x11)" := by decide +kernel

/-- Panics are told alike just when their codes agree in the last 64 bits. What is told of a panic is
the number that these bits are, by the name that this number stands for, or as unknown when it stands
for none. -/
theorem panics_told_alike_iff (code other : Nat) :
    (decodeRevert? (panicData code) = decodeRevert? (panicData other) ↔
      code % 2 ^ 64 = other % 2 ^ 64) ∧
    ∃ text name, decodeRevert? (panicData code) = some text ∧
      TellsPanic text name (code % 2 ^ 64) ∧
      (∀ p : NamedPanic, name = p.name ↔ code % 2 ^ 64 = p.code) ∧
      (name = "unknown panic" ↔ ∀ p : NamedPanic, code % 2 ^ 64 ≠ p.code) := by
  obtain ⟨text, told, tells⟩ := tellsPanic_panicData code
  obtain ⟨otherText, otherTold, otherTells⟩ := tellsPanic_panicData other
  refine ⟨⟨?_, decodeRevert?_panicData_congr⟩, text, _, told, tells,
    fun p => panicDescription_eq_name_iff, panicDescription_eq_unknown_iff⟩
  intro same
  rw [told, otherTold] at same
  cases same
  exact (tells.unique otherTells).2

theorem panics_not_told_apart :
    ¬∀ code other, code < Word.limit → other < Word.limit →
      decodeRevert? (panicData code) = decodeRevert? (panicData other) → code = other := by
  intro apart
  have same : decodeRevert? (panicData 0x01) = decodeRevert? (panicData (2 ^ 64 + 0x01)) :=
    decodeRevert?_panicData_congr (by decide)
  exact absurd (apart _ _ (by decide) (by decide) same) (by decide)

end Rehearsal.Abi
