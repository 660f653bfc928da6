import Mathlib.Data.Nat.Digits.Defs
import Rehearsal.Address
import Rehearsal.Proofs.Text.Hex
import Rehearsal.Proofs.Text.Numeral

namespace Rehearsal.Address

/-! Addresses made of numbers differ when the numbers do, as long as these fit eight octets. -/

theorem mod_eq_of_octets {m n width : Nat}
    (same : ∀ place, place < width → m / 256 ^ place % 256 = n / 256 ^ place % 256) :
    m % 256 ^ width = n % 256 ^ width := by
  induction width with
  | zero => simp [Nat.mod_one]
  | succ width ih =>
      have lower := ih fun place before => same place (Nat.lt_succ_of_lt before)
      rw [Nat.mod_pow_succ, Nat.mod_pow_succ, lower, same width (Nat.lt_succ_self width)]

theorem octet_ofLow (n : Nat) {place : Nat} (low : place < 8) :
    ((ofLow n).bytes.get ⟨19 - place, by omega⟩).toNat = n / 256 ^ place % 256 := by
  have behind : ¬19 - place < 12 := by omega
  have counted : 19 - (19 - place) = place := by omega
  have entry : (ofLow n).bytes.get ⟨19 - place, by omega⟩ =
      UInt8.ofNat (n / Nat.pow 256 (19 - (19 - place))) := by
    change (Vector.ofFn _)[19 - place] = _
    rw [Vector.getElem_ofFn, if_neg behind]
  rw [entry, counted]
  exact UInt8.toNat_ofNat

theorem ofLow_inj {m n : Nat} (mFits : m < Text.limit64) (nFits : n < Text.limit64) :
    ofLow m = ofLow n ↔ m = n := by
  refine ⟨?_, congrArg ofLow⟩
  intro same
  have octets : ∀ place, place < 8 → m / 256 ^ place % 256 = n / 256 ^ place % 256 := by
    intro place low
    rw [← octet_ofLow m low, ← octet_ofLow n low]
    simp only [same]
  have limit : Text.limit64 = 256 ^ 8 := rfl
  have equal := mod_eq_of_octets octets
  rwa [← limit, Nat.mod_eq_of_lt mFits, Nat.mod_eq_of_lt nFits] at equal

/-! The text of an address is read back. -/

theorem dropPairs_of_notMem {a b : Char} {text : List Char} (absent : b ∉ text) :
    Text.dropPairs a b text = text := by
  match text, absent with
  | [], _ => rfl
  | [_], _ => rfl
  | x :: y :: rest, absent =>
      have differs : ¬(x = a ∧ y = b) := by
        rintro ⟨-, rfl⟩
        exact absent (List.mem_cons_of_mem _ List.mem_cons_self)
      rw [Text.dropPairs, if_neg differs]

theorem ofBytes?_toList (a : Address) : ofBytes? a.bytes.toList = some a := by
  obtain ⟨⟨octets, length⟩⟩ := a
  have same : (Vector.mk octets length).toList = octets.toList := rfl
  simp only [ofBytes?, same, Array.length_toList, length, dif_pos, Array.toArray_toList]

theorem parse?_text (a : Address) : parse? a.text = some a := by
  have letters {c : Char} (member : c ∈ Hex.encode a.bytes.toList) :=
    Text.ink_of_isHexadecimal (Hex.isHexadecimal_of_mem_encode member)
  have ink : ∀ c ∈ '0' :: 'x' :: Hex.encode a.bytes.toList, Text.isBlank c = false :=
    List.forall_mem_cons.mpr ⟨rfl, List.forall_mem_cons.mpr ⟨rfl, fun c member => (letters member).1⟩⟩
  have lower : 'x' ∉ Hex.encode a.bytes.toList := fun member => (letters member).2.1 rfl
  have upper : 'X' ∉ Hex.encode a.bytes.toList := fun member => (letters member).2.2 rfl
  have digits : Text.dropPairs '0' 'X' (Text.dropHexMarks (Text.trim a.text.toList)) =
      Hex.encode a.bytes.toList := by
    rw [text, Hex.marked, String.toList_ofList, Text.trim_of_ink ink, Text.dropHexMarks,
      Text.dropPairs, if_pos ⟨rfl, rfl⟩, dropPairs_of_notMem lower, dropPairs_of_notMem upper]
  have count : (Utf8.encode (Hex.encode a.bytes.toList)).length = 40 := by
    simp [Hex.length_octets_encode]
  rw [parse?]
  simp only [digits, if_pos count, Hex.decode_encode_octets, ofBytes?_toList]

end Rehearsal.Address
