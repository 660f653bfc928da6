import Rehearsal.Proofs.Abi.Placement
import Rehearsal.Proofs.Abi.Shape

namespace Rehearsal.Abi

/-! Decoding data of which only the front is there. Each read is checked against the length of the
data before it is made, and finds the same octets in all data that goes on. So whatever is decoded
from the front is decoded from the whole. -/

variable {data whole : List UInt8} {position need count : Nat}

theorem le_of_requireLength (enough : requireLength data need = .ok ()) : need ≤ data.length := by
  unfold requireLength at enough
  split at enough
  · contradiction
  · next notShort => exact Nat.not_lt.mp notShort

theorem requireLength_whole (front : data <+: whole) (need : Nat) :
    SucceedsAlike (requireLength data need) (requireLength whole need) := by
  intro done enough
  exact requireLength_of_le ((le_of_requireLength enough).trans front.length_le)

theorem slice_whole (front : data <+: whole) (within : position + count ≤ data.length) :
    slice whole position count = slice data position count := by
  obtain ⟨more, rfl⟩ := front
  rw [slice, List.drop_append_of_le_length (by omega),
    List.take_append_of_le_length (by rw [List.length_drop]; omega), slice]

theorem wordAt_whole (front : data <+: whole) (position : Nat) :
    SucceedsAlike (wordAt data position) (wordAt whole position) := by
  apply SucceedsAlike.bind (requireLength_whole front (position + 32))
  intro _ enough
  rw [slice_whole front (le_of_requireLength enough)]
  exact .refl _

theorem positionAt_whole (front : data <+: whole) (position : Nat) :
    SucceedsAlike (positionAt data position) (positionAt whole position) :=
  (wordAt_whole front position).bind fun _ _ => .refl _

theorem countedAt_whole (front : data <+: whole) (start : Nat) :
    SucceedsAlike (countedAt data start) (countedAt whole start) := by
  apply SucceedsAlike.bind (positionAt_whole front start)
  intro length _
  apply SucceedsAlike.bind (requireLength_whole front (start + 32 + length))
  intro _ enough
  rw [slice_whole front (le_of_requireLength enough)]
  exact .refl _

/-- Values of a type that are decoded from the front are decoded from the whole. -/
def DecodesAlike (data whole : List UInt8) (type : AbiType) : Prop :=
  ∀ base position,
    SucceedsAlike (decodeValue data type base position) (decodeValue whole type base position)

theorem decodeMany_alike {one other : (position : Nat) → Result (Json × Nat)}
    (each : ∀ position, SucceedsAlike (one position) (other position)) (count position : Nat) :
    SucceedsAlike (decodeMany one count position) (decodeMany other count position) := by
  induction count generalizing position with
  | zero => exact .refl _
  | succ count ih =>
      apply SucceedsAlike.bind (each position)
      rintro ⟨_, length⟩ _
      exact (ih (position + length)).bind fun _ _ => .refl _

theorem decodeEach_alike {types : List AbiType} (each : ∀ type ∈ types, DecodesAlike data whole type)
    (base position : Nat) :
    SucceedsAlike (decodeEach data types base position) (decodeEach whole types base position) := by
  induction types generalizing position with
  | nil => exact .refl _
  | cons type types ih =>
      obtain ⟨first, others⟩ := List.forall_mem_cons.mp each
      apply SucceedsAlike.bind (first base position)
      rintro ⟨_, length⟩ _
      exact (ih others (position + length)).bind fun _ _ => .refl _

theorem decodesAlike (front : data <+: whole) (type : AbiType) :
    DecodesAlike data whole type := by
  induction type with
  | address | uint _ | int _ | bool | fixedBytes _ =>
      intro base position
      exact (wordAt_whole front position).bind fun _ _ => .refl _
  | bytes =>
      intro base position
      apply SucceedsAlike.bind (positionAt_whole front position)
      intro offset _
      exact (countedAt_whole front (base + offset)).bind fun _ _ => .refl _
  | string =>
      intro base position
      apply SucceedsAlike.bind (positionAt_whole front position)
      intro offset _
      exact (countedAt_whole front (base + offset)).bind fun _ _ => .refl _
  | array item ih =>
      intro base position
      apply SucceedsAlike.bind (positionAt_whole front position)
      intro offset _
      apply SucceedsAlike.bind (positionAt_whole front (base + offset))
      intro length _
      apply SucceedsAlike.bind (requireLength_whole front _)
      intro _ _
      have items := decodeMany_alike (ih (base + offset + 32)) length (base + offset + 32)
      exact items.bind fun _ _ => .refl _
  | fixedArray item count ih =>
      intro base position
      simp only [decodeValue]
      split
      · apply SucceedsAlike.bind (positionAt_whole front position)
        intro offset _
        have items := decodeMany_alike (ih (base + offset)) count (base + offset)
        exact items.bind fun _ _ => .refl _
      · exact (decodeMany_alike (ih position) count position).bind fun _ _ => .refl _
  | tuple types ih =>
      intro base position
      simp only [decodeValue]
      split
      · apply SucceedsAlike.bind (positionAt_whole front position)
        intro offset _
        exact (decodeEach_alike ih (base + offset) (base + offset)).bind fun _ _ => .refl _
      · exact (decodeEach_alike ih position position).bind fun _ _ => .refl _

theorem decode_alike (front : data <+: whole) (types : List AbiType) :
    SucceedsAlike (decode types data) (decode types whole) :=
  decodeEach_alike (fun type _ => decodesAlike front type) 0 0

/-- Values that data is decoded to stay the same when more octets follow. So data that is cut short
is refused, or decoded to the values of the whole. -/
theorem decode_cut_short (types : List AbiType) (data more : List UInt8) :
    (∀ values, decode types data = .ok values → decode types (data ++ more) = .ok values) ∧
      ((∃ fault, decode types data = .error fault) ∨
        decode types data = decode types (data ++ more)) := by
  have alike := decode_alike (List.prefix_append data more) types
  refine ⟨alike, ?_⟩
  cases decoded : decode types data with
  | error fault => exact .inl ⟨fault, rfl⟩
  | ok values => exact .inr (alike values decoded).symm

def unfilled : List UInt8 :=
  Word.bytes 32 ++ Word.bytes 1 ++ [0xAB]

set_option maxRecDepth 4000 in
theorem decode_cut_short_of_unfilled :
    decode [.bytes] unfilled = .ok [.string "0xab"] ∧
      decode [.bytes] (unfilled ++ List.replicate 31 0) = .ok [.string "0xab"] := by
  have decoded : decode [.bytes] unfilled = .ok [.string "0xab"] := rfl
  exact ⟨decoded, (decode_cut_short [.bytes] unfilled (List.replicate 31 0)).1 _ decoded⟩

end Rehearsal.Abi
