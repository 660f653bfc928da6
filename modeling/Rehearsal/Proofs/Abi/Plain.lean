import Rehearsal.Abi.Call
import Rehearsal.Proofs.Abi.Decoding
import Rehearsal.Proofs.Abi.LogRoundTrip
import Rehearsal.Proofs.Json.Ordered
import Rehearsal.Proofs.Json.RoundTrip

namespace Rehearsal

/-! Decoded values are made of text, truth values and arrays alone. Null is decoded of the data of
a function without outputs, and of nothing else. -/

namespace Json

def Plain (value : Json) : Prop :=
  value.Everywhere fun
    | .bool _ => True
    | .string _ => True
    | .array _ => True
    | .null => False
    | .number _ => False
    | .object _ => False

theorem plain_array {items : List Json} :
    (Json.array items).Plain ↔ ∀ item ∈ items, item.Plain := by
  rw [Plain, everywhere_array, true_and]
  rfl

theorem Plain.ne_null {value : Json} (plain : value.Plain) : value ≠ .null := by
  rintro rfl
  exact plain.self

theorem Plain.ordered {value : Json} (plain : value.Plain) : value.Ordered := by
  refine plain.imp fun v holds => ?_
  cases v with
  | object fields => exact holds.elim
  | null | bool | number | string | array => exact trivial

theorem Plain.legible {value : Json} (plain : value.Plain) : value.Legible := by
  refine plain.imp fun v holds => ?_
  cases v with
  | number n => exact holds.elim
  | null | bool | string | array | object => exact trivial

end Json

namespace Abi

/-- Whatever stands at a position and is decoded as the type is plain. -/
def DecodesPlain (type : AbiType) : Prop :=
  ∀ (data : List UInt8) (base position length : Nat) (value : Json),
    decodeValue data type base position = .ok (value, length) → value.Plain

theorem plain_decodeEach {data : List UInt8} {types : List AbiType} {base position : Nat}
    {values : List Json} (each : ∀ type ∈ types, DecodesPlain type)
    (decoded : decodeEach data types base position = .ok values) :
    ∀ value ∈ values, value.Plain := by
  induction types generalizing position values with
  | nil =>
      cases decoded
      intro value member
      cases member
  | cons type types ih =>
      simp only [decodeEach, bind_eq_ok, pure_eq_ok] at decoded
      obtain ⟨⟨value, length⟩, first, rest, others, rfl⟩ := decoded
      obtain ⟨head, tail⟩ := List.forall_mem_cons.mp each
      exact List.forall_mem_cons.mpr ⟨head _ _ _ _ _ first, ih tail others⟩

theorem decodesPlain (type : AbiType) : DecodesPlain type := by
  intro data base position length value decoded
  induction type generalizing data base position length value with
  | address | uint _ | bool | fixedBytes _ | string | bytes =>
      cases decoded_of_decodeValue decoded
      exact trivial
  | int _ =>
      cases decoded_of_decodeValue decoded
      unfold signedJson
      split
      · exact trivial
      · exact trivial
  | array item ih =>
      cases decoded_of_decodeValue decoded with
      | array counted items =>
          apply Json.plain_array.mpr (plain_decodeEach _ items)
          exact fun type member => List.eq_of_mem_replicate member ▸ ih
  | fixedArray item count ih =>
      cases decoded_of_decodeValue decoded with
      | fixedArray items =>
          apply Json.plain_array.mpr (plain_decodeEach _ items)
          exact fun type member => List.eq_of_mem_replicate member ▸ ih
  | tuple types ih =>
      cases decoded_of_decodeValue decoded with
      | tuple parts => exact Json.plain_array.mpr (plain_decodeEach ih parts)

theorem plain_decode {types : List AbiType} {data : List UInt8} {values : List Json}
    (decoded : decode types data = .ok values) : ∀ value ∈ values, value.Plain :=
  plain_decodeEach (fun type _ => decodesPlain type) decoded

namespace Event

theorem plain_topicValue {type : AbiType} {topic : Bytes32} {value : Json}
    (told : topicValue type topic = .ok value) : value.Plain := by
  unfold topicValue at told
  split at told
  · cases told
    exact trivial
  · obtain ⟨⟨_, length⟩, decoded, rfl⟩ := map_eq_ok.mp told
    exact decodesPlain type _ _ _ _ _ decoded

theorem plain_collect {event : String} {index : Nat} {params : List Param} {topics : List Bytes32}
    {values : List Json} {args : List (String × Json)} (plain : ∀ value ∈ values, value.Plain)
    (collected : collect event index params topics values = .ok args) :
    ∀ entry ∈ args, entry.2.Plain := by
  induction params generalizing index topics values args with
  | nil =>
      cases collected
      intro entry member
      cases member
  | cons param params ih =>
      obtain ⟨value, _, _, rest, rfl, others, ⟨_, _, told, rfl⟩ | rfl⟩ :=
        exists_collect_of_cons collected
      · exact List.forall_mem_cons.mpr ⟨plain_topicValue told, ih plain others⟩
      · obtain ⟨head, tail⟩ := List.forall_mem_cons.mp plain
        exact List.forall_mem_cons.mpr ⟨head, ih tail others⟩

theorem plain_decodeLog {e : Event} {log : Log} {decoded : DecodedLog}
    (read : e.decodeLog log = .ok decoded) : ∀ entry ∈ decoded.args, entry.2.Plain := by
  simp only [decodeLog, bind_eq_ok, pure_eq_ok] at read
  obtain ⟨types, -, values, told, args, collected, rfl⟩ := read
  exact plain_collect (plain_decode told) collected

end Event

theorem Function.decodeOutput_eq_ok {f : Function} {data : List UInt8} {value : Json}
    (decoded : f.decodeOutput data = .ok value) :
    (f.outputs = [] ∧ value = .null) ∨ (f.outputs ≠ [] ∧ value.Plain) := by
  simp only [decodeOutput, bind_eq_ok, map_eq_ok, paramTypes, Except.mapError_eq_ok] at decoded
  obtain ⟨types, typed, values, told, rfl⟩ := decoded
  cases outputs : f.outputs with
  | nil =>
      rw [outputs] at typed
      cases typed
      cases told
      exact .inl ⟨rfl, rfl⟩
  | cons param params =>
      rw [outputs] at typed
      obtain ⟨type, rest, -, -, rfl⟩ := typesOf_cons.mp typed
      refine .inr ⟨List.cons_ne_nil _ _, ?_⟩
      have plain := plain_decode told
      simp only [decode, decodeEach, bind_eq_ok, pure_eq_ok] at told
      obtain ⟨⟨value, length⟩, -, others, -, rfl⟩ := told
      cases others with
      | nil => exact plain value List.mem_cons_self
      | cons other others => exact Json.plain_array.mpr plain

end Abi

end Rehearsal
