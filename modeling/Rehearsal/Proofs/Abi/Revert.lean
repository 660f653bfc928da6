import Rehearsal.Abi.Revert
import Rehearsal.Proofs.Abi.RoundTrip
import Rehearsal.Proofs.Lookup

namespace Rehearsal

/-! What is read of revert data: the message that was encoded behind its selector, or the first
declared error that the data carries. Of the hash that selectors are made with nothing is used. -/

namespace Abi

def IsStandard (data : List UInt8) : Prop :=
  data.take 4 = messageSelector ∨ data.take 4 = panicSelector

/-- The text of a value among the arguments of an error. -/
inductive TextOf : Json → String → Prop where
  | string (s : String) : TextOf (.string s) s
  | compact {value : Json} (noText : ∀ s, value ≠ .string s) : TextOf value value.compact

namespace CustomError

def Heads (e : CustomError) (data : List UInt8) : Prop :=
  ∃ hash, signatureHash e.name e.inputs = .ok hash ∧ selectorOf hash = data.take 4

/-- The data is the error with these arguments. -/
structure Carries (e : CustomError) (data : List UInt8) (values : List Json) : Prop where
  heads : e.Heads data
  decoded : ∃ types, paramTypes e.inputs = .ok types ∧ decode types (data.drop 4) = .ok values

end CustomError

variable {data : List UInt8} {e : CustomError} {values : List Json}

theorem length_selectorOf (hash : Bytes32) : (selectorOf hash).length = 4 := by
  rw [selectorOf, List.length_take, Vector.length_toList]
  rfl

theorem CustomError.Heads.le_length (heads : e.Heads data) : 4 ≤ data.length := by
  obtain ⟨hash, -, same⟩ := heads
  have four := congrArg List.length same
  rw [length_selectorOf, List.length_take] at four
  omega

theorem not_isStandard_of_short (short : data.length < 4) : ¬IsStandard data := by
  rintro (same | same)
  · have four := congrArg List.length same
    rw [List.length_take, messageSelector] at four
    simp only [List.length_cons, List.length_nil] at four
    omega
  · have four := congrArg List.length same
    rw [List.length_take, panicSelector] at four
    simp only [List.length_cons, List.length_nil] at four
    omega

theorem TextOf.shown_eq {value : Json} {text : String} (textOf : TextOf value text) :
    value.shown = text := by
  cases textOf with
  | string s => rfl
  | compact noText =>
      cases value with
      | string s => exact absurd rfl (noText s)
      | null => rfl
      | bool b => rfl
      | number n => rfl
      | array items => rfl
      | object fields => rfl

theorem map_shown_eq {texts : List String} (each : List.Forall₂ TextOf values texts) :
    values.map Json.shown = texts := by
  induction each with
  | nil => rfl
  | cons first rest ih => rw [List.map_cons, first.shown_eq, ih]

/-! Messages. -/

theorem decode_string {s : String} (encoded : encode [.string] [.string s] = .ok data)
    (small : data.length < 2 ^ 32) : decode [.string] data = .ok [.string s] := by
  have read : decode [.string] data = .ok (canonicalForms [.string] [.string s]) := by
    refine decode_of_standsAt ?_ ?_ ?_ encoded (standsAt_self data) (Nat.le_pred_of_lt small)
    · exact ⟨trivial, trivial⟩
    · exact ⟨trivial, trivial⟩
    · exact ⟨trivial, trivial⟩
  exact read

theorem decodeRevert?_message {s : String} (encoded : encode [.string] [.string s] = .ok data)
    (small : data.length < 2 ^ 32) : decodeRevert? (messageSelector ++ data) = some s := by
  have selector : (messageSelector ++ data).take 4 = messageSelector := rfl
  have payload : (messageSelector ++ data).drop 4 = data := rfl
  simp only [decodeRevert?, if_pos selector, payload, decode_string encoded small]

theorem decodeRevert?_of_not_isStandard (other : ¬IsStandard data) : decodeRevert? data = none := by
  rw [IsStandard, not_or] at other
  simp only [decodeRevert?, if_neg other.1, if_neg other.2]

/-! Declared errors. -/

theorem rendered?_of_carries (carries : e.Carries data values) : e.rendered? data =
    some (e.name ++ "(" ++ Text.join ", " (values.map Json.shown) ++ ")") := by
  obtain ⟨⟨hash, hashed, same⟩, types, typed, decoded⟩ := carries
  simp only [CustomError.rendered?, hashed, if_pos same, typed, ok_bind, decoded]

theorem rendered?_eq_none (none : ∀ values, ¬e.Carries data values) : e.rendered? data = .none := by
  unfold CustomError.rendered?
  split
  · next hash hashed =>
    split
    · next same =>
      split
      · next values read =>
        obtain ⟨types, typed, decoded⟩ := bind_eq_ok.mp read
        exact absurd ⟨⟨hash, hashed, same⟩, types, typed, decoded⟩ (none values)
      · rfl
    · rfl
  · rfl

variable {i : Interface}

theorem decodeError?_of_first (first : FirstIn (fun e => e.Heads data) i.errors e)
    (carries : e.Carries data values) : i.decodeError? data =
      some (e.name ++ "(" ++ Text.join ", " (values.map Json.shown) ++ ")") := by
  obtain ⟨front, back, whole, heads, passed⟩ := first
  have none : front.findSome? (fun e => e.rendered? data) = .none := by
    rw [List.findSome?_eq_none_iff]
    exact fun other member => rendered?_eq_none fun values carries =>
      passed other member carries.heads
  rw [Interface.decodeError?, if_neg (Nat.not_lt.mpr heads.le_length), whole,
    List.findSome?_append, none, List.findSome?_cons, rendered?_of_carries carries]
  rfl

theorem decodeError?_eq_none (none : ∀ e ∈ i.errors, ∀ values, ¬e.Carries data values) :
    i.decodeError? data = .none := by
  unfold Interface.decodeError?
  split
  · rfl
  · rw [List.findSome?_eq_none_iff]
    exact fun e member => rendered?_eq_none (none e member)

end Abi

end Rehearsal
