import Rehearsal.Json.Basic

namespace Rehearsal.Json

/-! The shape of values: properties of every value inside a value, and the levels that nest. -/

@[elab_as_elim, induction_eliminator]
theorem induction {motive : Json → Prop} (null : motive .null) (bool : ∀ b, motive (.bool b))
    (number : ∀ n, motive (.number n)) (string : ∀ s, motive (.string s))
    (array : ∀ items, (∀ item ∈ items, motive item) → motive (.array items))
    (object : ∀ fields, (∀ entry ∈ fields, motive entry.2) → motive (.object fields))
    (value : Json) : motive value := by
  refine @Json.rec motive (fun items => ∀ item ∈ items, motive item)
    (fun fields => ∀ entry ∈ fields, motive entry.2) (fun entry => motive entry.2) null bool number
    string array object ?_ ?_ ?_ ?_ ?_ value
  · intro item member
    cases member
  · intro head tail headHolds tailHolds item member
    rcases List.mem_cons.mp member with rfl | member
    · exact headHolds
    · exact tailHolds item member
  · intro entry member
    cases member
  · intro head tail headHolds tailHolds entry member
    rcases List.mem_cons.mp member with rfl | member
    · exact headHolds
    · exact tailHolds entry member
  · intro name value holds
    exact holds

mutual

/-- A property holds of a value and of every value inside it. -/
def Everywhere (p : Json → Prop) : Json → Prop
  | .array items => p (.array items) ∧ ItemsEverywhere p items
  | .object fields => p (.object fields) ∧ FieldsEverywhere p fields
  | .null => p .null
  | .bool b => p (.bool b)
  | .number n => p (.number n)
  | .string s => p (.string s)

def ItemsEverywhere (p : Json → Prop) : List Json → Prop
  | [] => True
  | item :: rest => item.Everywhere p ∧ ItemsEverywhere p rest

def FieldsEverywhere (p : Json → Prop) : List (String × Json) → Prop
  | [] => True
  | (_, value) :: rest => value.Everywhere p ∧ FieldsEverywhere p rest

end

mutual

def depth : Json → Nat
  | .array items => depthItems items + 1
  | .object fields => depthFields fields + 1
  | .null => 0
  | .bool _ => 0
  | .number _ => 0
  | .string _ => 0

def depthItems : List Json → Nat
  | [] => 0
  | item :: rest => max item.depth (depthItems rest)

def depthFields : List (String × Json) → Nat
  | [] => 0
  | (_, value) :: rest => max value.depth (depthFields rest)

end

variable {p : Json → Prop} {items : List Json} {fields : List (String × Json)}

theorem itemsEverywhere_iff : ItemsEverywhere p items ↔ ∀ item ∈ items, item.Everywhere p := by
  induction items with
  | nil => simp [ItemsEverywhere]
  | cons item rest ih => simp [ItemsEverywhere, ih]

theorem fieldsEverywhere_iff :
    FieldsEverywhere p fields ↔ ∀ entry ∈ fields, entry.2.Everywhere p := by
  induction fields with
  | nil => simp [FieldsEverywhere]
  | cons entry rest ih => simp [FieldsEverywhere, ih]

@[simp] theorem everywhere_array :
    (Json.array items).Everywhere p ↔ p (.array items) ∧ ∀ item ∈ items, item.Everywhere p := by
  rw [Everywhere, itemsEverywhere_iff]

@[simp] theorem everywhere_object :
    (Json.object fields).Everywhere p ↔
      p (.object fields) ∧ ∀ entry ∈ fields, entry.2.Everywhere p := by
  rw [Everywhere, fieldsEverywhere_iff]

theorem Everywhere.self {value : Json} (holds : value.Everywhere p) : p value := by
  cases value with
  | null => exact holds
  | bool => exact holds
  | number => exact holds
  | string => exact holds
  | array => exact holds.1
  | object => exact holds.1

theorem Everywhere.imp {q : Json → Prop} (implies : ∀ v, p v → q v) {value : Json}
    (holds : value.Everywhere p) : value.Everywhere q := by
  induction value with
  | null | bool | number | string => exact implies _ holds
  | array items each =>
      obtain ⟨whole, inside⟩ := everywhere_array.mp holds
      exact everywhere_array.mpr
        ⟨implies _ whole, fun item member => each item member (inside item member)⟩
  | object fields each =>
      obtain ⟨whole, inside⟩ := everywhere_object.mp holds
      exact everywhere_object.mpr
        ⟨implies _ whole, fun entry member => each entry member (inside entry member)⟩

end Rehearsal.Json
