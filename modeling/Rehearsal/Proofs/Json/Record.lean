import Mathlib.Data.List.Nodup
import Rehearsal.Json.Reader
import Rehearsal.Proofs.Json.Ordered
import Rehearsal.Proofs.Json.RoundTrip
import Rehearsal.Proofs.Result
import Rehearsal.Scenario.Json

namespace Rehearsal.Json

/-! Records that are written as objects are read back, field by field. A field without a value is
left out; a field that was left out, or that is null, is read as one without a value. -/

theorem Mapping.get?_append {α : Type} (name : String) (front back : Mapping α) :
    get? name (front ++ back) = (get? name front).or (get? name back) := by
  induction front with
  | nil => rfl
  | cons entry rest ih =>
      obtain ⟨key, value⟩ := entry
      rw [List.cons_append, get?, get?]
      split
      · rfl
      · exact ih

theorem get?_optionalField {α : Type} (name key : String) (write : α → Json) (value : Option α) :
    Mapping.get? name (optionalField key write value) =
      if key = name then value.map write else none := by
  cases value with
  | none => simp [optionalField, Mapping.get?]
  | some a => simp [optionalField, Mapping.get?]

theorem names_optionalField {α : Type} (key : String) (write : α → Json) (value : Option α) :
    ((optionalField key write value).map Prod.fst).Sublist [key] := by
  cases value with
  | none => exact List.nil_sublist _
  | some a => exact List.Sublist.refl _

namespace Reader

variable {α : Type} {read : Json → Reading α}

theorem record_object {declared : List String} {fields : List (String × Json)}
    (within : (fields.map Prod.fst).Sublist declared) (distinct : declared.Nodup) :
    record declared (.object fields) = .ok (.named fields) := by
  have known : (fields.filter fun entry => declared.contains entry.1) = fields := by
    refine List.filter_eq_self.mpr ?_
    intro entry member
    exact List.contains_iff_mem.mpr (within.subset (List.mem_map_of_mem member))
  have once : (fields.find? fun entry =>
      (fields.filter fun other => other.1 == entry.1).length > 1) = none := by
    refine List.find?_eq_none.mpr ?_
    intro entry member
    have single := List.nodup_iff_count_le_one.mp (distinct.sublist within) entry.1
    rw [List.count, List.countP_map, List.countP_eq_length_filter] at single
    simpa [Function.comp_def] using single
  simp only [record, known, once]

def ofField? (read : Json → Reading α) : Option Json → Reading (Option α)
  | none => .ok none
  | some value => nullable read value

theorem optional_eq (r : Record) (name : String) (read : Json → Reading α) :
    r.optional name read = ofField? read (r.field? name) := by
  rw [Record.optional, Record.withDefault]
  cases r.field? name with
  | none => rfl
  | some value => rfl

theorem nullable_of_ne_null {value : Json} (solid : value ≠ .null) :
    nullable read value = some <$> read value := by
  cases value with
  | null => contradiction
  | bool => rfl
  | number => rfl
  | string => rfl
  | array => rfl
  | object => rfl

theorem ofField?_map {β : Type} {value : Option β} {write : β → Json} {keep : β → α}
    (solid : ∀ b, write b ≠ .null) (reads : ∀ b, value = some b → read (write b) = .ok (keep b)) :
    ofField? read (value.map write) = .ok (value.map keep) := by
  cases value with
  | none => rfl
  | some b =>
      rw [Option.map_some, ofField?, nullable_of_ne_null (solid b), reads b rfl]
      rfl

theorem ofField?_string (value : Option String) :
    ofField? string (value.map Json.string) = .ok value := by
  cases value with
  | none => rfl
  | some s => rfl

theorem nat_ofNat {n : Nat} (legible : (ofNat n).Legible) : nat (ofNat n) = .ok n := by
  have fits : (Number.integer n).Legible := legible
  have number : (ofNat n).nat? = some n := nat?_eq_some_iff.mpr ⟨rfl, fits.2⟩
  rw [nat, number]

theorem ofField?_nat {value : Option Nat} (legible : ∀ n, value = some n → (ofNat n).Legible) :
    ofField? nat (value.map ofNat) = .ok value := by
  have reads := ofField?_map (fun _ => Json.noConfusion) fun n known => nat_ofNat (legible n known)
  rwa [Option.map_id'] at reads

theorem ofField?_any {value : Option Json} (ordered : ∀ v, value = some v → v.Ordered) :
    ofField? any value =
      .ok (value.bind fun v => if v.isNull then none else some v) := by
  cases value with
  | none => rfl
  | some v =>
      have same : any v = .ok v := by rw [any, canonical_of_ordered (ordered v rfl)]
      by_cases null : v = .null
      · subst null
        rfl
      · have solid : v.isNull = false := by
          cases v with
          | null => contradiction
          | bool => rfl
          | number => rfl
          | string => rfl
          | array => rfl
          | object => rfl
        rw [ofField?, nullable_of_ne_null null, same, Option.bind_some, solid]
        rfl

theorem mapM_map {β γ : Type} {read : γ → Reading α} {write : β → γ} {keep : β → α} {bs : List β}
    (each : ∀ b ∈ bs, read (write b) = .ok (keep b)) :
    (bs.map write).mapM read = .ok (bs.map keep) := by
  induction bs with
  | nil => rfl
  | cons b bs ih =>
      have first := each b List.mem_cons_self
      have rest := ih fun other member => each other (List.mem_cons_of_mem _ member)
      rw [List.map_cons, List.mapM_cons, first, rest]
      rfl

theorem list_map {β : Type} {write : β → Json} {keep : β → α} {bs : List β}
    (each : ∀ b ∈ bs, read (write b) = .ok (keep b)) :
    list read (.array (bs.map write)) = .ok (bs.map keep) :=
  mapM_map each

theorem mapping_any {fields : List (String × Json)} (ordered : (Json.object fields).Ordered) :
    mapping any (.object fields) = .ok fields := by
  obtain ⟨ascending, inside⟩ := ordered_object.mp ordered
  have each : ∀ entry ∈ fields, (do return (entry.1, ← any entry.2) : Reading _) = .ok entry := by
    intro entry member
    rw [any, canonical_of_ordered (inside entry member)]
    rfl
  have entries : (fields.mapM fun entry => do return (entry.1, ← any entry.2)) =
      (.ok fields : Reading _) := by
    have mapped : ((fields.map id).mapM fun entry => do return (entry.1, ← any entry.2)) =
        (.ok (fields.map id) : Reading _) := mapM_map each
    rwa [List.map_id] at mapped
  rw [mapping, entries]
  simp only [ok_bind, Mapping.ofList_of_ascending ascending]
  rfl

end Reader

end Rehearsal.Json
