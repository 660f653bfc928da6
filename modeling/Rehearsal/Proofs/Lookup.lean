import Mathlib.Data.List.Nodup
import Rehearsal.Json.Basic

namespace Rehearsal

/-! What a lookup in a list or a mapping finds. -/

variable {α : Type}

/-- The first element of a list that has a property. -/
def FirstIn (p : α → Prop) (list : List α) (a : α) : Prop :=
  ∃ front back, list = front ++ a :: back ∧ p a ∧ ∀ other ∈ front, ¬p other

theorem find?_eq_some_iff_firstIn {test : α → Bool} {p : α → Prop}
    (decides : ∀ a, test a = true ↔ p a) {list : List α} {a : α} :
    list.find? test = some a ↔ FirstIn p list a := by
  simp only [List.find?_eq_some_iff_append, Bool.not_eq_true', ← Bool.not_eq_true, decides]
  constructor
  · rintro ⟨holds, front, back, rfl, passed⟩
    exact ⟨front, back, rfl, holds, passed⟩
  · rintro ⟨front, back, rfl, holds, passed⟩
    exact ⟨holds, front, back, rfl, passed⟩

theorem FirstIn.member {p : α → Prop} {list : List α} {a : α} (first : FirstIn p list a) :
    a ∈ list ∧ p a := by
  obtain ⟨front, back, rfl, holds, -⟩ := first
  exact ⟨by simp, holds⟩

theorem exists_firstIn {p : α → Prop} {list : List α} {a : α} (member : a ∈ list) (holds : p a) :
    ∃ b, FirstIn p list b := by
  induction list with
  | nil => contradiction
  | cons head tail ih =>
      by_cases headHolds : p head
      · exact ⟨head, [], tail, rfl, headHolds, by simp⟩
      · rcases List.mem_cons.mp member with rfl | member
        · contradiction
        · obtain ⟨b, front, back, rfl, found, passed⟩ := ih member
          exact ⟨b, head :: front, back, rfl, found, List.forall_mem_cons.mpr ⟨headHolds, passed⟩⟩

namespace Json.Mapping

variable {name : String} {value : α}

theorem length_insert_of_get?_eq_none {m : Mapping α} (free : m.get? name = none) :
    (m.insert name value).length = m.length + 1 := by
  induction m with
  | nil => rfl
  | cons entry rest ih =>
      obtain ⟨key, old⟩ := entry
      rw [get?] at free
      split at free
      · contradiction
      · next other =>
        rw [insert, if_neg (Ne.symm other)]
        split
        · rfl
        · rw [List.length_cons, ih free, List.length_cons]

theorem get?_foldl_insert_of_notMem {entries : List (String × α)} {m : Mapping α}
    (absent : name ∉ entries.map Prod.fst) :
    get? name (entries.foldl (fun m entry => insert entry.1 entry.2 m) m) = get? name m := by
  induction entries generalizing m with
  | nil => rfl
  | cons entry rest ih =>
      rw [List.map_cons, List.mem_cons, not_or] at absent
      rw [List.foldl_cons, ih absent.2, get?_insert, if_neg (Ne.symm absent.1)]

theorem get?_foldl_insert_of_mem {entries : List (String × α)} {m : Mapping α}
    (distinct : (entries.map Prod.fst).Nodup) (member : (name, value) ∈ entries) :
    get? name (entries.foldl (fun m entry => insert entry.1 entry.2 m) m) = some value := by
  induction entries generalizing m with
  | nil => contradiction
  | cons entry rest ih =>
      rw [List.map_cons, List.nodup_cons] at distinct
      rw [List.foldl_cons]
      rcases List.mem_cons.mp member with rfl | member
      · rw [get?_foldl_insert_of_notMem distinct.1, get?_insert, if_pos rfl]
      · exact ih distinct.2 member

theorem get?_ofList {entries : List (String × α)} (distinct : (entries.map Prod.fst).Nodup)
    (member : (name, value) ∈ entries) : (ofList entries).get? name = some value :=
  get?_foldl_insert_of_mem distinct member

theorem mem_of_get? {m : Mapping α} (bound : m.get? name = some value) : (name, value) ∈ m := by
  induction m with
  | nil => contradiction
  | cons entry rest ih =>
      obtain ⟨key, held⟩ := entry
      rw [get?] at bound
      split at bound
      · next same =>
        cases same
        cases bound
        exact List.mem_cons_self
      · exact List.mem_cons_of_mem _ (ih bound)

end Json.Mapping

end Rehearsal
