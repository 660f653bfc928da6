import Mathlib.Data.List.Dedup
import Mathlib.Data.String.Basic
import Rehearsal.Proofs.Json.Shape

namespace Rehearsal.Json

/-! Mappings with ascending names, and values in which every object is one. Such a value is its own
canonical form. -/

namespace Mapping

variable {α : Type} {name : String} {value : α} {m : Mapping α}

def Ascending (m : Mapping α) : Prop :=
  (m.map Prod.fst).Pairwise (· < ·)

theorem mem_of_mem_insert {entry : String × α} (member : entry ∈ m.insert name value) :
    entry = (name, value) ∨ entry ∈ m := by
  induction m with
  | nil => exact .inl (List.mem_singleton.mp member)
  | cons head rest ih =>
      obtain ⟨key, old⟩ := head
      rw [insert] at member
      split at member
      · rcases List.mem_cons.mp member with same | behind
        · exact .inl same
        · exact .inr (List.mem_cons_of_mem _ behind)
      · split at member
        · exact List.mem_cons.mp member
        · rcases List.mem_cons.mp member with same | behind
          · exact .inr (same ▸ List.mem_cons_self)
          · exact (ih behind).imp_right (List.mem_cons_of_mem _)

theorem ascending_insert (ascending : m.Ascending) : (m.insert name value).Ascending := by
  induction m with
  | nil => exact List.pairwise_singleton _ _
  | cons head rest ih =>
      obtain ⟨key, old⟩ := head
      obtain ⟨above, later⟩ := List.pairwise_cons.mp ascending
      rw [insert]
      split
      · next same => exact same ▸ ascending
      · next differs =>
        split
        · next before =>
          refine List.pairwise_cons.mpr ⟨?_, ascending⟩
          intro other member
          rcases List.mem_cons.mp member with rfl | member
          · exact before
          · exact lt_trans before (above other member)
        · next notBefore =>
          refine List.pairwise_cons.mpr ⟨?_, ih later⟩
          intro other member
          obtain ⟨entry, inside, rfl⟩ := List.mem_map.mp member
          rcases mem_of_mem_insert inside with rfl | inside
          · exact lt_of_le_of_ne (not_lt.mp notBefore) (Ne.symm differs)
          · exact above _ (List.mem_map_of_mem inside)

theorem mem_names_insert {key : String} :
    key ∈ (m.insert name value).names ↔ key = name ∨ key ∈ m.names := by
  induction m with
  | nil => exact List.mem_singleton.trans (or_iff_left List.not_mem_nil).symm
  | cons head rest ih =>
      obtain ⟨other, old⟩ := head
      rw [insert]
      split
      · next same =>
        cases same
        simp [names]
      · split
        · simp [names]
        · simp only [names, List.map_cons, List.mem_cons] at ih ⊢
          rw [ih, or_left_comm]

theorem insert_of_forall_lt (last : ∀ key ∈ m.map Prod.fst, key < name) :
    m.insert name value = m ++ [(name, value)] := by
  induction m with
  | nil => rfl
  | cons head rest ih =>
      obtain ⟨key, old⟩ := head
      have before : key < name := last key List.mem_cons_self
      have behind := ih fun other member => last other (List.mem_cons_of_mem _ member)
      rw [insert, if_neg (ne_of_gt before), if_neg (lt_asymm before), behind]
      rfl

theorem foldl_insert_of_ascending (entries : List (String × α))
    (ascending : Ascending (m ++ entries)) :
    entries.foldl (fun m entry => insert entry.1 entry.2 m) m = m ++ entries := by
  induction entries generalizing m with
  | nil => exact (List.append_nil m).symm
  | cons entry rest ih =>
      have last : ∀ key ∈ m.map Prod.fst, key < entry.1 := by
        intro key member
        rw [Ascending, List.map_append, List.map_cons] at ascending
        exact (List.pairwise_append.mp ascending).2.2 key member entry.1 List.mem_cons_self
      rw [List.foldl_cons, insert_of_forall_lt last]
      have joined : m ++ [(entry.1, entry.2)] ++ rest = m ++ entry :: rest := by simp
      rw [ih (by rw [joined]; exact ascending), joined]

theorem ofList_of_ascending (ascending : m.Ascending) : ofList m = m :=
  foldl_insert_of_ascending m ascending

theorem ofList_spec {p : α → Prop} {entries : List (String × α)}
    (each : ∀ entry ∈ entries, p entry.2) :
    (ofList entries).Ascending ∧ ∀ entry ∈ ofList entries, p entry.2 := by
  suffices grows : ∀ m : Mapping α, m.Ascending → (∀ entry ∈ m, p entry.2) →
      Ascending (entries.foldl (fun m entry => insert entry.1 entry.2 m) m) ∧
        ∀ entry ∈ entries.foldl (fun m entry => insert entry.1 entry.2 m) m, p entry.2 from
    grows [] .nil (fun _ member => absurd member List.not_mem_nil)
  induction entries with
  | nil => exact fun m ascending holds => ⟨ascending, holds⟩
  | cons entry rest ih =>
      intro m ascending holds
      refine ih (fun other member => each other (List.mem_cons_of_mem _ member)) _
        (ascending_insert ascending) ?_
      intro other member
      rcases mem_of_mem_insert member with rfl | member
      · exact each entry List.mem_cons_self
      · exact holds other member

theorem mem_names_ofList {entries : List (String × α)} :
    name ∈ (ofList entries).names ↔ name ∈ entries.map Prod.fst := by
  suffices grows : ∀ m : Mapping α,
      name ∈ names (entries.foldl (fun m entry => insert entry.1 entry.2 m) m) ↔
        name ∈ m.names ∨ name ∈ entries.map Prod.fst from
    (grows []).trans (or_iff_right List.not_mem_nil)
  induction entries with
  | nil => exact fun m => (or_iff_left List.not_mem_nil).symm
  | cons entry rest ih =>
      intro m
      rw [List.foldl_cons, ih, mem_names_insert, List.map_cons, List.mem_cons, or_assoc, or_left_comm]

theorem length_ofList (entries : List (String × α)) :
    (ofList entries).length = (entries.map Prod.fst).dedup.length := by
  have ascending : (ofList entries).Ascending := (ofList_spec (p := fun _ => True) (by simp)).1
  have distinct : (ofList entries).names.Nodup := ascending.imp ne_of_lt
  rw [← List.length_map Prod.fst]
  refine List.Perm.length_eq ((List.perm_ext_iff_of_nodup distinct (List.nodup_dedup _)).mpr ?_)
  intro name
  rw [List.mem_dedup, mem_names_ofList]

theorem length_ofList_eq_iff {entries : List (String × α)} :
    (ofList entries).length = entries.length ↔ (entries.map Prod.fst).Nodup := by
  rw [length_ofList, ← List.dedup_eq_self]
  constructor
  · intro same
    exact (List.dedup_sublist _).eq_of_length (by rw [same, List.length_map])
  · intro same
    rw [same, List.length_map]

end Mapping

/-- The names in every object ascend, and none of them is there twice. -/
def Ordered (value : Json) : Prop :=
  value.Everywhere fun
    | .object fields => Mapping.Ascending fields
    | _ => True

theorem ordered_object {fields : List (String × Json)} : (Json.object fields).Ordered ↔
    Mapping.Ascending fields ∧ ∀ entry ∈ fields, entry.2.Ordered :=
  everywhere_object

theorem canonicalItems_eq_map (items : List Json) : canonicalItems items = items.map canonical := by
  induction items with
  | nil => rfl
  | cons item rest ih => rw [canonicalItems, ih, List.map_cons]

theorem canonicalFields_eq_map (fields : List (String × Json)) :
    canonicalFields fields = fields.map fun entry => (entry.1, entry.2.canonical) := by
  induction fields with
  | nil => rfl
  | cons entry rest ih => rw [canonicalFields, ih, List.map_cons]

theorem canonical_of_ordered {v : Json} (ordered : v.Ordered) : v.canonical = v := by
  induction v with
  | null => rfl
  | bool b => rfl
  | number n => rfl
  | string s => rfl
  | array items each =>
      obtain ⟨-, inside⟩ := everywhere_array.mp ordered
      have same : items.map canonical = items := by
        rw [List.map_congr_left (g := id), List.map_id]
        exact fun item member => each item member (inside item member)
      rw [canonical, canonicalItems_eq_map, same]
  | object fields each =>
      obtain ⟨ascending, inside⟩ := ordered_object.mp ordered
      have same : (fields.map fun entry => (entry.1, entry.2.canonical)) = fields := by
        rw [List.map_congr_left (g := id), List.map_id]
        intro entry member
        rw [each entry member (inside entry member), id]
      rw [canonical, canonicalFields_eq_map, same, Mapping.ofList_of_ascending ascending]

end Rehearsal.Json
