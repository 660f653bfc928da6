import Mathlib.Data.List.Nodup
import Mathlib.Data.String.Basic
import Rehearsal.Proofs.Files.Tree
import Rehearsal.Proofs.Lookup

namespace Rehearsal.Files

/-! The files below a directory, one after the other. A directory's own files come before those of
its subdirectories, and the subdirectories come by ascending names, each with everything below it.
So the files of different directories have an order, in whatever order directories list them. -/

namespace Path

instance (name : String) : Decidable (Names name) :=
  decidable_of_iff ('/' ∉ name.toList ∧ name ≠ "" ∧ name ≠ "." ∧ name ≠ "..")
    ⟨fun ⟨plain, notEmpty, notHere, notUp⟩ => ⟨plain, notEmpty, notHere, notUp⟩,
      fun names => ⟨names.plain, names.notEmpty, names.notHere, names.notUp⟩⟩

end Path

namespace Node

/-- Names in a directory are names of entries, and all different. -/
inductive Proper : Node → Prop where
  | file (content : List UInt8) : Proper (.file content)
  | directory {entries : List (String × Node)} (distinct : (entries.map Prod.fst).Nodup)
      (named : ∀ entry ∈ entries, Path.Names entry.1 ∧ isTooLong entry.1 = false)
      (inside : ∀ entry ∈ entries, Proper entry.2) : Proper (.directory entries)

def ownFiles (entries : List (String × Node)) : List String :=
  entries.filterMap fun (name, node) =>
    match node with
    | .file _ => some name
    | .directory _ => none

def within (name : String) (found : List String × String) : List String × String :=
  (name :: found.1, found.2)

/-- The files below a directory in the order of visits. -/
def visits : Node → List (List String × String)
  | .file _ => []
  | .directory entries =>
      (ownFiles entries).map (fun name => ([], name)) ++
        (sorted (inside entries)).flatMap Prod.snd
where
  /-- For each directory in a directory the files below it. -/
  inside : List (String × Node) → List (String × List (List String × String))
    | [] => []
    | (name, node) :: rest =>
        match node with
        | .file _ => inside rest
        | .directory _ =>
            (name, (visits node).map (within name)) :: inside rest

/-- A directory is visited before those in it, and all that are in it before one with a later name.
Both directories are given by the names that lead to them. -/
inductive Before : List String → List String → Prop where
  | above (name : String) (rest : List String) : Before [] (name :: rest)
  | earlier {name other : String} (less : name < other) (rest others : List String) :
      Before (name :: rest) (other :: others)
  | inner (name : String) {rest others : List String} (before : Before rest others) :
      Before (name :: rest) (name :: others)

theorem Before.asymm {way other : List String} (before : Before way other) : ¬Before other way := by
  induction before with
  | above name rest => exact nofun
  | earlier less rest others =>
      intro back
      cases back with
      | earlier more => exact lt_asymm less more
      | inner name before => exact lt_irrefl _ less
  | inner name before ih =>
      intro back
      cases back with
      | earlier less => exact lt_irrefl _ less
      | inner name back => exact ih back

/-! Entries by ascending names. -/

section

variable {α β : Type} {entries : List (String × α)}

theorem insertEntry_map (f : String → α → β) (entry : String × α) (entries : List (String × α)) :
    insertEntry (entry.1, f entry.1 entry.2) (entries.map fun e => (e.1, f e.1 e.2)) =
      (insertEntry entry entries).map fun e => (e.1, f e.1 e.2) := by
  induction entries with
  | nil => rfl
  | cons other rest ih =>
      rw [List.map_cons, insertEntry, insertEntry]
      split
      · rw [ih, List.map_cons]
      · rfl

theorem sorted_map (f : String → α → β) (entries : List (String × α)) :
    sorted (entries.map fun e => (e.1, f e.1 e.2)) =
      (sorted entries).map fun e => (e.1, f e.1 e.2) := by
  induction entries with
  | nil => rfl
  | cons entry rest ih =>
      change insertEntry _ (sorted (rest.map _)) = _
      rw [ih, insertEntry_map]
      rfl

theorem ascending_insertEntry {entry : String × α} (fresh : entry.1 ∉ entries.map Prod.fst)
    (ascending : entries.Pairwise fun a b => a.1 < b.1) :
    (insertEntry entry entries).Pairwise fun a b => a.1 < b.1 := by
  induction entries with
  | nil => exact List.pairwise_singleton _ _
  | cons other rest ih =>
      obtain ⟨above, later⟩ := List.pairwise_cons.mp ascending
      rw [List.map_cons, List.mem_cons, not_or] at fresh
      rw [insertEntry]
      split
      · next less =>
        refine List.pairwise_cons.mpr ⟨fun e member => ?_, ih fresh.2 later⟩
        rcases List.mem_cons.mp ((insertEntry_perm entry rest).mem_iff.mp member) with rfl | behind
        · exact less
        · exact above e behind
      · next notLess =>
        have first : entry.1 < other.1 := lt_of_le_of_ne (not_lt.mp notLess) fresh.1
        refine List.pairwise_cons.mpr ⟨fun e member => ?_, ascending⟩
        rcases List.mem_cons.mp member with rfl | behind
        · exact first
        · exact lt_trans first (above e behind)

theorem ascending_sorted (distinct : (entries.map Prod.fst).Nodup) :
    (sorted entries).Pairwise fun a b => a.1 < b.1 := by
  induction entries with
  | nil => exact .nil
  | cons entry rest ih =>
      rw [List.map_cons, List.nodup_cons] at distinct
      have fresh : entry.1 ∉ (sorted rest).map Prod.fst := by
        rw [((sorted_perm rest).map Prod.fst).mem_iff]
        exact distinct.1
      exact ascending_insertEntry fresh (ih distinct.2)

end

/-! What stands in a directory. -/

variable {entries : List (String × Node)} {name : String} {node : Node}

theorem Proper.distinct (proper : Proper (.directory entries)) : (entries.map Prod.fst).Nodup := by
  cases proper with
  | directory distinct named inside => exact distinct

theorem Proper.of_mem (proper : Proper (.directory entries)) {entry : String × Node}
    (member : entry ∈ entries) : entry.2.Proper := by
  cases proper with
  | directory distinct named inside => exact inside entry member

theorem child?_eq_some_iff (distinct : (entries.map Prod.fst).Nodup) :
    child? name entries = some node ↔ (name, node) ∈ entries := by
  induction entries with
  | nil => simp [child?]
  | cons entry rest ih =>
      obtain ⟨key, first⟩ := entry
      rw [List.map_cons, List.nodup_cons] at distinct
      rw [child?]
      split
      · next same =>
        subst same
        constructor
        · intro found
          cases found
          exact List.mem_cons_self
        · intro member
          rcases List.mem_cons.mp member with same | behind
          · cases same
            rfl
          · exact absurd (List.mem_map_of_mem behind) distinct.1
      · next other =>
        rw [ih distinct.2, List.mem_cons, or_iff_right]
        rintro ⟨⟩
        exact other rfl

theorem Proper.get? {root node : Node} (proper : root.Proper) {place : List String}
    (found : root.get? place = some node) : node.Proper := by
  induction place generalizing root with
  | nil =>
      rw [get?_nil, Option.some.injEq] at found
      exact found ▸ proper
  | cons name rest ih =>
      cases root with
      | file content => contradiction
      | directory entries =>
          obtain ⟨child, first, found⟩ := Option.bind_eq_some_iff.mp found
          exact ih (proper.of_mem ((child?_eq_some_iff proper.distinct).mp first)) found

theorem get?_append (root : Node) (front back : List String) :
    root.get? (front ++ back) = (root.get? front).bind fun node => node.get? back := by
  induction front generalizing root with
  | nil => rw [List.nil_append, get?_nil, Option.bind_some]
  | cons name rest ih =>
      cases root with
      | file content => rfl
      | directory entries =>
          rw [List.cons_append, get?, get?, Option.bind_assoc]
          simp only [ih]

theorem mem_directories {inside : List (String × Node)} :
    (name, inside) ∈ directories entries ↔ (name, .directory inside) ∈ entries := by
  unfold directories
  rw [List.mem_filterMap]
  constructor
  · rintro ⟨⟨key, node⟩, member, found⟩
    cases node with
    | file content => contradiction
    | directory others =>
        cases found
        exact member
  · intro member
    exact ⟨_, member, rfl⟩

theorem names_directories_sublist (entries : List (String × Node)) :
    ((directories entries).map Prod.fst).Sublist (entries.map Prod.fst) := by
  induction entries with
  | nil => exact .slnil
  | cons entry rest ih =>
      obtain ⟨name, node⟩ := entry
      cases node with
      | file content => exact .cons _ ih
      | directory inside => exact .cons_cons _ ih

theorem mem_ownFiles : name ∈ ownFiles entries ↔ ∃ content, (name, .file content) ∈ entries := by
  unfold ownFiles
  rw [List.mem_filterMap]
  constructor
  · rintro ⟨⟨key, node⟩, member, found⟩
    cases node with
    | file content =>
        cases found
        exact ⟨content, member⟩
    | directory others => contradiction
  · rintro ⟨content, member⟩
    exact ⟨_, member, rfl⟩

/-! The visits. -/

theorem inside_eq (entries : List (String × Node)) :
    visits.inside entries = (directories entries).map fun e =>
      (e.1, (visits (.directory e.2)).map (within e.1)) := by
  induction entries with
  | nil => rw [visits.inside]; rfl
  | cons entry rest ih =>
      obtain ⟨name, node⟩ := entry
      cases node with
      | file content =>
          rw [visits.inside]
          exact ih
      | directory inside =>
          rw [visits.inside, ih]
          rfl

theorem visits_directory (entries : List (String × Node)) :
    visits (.directory entries) = (ownFiles entries).map (fun name => ([], name)) ++
      (sorted (directories entries)).flatMap fun e =>
        (visits (.directory e.2)).map (within e.1) := by
  have moved := sorted_map (fun name inside => (visits (.directory inside)).map (within name))
    (directories entries)
  rw [visits, inside_eq, moved, List.flatMap_map]

theorem mem_visits_iff (proper : node.Proper) {way : List String} {name : String} :
    (way, name) ∈ node.visits ↔ ∃ content, node.get? (way ++ [name]) = some (.file content) := by
  induction proper generalizing way with
  | file content => cases way <;> simp [visits, get?]
  | @directory entries distinct named inside ih =>
      rw [visits_directory, List.mem_append]
      cases way with
      | nil =>
          simp [get?, child?_eq_some_iff distinct, mem_ownFiles, within]
      | cons key rest =>
          have own : (key :: rest, name) ∉ (ownFiles entries).map fun name => ([], name) := by simp
          rw [or_iff_right own, List.mem_flatMap]
          constructor
          · rintro ⟨⟨key', below⟩, member, found⟩
            obtain ⟨⟨rest', name'⟩, visited, same⟩ := List.mem_map.mp found
            cases same
            have member := mem_directories.mp ((sorted_perm _).mem_iff.mp member)
            obtain ⟨content, stands⟩ := (ih _ member).mp visited
            refine ⟨content, ?_⟩
            rw [List.cons_append, get?, (child?_eq_some_iff distinct).mpr member]
            exact stands
          · rintro ⟨content, stands⟩
            obtain ⟨child, found, stands⟩ := Option.bind_eq_some_iff.mp stands
            have member := (child?_eq_some_iff distinct).mp found
            cases child with
            | file content => cases rest <;> contradiction
            | directory below =>
                refine ⟨(key, below), (sorted_perm _).mem_iff.mpr (mem_directories.mpr member), ?_⟩
                exact List.mem_map_of_mem ((ih _ member).mpr ⟨content, stands⟩)

/-- Files of one directory are visited together, and otherwise in the order of their directories. -/
theorem visits_ordered (proper : node.Proper) :
    node.visits.Pairwise fun first second => first.1 = second.1 ∨ Before first.1 second.1 := by
  induction proper with
  | file content => exact .nil
  | @directory entries distinct named inside ih =>
      rw [visits_directory, List.pairwise_append]
      refine ⟨?_, ?_, ?_⟩
      · rw [List.pairwise_map]
        exact List.pairwise_of_forall fun _ _ => .inl rfl
      · rw [List.pairwise_flatMap]
        constructor
        · intro e member
          have member := mem_directories.mp ((sorted_perm _).mem_iff.mp member)
          rw [List.pairwise_map]
          refine (ih _ member).imp fun ordered => ?_
          exact ordered.imp (congrArg (e.1 :: ·)) (.inner e.1)
        · have ascending := ascending_sorted (distinct.sublist (names_directories_sublist entries))
          refine ascending.imp fun less first member second memberToo => ?_
          obtain ⟨visited, -, rfl⟩ := List.mem_map.mp member
          obtain ⟨other, -, rfl⟩ := List.mem_map.mp memberToo
          exact .inr (.earlier less _ _)
      · intro first member second memberToo
        obtain ⟨name, -, rfl⟩ := List.mem_map.mp member
        obtain ⟨e, -, found⟩ := List.mem_flatMap.mp memberToo
        obtain ⟨visited, -, rfl⟩ := List.mem_map.mp found
        exact .inr (.above e.1 visited.1)

/-! The first file of a name. -/

/-- The directory of the file of a name that is visited first. -/
def firstVisit? (name : String) (top : Node) : Option (List String) :=
  (top.visits.find? fun visited => visited.2 = name).map Prod.fst

/-- A directory has a file of a name, and it is visited before every other one that has. -/
structure First (top : Node) (name : String) (way : List String) : Prop where
  holds : ∃ content, top.get? (way ++ [name]) = some (.file content)
  before : ∀ other content, top.get? (other ++ [name]) = some (.file content) →
    other = way ∨ Before way other

theorem First.unique {top : Node} {way other : List String} (first : top.First name way)
    (second : top.First name other) : way = other := by
  obtain ⟨content, holds⟩ := first.holds
  obtain ⟨contentToo, holdsToo⟩ := second.holds
  rcases first.before other contentToo holdsToo with same | before
  · exact same.symm
  · rcases second.before way content holds with same | back
    · exact same
    · exact absurd back before.asymm

theorem find?_eq_name (names : List String) (name : String) :
    names.find? (fun other => other = name) = if name ∈ names then some name else none := by
  induction names with
  | nil => rfl
  | cons other rest ih =>
      by_cases same : other = name
      · simp [same]
      · rw [List.find?_cons_of_neg (by simpa using same), ih]
        simp [Ne.symm same]

theorem firstVisit?_directory (entries : List (String × Node)) (name : String) :
    firstVisit? name (.directory entries) =
      if name ∈ ownFiles entries then some []
      else (sorted (directories entries)).findSome? fun e =>
        (firstVisit? name (.directory e.2)).map (e.1 :: ·) := by
  unfold firstVisit?
  rw [visits_directory, List.find?_append, List.find?_map, List.find?_flatMap]
  change Option.map Prod.fst (((List.find? (fun other => other = name) _).map _).or _) = _
  rw [find?_eq_name]
  split
  · rfl
  · rw [Option.map_none, Option.none_or, List.map_findSome?]
    congr 1
    funext e
    simp only [Function.comp_apply, List.find?_map, Option.map_map]
    rfl

theorem firstVisit?_eq_none_iff {top : Node} (proper : top.Proper) :
    top.firstVisit? name = none ↔
      ∀ way content, top.get? (way ++ [name]) ≠ some (.file content) := by
  unfold firstVisit?
  rw [Option.map_eq_none_iff, List.find?_eq_none]
  constructor
  · intro none way content stands
    exact none (way, name) ((mem_visits_iff proper).mpr ⟨content, stands⟩) (by simp)
  · rintro none ⟨way, other⟩ visited same
    obtain rfl : other = name := by simpa using same
    obtain ⟨content, stands⟩ := (mem_visits_iff proper).mp visited
    exact none way content stands

theorem first_of_firstVisit? {top : Node} (proper : top.Proper) {way : List String}
    (found : top.firstVisit? name = some way) : top.First name way := by
  obtain ⟨visited, reached, rfl⟩ := Option.map_eq_some_iff.mp found
  obtain ⟨front, back, split, rfl, passed⟩ :=
    (find?_eq_some_iff_firstIn (p := fun visited => visited.2 = name) (by simp)).mp reached
  have ordered := visits_ordered proper
  rw [split, List.pairwise_append, List.pairwise_cons] at ordered
  refine ⟨(mem_visits_iff proper).mp (by simp [split]), fun other content stands => ?_⟩
  have member := (mem_visits_iff proper).mpr ⟨content, stands⟩
  rw [split, List.mem_append, List.mem_cons] at member
  rcases member with sooner | same | later
  · exact absurd rfl (passed (other, visited.2) sooner)
  · exact .inl (congrArg Prod.fst same)
  · exact (ordered.2.1.1 _ later).imp_left Eq.symm

theorem firstVisit?_eq_some_iff {top : Node} (proper : top.Proper) {way : List String} :
    top.firstVisit? name = some way ↔ top.First name way := by
  constructor
  · exact first_of_firstVisit? proper
  · intro first
    cases found : top.firstVisit? name with
    | none =>
        obtain ⟨content, stands⟩ := first.holds
        exact absurd stands ((firstVisit?_eq_none_iff proper).mp found way content)
    | some other => rw [(first_of_firstVisit? proper found).unique first]

end Node

end Rehearsal.Files
