import Rehearsal.Proofs.Files.Visits

namespace Rehearsal.Files

/-! Directories that list their entries in another order. A path leads to the same in both trees,
and the first file of a name is the same. -/

namespace Node

variable {entries : List (String × Node)} {name : String} {node : Node}

/-- Two trees are the same but for the order in which directories list their entries. -/
inductive Relisted : Node → Node → Prop where
  | refl (node : Node) : Relisted node node
  | trans {first second third : Node} (left : Relisted first second)
      (right : Relisted second third) : Relisted first third
  | listing {entries others : List (String × Node)} (same : entries.Perm others) :
      Relisted (.directory entries) (.directory others)
  | entry (name : String) {node other : Node} (front back : List (String × Node))
      (inside : Relisted node other) :
      Relisted (.directory (front ++ (name, node) :: back))
        (.directory (front ++ (name, other) :: back))

namespace Relisted

variable {left right : Node}

theorem symm (relisted : Relisted left right) : Relisted right left := by
  induction relisted with
  | refl node => exact .refl node
  | trans left right leftBack rightBack => exact .trans rightBack leftBack
  | listing same => exact .listing same.symm
  | entry name front back inside ih => exact .entry name front back ih

theorem proper (relisted : Relisted left right) (isProper : left.Proper) : right.Proper := by
  induction relisted with
  | refl node => exact isProper
  | trans left right leftProper rightProper => exact rightProper (leftProper isProper)
  | listing same =>
      cases isProper with
      | directory distinct named inside =>
          refine .directory ((same.map _).nodup_iff.mp distinct) ?_ ?_
          · exact fun entry member => named entry (same.mem_iff.mpr member)
          · exact fun entry member => inside entry (same.mem_iff.mpr member)
  | @entry name node other front back relisted ih =>
      cases isProper with
      | directory distinct named inside =>
          have names : (front ++ (name, other) :: back).map Prod.fst =
              (front ++ (name, node) :: back).map Prod.fst := by simp
          rw [List.forall_mem_append, List.forall_mem_cons] at named inside
          refine .directory (names ▸ distinct) ?_ ?_
          · rw [List.forall_mem_append, List.forall_mem_cons]
            exact named
          · rw [List.forall_mem_append, List.forall_mem_cons]
            exact ⟨inside.1, ih inside.2.1, inside.2.2⟩

theorem exists_child (relisted : Relisted left right) (isProper : left.Proper)
    {entries : List (String × Node)} (top : left = .directory entries)
    (found : child? name entries = some node) :
    ∃ others other, right = .directory others ∧ child? name others = some other ∧
      Relisted node other := by
  induction relisted generalizing entries node with
  | refl node => exact ⟨entries, _, top, found, .refl _⟩
  | trans first second ihFirst ihSecond =>
      obtain ⟨between, middle, isDirectory, foundToo, inside⟩ := ihFirst isProper top found
      obtain ⟨others, other, same, last, insideToo⟩ :=
        ihSecond (first.proper isProper) isDirectory foundToo
      exact ⟨others, other, same, last, inside.trans insideToo⟩
  | @listing entries others same =>
      cases top
      have distinctToo := ((Relisted.listing same).proper isProper).distinct
      rw [child?_eq_some_iff isProper.distinct] at found
      exact ⟨others, node, rfl, (child?_eq_some_iff distinctToo).mpr (same.mem_iff.mp found),
        .refl node⟩
  | @entry key held other front back relisted ih =>
      cases top
      have distinctToo := ((Relisted.entry key front back relisted).proper isProper).distinct
      rw [child?_eq_some_iff isProper.distinct, List.mem_append, List.mem_cons] at found
      obtain ⟨last, member, inside⟩ :
          ∃ last, (name, last) ∈ front ++ (key, other) :: back ∧ Relisted node last := by
        rcases found with before | same | behind
        · exact ⟨node, List.mem_append_left _ before, .refl node⟩
        · cases same
          exact ⟨other, by simp, relisted⟩
        · exact ⟨node, List.mem_append_right _ (List.mem_cons_of_mem _ behind), .refl node⟩
      exact ⟨_, last, rfl, (child?_eq_some_iff distinctToo).mpr member, inside⟩

theorem eq_file (relisted : Relisted left right) {content : List UInt8}
    (isFile : left = .file content) : right = .file content := by
  induction relisted with
  | refl node => exact isFile
  | trans first second ihFirst ihSecond => exact ihSecond (ihFirst isFile)
  | listing same => cases isFile
  | entry name front back inside ih => cases isFile

theorem exists_directory (relisted : Relisted (.directory entries) right) :
    ∃ others, right = .directory others := by
  cases right with
  | file content => cases relisted.symm.eq_file rfl
  | directory others => exact ⟨others, rfl⟩

theorem exists_get? (relisted : Relisted left right) (isProper : left.Proper)
    {place : List String} (found : left.get? place = some node) :
    ∃ other, right.get? place = some other ∧ Relisted node other := by
  induction place generalizing left right with
  | nil =>
      rw [get?_nil, Option.some.injEq] at found
      subst found
      exact ⟨right, get?_nil right, relisted⟩
  | cons name rest ih =>
      cases left with
      | file content => contradiction
      | directory entries =>
          obtain ⟨child, first, found⟩ := Option.bind_eq_some_iff.mp found
          obtain ⟨others, other, rfl, firstToo, inside⟩ := relisted.exists_child isProper rfl first
          have childProper : child.Proper := by
            cases isProper with
            | directory distinct named below =>
                exact below _ ((child?_eq_some_iff distinct).mp first)
          obtain ⟨last, stands, same⟩ := ih inside childProper found
          exact ⟨last, by rw [get?, firstToo]; exact stands, same⟩

theorem holds_iff (relisted : Relisted left right) (isProper : left.Proper) {place : List String}
    {content : List UInt8} :
    left.get? place = some (.file content) ↔ right.get? place = some (.file content) := by
  constructor
  · intro stands
    obtain ⟨other, standsToo, same⟩ := relisted.exists_get? isProper stands
    rw [standsToo, same.eq_file rfl]
  · intro stands
    obtain ⟨other, standsToo, same⟩ := relisted.symm.exists_get? (relisted.proper isProper) stands
    rw [standsToo, same.eq_file rfl]

theorem first_iff (relisted : Relisted left right) (isProper : left.Proper) {way : List String} :
    left.First name way ↔ right.First name way := by
  constructor
  · rintro ⟨holds, before⟩
    exact ⟨by simpa only [relisted.holds_iff isProper] using holds,
      by simpa only [relisted.holds_iff isProper] using before⟩
  · rintro ⟨holds, before⟩
    exact ⟨by simpa only [relisted.holds_iff isProper] using holds,
      by simpa only [relisted.holds_iff isProper] using before⟩

end Relisted

end Node

namespace Tree

variable {t : Tree} {node : Node} {path : String}

theorem find_eq_ok_iff :
    t.find path = .ok node ↔ ∃ place, t.locate path = .ok place ∧ t.root.get? place = some node := by
  rw [find, bind_eq_ok]
  refine exists_congr fun place => and_congr_right fun _ => ?_
  cases t.root.get? place with
  | none => simp
  | some held => simp [pure_eq_ok]

theorem names_of_get? (proper : t.root.Proper) {place : List String} {name : String}
    (found : t.root.get? (place ++ [name]) = some node) :
    Path.Names name ∧ isTooLong name = false := by
  obtain ⟨entries, here, below⟩ := Node.get?_concat.mp found
  cases proper.get? here with
  | directory distinct named inside =>
      exact named _ ((Node.child?_eq_some_iff distinct).mp below)

theorem locate_foldl_join (proper : t.root.Proper) {start way : List String}
    (further : path ≠ "") (located : t.locate path = .ok start)
    (found : t.root.get? (start ++ way) = some node) :
    t.locate (way.foldl Path.join path) = .ok (start ++ way) := by
  induction way generalizing path start with
  | nil => rwa [List.append_nil]
  | cons name rest ih =>
      rw [List.append_cons] at found ⊢
      rw [Node.get?_append, Option.bind_eq_some_iff] at found
      obtain ⟨held, stands, behind⟩ := found
      obtain ⟨names, short⟩ := names_of_get? proper stands
      have here : t.placeOf path = .ok start := by rw [placeOf, if_neg further, located]
      have next := locate_join names short here (Option.isSome_iff_exists.mpr ⟨held, stands⟩)
      refine ih (Path.join_ne_empty names) next ?_
      rw [Node.get?_append, stands, Option.bind_some, behind]

theorem extends_of_relisted {root : Node} (relisted : t.root.Relisted root)
    (proper : t.root.Proper) : Extends (fun _ => False) t { t with root } where
  working := rfl
  occupied place some := by
    obtain ⟨node, found⟩ := Option.isSome_iff_exists.mp some
    obtain ⟨other, stands, -⟩ := relisted.exists_get? proper found
    exact Option.isSome_iff_exists.mpr ⟨other, stands⟩
  directories place := by
    rintro ⟨entries, found⟩
    obtain ⟨other, stands, same⟩ := relisted.exists_get? proper found
    obtain ⟨others, rfl⟩ := same.exists_directory
    exact ⟨others, stands⟩
  files place content _ holds := (relisted.holds_iff proper).mp holds

theorem exists_find_of_relisted {root : Node} (relisted : t.root.Relisted root)
    (proper : t.root.Proper) (found : t.find path = .ok node) :
    ∃ other, { t with root }.find path = .ok other ∧ node.Relisted other := by
  obtain ⟨place, located, stands⟩ := find_eq_ok_iff.mp found
  obtain ⟨other, standsToo, same⟩ := relisted.exists_get? proper stands
  have locatedToo := (extends_of_relisted relisted proper).locate path place located
  exact ⟨other, find_eq_ok_iff.mpr ⟨place, locatedToo, standsToo⟩, same⟩

end Tree

end Rehearsal.Files
