import Rehearsal.Chain.Store
import Rehearsal.Proofs.Files.Listing

namespace Rehearsal

open Files

/-! The file of an artifact. Directories wait on a stack, and what is found is the file that comes
first when all of them are gone through from the top: the search loses none of them, and does not
depend on the order in which they list their entries. -/

namespace Store

variable {name path : String} {entries : List (String × Files.Node)}

theorem fileIn_eq (distinct : (entries.map Prod.fst).Nodup) :
    fileIn name path entries =
      if name ∈ Files.Node.ownFiles entries then some (Path.join path name) else none := by
  unfold fileIn
  by_cases own : name ∈ Files.Node.ownFiles entries
  · obtain ⟨content, member⟩ := Files.Node.mem_ownFiles.mp own
    rw [if_pos own, (Files.Node.child?_eq_some_iff distinct).mpr member]
  · rw [if_neg own]
    split
    · next content found =>
      have member := (Files.Node.child?_eq_some_iff distinct).mp found
      exact absurd (Files.Node.mem_ownFiles.mpr ⟨content, member⟩) own
    · rfl

namespace Pending

def firstPath? (name : String) (d : Pending) : Option String :=
  ((Files.Node.directory d.entries).firstVisit? name).map fun way =>
    Path.join (way.foldl Path.join d.path) name

theorem firstPath?_of_not_own {d : Pending} (absent : name ∉ Files.Node.ownFiles d.entries) :
    d.firstPath? name = d.below.findSome? (firstPath? name) := by
  rw [firstPath?, Files.Node.firstVisit?_directory, if_neg absent, List.map_findSome?, below,
    List.findSome?_map]
  congr 1
  funext e
  simp only [Function.comp_apply, Option.map_map, firstPath?]
  rfl

theorem proper_of_below {d inner : Pending} (proper : (Files.Node.directory d.entries).Proper)
    (member : inner ∈ d.below) : (Files.Node.directory inner.entries).Proper := by
  obtain ⟨e, listed, rfl⟩ := List.mem_map.mp member
  have listed := Files.Node.mem_directories.mp ((Files.Node.sorted_perm _).mem_iff.mp listed)
  exact proper.of_mem listed

end Pending

/-- The search comes to the first file in the first of the pending directories that has one. -/
theorem search_eq_findSome? (name : String) (pending : List Pending)
    (proper : ∀ d ∈ pending, (Files.Node.directory d.entries).Proper) :
    search name pending = pending.findSome? (Pending.firstPath? name) := by
  fun_induction search name pending with
  | case1 => rfl
  | case2 next pending path found =>
      have distinct := (proper next List.mem_cons_self).distinct
      rw [fileIn_eq distinct] at found
      split at found
      · next own =>
        have first : next.firstPath? name = some path := by
          rw [Pending.firstPath?, Files.Node.firstVisit?_directory, if_pos own, ← found]
          rfl
        rw [List.findSome?_cons, first]
      · contradiction
  | case3 next pending missing ih =>
      obtain ⟨nextProper, others⟩ := List.forall_mem_cons.mp proper
      have absent : name ∉ Files.Node.ownFiles next.entries := by
        intro own
        rw [fileIn_eq nextProper.distinct, if_pos own] at missing
        contradiction
      have properBelow : ∀ d ∈ next.below ++ pending, (Files.Node.directory d.entries).Proper := by
        rw [List.forall_mem_append]
        exact ⟨fun d member => Pending.proper_of_below nextProper member, others⟩
      rw [ih properBelow, List.findSome?_append, List.findSome?_cons,
        Pending.firstPath?_of_not_own absent]
      cases next.below.findSome? (Pending.firstPath? name) with
      | none => rfl
      | some path => rfl

def top (s : Store) : Files.Node :=
  match s.tree.find s.artifacts with
  | .ok node => node
  | .error _ => .directory []

def pathTo (s : Store) (file : String) (way : List String) : String :=
  Path.join (way.foldl Path.join s.artifacts) file

/-- The store with the directories of its tree listed as in another one. -/
def withRoot (s : Store) (root : Files.Node) : Store :=
  { s with tree := { s.tree with root } }

variable {s : Store}

theorem top_proper (proper : s.tree.root.Proper) : s.top.Proper := by
  unfold top
  split
  · next node found =>
    obtain ⟨place, -, stands⟩ := Tree.find_eq_ok_iff.mp found
    exact proper.get? stands
  · exact .directory .nil nofun nofun

theorem top_relisted (proper : s.tree.root.Proper) {root : Files.Node}
    (relisted : s.tree.root.Relisted root) : s.top.Relisted (s.withRoot root).top := by
  unfold top
  cases found : s.tree.find s.artifacts with
  | ok node =>
      obtain ⟨other, foundToo, same⟩ := Tree.exists_find_of_relisted relisted proper found
      have foundToo : (s.withRoot root).tree.find s.artifacts = .ok other := foundToo
      rw [show (s.withRoot root).artifacts = s.artifacts from rfl, foundToo]
      exact same
  | error fault =>
      cases foundToo : (s.withRoot root).tree.find (s.withRoot root).artifacts with
      | error faultToo => exact .refl _
      | ok other =>
          obtain ⟨node, back, -⟩ := Tree.exists_find_of_relisted
            (t := (s.withRoot root).tree) relisted.symm (relisted.proper proper) foundToo
          exact absurd (found.symm.trans back) nofun

theorem artifactPath?_eq (proper : s.tree.root.Proper) (name : String) :
    s.artifactPath? name =
      (s.top.firstVisit? (name ++ ".json")).map (s.pathTo (name ++ ".json")) := by
  have topProper := top_proper proper
  unfold artifactPath?
  unfold top at topProper ⊢
  cases found : s.tree.find s.artifacts with
  | error fault => rfl
  | ok node =>
      rw [found] at topProper
      cases node with
      | file content => rfl
      | directory entries =>
          have each : ∀ d ∈ [(⟨s.artifacts, entries⟩ : Pending)],
              (Files.Node.directory d.entries).Proper := by
            intro d member
            cases List.mem_singleton.mp member
            exact topProper
          change search _ [⟨s.artifacts, entries⟩] = _
          rw [search_eq_findSome? _ _ each, List.findSome?_singleton]
          rfl

theorem find_pathTo (proper : s.tree.root.Proper) {file : String} {way : List String}
    {content : List UInt8} (stands : s.top.get? (way ++ [file]) = some (.file content)) :
    s.tree.find (s.pathTo file way) = .ok (.file content) := by
  unfold top at stands
  cases found : s.tree.find s.artifacts with
  | error fault =>
      rw [found] at stands
      cases way with
      | nil => contradiction
      | cons name rest => contradiction
  | ok node =>
      rw [found] at stands
      obtain ⟨start, located, here⟩ := Tree.find_eq_ok_iff.mp found
      have further : s.artifacts ≠ "" := by
        intro working
        rw [working, Tree.locate, if_pos rfl] at located
        contradiction
      have below : s.tree.root.get? (start ++ (way ++ [file])) = some (.file content) := by
        rw [Files.Node.get?_append, here, Option.bind_some, stands]
      have there := Tree.locate_foldl_join proper further located below
      rw [List.foldl_append] at there
      exact Tree.find_eq_ok_iff.mpr ⟨_, there, below⟩

/-- The search for an artifact ends with the file that is visited first below the directory of
artifacts, and with nothing only where no file there has the name. The path that it gives leads to
that file, and it is the same in whatever order directories list their entries. -/
theorem artifactPath?_first (s : Store) (proper : s.tree.root.Proper) (name : String) :
    let file := name ++ ".json"
    s.artifactPath? name = (s.top.firstVisit? file).map (s.pathTo file) ∧
      (∀ path, s.artifactPath? name = some path ↔
        ∃ way, s.top.First file way ∧ path = s.pathTo file way) ∧
      (s.artifactPath? name = none ↔
        ∀ way content, s.top.get? (way ++ [file]) ≠ some (.file content)) ∧
      (∀ way content, s.top.get? (way ++ [file]) = some (.file content) →
        s.tree.find (s.pathTo file way) = .ok (.file content)) ∧
      ∀ root, s.tree.root.Relisted root →
        (s.withRoot root).artifactPath? name = s.artifactPath? name := by
  intro file
  have topProper := top_proper proper
  have visited := artifactPath?_eq proper name
  refine ⟨visited, fun path => ?_, ?_, fun way content stands => find_pathTo proper stands,
    fun root relisted => ?_⟩
  · rw [visited, Option.map_eq_some_iff]
    simp only [Files.Node.firstVisit?_eq_some_iff topProper, eq_comm (b := path)]
    rfl
  · rw [visited, Option.map_eq_none_iff]
    exact Files.Node.firstVisit?_eq_none_iff topProper
  · have rootProper := relisted.proper proper
    have same : (s.withRoot root).top.firstVisit? file = s.top.firstVisit? file := by
      ext way
      rw [Files.Node.firstVisit?_eq_some_iff (top_proper rootProper),
        Files.Node.firstVisit?_eq_some_iff topProper]
      exact ((top_relisted proper relisted).first_iff topProper).symm
    rw [visited, artifactPath?_eq (s := s.withRoot root) rootProper, same]
    rfl

/-! Two boxes. The one that stands deeper is found, since its directory comes first. -/

def boxes : List (String × Files.Node) :=
  [("b", .directory [("Box.json", .file [1])]),
    ("a", .directory [("x", .directory [("Box.json", .file [2])])])]

def shelf (boxes : List (String × Files.Node)) : Files.Node :=
  .directory [("artifacts", .directory boxes)]

def shelved : Store :=
  ⟨⟨shelf boxes, []⟩, "artifacts", "deployments"⟩

theorem shelf_proper : (shelf boxes).Proper := by
  refine .directory (by decide) (by decide) (List.forall_mem_singleton.mpr ?_)
  refine .directory (by decide) (by decide) (List.forall_mem_cons.mpr ⟨?_, ?_⟩)
  · refine .directory (by decide) (by decide) (List.forall_mem_singleton.mpr ?_)
    exact .file [1]
  · refine List.forall_mem_singleton.mpr (.directory (by decide) (by decide) ?_)
    refine List.forall_mem_singleton.mpr (.directory (by decide) (by decide) ?_)
    exact List.forall_mem_singleton.mpr (.file [2])

theorem artifactPath?_first_of_shelved :
    shelved.tree.root.Proper ∧ shelved.artifactPath? "Box" = some "artifacts/a/x/Box.json" ∧
      shelved.tree.root.Relisted (shelf boxes.reverse) ∧
      (shelved.withRoot (shelf boxes.reverse)).artifactPath? "Box" =
        some "artifacts/a/x/Box.json" := by
  obtain ⟨visited, -, -, -, alike⟩ := artifactPath?_first shelved shelf_proper "Box"
  have first : shelved.top.firstVisit? "Box.json" = some ["a", "x"] := by rfl
  have found : shelved.artifactPath? "Box" = some "artifacts/a/x/Box.json" := by
    rw [visited, show "Box" ++ ".json" = "Box.json" from rfl, first]
    rfl
  have relisted : shelved.tree.root.Relisted (shelf boxes.reverse) :=
    .entry "artifacts" [] [] (.listing boxes.reverse_perm.symm)
  exact ⟨shelf_proper, found, relisted, (alike _ relisted).trans found⟩

end Store

end Rehearsal
