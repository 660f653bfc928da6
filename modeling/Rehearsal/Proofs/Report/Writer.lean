import Mathlib.Data.List.Perm.Subperm
import Mathlib.Data.List.Nodup
import Rehearsal.Proofs.Files.Tree
import Rehearsal.Proofs.Report.Reading
import Rehearsal.Proofs.Text.Numeral
import Rehearsal.Report.Writer

namespace Rehearsal

open Files (Tree)

/-! The files of a report writer. Each report is written under a name that no other one has, and so
each of them is found under its name when all are written. The number behind a name is at most two
more than the number of names taken before. -/

/-! Names that are fit for files. -/

structure FileSafe (name : String) : Prop where
  notEmpty : name ≠ ""
  chars : ∀ c ∈ name.toList, isNameChar c = true

theorem fileSafe_isSafe (name : String) : FileSafe (fileSafe name) := by
  unfold fileSafe
  split
  · exact ⟨by decide, List.all_eq_true.mp (by decide)⟩
  · next some =>
    refine ⟨by simpa using some, fun c member => ?_⟩
    rw [String.toList_ofList, List.mem_map] at member
    obtain ⟨given, -, rfl⟩ := member
    split
    · assumption
    · rfl

theorem isNameChar_of_isDecimal {c : Char} (decimal : Text.isDecimal c = true) :
    isNameChar c = true := by
  have digit : c.isDigit = true := decimal
  simp [isNameChar, Char.isAlphanum, digit]

namespace FileSafe

variable {name : String}

theorem fileSafe_eq (safe : FileSafe name) : fileSafe name = name := by
  have kept : (name.toList.map fun c => if isNameChar c then c else '_') = name.toList.map id :=
    List.map_congr_left fun c member => if_pos (safe.chars c member)
  rw [fileSafe, if_neg safe.notEmpty, kept, List.map_id, String.ofList_toList]

theorem noSlash (safe : FileSafe name) : '/' ∉ name.toList := by
  intro member
  exact absurd (safe.chars '/' member) (by decide)

theorem names (safe : FileSafe name) : Files.Path.Names (name ++ ".json") := by
  have long : 4 < (name ++ ".json").length := by
    rw [String.length_append]
    exact Nat.lt_add_left name.length (by decide)
  refine ⟨?_, ?_, ?_, ?_⟩
  · rw [String.toList_append, List.mem_append, not_or]
    exact ⟨safe.noSlash, by decide⟩
  · intro same
    exact absurd (same ▸ long) (by decide)
  · intro same
    exact absurd (same ▸ long) (by decide)
  · intro same
    exact absurd (same ▸ long) (by decide)

end FileSafe

namespace ReportWriter

/-! Names with a number. -/

def candidate (name : String) (n : Nat) : String :=
  s!"{name}-{n}"

theorem candidate_injective (name : String) : Function.Injective (candidate name) := by
  intro n other same
  exact Text.toString_injective ((String.append_right_inj _).mp same)

theorem safe_candidate {name : String} (safe : FileSafe name) (n : Nat) :
    FileSafe (candidate name n) := by
  have whole : (candidate name n).toList = name.toList ++ '-' :: Text.decimal n := by
    simp [candidate, Text.decimal]
    rfl
  refine ⟨?_, fun c member => ?_⟩
  · intro none
    simp [none] at whole
  · rw [whole, List.mem_append, List.mem_cons] at member
    rcases member with member | rfl | member
    · exact safe.chars c member
    · rfl
    · exact isNameChar_of_isDecimal (Text.isDecimal_of_mem_decimal member)

theorem exists_candidate_notMem (taken : List String) (name : String) (start : Nat) :
    ∃ k ≤ taken.length, candidate name (start + k) ∉ taken := by
  by_contra none
  have each : ∀ k ≤ taken.length, candidate name (start + k) ∈ taken := by
    intro k bound
    by_contra free
    exact none ⟨k, bound, free⟩
  let tried := (List.range (taken.length + 1)).map fun k => candidate name (start + k)
  have distinct : tried.Nodup := by
    refine List.nodup_range.map fun k other same => ?_
    exact Nat.add_left_cancel (candidate_injective name same)
  have within : tried ⊆ taken := by
    intro given member
    obtain ⟨k, bound, rfl⟩ := List.mem_map.mp member
    exact each k (Nat.le_of_lt_succ (List.mem_range.mp bound))
  have fits := (distinct.subperm within).length_le
  simp [tried] at fits

/-- The search for a number comes to the least one that makes the name a new one. -/
theorem numbered_eq {taken : List String} {name : String} {fuel start : Nat}
    (free : ∃ k ≤ fuel, candidate name (start + k) ∉ taken) :
    ∃ n, numbered taken name fuel start = candidate name n ∧ start ≤ n ∧ n ≤ start + fuel ∧
      candidate name n ∉ taken ∧ ∀ k, start ≤ k → k < n → candidate name k ∈ taken := by
  induction fuel generalizing start with
  | zero =>
      obtain ⟨k, bound, free⟩ := free
      cases Nat.le_zero.mp bound
      exact ⟨start, rfl, Nat.le_refl start, Nat.le_refl start, free, by omega⟩
  | succ fuel ih =>
      rw [numbered]
      split
      · next found =>
        have known : candidate name start ∈ taken := List.contains_iff_mem.mp found
        have further : ∃ k ≤ fuel, candidate name (start + 1 + k) ∉ taken := by
          obtain ⟨k, bound, free⟩ := free
          cases k with
          | zero => exact absurd known free
          | succ k => exact ⟨k, Nat.le_of_succ_le_succ bound, by rwa [Nat.add_assoc, Nat.add_comm 1]⟩
        obtain ⟨n, same, above, within, free, least⟩ := ih further
        refine ⟨n, same, Nat.le_of_succ_le above, by omega, free, fun k first below => ?_⟩
        rcases Nat.eq_or_lt_of_le first with rfl | later
        · exact known
        · exact least k later below
      · next missing =>
        have free : candidate name start ∉ taken := mt List.contains_iff_mem.mpr missing
        exact ⟨start, rfl, Nat.le_refl start, Nat.le_add_right start _, free, by omega⟩

/-! The choice of a name. -/

/-- The names that a report gets by the names that are taken: that of its suite, or that of its
source, or that of the suite with the least number from two up, whichever is free first. -/
inductive Picks (taken : List String) (suite source : String) : String → Prop where
  | suite (free : fileSafe suite ∉ taken) : Picks taken suite source (fileSafe suite)
  | source {stem : String} (held : fileSafe suite ∈ taken)
      (named : Files.Path.stem? source = some stem) (free : fileSafe stem ∉ taken) :
      Picks taken suite source (fileSafe stem)
  | numbered {n : Nat} (held : fileSafe suite ∈ taken)
      (heldToo : ∀ stem, Files.Path.stem? source = some stem → fileSafe stem ∈ taken)
      (second : 2 ≤ n) (within : n ≤ taken.length + 2)
      (free : candidate (fileSafe suite) n ∉ taken)
      (least : ∀ k, 2 ≤ k → k < n → candidate (fileSafe suite) k ∈ taken) :
      Picks taken suite source (candidate (fileSafe suite) n)

namespace Picks

variable {taken : List String} {suite source stem : String}

theorem notMem (picks : Picks taken suite source stem) : stem ∉ taken := by
  cases picks with
  | suite free => exact free
  | source held named free => exact free
  | numbered held heldToo second within free least => exact free

theorem safe (picks : Picks taken suite source stem) : FileSafe stem := by
  cases picks with
  | suite free => exact fileSafe_isSafe suite
  | source held named free => exact fileSafe_isSafe _
  | numbered held heldToo second within free least => exact safe_candidate (fileSafe_isSafe suite) _

end Picks

theorem picks_freeStem (w : ReportWriter) (suite source : String) :
    Picks w.taken suite source (w.freeStem suite source) := by
  have search : fileSafe suite ∈ w.taken →
      (∀ stem, Files.Path.stem? source = some stem → fileSafe stem ∈ w.taken) →
      Picks w.taken suite source (numbered w.taken (fileSafe suite) w.taken.length 2) := by
    intro held heldToo
    obtain ⟨n, same, second, within, free, least⟩ :=
      numbered_eq (exists_candidate_notMem w.taken (fileSafe suite) 2)
    rw [same]
    exact .numbered held heldToo second (within.trans_eq (Nat.add_comm 2 _)) free least
  unfold freeStem
  simp only [List.contains_iff_mem]
  split
  · next free => exact .suite free
  · next held =>
    have held : fileSafe suite ∈ w.taken := Classical.not_not.mp held
    cases named : Files.Path.stem? source with
    | none => exact search held (by simp [named])
    | some stem =>
        simp only [Option.map_some]
        split
        · next free => exact .source held named free
        · next heldToo => exact search held (by simpa [named] using heldToo)

/-! Writing. -/

def pathOf (directory stem : String) : String :=
  Files.Path.join directory (stem ++ ".json")

theorem pathOf_injective {directory stem other : String} (safe : FileSafe stem)
    (safeToo : FileSafe other) (same : pathOf directory stem = pathOf directory other) :
    stem = other := by
  have names := Files.Path.join_injective safe.names safeToo.names same
  exact (String.append_left_inj ".json").mp names

theorem write_eq (w : ReportWriter) (tree : Tree) (report : SuiteReport) (source : String) :
    w.write tree report source = (do
      let stem := w.freeStem report.suiteName source
      let made ← tree.createDirectories w.directory
      let after ← made.write w.directory (stem ++ ".json") (Utf8.encodeString report.text)
      return (pathOf w.directory stem, { w with taken := stem :: w.taken }, after)) := by
  rw [write, (w.picks_freeStem report.suiteName source).safe.fileSafe_eq]
  rfl

def writeAll (w : ReportWriter) (tree : Tree) : List (SuiteReport × String) →
    Except Files.Fault (List String × ReportWriter × Tree)
  | [] => return ([], w, tree)
  | (report, source) :: rest => do
      let (path, w, tree) ← w.write tree report source
      let (paths, w, tree) ← writeAll w tree rest
      return (path :: paths, w, tree)

/-- How reports are kept in a tree behind a writer: which names they got, that nobody took these
before, and what else was kept. -/
structure Keeps (w : ReportWriter) (before : Tree) (reports : List (SuiteReport × String))
    (stems : List String) (after : Tree) : Prop where
  safe : ∀ stem ∈ stems, FileSafe stem
  distinct : stems.Nodup
  fresh : ∀ stem ∈ stems, stem ∉ w.taken
  stores : List.Forall₂ (fun stem report =>
    after.Stores w.directory (stem ++ ".json") (Utf8.encodeString report.1.text)) stems reports
  kept : ∀ stem content, stem ∉ stems → before.Stores w.directory (stem ++ ".json") content →
    after.Stores w.directory (stem ++ ".json") content

theorem keeps_of_writeAll {w last : ReportWriter} {before after : Tree}
    {reports : List (SuiteReport × String)} {paths : List String}
    (written : w.writeAll before reports = .ok (paths, last, after)) :
    ∃ stems, paths = stems.map (pathOf w.directory) ∧ Keeps w before reports stems after := by
  induction reports generalizing w before paths with
  | nil =>
      cases written
      exact ⟨[], rfl, by simp, .nil, by simp, .nil, fun _ _ _ stores => stores⟩
  | cons entry rest ih =>
      obtain ⟨report, source⟩ := entry
      obtain ⟨⟨path, next, between⟩, first, others⟩ := bind_eq_ok.mp written
      obtain ⟨⟨tail, behind, left⟩, rest, ends⟩ := bind_eq_ok.mp others
      cases ends
      rw [write_eq] at first
      obtain ⟨made, created, stored⟩ := bind_eq_ok.mp first
      obtain ⟨put, wrote, ends⟩ := bind_eq_ok.mp stored
      cases ends
      have picks := w.picks_freeStem report.suiteName source
      obtain ⟨stems, rfl, keeps⟩ := ih rest
      obtain ⟨stores, -⟩ := Tree.stores_of_write wrote
      have new : w.freeStem report.suiteName source ∉ stems := fun member =>
        keeps.fresh _ member List.mem_cons_self
      refine ⟨_ :: stems, rfl, List.forall_mem_cons.mpr ⟨picks.safe, keeps.safe⟩,
        List.nodup_cons.mpr ⟨new, keeps.distinct⟩, ?_,
        .cons (keeps.kept _ _ new stores) keeps.stores, ?_⟩
      · exact List.forall_mem_cons.mpr ⟨picks.notMem, fun stem member =>
          mt (List.mem_cons_of_mem _) (keeps.fresh stem member)⟩
      · intro stem content other held
        rw [List.mem_cons, not_or] at other
        have apart : stem ++ ".json" ≠ w.freeStem report.suiteName source ++ ".json" :=
          mt (String.append_left_inj ".json").mp other.1
        exact keeps.kept stem content other.2 ((held.createDirectories created).write wrote apart)

/-- The file system does not take a file into a directory that is made for it. -/
def Refuses (directory stem : String) (content : List UInt8) (tree : Tree)
    (fault : Files.Fault) : Prop :=
  tree.createDirectories directory = .error fault ∨ ∃ made,
    tree.createDirectories directory = .ok made ∧
      made.write directory (stem ++ ".json") content = .error fault

theorem refuses_of_write {w : ReportWriter} {tree : Tree} {report : SuiteReport} {source : String}
    {fault : Files.Fault} (failed : w.write tree report source = .error fault) :
    Refuses w.directory (w.freeStem report.suiteName source) (Utf8.encodeString report.text) tree
      fault := by
  rw [write_eq] at failed
  rcases bind_eq_error.mp failed with refused | ⟨made, created, failed⟩
  · exact .inl refused
  · rcases bind_eq_error.mp failed with refused | ⟨after, -, ends⟩
    · exact .inr ⟨made, created, refused⟩
    · contradiction

theorem directory_of_write {w next : ReportWriter} {tree after : Tree} {report : SuiteReport}
    {source path : String} (written : w.write tree report source = .ok (path, next, after)) :
    next.directory = w.directory := by
  obtain ⟨made, -, stored⟩ := bind_eq_ok.mp written
  obtain ⟨put, -, ends⟩ := bind_eq_ok.mp stored
  cases ends
  rfl

/-- Writing only fails when the file system refuses a file, and it does so for the first report for
which this is the case. -/
theorem refused_of_writeAll {w : ReportWriter} {before : Tree}
    {reports : List (SuiteReport × String)} {fault : Files.Fault}
    (failed : w.writeAll before reports = .error fault) :
    ∃ front report source back paths next between, reports = front ++ (report, source) :: back ∧
      w.writeAll before front = .ok (paths, next, between) ∧
      Refuses w.directory (next.freeStem report.suiteName source) (Utf8.encodeString report.text)
        between fault := by
  induction reports generalizing w before with
  | nil => contradiction
  | cons entry rest ih =>
      obtain ⟨report, source⟩ := entry
      rcases bind_eq_error.mp failed with refused | ⟨⟨path, next, between⟩, first, failed⟩
      · exact ⟨[], report, source, rest, [], w, before, rfl, rfl, refuses_of_write refused⟩
      · rcases bind_eq_error.mp failed with failed | ⟨others, -, ends⟩
        · obtain ⟨front, later, origin, back, paths, last, tree, split, written, refused⟩ := ih failed
          rw [directory_of_write first] at refused
          refine ⟨(report, source) :: front, later, origin, back, path :: paths, last, tree,
            congrArg _ split, ?_, refused⟩
          rw [writeAll, first, ok_bind]
          simp only [written]
          rfl
        · contradiction

theorem taken_of_write {w next : ReportWriter} {tree after : Tree} {report : SuiteReport}
    {source path : String} (written : w.write tree report source = .ok (path, next, after)) :
    next.taken.length = w.taken.length + 1 := by
  obtain ⟨made, -, stored⟩ := bind_eq_ok.mp written
  obtain ⟨put, -, ends⟩ := bind_eq_ok.mp stored
  cases ends
  rfl

theorem taken_of_writeAll {w last : ReportWriter} {before after : Tree}
    {reports : List (SuiteReport × String)} {paths : List String}
    (written : w.writeAll before reports = .ok (paths, last, after)) :
    last.taken.length = w.taken.length + reports.length := by
  induction reports generalizing w before paths with
  | nil =>
      cases written
      rfl
  | cons entry rest ih =>
      obtain ⟨⟨path, next, between⟩, first, others⟩ := bind_eq_ok.mp written
      obtain ⟨⟨tail, behind, left⟩, rest, ends⟩ := bind_eq_ok.mp others
      cases ends
      rw [ih rest, taken_of_write first, List.length_cons, Nat.add_assoc, Nat.add_comm 1]

/-- A report is found under a path that leads to an entry of a directory, as a text of which it can
be read back. -/
structure FoundAt (directory : String) (after : Tree) (path : String) (report : SuiteReport) :
    Prop where
  child : ∃ stem place, '/' ∉ stem.toList ∧ path = Files.Path.join directory (stem ++ ".json") ∧
    after.placeOf directory = .ok place ∧ after.locate path = .ok (place ++ [stem ++ ".json"])
  held : after.readText path = .ok report.text
  reads : report.Ordered → report.toJson.Legible → report.toJson.depth ≤ Json.depthLimit →
    ∀ text, after.readText path = .ok text → SuiteReport.ofText text = .ok report.withoutNull

theorem foundAt_of_stores {directory stem : String} {after : Tree} {report : SuiteReport}
    (safe : FileSafe stem)
    (stores : after.Stores directory (stem ++ ".json") (Utf8.encodeString report.text)) :
    FoundAt directory after (pathOf directory stem) report := by
  have held : after.readText (pathOf directory stem) = .ok report.text :=
    stores.readText_join safe.names
  refine ⟨?_, held, fun ordered legible shallow text found => ?_⟩
  · obtain ⟨short, place, located, holds⟩ := stores
    have found := Option.isSome_iff_exists.mpr ⟨_, holds⟩
    exact ⟨stem, place, safe.noSlash, rfl, located, Tree.locate_join safe.names short located found⟩
  · cases held.symm.trans found
    rw [SuiteReport.ofText_text ordered legible, if_pos shallow]

structure KeptApart (directory : String) (reports : List (SuiteReport × String))
    (paths : List String) (after : Tree) : Prop where
  distinct : paths.Nodup
  found : List.Forall₂ (fun path report => FoundAt directory after path report.1) paths reports

theorem Keeps.keptApart {w : ReportWriter} {before after : Tree}
    {reports : List (SuiteReport × String)} {stems : List String}
    (keeps : Keeps w before reports stems after) :
    KeptApart w.directory reports (stems.map (pathOf w.directory)) after where
  distinct := keeps.distinct.map_on fun stem member other memberToo same =>
    pathOf_injective (keeps.safe stem member) (keeps.safe other memberToo) same
  found := by
    rw [List.forall₂_map_left_iff]
    have both := (List.forall₂_and_left stems reports).mpr ⟨keeps.safe, keeps.stores⟩
    exact both.imp fun stem report ⟨safe, stores⟩ => foundAt_of_stores safe stores

/-- Reports that are written through one writer never overwrite each other. The search for a name
ends with one that is free; and unless the file system refuses a file, every report is written, its
path is that of a child of the directory and none of the others, and in the end it is found there.
A writer takes one name for each report, so a counter of 31 bits holds the number behind a name as
long as fewer than `2 ^ 31 - 2` reports were written before. -/
theorem reports_kept_apart (directory : String) (before : Tree)
    (reports : List (SuiteReport × String)) :
    (∀ (w : ReportWriter) suite source, Picks w.taken suite source (w.freeStem suite source)) ∧
      match (new directory).writeAll before reports with
      | .ok (paths, last, after) =>
          KeptApart directory reports paths after ∧ last.taken.length = reports.length
      | .error fault => ∃ front report source back paths w between,
          reports = front ++ (report, source) :: back ∧
            (new directory).writeAll before front = .ok (paths, w, between) ∧
            Refuses directory (w.freeStem report.suiteName source)
              (Utf8.encodeString report.text) between fault := by
  refine ⟨picks_freeStem, ?_⟩
  cases written : (new directory).writeAll before reports with
  | error fault => exact refused_of_writeAll written
  | ok result =>
      obtain ⟨paths, last, after⟩ := result
      obtain ⟨stems, rfl, keeps⟩ := keeps_of_writeAll written
      exact ⟨keeps.keptApart, (taken_of_writeAll written).trans (Nat.zero_add _)⟩

example : ((new "reports").writeAll ⟨.directory [], []⟩ [(.empty "a b", "x.yaml"),
    (.empty "a_b", "a/x.yaml"), (.empty "a.b", "b/x.yaml"), (.empty "a_b", "c/x.yaml")]).toOption.map
      Prod.fst = some ["reports/a_b.json", "reports/x.json", "reports/a.b.json",
        "reports/a_b-2.json"] := by
  rfl

end ReportWriter

end Rehearsal
