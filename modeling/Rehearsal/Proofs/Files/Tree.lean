import Mathlib.Data.List.Basic
import Rehearsal.Files.Tree
import Rehearsal.Proofs.Result
import Rehearsal.Proofs.Text.Utf8

namespace Rehearsal.Files

/-! File trees that lose nothing. Making directories and writing a file leave every directory and
every other file where it is; so a path leads where it led before, and a file that was written can
be read until it is written again. -/

namespace Path

/-! The pieces of a path. -/

theorem split_ne_nil (path : List Char) : pieces.split path ≠ [] := by
  cases path with
  | nil => exact List.cons_ne_nil _ _
  | cons c rest =>
      rw [pieces.split]
      split
      · exact List.cons_ne_nil _ _
      · split
        · exact List.cons_ne_nil _ _
        · exact List.cons_ne_nil _ _

theorem split_slash (rest : List Char) :
    pieces.split ('/' :: rest) = [] :: pieces.split rest := by
  rw [pieces.split]
  cases whole : pieces.split rest with
  | nil => exact absurd whole (split_ne_nil rest)
  | cons piece more => rfl

theorem split_append (front back : List Char) :
    pieces.split (front ++ '/' :: back) = pieces.split front ++ pieces.split back := by
  induction front with
  | nil => exact split_slash back
  | cons c front ih =>
      rw [List.cons_append, pieces.split, ih, pieces.split]
      cases whole : pieces.split front with
      | nil => exact absurd whole (split_ne_nil front)
      | cons piece more =>
          simp only [List.cons_append]
          split
          · rfl
          · rfl

theorem split_of_notMem {name : List Char} (plain : '/' ∉ name) : pieces.split name = [name] := by
  induction name with
  | nil => rfl
  | cons c rest ih =>
      rw [List.mem_cons, not_or] at plain
      rw [pieces.split, ih plain.2]
      exact if_neg (Ne.symm plain.1)

structure Names (name : String) : Prop where
  plain : '/' ∉ name.toList
  notEmpty : name ≠ ""
  notHere : name ≠ "."
  notUp : name ≠ ".."

variable {directory name : String}

theorem pieces_of_names (names : Names name) : pieces name = [name] := by
  rw [pieces, split_of_notMem names.plain, List.map_singleton, String.ofList_toList]

theorem not_isAbsolute_of_names (names : Names name) : ¬isAbsolute name := by
  intro absolute
  obtain ⟨rest, whole⟩ := List.head?_eq_some_iff.mp (eq_of_beq absolute)
  exact names.plain (whole ▸ List.mem_cons_self)

theorem exists_toList_join (names : Names name) (further : directory ≠ "") :
    ∃ front, (join directory name).toList = front ++ '/' :: name.toList ∧
      (directory.toList = front ∧ front ≠ [] ∨ directory.toList = front ++ ['/']) := by
  have relative : ¬(isAbsolute name ∨ directory = "") := by
    simp [not_isAbsolute_of_names names, further]
  rw [join, if_neg relative]
  split
  · next slash =>
    obtain ⟨front, whole⟩ := List.getLast?_eq_some_iff.mp slash
    exact ⟨front, by simp [whole], .inr whole⟩
  · next noSlash =>
    exact ⟨directory.toList, by simp, .inl ⟨rfl, by simpa using further⟩⟩

theorem join_ne_empty (names : Names name) : join directory name ≠ "" := by
  by_cases working : directory = ""
  · rw [join, if_pos (.inr working)]
    exact names.notEmpty
  · obtain ⟨front, whole, -⟩ := exists_toList_join names working
    intro none
    simp [none] at whole

theorem isAbsolute_join (names : Names name) (further : directory ≠ "") :
    isAbsolute (join directory name) = isAbsolute directory := by
  obtain ⟨front, whole, same⟩ := exists_toList_join names further
  unfold isAbsolute
  rw [whole]
  cases front with
  | nil =>
      rcases same with ⟨-, some⟩ | same
      · contradiction
      · rw [same]
        rfl
  | cons c rest =>
      rcases same with ⟨same, -⟩ | same
      · rw [same]
        rfl
      · rw [same]
        rfl

theorem exists_pieces_join (names : Names name) (further : directory ≠ "") :
    ∃ front, pieces (join directory name) = front ++ [name] ∧
      (pieces directory = front ∨ pieces directory = front ++ [""]) := by
  obtain ⟨front, whole, same⟩ := exists_toList_join names further
  refine ⟨(pieces.split front).map String.ofList, ?_, ?_⟩
  · rw [pieces, whole, split_append, List.map_append, split_of_notMem names.plain,
      List.map_singleton, String.ofList_toList]
  · unfold pieces
    rcases same with ⟨same, -⟩ | same
    · rw [same]
      exact .inl rfl
    · rw [same, split_append, List.map_append]
      exact .inr rfl

theorem join_injective {other : String} (names : Names name) (namesToo : Names other)
    (same : join directory name = join directory other) : name = other := by
  unfold join at same
  simp only [not_isAbsolute_of_names names, not_isAbsolute_of_names namesToo] at same
  split at same
  · exact same
  · split at same
    · exact (String.append_right_inj directory).mp same
    · exact (String.append_right_inj _).mp same

end Path

namespace Node

theorem child?_putEntry (name key : String) (node : Node) (entries : List (String × Node)) :
    child? key (putEntry name node entries) =
      if name = key then some node else child? key entries := by
  induction entries with
  | nil => rfl
  | cons entry rest ih =>
      obtain ⟨other, old⟩ := entry
      rw [putEntry]
      by_cases here : other = name
      · subst here
        by_cases same : other = key
        · simp [child?, same]
        · simp [child?, same]
      · rw [if_neg here, child?, child?, ih]
        by_cases found : other = key
        · subst found
          rw [if_pos rfl, if_pos rfl, if_neg (Ne.symm here)]
        · rw [if_neg found, if_neg found]

@[simp] theorem get?_nil (node : Node) : node.get? [] = some node := by
  cases node with
  | file content => rfl
  | directory entries => rfl

theorem get?_concat {root node : Node} {place : List String} {name : String} :
    root.get? (place ++ [name]) = some node ↔ ∃ entries,
      root.get? place = some (.directory entries) ∧ child? name entries = some node := by
  induction place generalizing root with
  | nil =>
      cases root with
      | file content => simp [get?]
      | directory entries => simp [get?]
  | cons key rest ih =>
      cases root with
      | file content => simp [get?]
      | directory entries =>
          cases found : child? key entries with
          | none => simp [get?, found]
          | some child => simpa [get?, found] using ih

theorem exists_put_cons (node : Node) (name : String) (target : List String)
    (entries : List (String × Node)) :
    ∃ changed, put node (name :: target) (.directory entries) = .directory changed ∧
      (∀ key, name ≠ key → child? key changed = child? key entries) ∧
      (target ≠ [] → child? name changed = (child? name entries).map (put node target)) := by
  cases target with
  | nil =>
      refine ⟨_, rfl, fun key other => ?_, fun further => absurd rfl further⟩
      rw [child?_putEntry, if_neg other]
  | cons next rest =>
      cases found : child? name entries with
      | none => exact ⟨entries, by simp only [put, found], fun _ _ => rfl, fun _ => found⟩
      | some child =>
          refine ⟨_, by simp only [put, found]; rfl, fun key other => ?_, fun _ => ?_⟩
          · rw [child?_putEntry, if_neg other]
          · rw [child?_putEntry, if_pos rfl]
            rfl

theorem get?_put_concat {node root : Node} {place : List String} {name : String}
    {entries : List (String × Node)} (found : root.get? place = some (.directory entries)) :
    (put node (place ++ [name]) root).get? (place ++ [name]) = some node := by
  induction place generalizing root with
  | nil =>
      cases root with
      | file content => simp at found
      | directory entries => simp [put, get?, child?_putEntry]
  | cons key rest ih =>
      cases root with
      | file content => contradiction
      | directory others =>
          obtain ⟨child, there, found⟩ := Option.bind_eq_some_iff.mp found
          obtain ⟨changed, same, -, below⟩ := exists_put_cons node key (rest ++ [name]) others
          rw [List.cons_append, same, get?, below (by simp), there]
          exact ih found

def Keeps : Node → Node → Prop
  | .file content, after => after = .file content
  | .directory _, after => ∃ entries, after = .directory entries

theorem Keeps.refl (node : Node) : node.Keeps node := by
  cases node with
  | file content => rfl
  | directory entries => exact ⟨entries, rfl⟩

theorem keeps_put (node : Node) {root before : Node} {target other : List String}
    (free : ∀ entries, root.get? target ≠ some (.directory entries))
    (found : root.get? other = some before) (apart : other ≠ target) :
    ∃ after, (put node target root).get? other = some after ∧ before.Keeps after := by
  induction target generalizing root other with
  | nil =>
      cases root with
      | file content =>
          cases other with
          | nil => contradiction
          | cons key rest => contradiction
      | directory entries => exact absurd rfl (free entries)
  | cons name target ih =>
      cases root with
      | file content => exact ⟨before, found, .refl before⟩
      | directory entries =>
          obtain ⟨changed, same, others, below⟩ := exists_put_cons node name target entries
          rw [same]
          cases other with
          | nil =>
              cases found
              exact ⟨_, rfl, changed, rfl⟩
          | cons key rest =>
              obtain ⟨child, there, led⟩ := Option.bind_eq_some_iff.mp found
              by_cases first : name = key
              · subst first
                have free : ∀ entries, child.get? target ≠ some (.directory entries) := by
                  intro inside atTarget
                  exact free inside (by rw [get?, there]; exact atTarget)
                cases target with
                | nil =>
                    -- What is at the target is a file, so nothing is below it.
                    cases child with
                    | file content =>
                        cases rest with
                        | nil => contradiction
                        | cons next rest => contradiction
                    | directory inside => exact absurd rfl (free inside)
                | cons next target =>
                    have apart : rest ≠ next :: target := fun same => apart (congrArg _ same)
                    rw [get?, below (List.cons_ne_nil _ _), there]
                    exact ih free led apart
              · exact ⟨before, by rw [get?, others key first, there]; exact led, .refl before⟩

end Node

namespace Tree

/-! Trees that have all that another one has. -/

def HasDirectory (t : Tree) (place : List String) : Prop :=
  ∃ entries, t.root.get? place = some (.directory entries)

def Holds (t : Tree) (place : List String) (content : List UInt8) : Prop :=
  t.root.get? place = some (.file content)

/-- Where a piece of a path leads from the place of a directory: nowhere else, to the directory
above, or to an entry. -/
inductive Leads (t : Tree) (place : List String) : String → List String → Prop where
  | stays {piece : String} (none : piece = "" ∨ piece = ".") : Leads t place piece place
  | upwards : Leads t place ".." place.dropLast
  | downwards {name : String} (some : name ≠ "") (notHere : name ≠ ".") (notUp : name ≠ "..")
      (short : isTooLong name = false) (found : (t.root.get? (place ++ [name])).isSome) :
      Leads t place name (place ++ [name])

theorem step_eq_ok_iff {t : Tree} {place next : List String} {piece : String} :
    t.step place piece = .ok next ↔ t.HasDirectory place ∧ t.Leads place piece next := by
  constructor
  · intro stepped
    unfold step at stepped
    cases here : t.root.get? place with
    | none => simp [here] at stepped
    | some node =>
        cases node with
        | file content => simp [here] at stepped
        | directory entries =>
            refine ⟨⟨entries, here⟩, ?_⟩
            simp only [here] at stepped
            split at stepped
            · next none =>
              cases stepped
              exact .stays none
            · next some =>
              split at stepped
              · next up =>
                cases stepped
                exact up ▸ .upwards
              · next notUp =>
                split at stepped
                · contradiction
                · next short =>
                  split at stepped
                  · next node found =>
                    cases stepped
                    obtain ⟨some, notHere⟩ := not_or.mp some
                    have led := Node.get?_concat.mpr ⟨entries, here, found⟩
                    exact .downwards some notHere notUp (by simpa using short)
                      (Option.isSome_iff_exists.mpr ⟨node, led⟩)
                  · contradiction
  · rintro ⟨⟨entries, here⟩, leads⟩
    cases leads with
    | stays none => simp [step, here, none]
    | upwards => simp [step, here]
    | downwards some notHere notUp short found =>
        obtain ⟨node, found⟩ := Option.isSome_iff_exists.mp found
        obtain ⟨others, same, below⟩ := Node.get?_concat.mp found
        simp [step, same, below, some, notHere, notUp, short]

/-- A tree has the directories and files of another one, with their contents where nothing was to
change. -/
structure Extends (changed : List String → Prop) (before after : Tree) : Prop where
  working : after.working = before.working
  occupied : ∀ place, (before.root.get? place).isSome → (after.root.get? place).isSome
  directories : ∀ place, before.HasDirectory place → after.HasDirectory place
  files : ∀ place content, ¬changed place → before.Holds place content → after.Holds place content

namespace Extends

variable {changed : List String → Prop} {before between after : Tree}

theorem refl (t : Tree) : Extends changed t t :=
  ⟨rfl, fun _ some => some, fun _ has => has, fun _ _ _ holds => holds⟩

theorem trans (first : Extends changed before between) (second : Extends changed between after) :
    Extends changed before after where
  working := second.working.trans first.working
  occupied place some := second.occupied place (first.occupied place some)
  directories place has := second.directories place (first.directories place has)
  files place content same holds :=
    second.files place content same (first.files place content same holds)

theorem step (grows : Extends changed before after) (place : List String) (piece : String) :
    SucceedsAlike (before.step place piece) (after.step place piece) := by
  intro next stepped
  obtain ⟨has, leads⟩ := step_eq_ok_iff.mp stepped
  refine step_eq_ok_iff.mpr ⟨grows.directories place has, ?_⟩
  cases leads with
  | stays none => exact .stays none
  | upwards => exact .upwards
  | downwards some notHere notUp short found =>
      exact .downwards some notHere notUp short (grows.occupied _ found)

theorem foldlM_step (grows : Extends changed before after) (pieces : List String)
    (place : List String) :
    SucceedsAlike (pieces.foldlM before.step place) (pieces.foldlM after.step place) := by
  induction pieces generalizing place with
  | nil => exact .refl _
  | cons piece rest ih => exact (grows.step place piece).bind fun next _ => ih next

theorem locate (grows : Extends changed before after) (path : String) :
    SucceedsAlike (before.locate path) (after.locate path) := by
  unfold Tree.locate start
  rw [grows.working]
  split
  · exact .refl _
  · exact grows.foldlM_step _ _

end Extends

theorem extends_put {t : Tree} (node : Node) {target : List String}
    (free : ¬t.HasDirectory target)
    (placed : (t.root.get? target).isSome → ((Node.put node target t.root).get? target).isSome) :
    Extends (· = target) t { t with root := Node.put node target t.root } := by
  have free : ∀ entries, t.root.get? target ≠ some (.directory entries) :=
    fun entries found => free ⟨entries, found⟩
  refine ⟨rfl, fun place some => ?_, fun place ⟨entries, found⟩ => ?_,
    fun place content apart holds => ?_⟩
  · by_cases same : place = target
    · subst same
      exact placed some
    · obtain ⟨before, found⟩ := Option.isSome_iff_exists.mp some
      obtain ⟨after, kept, -⟩ := Node.keeps_put node free found same
      exact Option.isSome_iff_exists.mpr ⟨after, kept⟩
  · have apart : place ≠ target := by
      rintro rfl
      exact free entries found
    obtain ⟨after, kept, others, rfl⟩ := Node.keeps_put node free found apart
    exact ⟨others, kept⟩
  · obtain ⟨after, kept, rfl⟩ := Node.keeps_put node free holds apart
    exact kept

/-! Making directories. -/

theorem get?_of_step_eq_notFound {t : Tree} {place : List String} {piece : String}
    (missing : t.step place piece = .error .notFound) : t.root.get? (place ++ [piece]) = none := by
  rw [Option.eq_none_iff_forall_ne_some]
  intro node found
  obtain ⟨entries, here, below⟩ := Node.get?_concat.mp found
  simp only [step, here, below] at missing
  repeat' split at missing
  all_goals contradiction

theorem extends_descend {t after : Tree} {place left : List String} {piece : String}
    (done : t.descend place piece = .ok (after, left)) : Extends (fun _ => False) t after := by
  unfold descend at done
  split at done
  · cases done
    exact .refl t
  · next missing =>
    cases done
    have none := get?_of_step_eq_notFound missing
    have free : ¬t.HasDirectory (place ++ [piece]) := by
      rintro ⟨entries, found⟩
      rw [none] at found
      contradiction
    have grows := extends_put (.directory []) free (by simp [none])
    refine { grows with files := fun other content _ holds => grows.files other content ?_ holds }
    rintro rfl
    rw [Holds, none] at holds
    contradiction
  · contradiction

theorem extends_foldlM_descend {pieces : List String} {t after : Tree}
    {place left : List String}
    (done : pieces.foldlM (fun (t, place) piece => t.descend place piece) (t, place) =
      .ok (after, left)) : Extends (fun _ => False) t after := by
  induction pieces generalizing t place with
  | nil =>
      cases done
      exact .refl _
  | cons piece rest ih =>
      obtain ⟨⟨between, next⟩, first, others⟩ := bind_eq_ok.mp done
      exact (extends_descend first).trans (ih others)

theorem extends_createDirectories {t after : Tree} {path : String}
    (made : t.createDirectories path = .ok after) : Extends (fun _ => False) t after := by
  obtain ⟨⟨between, place⟩, walked, ends⟩ := bind_eq_ok.mp made
  simp only at ends
  split at ends
  · contradiction
  · cases ends
    exact extends_foldlM_descend walked

/-! Writing files. -/

def placeOf (t : Tree) (directory : String) : Except Fault (List String) :=
  if directory = "" then pure t.working else t.locate directory

theorem Extends.placeOf {changed : List String → Prop} {before after : Tree}
    (grows : Extends changed before after) (directory : String) :
    SucceedsAlike (before.placeOf directory) (after.placeOf directory) := by
  unfold Tree.placeOf
  rw [grows.working]
  split
  · exact .refl _
  · exact grows.locate directory

theorem write_eq (t : Tree) (directory name : String) (content : List UInt8) :
    t.write directory name content = (do
      let place ← t.placeOf directory
      match t.root.get? place with
      | some (.directory entries) =>
          match Node.child? name entries with
          | some (.directory _) => .error .isADirectory
          | _ =>
              if isTooLong name then .error .nameTooLong
              else return { t with root := Node.put (.file content) (place ++ [name]) t.root }
      | some (.file _) => .error .notADirectory
      | none => .error .notFound) := by
  unfold write placeOf
  by_cases working : directory = ""
  · subst working
    rfl
  · exact (if_neg working).trans (congrArg (· >>= _) (if_neg working).symm)

theorem write_eq_ok {t after : Tree} {directory name : String} {content : List UInt8}
    (written : t.write directory name content = .ok after) :
    ∃ place, t.placeOf directory = .ok place ∧ t.HasDirectory place ∧
      ¬t.HasDirectory (place ++ [name]) ∧ isTooLong name = false ∧
      after = { t with root := Node.put (.file content) (place ++ [name]) t.root } := by
  rw [write_eq] at written
  obtain ⟨place, located, rest⟩ := bind_eq_ok.mp written
  refine ⟨place, located, ?_⟩
  split at rest
  · next entries here =>
    split at rest
    · contradiction
    · next apart =>
      split at rest
      · contradiction
      · next short =>
        cases rest
        refine ⟨⟨entries, here⟩, ?_, by simpa using short, rfl⟩
        rintro ⟨inside, found⟩
        obtain ⟨others, same, below⟩ := Node.get?_concat.mp found
        cases same.symm.trans here
        exact apart inside below
  · contradiction
  · contradiction

/-- There is a file with a content in a directory, under a name that files can have. -/
structure Stores (t : Tree) (directory name : String) (content : List UInt8) : Prop where
  short : isTooLong name = false
  held : ∃ place, t.placeOf directory = .ok place ∧ t.Holds (place ++ [name]) content

variable {t after : Tree} {directory name : String} {content : List UInt8}

theorem stores_of_write (written : t.write directory name content = .ok after) :
    after.Stores directory name content ∧ ∃ place, t.placeOf directory = .ok place ∧
      Extends (· = place ++ [name]) t after := by
  obtain ⟨place, located, ⟨entries, here⟩, free, short, rfl⟩ := write_eq_ok written
  have placed : (Node.put (.file content) (place ++ [name]) t.root).get? (place ++ [name]) =
      some (.file content) := Node.get?_put_concat here
  have grows := extends_put (.file content) free fun _ =>
    Option.isSome_iff_exists.mpr ⟨_, placed⟩
  exact ⟨⟨short, place, grows.placeOf directory place located, placed⟩, place, located, grows⟩

theorem Stores.of_extends {changed : List String → Prop} (stores : t.Stores directory name content)
    (grows : Extends changed t after)
    (same : ∀ place, t.placeOf directory = .ok place → ¬changed (place ++ [name])) :
    after.Stores directory name content := by
  obtain ⟨short, place, located, holds⟩ := stores
  exact ⟨short, place, grows.placeOf directory place located,
    grows.files _ content (same place located) holds⟩

theorem Stores.createDirectories {path : String} (stores : t.Stores directory name content)
    (made : t.createDirectories path = .ok after) : after.Stores directory name content :=
  stores.of_extends (extends_createDirectories made) fun _ _ => id

theorem Stores.write {other : String} {octets : List UInt8}
    (stores : t.Stores directory name content)
    (written : t.write directory other octets = .ok after) (apart : name ≠ other) :
    after.Stores directory name content := by
  obtain ⟨-, place, located, grows⟩ := stores_of_write written
  refine stores.of_extends grows fun found again same => ?_
  cases again.symm.trans located
  exact apart (List.cons.inj (List.append_cancel_left same)).1

/-! Finding a file by its path. -/

theorem step_of_names (names : Path.Names name) (short : isTooLong name = false)
    {place : List String} (found : (t.root.get? (place ++ [name])).isSome) :
    t.step place name = .ok (place ++ [name]) := by
  obtain ⟨node, led⟩ := Option.isSome_iff_exists.mp found
  obtain ⟨entries, here, -⟩ := Node.get?_concat.mp led
  exact step_eq_ok_iff.mpr
    ⟨⟨entries, here⟩, .downwards names.notEmpty names.notHere names.notUp short found⟩

theorem eq_of_step_empty {place next : List String} {piece : String} (empty : piece = "")
    (stepped : t.step place piece = .ok next) : next = place := by
  obtain ⟨-, leads⟩ := step_eq_ok_iff.mp stepped
  cases leads with
  | stays none => rfl
  | upwards => contradiction
  | downwards some notHere notUp short found => contradiction

theorem locate_join (names : Path.Names name) (short : isTooLong name = false)
    {place : List String} (located : t.placeOf directory = .ok place)
    (found : (t.root.get? (place ++ [name])).isSome) :
    t.locate (Path.join directory name) = .ok (place ++ [name]) := by
  have last := step_of_names names short found
  rw [locate, if_neg (Path.join_ne_empty names)]
  unfold placeOf at located
  by_cases working : directory = ""
  · rw [if_pos working] at located
    cases located
    rw [Path.join, if_pos (.inr working), Path.pieces_of_names names, start,
      if_neg (Path.not_isAbsolute_of_names names), List.foldlM_cons, last]
    rfl
  · rw [if_neg working, locate, if_neg working] at located
    obtain ⟨front, whole, rest⟩ := Path.exists_pieces_join names working
    have way : front.foldlM t.step (t.start directory) = .ok place := by
      rcases rest with same | same
      · rwa [same] at located
      · rw [same, List.foldlM_append] at located
        obtain ⟨before, led, stays⟩ := bind_eq_ok.mp located
        obtain ⟨next, stepped, ends⟩ := bind_eq_ok.mp stays
        cases ends
        rw [eq_of_step_empty rfl stepped]
        exact led
    have same : t.start (Path.join directory name) = t.start directory := by
      rw [start, Path.isAbsolute_join names working, start]
    rw [whole, same, List.foldlM_append, way, ok_bind, List.foldlM_cons, last]
    rfl

theorem Stores.find_join (stores : t.Stores directory name content) (names : Path.Names name) :
    t.find (Path.join directory name) = .ok (.file content) := by
  obtain ⟨short, place, located, holds⟩ := stores
  have found : t.root.get? (place ++ [name]) = some (.file content) := holds
  rw [find, locate_join names short located (Option.isSome_iff_exists.mpr ⟨_, found⟩), ok_bind,
    found]
  rfl

theorem Stores.readText_join {text : String}
    (stores : t.Stores directory name (Utf8.encodeString text)) (names : Path.Names name) :
    t.readText (Path.join directory name) = .ok text := by
  rw [readText, stores.find_join names, ok_bind]
  simp only [Utf8.decodeString_encodeString]
  rfl

end Tree

end Rehearsal.Files
