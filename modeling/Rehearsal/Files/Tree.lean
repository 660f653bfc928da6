import Rehearsal.Files.Basic
import Rehearsal.Files.Path
/-!
Finding, reading and writing files in a tree.
-/

namespace Rehearsal.Files

/-- A file system: its root, and the way from there to the working directory. -/
structure Tree where
  root : Node
  working : List String
  deriving Repr

namespace Node

def child? (name : String) : List (String × Node) → Option Node
  | [] => none
  | (key, node) :: rest => if key = name then some node else child? name rest

def putEntry (name : String) (node : Node) : List (String × Node) → List (String × Node)
  | [] => [(name, node)]
  | (key, old) :: rest =>
      if key = name then (name, node) :: rest else (key, old) :: putEntry name node rest

def insertEntry {α : Type} (entry : String × α) : List (String × α) → List (String × α)
  | [] => [entry]
  | other :: rest =>
      if other.1 < entry.1 then other :: insertEntry entry rest else entry :: other :: rest

def sorted {α : Type} (entries : List (String × α)) : List (String × α) :=
  entries.foldr insertEntry []

theorem insertEntry_perm {α : Type} (entry : String × α) (entries : List (String × α)) :
    (insertEntry entry entries).Perm (entry :: entries) := by
  induction entries with
  | nil => exact .refl _
  | cons other rest ih =>
      rw [insertEntry]
      split
      · exact (ih.cons other).trans (.swap entry other rest)
      · exact .refl _

theorem sorted_perm {α : Type} (entries : List (String × α)) : (sorted entries).Perm entries := by
  induction entries with
  | nil => exact .refl _
  | cons entry rest ih => exact (insertEntry_perm entry (sorted rest)).trans (ih.cons entry)

def directories (entries : List (String × Node)) : List (String × List (String × Node)) :=
  entries.filterMap fun (name, node) =>
    match node with
    | .directory inside => some (name, inside)
    | .file _ => none

/-- The files at and below a node that stands at a path, each with its path and content, by
ascending names. -/
def files (path : String) : Node → List (String × List UInt8)
  | .file content => [(path, content)]
  | .directory entries => (sorted (ofEntries path entries)).flatMap Prod.snd
where
  /-- For each entry of a directory the files in or below it. -/
  ofEntries (path : String) : List (String × Node) → List (String × List (String × List UInt8))
    | [] => []
    | (name, node) :: rest => (name, files (Path.join path name) node) :: ofEntries path rest

def get? : Node → List String → Option Node
  | node, [] => some node
  | .file _, _ :: _ => none
  | .directory entries, name :: rest => (child? name entries).bind fun node => node.get? rest

def put (node : Node) : List String → Node → Node
  | [], _ => node
  | _ :: _, .file content => .file content
  | [name], .directory entries => .directory (putEntry name node entries)
  | name :: rest, .directory entries =>
      match child? name entries with
      | some child => .directory (putEntry name (put node rest child) entries)
      | none => .directory entries

end Node

namespace Tree

/-- One step of a path, from a place given by the names that lead there. -/
def step (t : Tree) (place : List String) (piece : String) : Except Fault (List String) :=
  match t.root.get? place with
  | none => .error .notFound
  | some (.file _) => .error .notADirectory
  | some (.directory entries) =>
      if piece = "" ∨ piece = "." then .ok place
      else if piece = ".." then .ok place.dropLast
      else if isTooLong piece then .error .nameTooLong
      else
        match Node.child? piece entries with
        | some _ => .ok (place ++ [piece])
        | none => .error .notFound

def start (t : Tree) (path : String) : List String :=
  if Path.isAbsolute path then [] else t.working

/-- The place that a path leads to. -/
def locate (t : Tree) (path : String) : Except Fault (List String) :=
  if path = "" then .error .notFound
  else (Path.pieces path).foldlM t.step (t.start path)

def find (t : Tree) (path : String) : Except Fault Node := do
  let place ← t.locate path
  match t.root.get? place with
  | some node => return node
  | none => .error .notFound

def contains (t : Tree) (path : String) : Bool :=
  (t.find path).toOption.isSome

def readText (t : Tree) (path : String) : Except Fault String := do
  match ← t.find path with
  | .directory _ => .error .isADirectory
  | .file content =>
      match Utf8.decodeString content with
      | .ok s => return s
      | .error _ => .error .notText

/-- Makes the directory of the next piece if there is nothing of that name. -/
def descend (t : Tree) (place : List String) (piece : String) :
    Except Fault (Tree × List String) :=
  match t.step place piece with
  | .ok place => .ok (t, place)
  | .error .notFound =>
      let place := place ++ [piece]
      .ok ({ t with root := Node.put (.directory []) place t.root }, place)
  | .error fault => .error fault

def createDirectories (t : Tree) (path : String) : Except Fault Tree := do
  let pieces := (Path.pieces path).filter (· ≠ "")
  let (t, place) ← pieces.foldlM (fun (t, place) piece => t.descend place piece) (t, t.start path)
  match t.root.get? place with
  | some (.file _) => .error .alreadyExists
  | _ => return t

def write (t : Tree) (directory name : String) (content : List UInt8) : Except Fault Tree := do
  let place ← if directory = "" then pure t.working else t.locate directory
  match t.root.get? place with
  | some (.directory entries) =>
      match Node.child? name entries with
      | some (.directory _) => .error .isADirectory
      | _ =>
          if isTooLong name then .error .nameTooLong
          else return { t with root := Node.put (.file content) (place ++ [name]) t.root }
  | some (.file _) => .error .notADirectory
  | none => .error .notFound

def files (t : Tree) : List (String × List UInt8) :=
  match t.root.get? t.working with
  | some node => node.files ""
  | none => []

/-- Makes an empty file, and the directories above it, unless something is there already. -/
def touch (t : Tree) (path : String) : Except Fault Tree := do
  let (directory, name) := Path.splitLast path
  if name = "" ∨ name = "." ∨ name = ".." then .error .isADirectory
  else
    let t ← if directory = "" then pure t else t.createDirectories directory
    if t.contains path then return t else t.write directory name []

end Tree

end Rehearsal.Files
