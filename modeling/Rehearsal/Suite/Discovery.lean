import Rehearsal.Command.Error
import Rehearsal.Files.Tree
import Rehearsal.Suite.Reading
/-!
Finding suites: a path stands for a file, or for all suite files below a directory, in the
order of their paths taken piece by piece.
-/

namespace Rehearsal

namespace Files.Node

def namesSuite (name : String) : Bool :=
  match (Path.splitName name).2 with
  | some extension => extension == "yaml" || extension == "yml"
  | none => false

def suitesBelow (path : String) : Node → List String
  | .file _ => []
  | .directory entries => (sorted (ofEntries path entries)).flatMap Prod.snd
where
  /-- For each entry of a directory the suite files in or below it. -/
  ofEntries (path : String) : List (String × Node) → List (String × List String)
    | [] => []
    | (name, .file _) :: rest =>
        (name, if namesSuite name then [Path.join path name] else []) :: ofEntries path rest
    | (name, .directory entries) :: rest =>
        (name, suitesBelow (Path.join path name) (.directory entries)) :: ofEntries path rest

end Files.Node

namespace Suite

open Files

def filesAt (tree : Tree) (path : String) : Except CommandError (List String) :=
  match tree.find path with
  | .ok (.file _) => .ok [path]
  | .ok directory => .ok (directory.suitesBelow path)
  | .error _ => .error (.missing path)

/-- The suite files that paths stand for, in the order of the paths. -/
def discover (tree : Tree) (paths : List String) : Except CommandError (List String) := do
  let found ← paths.mapM (filesAt tree)
  return found.flatten

def load (tree : Tree) (path : String) : Except CommandError SuiteDefinition :=
  match tree.readText path with
  | .error fault => .error (.unreadable path fault)
  | .ok text => (SuiteDefinition.ofText text).mapError (.badSuite path)

def loadAll (tree : Tree) (paths : List String) :
    Except CommandError (List (String × SuiteDefinition)) := do
  let found ← discover tree paths
  found.mapM fun path => do return (path, ← load tree path)

end Suite

end Rehearsal
