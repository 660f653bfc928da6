import Rehearsal.Text.Search
/-!
The text of paths: steps between slashes.
-/

namespace Rehearsal.Files.Path

def pieces (path : String) : List String :=
  (split path.toList).map String.ofList
where
  /-- Splits at every slash; there is always one piece more than there are slashes. -/
  split : List Char → List (List Char)
    | [] => [[]]
    | c :: rest =>
        match split rest with
        | [] => [[c]]
        | piece :: more => if c = '/' then [] :: piece :: more else (c :: piece) :: more

def isAbsolute (path : String) : Bool :=
  path.toList.head? == some '/'

/-- A path seen from another one; an absolute path stays as it is. -/
def join (parent child : String) : String :=
  if isAbsolute child ∨ parent = "" then child
  else if parent.toList.getLast? = some '/' then parent ++ child
  else parent ++ "/" ++ child

/-- What stands in front of the last slash and behind it; nothing in front stands for the
working directory, unless the slash comes first. -/
def splitLast (path : String) : String × String :=
  match Text.splitAtLast? '/' path.toList with
  | none => ("", path)
  | some ([], name) => ("/", String.ofList name)
  | some (directory, name) => (String.ofList directory, String.ofList name)

def fileName? (path : String) : Option String :=
  match ((pieces path).filter fun piece => piece ≠ "" && piece ≠ ".").getLast? with
  | some name => if name = ".." then none else some name
  | none => none

/-- A name before and behind its last dot; a dot in front does not count. -/
def splitName (name : String) : String × Option String :=
  match Text.splitAtLast? '.' name.toList with
  | some ([], _) => (name, none)
  | some (stem, extension) => (String.ofList stem, some (String.ofList extension))
  | none => (name, none)

def stem? (path : String) : Option String :=
  (fileName? path).map fun name => (splitName name).1

end Rehearsal.Files.Path
