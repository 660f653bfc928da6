import Rehearsal.Files.Tree
import Rehearsal.Report.Json
/-!
Writing the reports of one run into a directory, each to a file of its own.
-/

namespace Rehearsal

def isNameChar (c : Char) : Bool :=
  c.isAlphanum || c == '-' || c == '_' || c == '.'

/-- A name fit for a file: other characters become underscores, and nothing is left empty. -/
def fileSafe (name : String) : String :=
  if name = "" then "suite"
  else String.ofList (name.toList.map fun c => if isNameChar c then c else '_')

structure ReportWriter where
  directory : String
  taken : List String
  deriving Repr

namespace ReportWriter

def new (directory : String) : ReportWriter := ⟨directory, []⟩

/-- A name with the least number from `n` up that makes it new; one number more is tried than names are
taken, so one of them is free. From two on, 31 bits hold the number as long as fewer than `2 ^ 31 - 2`
names are taken. -/
def numbered (taken : List String) (name : String) : (fuel : Nat) → (n : Nat) → String
  | 0, n => s!"{name}-{n}"
  | fuel + 1, n =>
      if taken.contains s!"{name}-{n}" then numbered taken name fuel (n + 1) else s!"{name}-{n}"

/-- A free name: that of the suite, else that of its source, else the suite's with a number. -/
def freeStem (w : ReportWriter) (suite source : String) : String :=
  let byName := fileSafe suite
  if ¬w.taken.contains byName then byName
  else
    match (Files.Path.stem? source).map fileSafe with
    | some byFile =>
        if ¬w.taken.contains byFile then byFile
        else numbered w.taken byName w.taken.length 2
    | none => numbered w.taken byName w.taken.length 2

def write (w : ReportWriter) (tree : Files.Tree) (report : SuiteReport) (source : String) :
    Except Files.Fault (String × ReportWriter × Files.Tree) := do
  let stem := w.freeStem report.suiteName source
  let tree ← tree.createDirectories w.directory
  let name := fileSafe stem ++ ".json"
  let tree ← tree.write w.directory name (Utf8.encodeString report.text)
  return (Files.Path.join w.directory name, { w with taken := stem :: w.taken }, tree)

end ReportWriter

end Rehearsal
