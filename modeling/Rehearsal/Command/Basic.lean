import Rehearsal.Settings
import Rehearsal.Suite.Discovery
import Rehearsal.Text.Ink
/-!
The things to do with suites: run them against a node, list them, check them.
-/

namespace Rehearsal

open Text (Palette)

structure RunRequest where
  paths : List String
  network : Option String
  url : Option String
  artifacts : Option String
  deployments : Option String
  /-- Only scenarios whose names contain this text are run. -/
  scenario : Option String
  /-- Only suites with one of these tags are run, or all if there are none. -/
  tags : List String
  bail : Bool
  continueOnFailure : Bool
  /-- The directory that reports are written to. -/
  reports : Option String
  /-- Whether reports are shown as JSON and not as summaries. -/
  json : Bool
  deriving Repr

inductive Command where
  | run (request : RunRequest)
  | list (paths tags : List String)
  | check (paths : List String)
  deriving Repr

structure Desk where
  settings : Settings
  palette : Palette
  verbose : Bool
  /-- The time of the run. -/
  now : Nat

/-- What a command has shown, line by line, what it has left in the files, and why it failed,
if it did. -/
structure Finished where
  lines : List String
  tree : Files.Tree
  failure : Option CommandError

namespace Command

def tagged (tags : List String) (suites : List (String × SuiteDefinition)) :
    List (String × SuiteDefinition) :=
  suites.filter fun (_, suite) => tags.isEmpty || tags.any suite.metadata.hasTag

end Command

end Rehearsal
