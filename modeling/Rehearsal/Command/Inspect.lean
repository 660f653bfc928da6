import Rehearsal.Command.Basic
import Rehearsal.Report.Summary
import Rehearsal.Suite.Check
/-!
Looking at suites without running them: a list of what they hold, and a check of each.
-/

namespace Rehearsal.Command

open Text (Palette)

def listing (palette : Palette) (path : String) (suite : SuiteDefinition) : List String :=
  let m := suite.metadata
  let version := (m.version.map (" v" ++ ·)).getD ""
  [palette.paint .boldWhite m.name ++ palette.paint .dimmed version ++ " "
    ++ palette.paint .dimmed s!"({path})"]
  ++ (m.description.map fun text => "  " ++ palette.paint .dimmed text).toList
  ++ (if m.tags.isEmpty then [] else ["  tags: " ++ palette.paint .cyan (Text.join ", " m.tags)])
  ++ suite.scenarios.map fun s => s!"  - {s.name} ({s.steps.length} steps)"

def listSuites (desk : Desk) (tree : Files.Tree) (paths tags : List String) : Finished :=
  match Suite.loadAll tree paths with
  | .error e => ⟨[], tree, some e⟩
  | .ok suites =>
      ⟨(tagged tags suites).flatMap fun (path, suite) => listing desk.palette path suite, tree,
        none⟩

def verdict (palette : Palette) (tree : Files.Tree) (path : String) : List String × Nat :=
  match Suite.load tree path with
  | .error e => ([failedMark palette ++ " " ++ e.message], 1)
  | .ok suite =>
      let issues := suite.check
      let mark := if issues.isEmpty then passedMark palette else failedMark palette
      ((mark ++ s!" {suite.metadata.name} ({path})")
        :: issues.map (fun issue => "    " ++ issue.text), issues.length)

def checkSuites (desk : Desk) (tree : Files.Tree) (paths : List String) : Finished :=
  match Suite.discover tree paths with
  | .error e => ⟨[], tree, some e⟩
  | .ok found =>
      let verdicts := found.map (verdict desk.palette tree)
      let problems := (verdicts.map Prod.snd).foldl (· + ·) 0
      ⟨verdicts.flatMap Prod.fst, tree,
        if problems = 0 then none else some (.problemsFound problems)⟩

end Rehearsal.Command
