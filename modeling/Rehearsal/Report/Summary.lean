import Rehearsal.Report.Basic
import Rehearsal.Text.Ink
/-!
Summaries of reports for readers, line by line.
-/

namespace Rehearsal

open Text (Palette)

def passedMark (palette : Palette) : String := palette.paint .green "✓"

def failedMark (palette : Palette) : String := palette.paint .red "✗"

def StepResult.line (palette : Palette) (r : StepResult) : String :=
  let mark := if r.passed then passedMark palette else failedMark palette
  "      " ++ mark ++ " " ++ palette.paint .dimmed r.action ++ " " ++ r.name

def ScenarioResult.headLines (palette : Palette) (r : ScenarioResult) : List String :=
  match r.status with
  | .passed =>
      ["  " ++ passedMark palette ++ " " ++ r.name ++ " "
        ++ palette.paint .dimmed s!"({r.duration} ms)"]
  | .skipped =>
      ["  " ++ palette.paint .yellow "-" ++ " " ++ r.name ++ " "
        ++ palette.paint .dimmed "(skipped)"]
  | .failed =>
      ("  " ++ failedMark palette ++ " " ++ palette.paint .red r.name)
        :: (r.failure.map fun failure => "      " ++ failure.summary).toList

def ScenarioResult.lines (palette : Palette) (verbose : Bool) (r : ScenarioResult) : List String :=
  r.headLines palette ++ if verbose then r.steps.map (StepResult.line palette) else []

namespace SuiteReport

def problemLine (palette : Palette) (stage : String) (problem : String) : String :=
  "  " ++ failedMark palette ++ s!" {stage} failed: {problem}"

def tally (r : SuiteReport) : String :=
  s!"{r.passed} passed, {r.failed} failed, {r.skipped} skipped ({r.duration} ms)"

def summary (palette : Palette) (verbose : Bool) (r : SuiteReport) : List String :=
  ["", palette.paint .boldBlue "Suite:" ++ " " ++ palette.paint .boldWhite r.suiteName]
  ++ (r.setupError.map (problemLine palette "setup")).toList
  ++ r.scenarios.flatMap (ScenarioResult.lines palette verbose)
  ++ (r.teardownError.map (problemLine palette "teardown")).toList
  ++ ["  " ++ palette.paint (if r.isSuccess then .green else .red) r.tally]

end SuiteReport

end Rehearsal
