import Rehearsal.Chain.Node
import Rehearsal.Command.Inspect
import Rehearsal.Report.Writer
import Rehearsal.Suite.Run
/-!
Running suites one after the other against a node.
-/

namespace Rehearsal.Command

def options (settings : Settings) (request : RunRequest) : RunOptions where
  policy := if request.continueOnFailure then .continue else settings.policy
  bail := request.bail || settings.bail
  filter := request.scenario

def networkOf (settings : Settings) (request : RunRequest) : String :=
  request.network.getD settings.network

def urlOf (settings : Settings) (request : RunRequest) : Except CommandError String :=
  let network := networkOf settings request
  match request.url.or (settings.node? network) with
  | some url => .ok url
  | none => .error (.run (.configuration (.noUrl network)))

/-- The artifacts and deployments of a run, as the files stand. -/
def storeOf (settings : Settings) (request : RunRequest) (tree : Files.Tree) : Store where
  tree
  artifacts := request.artifacts.getD settings.artifacts
  deployments := request.deployments.getD settings.deployments

/-- Writes a report, if reports are written, and says where to unless JSON is shown. -/
def deliver (desk : Desk) (request : RunRequest) (writer : Option ReportWriter)
    (tree : Files.Tree) (report : SuiteReport) (path : String) :
    Except CommandError (List String × Option ReportWriter × Files.Tree) :=
  match writer with
  | none => .ok ([], none, tree)
  | some writer =>
      match writer.write tree report path with
      | .error fault => .error (.files fault)
      | .ok (written, writer, tree) =>
          let note := "  " ++ desk.palette.paint .dimmed "Report:" ++ " " ++ written
          .ok (if request.json then [] else [note], some writer, tree)

variable {m : Type → Type} [Monad m]

/-- Runs suites one after the other on the same connection. Gives the lines shown and the
files left; then the reports, or why not all suites were run. -/
def runSuites (desk : Desk) (request : RunRequest) (link : Link m) :
    List (String × SuiteDefinition) → Option ReportWriter → Files.Tree →
      StateT Nat m (List String × Files.Tree × Except CommandError (List SuiteReport))
  | [], _, tree => return ([], tree, .ok [])
  | (path, definition) :: rest, writer, tree => do
      let store := storeOf desk.settings request tree
      let node : Node m :=
        { link
          store
          receiptSeconds := desk.settings.receiptSeconds
          pollMilliseconds := desk.settings.pollMilliseconds }
      let network := networkOf desk.settings request
      let suite : Suite (StateT Nat m) :=
        Suite.ofDefinition definition (some store) network desk.now
      let report ← suite.run node.chain desk.now (options desk.settings request)
      let shown := if request.json then [] else report.summary desk.palette desk.verbose
      match deliver desk request writer tree report path with
      | .error e => return (shown, tree, .error e)
      | .ok (note, writer, tree) => do
          let (lines, tree, reports) ← runSuites desk request link rest writer tree
          return (shown ++ note ++ lines, tree, reports.map (report :: ·))

def firstRequest : Nat := 1

def conclude (request : RunRequest) (lines : List String) (tree : Files.Tree) :
    Except CommandError (List SuiteReport) → Finished
  | .error e => ⟨lines, tree, some e⟩
  | .ok reports =>
      let shown :=
        if request.json then [(Json.array (reports.map SuiteReport.toJson)).pretty] else []
      let failed := reports.countP fun r => !r.isSuccess
      ⟨lines ++ shown, tree, if failed = 0 then none else some (.suitesFailed failed)⟩

/-- Runs the suites of a request. A connection is made from the address of the node and the
number of seconds that an answer may take. -/
def runAll (desk : Desk) (connect : String → Nat → Link m) (tree : Files.Tree)
    (request : RunRequest) : m Finished :=
  match Suite.loadAll tree request.paths with
  | .error e => return ⟨[], tree, some e⟩
  | .ok suites =>
      match tagged request.tags suites with
      | [] => return ⟨["No suites found"], tree, none⟩
      | suites =>
          match urlOf desk.settings request with
          | .error e => return ⟨[], tree, some e⟩
          | .ok url => do
              let link := connect url desk.settings.requestSeconds
              let ((lines, tree, reports), _) ←
                (runSuites desk request link suites (request.reports.map ReportWriter.new)
                  tree).run firstRequest
              return conclude request lines tree reports

def execute (desk : Desk) (connect : String → Nat → Link m) (tree : Files.Tree) :
    Command → m Finished
  | .run request => runAll desk connect tree request
  | .list paths tags => return listSuites desk tree paths tags
  | .check paths => return checkSuites desk tree paths

end Rehearsal.Command
