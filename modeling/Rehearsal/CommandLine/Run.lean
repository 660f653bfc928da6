import Rehearsal.Command.Run
import Rehearsal.CommandLine.Invocation
/-!
Carrying out a command line, from its arguments to its exit code.
-/

namespace Rehearsal

structure Surroundings where
  tree : Files.Tree
  userSettings : Option String
  palette : Text.Palette
  now : Nat

/-- How a command line ends: its exit code, what it has shown and what has gone wrong, line by
line, and what it has left in the files. -/
structure Exit where
  code : Nat
  lines : List String
  errors : List String
  tree : Files.Tree

namespace CommandLine

def versionLine : String := "scenario 0.1.0"

def usage : List String :=
  ["Declarative scenario runner for smart contracts",
    "",
    "Usage: scenario [OPTIONS] run [RUN OPTIONS] <PATHS>...",
    "       scenario [OPTIONS] list [--tag <TAG>] <PATHS>...",
    "       scenario [OPTIONS] check <PATHS>...",
    "",
    "Options:",
    "      --config <FILE>          Configuration file",
    "      --log-file <FILE>        Also write logs to this file",
    "  -v, --verbose                Show the result of every step",
    "  -h, --help                   Show help",
    "  -V, --version                Show the version",
    "",
    "Run options:",
    "  -n, --network <NAME>         Network to run against",
    "      --rpc-url <URL>          Address of the node",
    "      --artifacts <DIR>        Directory of compiled artifacts",
    "      --deployments <DIR>      Directory of deployment records",
    "  -s, --scenario <TEXT>        Only run scenarios whose name contains this text",
    "  -t, --tag <TAG>              Only run suites with this tag, may be repeated",
    "      --bail                   Skip the other scenarios of a suite after a failure",
    "      --continue-on-failure    Keep executing steps after a failed one",
    "      --report-dir <DIR>       Write one JSON report per suite into this directory",
    "      --json                   Show reports as JSON"]

def Stop.exit (tree : Files.Tree) : Stop → Exit
  | .help => ⟨0, usage, [], tree⟩
  | .version => ⟨0, [versionLine], [], tree⟩
  | .misuse => ⟨2, [], "error: the arguments make no command" :: "" :: usage, tree⟩

def exitOf (finished : Finished) : Exit :=
  match finished.failure with
  | none => ⟨0, finished.lines, [], finished.tree⟩
  | some e => ⟨1, finished.lines, [s!"Error: {e.message}"], finished.tree⟩

end CommandLine

namespace Invocation

variable {m : Type → Type} [Monad m]

/-- Carries out what is asked for. A log that cannot be written is done without. -/
def perform (i : Invocation) (s : Surroundings) (connect : String → Nat → Link m) : m Exit := do
  let tree := (i.log.bind fun path => (s.tree.touch path).toOption).getD s.tree
  let user := s.userSettings.map Settings.userFile
  match Settings.load tree i.settings user with
  | .error e => return CommandLine.exitOf ⟨[], tree, some e⟩
  | .ok settings =>
      let desk : Desk := ⟨settings, s.palette, i.verbose, s.now⟩
      return CommandLine.exitOf (← i.command.execute desk connect tree)

end Invocation

namespace CommandLine

variable {m : Type → Type} [Monad m]

def run (arguments : List String) (s : Surroundings) (connect : String → Nat → Link m) : m Exit :=
  match Invocation.read arguments with
  | .error stop => return stop.exit s.tree
  | .ok i => i.perform s connect

end CommandLine

end Rehearsal
