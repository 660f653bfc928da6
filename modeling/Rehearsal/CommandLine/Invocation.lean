import Rehearsal.Command.Basic
import Rehearsal.CommandLine.Options
/-!
What a command line asks for.

Some options hold for every command and may stand in front of it or behind it; where both are
given, the one behind the command counts.
-/

namespace Rehearsal

structure Invocation where
  /-- The file of settings that is asked for. -/
  settings : Option String
  log : Option String
  verbose : Bool
  command : Command
  deriving Repr

namespace Invocation

open CommandLine

def withText (long : String) (letter : Option Char) : Choice :=
  ⟨long, letter, .text, false⟩

def withPath (long : String) : Choice :=
  ⟨long, none, .path, false⟩

def flag (long : String) (letter : Option Char) : Choice :=
  ⟨long, letter, .nothing, false⟩

def common : List Choice :=
  [withPath "config", withPath "log-file", flag "verbose" (some 'v'), flag helpName (some 'h')]

def leading : List Choice :=
  common ++ [flag versionName (some 'V')]

def tagChoice : Choice :=
  ⟨"tag", some 't', .text, true⟩

def runChoices : List Choice :=
  common ++
    [withText "network" (some 'n'), withText "rpc-url" none, withPath "artifacts",
      withPath "deployments", withText "scenario" (some 's'), tagChoice, flag "bail" none,
      flag "continue-on-failure" none, withPath "report-dir", flag "json" none]

def listChoices : List Choice :=
  common ++ [tagChoice]

def runRequest (g : Given) : RunRequest where
  paths := g.operands
  network := g.value? "network"
  url := g.value? "rpc-url"
  artifacts := g.value? "artifacts"
  deployments := g.value? "deployments"
  scenario := g.value? "scenario"
  tags := g.all "tag"
  bail := g.has "bail"
  continueOnFailure := g.has "continue-on-failure"
  reports := g.value? "report-dir"
  json := g.has "json"

def commands : List (String × List Choice × (Given → Command)) :=
  [("run", runChoices, fun g => .run (runRequest g)),
    ("list", listChoices, fun g => .list g.operands (g.all "tag")),
    ("check", common, fun g => .check g.operands)]

/-- The command that shows help, about itself too. -/
def helpCommand : String := "help"

def isHelpTopic : List String → Bool
  | [] => true
  | [topic] => topic == helpCommand || commands.any fun entry => entry.1 == topic
  | _ => false

def readCommand (before : Given) (choices : List Choice) (make : Given → Command)
    (arguments : List String) : Scan Invocation := do
  let (g, _) ← scan choices false arguments Given.empty
  if g.operands.isEmpty then .error .misuse
  else
    return {
      settings := (g.value? "config").or (before.value? "config")
      log := (g.value? "log-file").or (before.value? "log-file")
      verbose := g.has "verbose" || before.has "verbose"
      command := make g }

def read (arguments : List String) : Scan Invocation := do
  match ← scan leading true arguments Given.empty with
  | (_, []) => .error .misuse
  | (before, name :: rest) =>
      if name = helpCommand then .error (if isHelpTopic rest then .help else .misuse)
      else
        match commands.find? fun entry => entry.1 == name with
        | some (_, choices, make) => readCommand before choices make rest
        | none => .error .misuse

end Invocation

end Rehearsal
