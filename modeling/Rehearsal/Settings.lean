import Rehearsal.Command.Error
import Rehearsal.Files.Tree
import Rehearsal.Scenario.Run
import Rehearsal.Toml.Reader
/-!
Settings: which networks there are, where artifacts and deployments lie, how long to wait, and
what a failure leads to.
-/

namespace Rehearsal

structure Settings where
  /-- The network that is meant if none is named. -/
  network : String
  /-- The networks that have a node of their own, each with its address. -/
  nodes : List (String × String)
  artifacts : String
  deployments : String
  requestSeconds : Nat
  receiptSeconds : Nat
  pollMilliseconds : Nat
  policy : FailurePolicy
  bail : Bool
  deriving Repr

namespace Settings

open Toml (Value Result)
open Toml.Reader

def standard : Settings where
  network := "localhost"
  nodes := []
  artifacts := "artifacts"
  deployments := "deployments"
  requestSeconds := 30
  receiptSeconds := 60
  pollMilliseconds := 250
  policy := .abort
  bail := false

def node? (s : Settings) (network : String) : Option String :=
  match s.nodes.find? fun entry => entry.1 == network with
  | some (_, url) => some url
  | none => if network = "localhost" then some "http://127.0.0.1:8545" else none

def policies : List (String × FailurePolicy) :=
  [("abort", .abort), ("continue", .continue)]

def readNetwork (s : Settings) (value : Value) : Result Settings := do
  let r ← record ["network"] value
  return { s with network := ← withDefault r "network" s.network string }

def readNode (value : Value) : Result String := do
  let r ← record ["rpc_url"] value
  required r "rpc_url" string

def readNodes (s : Settings) (value : Value) : Result Settings := do
  return { s with nodes := ← entries readNode value }

def readDirectories (s : Settings) (value : Value) : Result Settings := do
  let r ← record ["artifacts_dir", "deployments_dir"] value
  return { s with
    artifacts := ← withDefault r "artifacts_dir" s.artifacts string
    deployments := ← withDefault r "deployments_dir" s.deployments string }

def readTimeouts (s : Settings) (value : Value) : Result Settings := do
  let r ← record ["request_secs", "receipt_secs", "poll_interval_ms"] value
  return { s with
    requestSeconds := ← withDefault r "request_secs" s.requestSeconds nat
    receiptSeconds := ← withDefault r "receipt_secs" s.receiptSeconds nat
    pollMilliseconds := ← withDefault r "poll_interval_ms" s.pollMilliseconds nat }

def readRun (s : Settings) (value : Value) : Result Settings := do
  let r ← record ["failure_policy", "bail"] value
  return { s with
    policy := ← withDefault r "failure_policy" s.policy (choice policies)
    bail := ← withDefault r "bail" s.bail bool }

def parts : List (String × (Settings → Value → Result Settings)) :=
  [("defaults", readNetwork), ("networks", readNodes), ("artifacts", readDirectories),
    ("timeouts", readTimeouts), ("run", readRun)]

/-- Reads the parts that a file has; for the others the standard holds. -/
def read (value : Value) : Result Settings := do
  let r ← record (parts.map Prod.fst) value
  parts.foldlM (fun s (name, readPart) => withDefault r name s (readPart s)) standard

def ofText (text : String) : Result Settings := do
  read (← Toml.parse text)

def loadFile (tree : Files.Tree) (path : String) : Except CommandError Settings :=
  match tree.readText path with
  | .error fault => .error (.unreadable path fault)
  | .ok text => (ofText text).mapError .badSettings

def localFile : String := "scenario.toml"

def userFile (directory : String) : String :=
  Files.Path.join directory "contract-scenario/config.toml"

/-- Reads the settings in a file that is asked for, or else in the first file that exists:
that of the working directory, then that of the user. -/
def load (tree : Files.Tree) (asked user : Option String) : Except CommandError Settings :=
  match asked with
  | some path => loadFile tree path
  | none =>
      match (localFile :: user.toList).find? tree.contains with
      | some path => loadFile tree path
      | none => .ok standard

end Settings

end Rehearsal
