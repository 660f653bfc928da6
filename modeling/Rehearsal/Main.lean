import Rehearsal.CommandLine.Run
import Rehearsal.Net.Http
import Std.Async.DNS
import Std.Async.TCP
import Std.Async.Timer
/-!
The program: it reads the files that a command line is about, carries the command line out, and
writes what has changed in the files.
-/

namespace Rehearsal.Program

open Files (Tree)

/-! ## Files -/

def entryOf (path : String) : IO.FS.DirEntry := ⟨path, ""⟩

partial def readNode (path : String) : IO (Option Files.Node) := do
  match ← (entryOf path).path.readDir.toBaseIO with
  | .ok found =>
      let entries ← found.toList.filterMapM fun entry => do
        let node ← readNode (Files.Path.join path entry.fileName)
        return node.map fun node => (entry.fileName, node)
      return some (.directory entries)
  | .error _ =>
      match ← (IO.FS.readBinFile path).toBaseIO with
      | .ok content => return some (.file content.toList)
      | .error _ => return none

def withWay (tree : Tree) (path : String) : Tree :=
  let (directory, _) := Files.Path.splitLast path
  if directory = "" then tree else (tree.createDirectories directory).toOption.getD tree

def placeOf (tree : Tree) (path : String) : List String :=
  (Files.Path.pieces path).foldl (fun place piece =>
    if piece = "" ∨ piece = "." then place
    else if piece = ".." then place.dropLast
    else place ++ [piece]) (tree.start path)

def mount (tree : Tree) (path : String) : IO Tree := do
  match ← readNode path with
  | none => return tree
  | some node =>
      let tree := withWay tree path
      return { tree with root := Files.Node.put node (placeOf tree path) tree.root }

def save (before after : Tree) : IO Unit := do
  let known := before.root.files ""
  for (path, content) in after.root.files "" do
    if known.contains (path, content) then continue
    let path := "/" ++ path
    IO.FS.createDirAll (Files.Path.splitLast path).1
    IO.FS.writeBinFile path ⟨content.toArray⟩

/-! ## Connections -/

open Std.Async in
partial def receive (socket : TCP.Socket.Client) (before : List UInt8) : Async (List UInt8) := do
  match ← socket.recv? 65536 with
  | none => return before
  | some bytes => receive socket (before ++ bytes.toList)

open Std.Async in
def exchange (url : Net.Url) (request : List UInt8) : Async (List UInt8) := do
  let service := UInt16.ofNat (Net.Http.serviceOf url)
  let some host := (← DNS.getAddrInfo url.host "").toList.head?
    | throw (IO.userError "unknown host")
  let address : Std.Net.SocketAddress := match host with
    | .v4 host => .v4 ⟨host, service⟩
    | .v6 host => .v6 ⟨host, service⟩
  let socket ← TCP.Socket.Client.mk
  socket.connect address
  socket.send ⟨request.toArray⟩
  receive socket []

open Std.Async in
def giveUp (seconds : Nat) : Async (List UInt8) := do
  sleep (Std.Time.Millisecond.Offset.ofNat (seconds * 1000))
  throw (IO.userError "timeout")

/-- Posts a request and waits a number of seconds for its answer; only connections without
encryption can be made. -/
def deliver (seconds : Nat) (url : Net.Url) (request : Json) : IO (Option String) := do
  if url.scheme ≠ "http" then return none
  let answer := exchange url (Net.Http.post url request.compact)
  match ← (Std.Async.Async.race answer (giveUp seconds)).block.toBaseIO with
  | .ok answer => return Net.Http.bodyOf answer
  | .error _ => return none

def connect (address : String) (seconds : Nat) : Link IO :=
  Link.toAddress address (deliver seconds) fun milliseconds =>
    IO.sleep (UInt32.ofNat milliseconds)

/-! ## Carrying out -/

def userSettings : IO (Option String) := do
  match ← IO.getEnv "XDG_CONFIG_HOME", ← IO.getEnv "HOME" with
  | some directory, home =>
      if Files.Path.isAbsolute directory then return some directory
      else return home.map (Files.Path.join · ".config")
  | none, home => return home.map (Files.Path.join · ".config")

def palette : IO Text.Palette := do
  let isSet (value : Option String) : Bool := value.any (· != "0")
  if isSet (← IO.getEnv "CLICOLOR_FORCE") then return true
  else if (← IO.getEnv "NO_COLOR").isSome then return false
  else (← IO.getStdout).isTty

def sources (settings : Settings) : Command → List String
  | .run request =>
      request.paths
        ++ [request.artifacts.getD settings.artifacts,
            request.deployments.getD settings.deployments]
        ++ request.reports.toList
  | .list paths _ => paths
  | .check paths => paths

/-- The tree of an invocation: its files of settings, and the files that its command reads. -/
def treeOf (i : Invocation) (tree : Tree) (user : Option String) : IO Tree := do
  let candidates := [Settings.localFile] ++ i.settings.toList ++ (user.map Settings.userFile).toList
  let tree ← candidates.foldlM mount tree
  let settings := (Settings.load tree i.settings (user.map Settings.userFile)).toOption
  (sources (settings.getD Settings.standard) i.command).foldlM mount tree

def emptyTree : IO Tree := do
  let place := (Files.Path.pieces (← IO.currentDir).toString).filter (· ≠ "")
  let root := place.foldr (fun name node => Files.Node.directory [(name, node)]) (.directory [])
  return ⟨root, place⟩

def run (arguments : List String) : IO Exit := do
  let tree ← emptyTree
  let user ← userSettings
  let tree ← match Invocation.read arguments with
    | .ok i => treeOf i tree user
    | .error _ => pure tree
  let now := (← Std.Time.Timestamp.now).toSecondsSinceUnixEpoch.val.toNat
  let done ← CommandLine.run arguments ⟨tree, user, ← palette, now⟩ connect
  save tree done.tree
  return done

end Rehearsal.Program

def main (arguments : List String) : IO UInt32 := do
  let done ← Rehearsal.Program.run arguments
  for line in done.lines do
    IO.println line
  for line in done.errors do
    IO.eprintln line
  return UInt32.ofNat done.code
