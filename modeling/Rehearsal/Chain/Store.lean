import Rehearsal.Abi.Reading
import Rehearsal.Chain.Basic
import Rehearsal.Files.Tree
import Rehearsal.Json.Parser
/-!
Compiled artifacts and records of deployments, as files.

An artifact `Name` is the file `Name.json` anywhere below the directory of artifacts. A
deployment is recorded in a file of that name in the directory of its network.
-/

namespace Rehearsal

open Json (Reading)
open Json.Reader

/-- Creation code as hexadecimal text, plain or as the field of an object. -/
inductive Bytecode where
  | plain (text : String)
  | object (text : String)
  deriving DecidableEq, Repr

namespace Bytecode

def text : Bytecode → String
  | .plain text => text
  | .object text => text

def octets (b : Bytecode) : Abi.Result (List UInt8) :=
  (Hex.decode (Text.dropHexMarks (Text.trim b.text.toList))).mapError .invalidBytecode

/-- Whether nothing is left of the text without the marks in front. -/
def isEmpty (b : Bytecode) : Bool :=
  (Text.dropHexMarks b.text.toList).isEmpty

def read : Json → Reading Bytecode
  | .string text => .ok (.plain text)
  | .object fields => do
      let r ← record ["object"] (.object fields)
      return .object (← r.required "object" string)
  | _ => .error (.expected "bytecode")

end Bytecode

structure Artifact where
  name : String
  interface : Interface
  bytecode : Bytecode
  deriving Repr

def Artifact.read (value : Json) : Reading Artifact := do
  let r ← record ["contractName", "abi", "bytecode"] value
  return {
    name := ← r.withDefault "contractName" "" string
    interface := ← r.required "abi" Interface.read
    bytecode := ← r.withDefault "bytecode" (.plain "") Bytecode.read }

structure DeploymentRecord where
  address : Address
  interface : Option Interface
  deriving Repr

def Address.read (value : Json) : Reading Address := do
  match Address.parse? (← string value) with
  | some address => return address
  | none => .error (.expected "an address")

def DeploymentRecord.read (value : Json) : Reading DeploymentRecord := do
  let r ← record ["address", "abi"] value
  return {
    address := ← r.required "address" Address.read
    interface := ← r.optional "abi" Interface.read }

/-- The directories in which artifacts and deployments are looked for. -/
structure Store where
  tree : Files.Tree
  artifacts : String
  deployments : String

namespace Store

open Files

def fileIn (name : String) (path : String) (entries : List (String × Node)) : Option String :=
  match Node.child? name entries with
  | some (.file _) => some (Path.join path name)
  | _ => none

/-- A directory that is still to be looked through. -/
structure Pending where
  path : String
  entries : List (String × Node)

namespace Pending

def below (d : Pending) : List Pending :=
  (Node.sorted (Node.directories d.entries)).map fun (name, inside) =>
    ⟨Path.join d.path name, inside⟩

/-- How much there is in pending directories, each counted as one more than its entries. -/
noncomputable def weight : List Pending → Nat
  | [] => 0
  | d :: pending => sizeOf d.entries + 1 + weight pending

theorem weight_append (front back : List Pending) :
    weight (front ++ back) = weight front + weight back := by
  induction front with
  | nil => exact (Nat.zero_add _).symm
  | cons d front ih =>
      rw [List.cons_append, weight, weight, ih]
      omega

theorem weight_perm {left right : List Pending} (perm : left.Perm right) :
    weight left = weight right := by
  induction perm with
  | nil => rfl
  | cons d perm ih => rw [weight, weight, ih]
  | swap d e pending =>
      simp only [weight]
      omega
  | trans first second ihFirst ihSecond => exact ihFirst.trans ihSecond

theorem weight_directories_le (path : String) (entries : List (String × Node)) :
    weight ((Node.directories entries).map fun entry => ⟨Path.join path entry.1, entry.2⟩) ≤
      sizeOf entries := by
  induction entries with
  | nil => exact Nat.zero_le _
  | cons entry rest ih =>
      obtain ⟨name, node⟩ := entry
      cases node with
      | file content => exact Nat.le_trans ih (by simp)
      | directory inside =>
          change sizeOf inside + 1 + weight ((Node.directories rest).map fun entry =>
            ⟨Path.join path entry.1, entry.2⟩) ≤ _
          simp only [List.cons.sizeOf_spec, Prod.mk.sizeOf_spec, Node.directory.sizeOf_spec]
          omega

theorem weight_below_le (d : Pending) : weight d.below ≤ sizeOf d.entries := by
  rw [below, weight_perm ((Node.sorted_perm _).map _)]
  exact weight_directories_le d.path d.entries

end Pending

/-- Looks through directories for a file of a name, the next directory first. When the file is not
in it, the directories in it come before all that were pending. -/
def search (name : String) : (pending : List Pending) → Option String
  | [] => none
  | next :: pending =>
      match fileIn name next.path next.entries with
      | some path => some path
      | none => search name (next.below ++ pending)
termination_by pending => Pending.weight pending
decreasing_by
  have lighter := next.weight_below_le
  rw [Pending.weight_append, Pending.weight]
  omega

def artifactPath? (s : Store) (name : String) : Option String :=
  match s.tree.find s.artifacts with
  | .ok (.directory entries) => search (name ++ ".json") [⟨s.artifacts, entries⟩]
  | _ => none

def readJson {α : Type} (s : Store) (path : String) (read : Json → Reading α) :
    Except ChainError α :=
  match s.tree.readText path with
  | .error fault => .error (.invalidArtifact path (.unreadable fault))
  | .ok text =>
      match Json.parse text with
      | none => .error (.invalidArtifact path (.malformed .malformed))
      | some value => (read value).mapError fun fault => .invalidArtifact path (.malformed fault)

/-- An artifact; one that does not tell its name gets the name it was looked for by. -/
def artifact (s : Store) (name : String) : Except ChainError Artifact :=
  match s.artifactPath? name with
  | none => .error (.artifactNotFound name)
  | some path => do
      let artifact ← s.readJson path Artifact.read
      return if artifact.name = "" then { artifact with name } else artifact

/-- A deployment; a record without an interface takes that of the artifact of its name. -/
def deployment (s : Store) (name network : String) : Except ChainError DeploymentRecord := do
  let path := Path.join (Path.join s.deployments network) (name ++ ".json")
  if s.tree.contains path then
    let record ← s.readJson path DeploymentRecord.read
    match record.interface with
    | some _ => return record
    | none =>
        return { record with interface := (s.artifact name).toOption.map Artifact.interface }
  else .error (.deploymentNotFound name network)

end Store

end Rehearsal
