import Rehearsal.Abi.Call
import Rehearsal.Chain.Basic
/-!
A chain in memory, for trying suites without a node.

Contracts are values of any type together with the way they answer. Arguments, results and
events pass through the same encoding as on a node, and every invocation is recorded.
-/

namespace Rehearsal.Simulation

/-- What a contract sees of an invocation. -/
structure Call where
  function : String
  args : List Json
  sender : Address
  value : Nat
  /-- The contract's own address. -/
  this : Address
  deriving Repr

/-- What a contract answers: a value, and the events it leaves. -/
structure Output where
  value : Json
  events : List (String × List Json)
  deriving Repr

/-- An artifact that can be deployed; building a contract may fail with a reason. -/
structure Artifact (κ : Type) where
  interface : Interface
  build : (args : List Json) → (deployer : Address) → Except String κ

inductive Kind where
  | deploy
  | call
  | send
  deriving DecidableEq, Repr

structure Invocation where
  kind : Kind
  /-- The artifact deployed or the function invoked. -/
  target : String
  sender : Address
  reverted : Bool
  deriving DecidableEq, Repr

structure Ledger (κ : Type) where
  deployed : Nat
  height : Nat
  contracts : List (Address × κ)
  invocations : List Invocation

def Ledger.empty {κ : Type} : Ledger κ := ⟨0, 0, [], []⟩

end Simulation

/-- A simulated chain: its accounts, its artifacts, and the answers of its contracts. -/
structure Simulation (κ : Type) where
  accounts : Nat
  artifacts : List (String × Simulation.Artifact κ)
  answer : κ → Simulation.Call → Except String Simulation.Output × κ
  /-- Functions and artifacts that cannot be reached. -/
  unreachable : List String
  /-- Functions whose transactions are included as reverted, without reaching the contract. -/
  revertedLate : List String

namespace Simulation

variable {κ : Type}

def firstAccount : Nat := 0x50000

def contractBase : Nat := 0xc00000

def account (index : Nat) : Address :=
  Address.ofLow (firstAccount + index)

def addresses (s : Simulation κ) : List Address :=
  (List.range s.accounts).map account

def account? (s : Simulation κ) (index : Nat) : Option Address :=
  if index < s.accounts then some (account index) else none

def put (address : Address) (contract : κ) : List (Address × κ) → List (Address × κ)
  | [] => [(address, contract)]
  | (key, old) :: rest =>
      if key = address then (address, contract) :: rest else (key, old) :: put address contract rest

def find? (address : Address) (contracts : List (Address × κ)) : Option κ :=
  (contracts.find? fun entry => entry.1 == address).map Prod.snd

/-- Hashes of transactions count the invocations before them. -/
def Ledger.hash (ledger : Ledger κ) : String :=
  "0x" ++ String.ofList (Text.hexadecimal 64 ledger.invocations.length)

def Ledger.record (ledger : Ledger κ) (invocation : Invocation) : Ledger κ :=
  { ledger with invocations := ledger.invocations ++ [invocation] }

def Ledger.count (ledger : Ledger κ) (target : String) : Nat :=
  ledger.invocations.countP fun invocation => invocation.target == target

def Ledger.seal (ledger : Ledger κ) (status : Nat) (contract : Option Address)
    (logs : List Abi.Log) : Receipt × Ledger κ :=
  ({ transaction := ledger.hash
     status := some status
     block := some (ledger.height + 1)
     contract
     logs },
    { ledger with height := ledger.height + 1 })

def reach (s : Simulation κ) (target : String) : Except ChainError Unit :=
  if s.unreachable.contains target then .error (.transport (.refused target)) else .ok ()

def checkCall (s : Simulation κ) (f : Abi.Function) (args : List Json) :
    Except ChainError Unit := do
  s.reach f.name
  let _ ← (f.encodeCall args).onChain
  return ()

def invoke (s : Simulation κ) (kind : Kind) (handle : Handle) (f : Abi.Function)
    (args : List Json) (options : CallOptions) (ledger : Ledger κ) :
    Except ChainError Output × Ledger κ :=
  match s.checkCall f args with
  | .error e => (.error e, ledger)
  | .ok () =>
      match find? handle.address ledger.contracts with
      | none => (.error (.transport (.noContract handle.address)), ledger)
      | some contract =>
          let call : Call := {
            function := f.name
            args
            sender := options.sender
            value := options.value.getD 0
            this := handle.address }
          let (result, contract) := s.answer contract call
          let ledger := { ledger with contracts := put handle.address contract ledger.contracts }
          match result with
          | .ok output =>
              (.ok output, ledger.record ⟨kind, f.name, options.sender, false⟩)
          | .error reason =>
              (.error (.reverted (some reason) none),
                ledger.record ⟨kind, f.name, options.sender, true⟩)

def checkArguments (artifact : Artifact κ) (args : List Json) : Except ChainError Unit :=
  match artifact.interface.constructor? with
  | none => .ok ()
  | some constructor => do
      let _ ← (constructor.encodeArguments args).onChain
      return ()

/-- The artifact of a name, when it can be reached and takes the arguments. -/
def prepare (s : Simulation κ) (name : String) (args : List Json) :
    Except ChainError (Artifact κ) := do
  s.reach name
  match Json.Mapping.get? name s.artifacts with
  | none => .error (.artifactNotFound name)
  | some artifact =>
      checkArguments artifact args
      return artifact

def deploy (s : Simulation κ) (name : String) (args : List Json) (options : CallOptions)
    (ledger : Ledger κ) : Except ChainError Deployment × Ledger κ :=
  match s.prepare name args with
  | .error e => (.error e, ledger)
  | .ok artifact =>
      match artifact.build args options.sender with
      | .error reason =>
          (.error (.reverted (some reason) none),
            ledger.record ⟨.deploy, name, options.sender, true⟩)
      | .ok contract =>
          let address := Address.ofLow (contractBase + (ledger.deployed + 1))
          let ledger := ledger.record ⟨.deploy, name, options.sender, false⟩
          let ledger := { ledger with
            deployed := ledger.deployed + 1
            contracts := put address contract ledger.contracts }
          let (receipt, ledger) := ledger.seal 1 (some address) []
          (.ok ⟨⟨name, address, artifact.interface⟩, some receipt⟩, ledger)

/-- The value as it looks after a way through the encoding. -/
def roundTrip (f : Abi.Function) (value : Json) : Except ChainError Json := do
  let data ← (f.encodeOutput value).onChain
  (f.decodeOutput data).onChain

def call (s : Simulation κ) (handle : Handle) (f : Abi.Function) (args : List Json)
    (options : CallOptions) (ledger : Ledger κ) : Except ChainError Json × Ledger κ :=
  let (output, ledger) := s.invoke .call handle f args options ledger
  (output.bind fun output => roundTrip f output.value, ledger)

def logsOf (handle : Handle) : List (String × List Json) → Except ChainError (List Abi.Log)
  | [] => .ok []
  | (name, args) :: rest => do
      match handle.interface.event? name with
      | none => .error (.abi (.undeclaredEvent name))
      | some event =>
          let log ← (event.encodeLog handle.address args).onChain
          let logs ← logsOf handle rest
          return log :: logs

def send (s : Simulation κ) (handle : Handle) (f : Abi.Function) (args : List Json)
    (options : CallOptions) (ledger : Ledger κ) : Except ChainError Receipt × Ledger κ :=
  if s.revertedLate.contains f.name then
    match s.checkCall f args with
    | .error e => (.error e, ledger)
    | .ok () =>
        let ledger := ledger.record ⟨.send, f.name, options.sender, true⟩
        let (receipt, ledger) := ledger.seal 0 none []
        (.ok receipt, ledger)
  else
    let (output, ledger) := s.invoke .send handle f args options ledger
    match output.bind fun output => logsOf handle output.events with
    | .error e => (.error e, ledger)
    | .ok logs =>
        let (receipt, ledger) := ledger.seal 1 none logs
        (.ok receipt, ledger)

def chain (s : Simulation κ) : Chain (StateM (Ledger κ)) where
  signers := pure (.ok s.addresses)
  deploy name args options := s.deploy name args options
  call handle f args options := s.call handle f args options
  send handle f args options := s.send handle f args options

end Simulation

end Rehearsal
