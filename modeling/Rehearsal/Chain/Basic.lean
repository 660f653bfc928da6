import Rehearsal.Abi.Log
import Rehearsal.Files.Basic
/-!
What a chain does for a suite: it lists accounts, deploys artifacts, answers calls and takes
transactions.
-/

namespace Rehearsal

inductive TransportFault where
  | refused (target : String)
  | noContract (address : Address)
  /-- The address of the node is no usable address. -/
  | badUrl (url : Option String)
  | unreachable (url : String)
  | undecodable
  | unexpectedHash (got : Json)
  | badAccounts (fault : Json.Fault)
  | noContractAddress (transaction : String)
  | badHex (text : String) (fault : Hex.Fault)
  | badTopic
  | stated (text : String)
  deriving Repr

def TransportFault.message : TransportFault → String
  | .refused target => s!"connection refused while invoking '{target}'"
  | .noContract address => s!"no contract deployed at {address.text}"
  | .badUrl none => "builder error"
  | .badUrl (some url) => s!"builder error for url ({url})"
  | .unreachable url => s!"error sending request for url ({url})"
  | .undecodable => "error decoding response body"
  | .unexpectedHash got => s!"unexpected transaction hash {got.compact}"
  | .badAccounts fault => s!"invalid eth_accounts response: {fault.message}"
  | .noContractAddress transaction => s!"receipt {transaction} carries no contract address"
  | .badHex text fault => s!"invalid hex '{text}': {fault.message}"
  | .badTopic => "log topic is not 32 bytes"
  | .stated text => text

inductive ArtifactFault where
  | unreadable (fault : Files.Fault)
  | malformed (fault : Json.Fault)
  deriving DecidableEq, Repr

def ArtifactFault.message : ArtifactFault → String
  | .unreadable fault => fault.message
  | .malformed fault => fault.message

inductive ChainError where
  /-- The contract took everything back; the reason or the data may be known. -/
  | reverted (reason : Option String) (data : Option (List UInt8))
  | rpc (code : Int) (message : String)
  | transport (fault : TransportFault)
  | abi (fault : Abi.Fault)
  | artifactNotFound (name : String)
  | invalidArtifact (path : String) (fault : ArtifactFault)
  | deploymentNotFound (name network : String)
  | receiptTimeout (transaction : String) (seconds : Nat)
  | invalidAddress (text : String)
  deriving Repr

namespace ChainError

def message : ChainError → String
  | .reverted none _ => "execution reverted"
  | .reverted (some reason) _ => s!"execution reverted: {reason}"
  | .rpc code message => s!"RPC error {code}: {message}"
  | .transport fault => s!"Transport error: {fault.message}"
  | .abi fault => s!"ABI error: {fault.message}"
  | .artifactNotFound name => s!"Artifact '{name}' not found"
  | .invalidArtifact path fault => s!"Invalid artifact file '{path}': {fault.message}"
  | .deploymentNotFound name network =>
      s!"Deployment of '{name}' not found for network '{network}'"
  | .receiptTimeout transaction seconds =>
      s!"Transaction {transaction} not included after {seconds} seconds"
  | .invalidAddress text => s!"Invalid address: {text}"

/-- The error that a fault of interfaces, values or data amounts to; a text that is no address
is an error of its own. -/
def ofAbi : Abi.Fault → ChainError
  | .invalidAddress text => .invalidAddress text
  | fault => .abi fault

end ChainError

def Abi.Result.onChain {α : Type} (result : Abi.Result α) : Except ChainError α :=
  result.mapError .ofAbi

/-- A deployed contract: the artifact it was made of, where it stands, and its interface. -/
structure Handle where
  artifact : String
  address : Address
  interface : Interface
  deriving Repr

structure CallOptions where
  sender : Address
  value : Option Nat
  deriving DecidableEq, Repr

structure Receipt where
  transaction : String
  /-- Zero tells that the transaction was reverted. -/
  status : Option Nat
  block : Option Nat
  contract : Option Address
  logs : List Abi.Log
  deriving DecidableEq, Repr

def Receipt.reverted (r : Receipt) : Bool :=
  r.status == some 0

structure Deployment where
  handle : Handle
  receipt : Option Receipt
  deriving Repr

/-- The operations of a chain, in the monad that keeps its state. -/
structure Chain (m : Type → Type) where
  signers : m (Except ChainError (List Address))
  deploy : (artifact : String) → (args : List Json) → CallOptions →
    m (Except ChainError Deployment)
  /-- Calls a function that only reads. -/
  call : Handle → Abi.Function → (args : List Json) → CallOptions → m (Except ChainError Json)
  /-- Sends a transaction and waits for its receipt. -/
  send : Handle → Abi.Function → (args : List Json) → CallOptions →
    m (Except ChainError Receipt)

end Rehearsal
