import Rehearsal.Abi.Call
import Rehearsal.Abi.Revert
import Rehearsal.Chain.Link
import Rehearsal.Chain.Store
/-!
A chain behind a node that answers JSON-RPC requests and signs for its own accounts.

Requests are numbered from one. A transaction is submitted once; after that the node is asked
for its receipt until there is one or the time is up.
-/

namespace Rehearsal

structure Node (m : Type → Type) where
  link : Link m
  store : Store
  /-- How long to ask for a receipt. -/
  receiptSeconds : Nat
  /-- How long to wait between two questions for a receipt. -/
  pollMilliseconds : Nat

namespace Node

open Json (Reading)
open Json.Reader

structure RpcError where
  code : Int
  message : String
  data : Option Json
  deriving Repr

structure Response where
  result : Option Json
  error : Option RpcError
  deriving Repr

def RpcError.read (value : Json) : Reading RpcError := do
  let r ← record ["code", "message", "data"] value
  return {
    code := ← r.required "code" int
    message := ← r.required "message" string
    data := ← r.optional "data" any }

def Response.read (value : Json) : Reading Response := do
  let r ← record ["result", "error"] value
  return {
    result := ← r.nullableField "result" any
    error := ← r.nullableField "error" RpcError.read }

def Response.ofText (text : String) : Option Response :=
  (Json.parse text).bind fun value => (read value).toOption

def octets (text : String) : Except ChainError (List UInt8) :=
  match Hex.decode (Text.dropHexMarks text.toList) with
  | .ok bytes => .ok bytes
  | .error fault => .error (.transport (.badHex text fault))

/-- The revert data of an error: its data, or a field of that name in it. -/
def revertData? (data : Json) : Option (List UInt8) :=
  let text := match data with
    | .string text => some text
    | .object fields => (Json.Mapping.get? "data" fields).bind Json.string?
    | _ => none
  match text.map octets with
  | some (.ok (b :: bytes)) => some (b :: bytes)
  | _ => none

/-- The words after which nodes put the reason of a revert. -/
def reasonMarks : List String :=
  ["reverted with reason string '", "execution reverted: ", "revert "]

def reasonAfter? (message : List Char) (mark : String) : Option String :=
  match Text.after? mark.toList message with
  | none => none
  | some rest =>
      match Text.trim ((Text.dropSuffix? ['\''] rest).getD rest) with
      | [] => none
      | reason => some (String.ofList reason)

/-- The reason that a message tells by the first mark that has one. -/
def reasonOf? (message : String) : Option String :=
  reasonMarks.findSome? (reasonAfter? message.toList)

/-- Whether a message speaks of a revert, in capitals or not. -/
def mentionsRevert (message : String) : Bool :=
  Text.contains "revert".toList (Text.lower message.toList)

def RpcError.toChainError (e : RpcError) : ChainError :=
  match e.data.bind revertData? with
  | some data => .reverted ((Abi.decodeRevert? data).or (reasonOf? e.message)) (some data)
  | none =>
      if mentionsRevert e.message then .reverted (reasonOf? e.message) none
      else .rpc e.code e.message

def resultOf (text : String) : Except ChainError Json :=
  match Response.ofText text with
  | none => .error (.transport .undecodable)
  | some response =>
      match response.error with
      | some e => .error e.toChainError
      | none => .ok (response.result.getD .null)

def body (id : Nat) (method : String) (params : List Json) : Json :=
  .object [("jsonrpc", .string "2.0"), ("id", Json.ofNat id), ("method", .string method),
    ("params", .array params)]

def quantity (n : Nat) : String :=
  "0x" ++ String.ofList (Text.hexadecimal 1 n)

def quantity? (value : Json) : Option Nat :=
  value.string?.bind fun text => Text.readBelow 16 Text.limit64 (Text.dropHexMarks text.toList)

/-- A transaction as a node takes it; without a receiver it creates a contract. -/
def transaction (options : CallOptions) (receiver : Option Address) (data : List UInt8) : Json :=
  let entry (name value : String) : String × Json := (name, .string value)
  .object <|
    [entry "from" options.sender.text]
    ++ (receiver.map fun address => entry "to" address.text).toList
    ++ [entry "data" (Hex.marked data)]
    ++ (options.value.map fun n => entry "value" (quantity n)).toList

/-- An address in a receipt; anything but a text stands for the empty text. -/
def addressOf (value : Json) : Except ChainError Address :=
  let text := value.string?.getD ""
  match Address.parse? text with
  | some address => .ok address
  | none => .error (.invalidAddress text)

def topicOf (value : Json) : Except ChainError Bytes32 := do
  let bytes ← octets (value.string?.getD "")
  if h : bytes.length = 32 then return ⟨bytes.toArray, h⟩
  else .error (.transport .badTopic)

def logOf (value : Json) : Except ChainError Abi.Log := do
  let address ← addressOf (value.field "address")
  let topics ← ((value.field "topics").array?.getD []).mapM topicOf
  let data ← octets ((value.field "data").string?.getD "0x")
  return { address, topics, data }

def receiptOf (value : Json) : Except ChainError Receipt := do
  let contract ← match (value.field "contractAddress").string? with
    | some text => some <$> addressOf (.string text)
    | none => pure none
  let logs ← ((value.field "logs").array?.getD []).mapM logOf
  return {
    transaction := (value.field "transactionHash").string?.getD ""
    status := quantity? (value.field "status")
    block := quantity? (value.field "blockNumber")
    contract
    logs }

def creation (store : Store) (name : String) (args : List Json) :
    Except ChainError (Artifact × List UInt8) := do
  let artifact ← store.artifact name
  if artifact.bytecode.isEmpty then .error (.abi (.noBytecode name))
  else
    let code ← artifact.bytecode.octets.onChain
    match artifact.interface.constructor? with
    | some constructor =>
        let encoded ← (constructor.encodeArguments args).onChain
        return (artifact, code ++ encoded)
    | none =>
        match args with
        | [] => return (artifact, code)
        | args => .error (.abi (.noConstructor name args.length))

/-- The handle that a creation's receipt tells of. -/
def created (name : String) (artifact : Artifact) (receipt : Receipt) :
    Except ChainError Deployment :=
  if receipt.reverted then .error (.reverted none none)
  else
    match receipt.contract with
    | some address => .ok ⟨⟨name, address, artifact.interface⟩, some receipt⟩
    | none => .error (.transport (.noContractAddress receipt.transaction))

def accountsOf (value : Json) : Except ChainError (List Address) :=
  (list Address.read value).mapError fun fault => .transport (.badAccounts fault)

/-- The output of a call; anything but a text stands for no octets. -/
def outputOf (f : Abi.Function) (value : Json) : Except ChainError Json := do
  let data ← match value.string? with
    | some text => octets text
    | none => pure []
  (f.decodeOutput data).onChain

def waits (receiptSeconds pollMilliseconds : Nat) : Nat :=
  receiptSeconds * 1000 / max pollMilliseconds 1

variable {m : Type → Type} [Monad m]

def request (node : Node m) (method : String) (params : List Json) :
    StateT Nat m (Except ChainError Json) := do
  let id ← get
  set (id + 1)
  match ← (node.link.post (body id method params) : m _) with
  | .error fault => return .error (.transport fault)
  | .ok text => return resultOf text

def askReceipt (node : Node m) (hash : String) :
    StateT Nat m (Except ChainError (Option Receipt)) := do
  match ← node.request "eth_getTransactionReceipt" [.string hash] with
  | .error e => return .error e
  | .ok .null => return .ok none
  | .ok value => return some <$> receiptOf value

/-- Asks for the receipt of a transaction, and again a number of times while there is none. -/
def awaitReceipt (node : Node m) (hash : String) :
    (more : Nat) → StateT Nat m (Except ChainError Receipt)
  | 0 => do
      match ← node.askReceipt hash with
      | .error e => return .error e
      | .ok (some receipt) => return .ok receipt
      | .ok none => return .error (.receiptTimeout hash node.receiptSeconds)
  | more + 1 => do
      match ← node.askReceipt hash with
      | .error e => return .error e
      | .ok (some receipt) => return .ok receipt
      | .ok none => do
          (node.link.wait node.pollMilliseconds : m _)
          node.awaitReceipt hash more

def transact (node : Node m) (transaction : Json) : StateT Nat m (Except ChainError Receipt) := do
  match ← node.request "eth_sendTransaction" [transaction] with
  | .error e => return .error e
  | .ok (.string hash) =>
      node.awaitReceipt hash (waits node.receiptSeconds node.pollMilliseconds)
  | .ok value => return .error (.transport (.unexpectedHash value))

def deploy (node : Node m) (name : String) (args : List Json) (options : CallOptions) :
    StateT Nat m (Except ChainError Deployment) := do
  match creation node.store name args with
  | .error e => return .error e
  | .ok (artifact, data) => do
      let receipt ← node.transact (transaction options none data)
      return receipt.bind (created name artifact)

def call (node : Node m) (handle : Handle) (f : Abi.Function) (args : List Json)
    (options : CallOptions) : StateT Nat m (Except ChainError Json) := do
  match (f.encodeCall args).onChain with
  | .error e => return .error e
  | .ok data => do
      let result ← node.request "eth_call"
        [transaction options (some handle.address) data, .string "latest"]
      return result.bind (outputOf f)

def send (node : Node m) (handle : Handle) (f : Abi.Function) (args : List Json)
    (options : CallOptions) : StateT Nat m (Except ChainError Receipt) := do
  match (f.encodeCall args).onChain with
  | .error e => return .error e
  | .ok data => node.transact (transaction options (some handle.address) data)

def signers (node : Node m) : StateT Nat m (Except ChainError (List Address)) := do
  let result ← node.request "eth_accounts" []
  return result.bind accountsOf

/-- The node as a chain, whose state is the number of the next request. -/
def chain (node : Node m) : Chain (StateT Nat m) where
  signers := node.signers
  deploy := node.deploy
  call := node.call
  send := node.send

end Node

end Rehearsal
