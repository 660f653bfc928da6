import Rehearsal.Abi.Decode
import Rehearsal.Abi.Declaration
import Rehearsal.Abi.Encode
/-!
Event logs.

An indexed argument has a topic of its own: the word of a static value, the hash of any
other. The other arguments are the data, encoded as one tuple.
-/

namespace Rehearsal

namespace Abi

structure Log where
  address : Address
  topics : List Bytes32
  data : List UInt8
  deriving DecidableEq, Repr

structure DecodedLog where
  name : String
  args : List (String × Json)
  deriving Repr

/-- The name that an argument goes by; one without a name goes by its position. -/
def Param.label (param : Param) (index : Nat) : String :=
  if param.name = "" then s!"arg{index}" else param.name

def firstWord (bytes : List UInt8) : Bytes32 :=
  Vector.ofFn fun i => bytes.getD i.val 0

namespace Event

/-- The octets that a topic stands for; text and octets are taken without count and filling. -/
def topicOctets : AbiType → Json → Result (List UInt8)
  | .string, value => .ok (Utf8.encodeString (value.string?.getD ""))
  | .bytes, value => octetsOf value
  | type, value => encodeValue type value

def topicOf (type : AbiType) (value : Json) : Result Bytes32 := do
  let octets ← topicOctets type value
  return if type.isHashedInTopic then Keccak.hash octets else firstWord octets

def separate : List Param → List Json → Result (List Bytes32 × List AbiType × List Json)
  | param :: params, value :: values => do
      let type ← typeOf param
      if param.indexed then
        let topic ← topicOf type value
        let (topics, types, plain) ← separate params values
        return (topic :: topics, types, plain)
      else
        let (topics, types, plain) ← separate params values
        return (topics, type :: types, value :: plain)
  | _, _ => .ok ([], [], [])

def encodeLog (e : Event) (address : Address) (args : List Json) : Result Log := do
  if args.length ≠ e.inputs.length then
    .error (.eventArgumentCount e.name e.inputs.length args.length)
  else
    let own ← if e.anonymous then pure [] else List.singleton <$> e.topic
    let (topics, types, values) ← separate e.inputs args
    let data ← encode types values
    return { address, topics := own ++ topics, data }

/-- The value that a topic tells: a static value, or else the topic's own text. -/
def topicValue (type : AbiType) (topic : Bytes32) : Result Json :=
  if type.isHashedInTopic then .ok (.string (Hex.marked topic.toList))
  else Prod.fst <$> decodeValue topic.toList type 0 0

/-- Names the arguments from `index` on, taking them from topics and from decoded data. -/
def collect (event : String) (index : Nat) :
    List Param → List Bytes32 → List Json → Result (List (String × Json))
  | [], _, _ => .ok []
  | param :: params, topics, values => do
      let label := param.label index
      if param.indexed then
        match topics with
        | [] => .error (.missingTopic event label)
        | topic :: topics =>
            let value ← topicValue (← typeOf param) topic
            let rest ← collect event (index + 1) params topics values
            return (label, value) :: rest
      else
        match values with
        | [] => .error (.missingData event label)
        | value :: values =>
            let rest ← collect event (index + 1) params topics values
            return (label, value) :: rest

def decodeLog (e : Event) (log : Log) : Result DecodedLog := do
  let topics := if e.anonymous then log.topics else log.topics.drop 1
  let types ← paramTypes (e.inputs.filter fun param => !param.indexed)
  let values ← decode types log.data
  let args ← collect e.name 0 e.inputs topics values
  return { name := e.name, args }

def hasTopic (e : Event) (topic : Bytes32) : Bool :=
  match e.topic with
  | .ok own => own == topic
  | .error _ => false

end Event

end Abi

namespace Interface

open Abi

/-- Reads a log by the first event that it names; nothing when it names none. -/
def decodeLog? (i : Interface) (log : Log) : Option (Result DecodedLog) := do
  let topic ← log.topics.head?
  let event ← i.events.find? fun e => !e.anonymous && e.hasTopic topic
  return event.decodeLog log

end Interface

end Rehearsal
