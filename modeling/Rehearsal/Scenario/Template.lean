import Rehearsal.Scenario.Context
/-!
Template tokens: texts between double braces that stand for addresses and the time.
-/

namespace Rehearsal

inductive Token where
  | signer
  | now
  | zeroAddress
  | contractAddress (contract : String)
  | namedSigner (name : String)
  deriving DecidableEq, Repr

namespace Token

def inner? (s : List Char) : Option (List Char) := do
  let rest ← Text.dropPrefix? ['\x7b', '\x7b'] s
  let body ← Text.dropSuffix? ['\x7d', '\x7d'] rest
  return Text.trim body

def ofName (name : List Char) : Token :=
  if name = "signer".toList then .signer
  else if name = "now".toList then .now
  else if name = "zeroAddress".toList then .zeroAddress
  else
    match Text.dropSuffix? ".address".toList name with
    | some contract => .contractAddress (String.ofList contract)
    | none => .namedSigner (String.ofList name)

def parse? (text : String) : Option Token :=
  (inner? text.toList).map ofName

def name : Token → String
  | .signer => "signer"
  | .now => "now"
  | .zeroAddress => "zeroAddress"
  | .contractAddress contract => contract ++ ".address"
  | .namedSigner name => name

def text (t : Token) : String :=
  "\x7b\x7b" ++ t.name ++ "\x7d\x7d"

end Token

/-- What tokens are resolved by. -/
structure Resolver where
  context : Context
  activeSigner : Option Address
  /-- The time in seconds that `now` stands for. The clock is taken to stand still during a run, so
  that one reading of it serves every resolution. -/
  now : Nat

namespace Resolver

def resolveToken (r : Resolver) (text : String) : Token → Except RunError String
  | .signer =>
      match r.activeSigner with
      | some address => .ok address.text
      | none => .error (.template text .noActiveSigner)
  | .now => .ok (String.ofList (Text.decimal r.now))
  | .zeroAddress => .ok Address.zero.text
  | .contractAddress name =>
      match r.context.contracts.get? name with
      | some handle => .ok handle.address.text
      | none => .error (.template text (.unknownContract name))
  | .namedSigner name =>
      match r.context.signers.get? name with
      | some address => .ok address.text
      | none => .error (.template text (.unknownIdentifier name))

/-- A text that is a token is replaced by the token's value; nothing else changes. -/
def resolve (r : Resolver) : Json → Except RunError Json
  | .string text =>
      match Token.parse? text with
      | some token => Json.string <$> r.resolveToken text token
      | none => .ok (.string text)
  | value => .ok value

def resolveAll (r : Resolver) : List Json → Except RunError (List Json)
  | [] => .ok []
  | value :: rest => do
      let value ← r.resolve value
      let values ← r.resolveAll rest
      return value :: values

/-- Resolves each named value on its own. -/
def resolveMapping (r : Resolver) (values : Json.Mapping Json) :
    List (String × Except RunError Json) :=
  values.map fun (name, value) => (name, r.resolve value)

end Resolver

end Rehearsal
