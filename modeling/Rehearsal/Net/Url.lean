import Rehearsal.Net.Host
import Rehearsal.Text.Utf8
/-!
The address of a node, in the form that errors show it.

Scheme and host are in lower case, the number of a service that goes without saying is left out,
a path is never empty and does not lead upwards, and characters that cannot stand in an address
are written as their octets.
-/

namespace Rehearsal.Net

structure Url where
  scheme : String
  host : String
  /-- The number of the service at the host, unless the scheme implies it. -/
  service : Option Nat
  /-- What stands behind the host, from its first slash on. -/
  target : String
  fragment : Option String
  deriving DecidableEq, Repr

namespace Url

def impliedService? (scheme : String) : Option Nat :=
  match scheme with
  | "http" => some 80
  | "https" => some 443
  | "ws" => some 80
  | "wss" => some 443
  | "ftp" => some 21
  | _ => none

def isSchemeChar (c : Char) : Bool :=
  c.isAlphanum || c == '+' || c == '-' || c == '.'

def splitScheme? (s : List Char) : Option (String × List Char) :=
  match Text.splitAt? ':' s with
  | some (c :: scheme, rest) =>
      if c.isAlpha ∧ scheme.all isSchemeChar then
        some (String.ofList (Text.lower (c :: scheme)), rest)
      else none
  | _ => none

/-- Blanks and controls at the ends do not count, nor do tabs and line breaks anywhere. -/
def clean (s : List Char) : List Char :=
  let edge (c : Char) : Bool := c.toNat ≤ 0x20
  let s := ((s.dropWhile edge).reverse.dropWhile edge).reverse
  s.filter fun c => c != '\t' && c != '\n' && c != '\r'

def isSlash (c : Char) : Bool := c == '/' || c == '\\'

def endsHost (c : Char) : Bool :=
  isSlash c || c == '?' || c == '#'

def escapeOctet (octet : UInt8) : List Char :=
  '%' :: (Text.hexadecimal 2 octet.toNat).map Char.toUpper

/-- Writes controls, characters beyond ASCII and those given as their octets. -/
def escape (escaped : List Char) (s : List Char) : List Char :=
  s.flatMap fun c =>
    if c.toNat < 0x20 ∨ 0x7F ≤ c.toNat ∨ c ∈ escaped then
      (String.utf8EncodeChar c).flatMap escapeOctet
    else [c]

def escapedInPath : List Char := [' ', '"', '#', '<', '>', '?', '\x60', '\x7b', '\x7d']

def escapedInQuery : List Char := [' ', '"', '#', '<', '>', '\'']

def escapedInFragment : List Char := [' ', '"', '<', '>', '\x60']

def staysHere (step : List Char) : Bool :=
  let step := Text.lower step
  step == ['.'] || step == "%2e".toList

def leadsUp (step : List Char) : Bool :=
  let step := Text.lower step
  step == "..".toList || step == ".%2e".toList || step == "%2e.".toList
    || step == "%2e%2e".toList

/-- Takes steps one after the other; those taken are given last one first. -/
def walk (taken : List (List Char)) : List (List Char) → List (List Char)
  | [] => taken
  | [step] =>
      if leadsUp step then [] :: taken.tail
      else if staysHere step then [] :: taken
      else step :: taken
  | step :: rest =>
      if leadsUp step then walk taken.tail rest
      else if staysHere step then walk taken rest
      else walk (step :: taken) rest

def path (s : List Char) : String :=
  let steps := Host.splitOn '/' ((s.drop 1).map fun c => if c = '\\' then '/' else c)
  let taken := (walk [] steps).reverse.map fun step => String.ofList (escape escapedInPath step)
  "/" ++ Text.join "/" taken

def service? (digits : List Char) : Option (Option Nat) :=
  match digits with
  | [] => some none
  | digits =>
      match Text.readNat 10 digits with
      | some n => if n ≤ 65535 then some (some n) else none
      | none => none

/-- Splits the service off; colons in brackets belong to the host. -/
def splitService (authority : List Char) : List Char × List Char :=
  match Text.splitAtLast? ':' authority with
  | some (host, service) => if ']' ∈ service then (authority, []) else (host, service)
  | none => (authority, [])

/-- An address of a scheme with a host; the name of a user is left out. -/
def ofSpecial? (scheme : String) (implied : Nat) (rest : List Char) : Option Url := do
  let rest := rest.dropWhile isSlash
  let authority := rest.takeWhile fun c => !endsHost c
  let behind := rest.dropWhile fun c => !endsHost c
  let (before, fragment) := match Text.splitAt? '#' behind with
    | some (before, fragment) => (before, some (String.ofList (escape escapedInFragment fragment)))
    | none => (behind, none)
  let (steps, query) := match Text.splitAt? '?' before with
    | some (steps, query) => (steps, "?" ++ String.ofList (escape escapedInQuery query))
    | none => (before, "")
  let authority := match Text.splitAtLast? '@' authority with
    | some (_, authority) => authority
    | none => authority
  let (host, service) := splitService authority
  let host ← Host.canonical? host
  let service ← service? service
  return {
    scheme, host, fragment
    service := if service = some implied then none else service
    target := path steps ++ query }

def text (u : Url) : String :=
  u.scheme ++ "://" ++ u.host ++ (u.service.map fun n => s!":{n}").getD "" ++ u.target
    ++ (u.fragment.map ("#" ++ ·)).getD ""

/-- Why a text is no address of a node; one that is an address, but of something else, is
given in its usual form. -/
inductive Fault where
  | malformed
  | unusable (shown : String)
  deriving DecidableEq, Repr

def parse (s : String) : Except Fault Url :=
  match splitScheme? (clean s.toList) with
  | none => .error .malformed
  | some (scheme, rest) =>
      match impliedService? scheme with
      | none => .error (.unusable (scheme ++ ":" ++ String.ofList rest))
      | some implied =>
          match ofSpecial? scheme implied rest with
          | none => .error .malformed
          | some url =>
              if scheme = "http" ∨ scheme = "https" then .ok url else .error (.unusable url.text)

end Url

end Rehearsal.Net
