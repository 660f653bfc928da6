import Rehearsal.Net.Url
/-!
One request and one answer of the Hypertext Transfer Protocol on a connection of their own.

The answer ends where its connection does, so its length need not be known beforehand.
-/

namespace Rehearsal.Net.Http

def serviceOf (url : Url) : Nat :=
  url.service.getD ((Url.impliedService? url.scheme).getD 80)

def post (url : Url) (body : String) : List UInt8 :=
  let authority := url.host ++ (url.service.map fun n => s!":{n}").getD ""
  let body := Utf8.encodeString body
  let head := Text.join "\r\n"
    [s!"POST {url.target} HTTP/1.1", s!"Host: {authority}", "Content-Type: application/json",
      "Accept: */*", s!"Content-Length: {body.length}", "Connection: close", "", ""]
  Utf8.encodeString head ++ body

def splitHead : List UInt8 → Option (List UInt8 × List UInt8)
  | 13 :: 10 :: 13 :: 10 :: rest => some ([], rest)
  | b :: rest => (splitHead rest).map fun (head, rest) => (b :: head, rest)
  | [] => none

def splitLine : List UInt8 → Option (List UInt8 × List UInt8)
  | 13 :: 10 :: rest => some ([], rest)
  | b :: rest => (splitLine rest).map fun (line, rest) => (b :: line, rest)
  | [] => none

/-- The length of a chunk by its first line; what stands behind a semicolon does not count. -/
def chunkLength? (line : List UInt8) : Option Nat :=
  let line := line.map fun b => Char.ofNat b.toNat
  Text.readNat 16 (Text.trim (line.takeWhile (· != ';')))

/-- A body that comes in chunks, each behind a line with its length, up to an empty one. -/
def joinChunks : (fuel : Nat) → List UInt8 → Option (List UInt8)
  | 0, _ => none
  | fuel + 1, s => do
      let (line, rest) ← splitLine s
      match ← chunkLength? line with
      | 0 => return []
      | length =>
          if rest.length < length then none
          else
            match rest.drop length with
            | 13 :: 10 :: more => return rest.take length ++ (← joinChunks fuel more)
            | _ => none

/-- Whether the body behind a head comes in chunks. -/
def isChunked (head : List UInt8) : Bool :=
  let head := Text.lower (head.map fun b => Char.ofNat b.toNat)
  match Text.after? "transfer-encoding:".toList head with
  | some rest => Text.contains "chunked".toList (rest.takeWhile (· != '\r'))
  | none => false

/-- The body of an answer, whatever its status. -/
def bodyOf (answer : List UInt8) : Option String := do
  let (head, rest) ← splitHead answer
  let body ← if isChunked head then joinChunks (rest.length + 1) rest else some rest
  (Utf8.decodeString body).toOption

end Rehearsal.Net.Http
