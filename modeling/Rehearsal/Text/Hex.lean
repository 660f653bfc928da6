import Rehearsal.Text.Numeral
import Rehearsal.Text.Utf8
/-!
Octets written as pairs of hexadecimal digits.

A text is judged octet by octet: an odd number of octets is refused first, then the first
octet that is no digit.
-/

namespace Rehearsal.Hex

inductive Fault where
  | oddLength
  /-- The octet at `position` is no hexadecimal digit. -/
  | badDigit (octet : UInt8) (position : Nat)
  deriving DecidableEq, Repr

def isPlain (code : Nat) : Bool :=
  (0x20 ≤ code && code ≤ 0x7E || 0xA1 ≤ code && code ≤ 0xFF) && code != 0xAD

def quoted (octet : UInt8) : String :=
  let shown :=
    if octet = 0x00 then "\\0"
    else if octet = 0x09 then "\\t"
    else if octet = 0x0A then "\\n"
    else if octet = 0x0D then "\\r"
    else if octet = 0x27 then "\\'"
    else if octet = 0x5C then "\\\\"
    else if isPlain octet.toNat then String.singleton (Char.ofNat octet.toNat)
    else "\\u\x7b" ++ String.ofList (Text.hexadecimal 1 octet.toNat) ++ "\x7d"
  "'" ++ shown ++ "'"

def Fault.message : Fault → String
  | .oddLength => "Odd number of digits"
  | .badDigit octet position => s!"Invalid character {quoted octet} at position {position}"

def digit (n : Nat) : Char :=
  Nat.digitChar n

def encode (bytes : List UInt8) : List Char :=
  bytes.flatMap fun b => [digit (b.toNat / 16), digit (b.toNat % 16)]

def marked (bytes : List UInt8) : String :=
  String.ofList ('0' :: 'x' :: encode bytes)

def octetValue? (b : UInt8) : Option Nat :=
  Text.digitValue? (Char.ofNat b.toNat)

/-- Reads pairs of digits; `position` counts the octets already read. -/
def decodePairs (position : Nat) : List UInt8 → Except Fault (List UInt8)
  | hi :: lo :: rest =>
      match octetValue? hi, octetValue? lo with
      | some h, some l =>
          match decodePairs (position + 2) rest with
          | .ok bytes => .ok (UInt8.ofNat (h * 16 + l) :: bytes)
          | .error e => .error e
      | none, _ => .error (.badDigit hi position)
      | _, none => .error (.badDigit lo (position + 1))
  | _ => .ok []

def decode (text : List Char) : Except Fault (List UInt8) :=
  let octets := Utf8.encode text
  if octets.length % 2 = 0 then decodePairs 0 octets else .error .oddLength

end Rehearsal.Hex
