/-!
UTF-8: the octets of a text, and the text of octets.

Octets that are no text are refused with the length of the valid part in front and the
number of octets that cannot be continued, or the fact that the last character is cut short.
-/

namespace Rehearsal.Utf8

inductive Fault where
  /-- After `valid` octets of text, `width` octets begin no character. -/
  | malformed (valid width : Nat)
  /-- After `valid` octets of text, the data ends inside a character. -/
  | incomplete (valid : Nat)
  deriving DecidableEq, Repr

def Fault.message : Fault → String
  | .malformed valid width =>
      s!"invalid utf-8 sequence of {width} bytes from index {valid}"
  | .incomplete valid => s!"incomplete utf-8 byte sequence from index {valid}"

def encode (s : List Char) : List UInt8 :=
  s.flatMap String.utf8EncodeChar

def encodeString (s : String) : List UInt8 :=
  encode s.toList

/-- How many octets a character takes by its first octet, and the range of the second one.
Overlong forms, surrogates and code points past the last are shut out by these ranges. -/
def lead (b : UInt8) : Option (Nat × UInt8 × UInt8) :=
  if 0xC2 ≤ b ∧ b ≤ 0xDF then some (2, 0x80, 0xBF)
  else if b = 0xE0 then some (3, 0xA0, 0xBF)
  else if b = 0xED then some (3, 0x80, 0x9F)
  else if 0xE1 ≤ b ∧ b ≤ 0xEF then some (3, 0x80, 0xBF)
  else if b = 0xF0 then some (4, 0x90, 0xBF)
  else if 0xF1 ≤ b ∧ b ≤ 0xF3 then some (4, 0x80, 0xBF)
  else if b = 0xF4 then some (4, 0x80, 0x8F)
  else none

def isTail (b : UInt8) : Bool :=
  0x80 ≤ b && b ≤ 0xBF

def tailBits (b : UInt8) : Nat :=
  b.toNat % 64

/-- Reads the text of octets; `valid` counts those already read. -/
def decodeFrom (valid : Nat) : List UInt8 → Except Fault (List Char)
  | [] => .ok []
  | b :: rest =>
      if b < 0x80 then
        match decodeFrom (valid + 1) rest with
        | .ok s => .ok (Char.ofNat b.toNat :: s)
        | .error e => .error e
      else
        match lead b with
        | none => .error (.malformed valid 1)
        | some (width, lo, hi) =>
            match rest with
            | [] => .error (.incomplete valid)
            | b₂ :: rest =>
                if ¬(lo ≤ b₂ ∧ b₂ ≤ hi) then .error (.malformed valid 1)
                else if width = 2 then
                  match decodeFrom (valid + 2) rest with
                  | .ok s => .ok (Char.ofNat (b.toNat % 32 * 64 + tailBits b₂) :: s)
                  | .error e => .error e
                else
                  match rest with
                  | [] => .error (.incomplete valid)
                  | b₃ :: rest =>
                      if isTail b₃ = false then .error (.malformed valid 2)
                      else if width = 3 then
                        match decodeFrom (valid + 3) rest with
                        | .ok s =>
                            .ok (Char.ofNat ((b.toNat % 16 * 64 + tailBits b₂) * 64
                              + tailBits b₃) :: s)
                        | .error e => .error e
                      else
                        match rest with
                        | [] => .error (.incomplete valid)
                        | b₄ :: rest =>
                            if isTail b₄ = false then .error (.malformed valid 3)
                            else
                              match decodeFrom (valid + 4) rest with
                              | .ok s =>
                                  .ok (Char.ofNat (((b.toNat % 8 * 64 + tailBits b₂) * 64
                                    + tailBits b₃) * 64 + tailBits b₄) :: s)
                              | .error e => .error e

def decode (bytes : List UInt8) : Except Fault (List Char) :=
  decodeFrom 0 bytes

def decodeString (bytes : List UInt8) : Except Fault String :=
  (decode bytes).map String.ofList

end Rehearsal.Utf8
