import Rehearsal.Json.Basic
import Rehearsal.Text.Numeral
/-!
Reading JSON text.

Fields are kept as written, repeated names included. Nesting is limited to 127 levels, and a
number whose magnitude is beyond the binary format is refused.
-/

namespace Rehearsal.Json

namespace Parser

def isSpace (c : Char) : Bool :=
  c == ' ' || c == '\n' || c == '\t' || c == '\r'

def skip (s : List Char) : List Char :=
  s.dropWhile isSpace

def code? (a b c d : Char) : Option Nat := do
  let a ← Text.digitValue? a
  let b ← Text.digitValue? b
  let c ← Text.digitValue? c
  let d ← Text.digitValue? d
  return ((a * 16 + b) * 16 + c) * 16 + d

def unescape : Char → Option Char
  | '"' => some '"'
  | '\\' => some '\\'
  | '/' => some '/'
  | 'b' => some '\x08'
  | 'f' => some '\x0c'
  | 'n' => some '\n'
  | 'r' => some '\r'
  | 't' => some '\t'
  | _ => none

/-- The characters up to the closing quote and what follows it. A code in the upper surrogate
range must be completed by one in the lower range, and neither stands alone. -/
def stringBody : List Char → Option (List Char × List Char)
  | '"' :: rest => some ([], rest)
  | '\\' :: 'u' :: a :: b :: c :: d :: rest => do
      let code ← code? a b c d
      if code < 0xD800 ∨ 0xDFFF < code then
        let (s, rest) ← stringBody rest
        return (Char.ofNat code :: s, rest)
      else if 0xDC00 ≤ code then none
      else
        match rest with
        | '\\' :: 'u' :: a :: b :: c :: d :: rest => do
            let low ← code? a b c d
            if 0xDC00 ≤ low ∧ low ≤ 0xDFFF then
              let (s, rest) ← stringBody rest
              return (Char.ofNat (0x10000 + (code - 0xD800) * 0x400 + (low - 0xDC00)) :: s, rest)
            else none
        | _ => none
  | '\\' :: e :: rest => do
      let c ← unescape e
      let (s, rest) ← stringBody rest
      return (c :: s, rest)
  | c :: rest =>
      if c.toNat < 0x20 ∨ c = '\\' then none
      else do
        let (s, rest) ← stringBody rest
        return (c :: s, rest)
  | [] => none

/-- Digits of a number, as many as fit 64 bits, and a power of ten for the others. -/
structure Significand where
  value : Nat
  scale : Int
  full : Bool

/-- An integer digit that no longer fits only raises the power. -/
def Significand.integerDigit (s : Significand) (c : Char) : Significand :=
  let next := s.value * 10 + (c.toNat - '0'.toNat)
  if s.full ∨ Text.limit64 ≤ next then { s with scale := s.scale + 1, full := true }
  else { s with value := next }

/-- A fraction digit that no longer fits is dropped, and so are those behind it. -/
def Significand.fractionDigit (s : Significand) (c : Char) : Significand :=
  let next := s.value * 10 + (c.toNat - '0'.toNat)
  if s.full ∨ Text.limit64 ≤ next then { s with full := true }
  else { s with value := next, scale := s.scale - 1 }

def float (negative : Bool) (s : Significand) (exponent : Int) : Option Number :=
  (Binary64.ofScaled negative s.value (s.scale + exponent)).map .float

def exponent (s : List Char) : Option (Int × List Char) :=
  let (negative, s) := match s with
    | '+' :: rest => (false, rest)
    | '-' :: rest => (true, rest)
    | s => (false, s)
  match Text.readNat 10 (s.takeWhile Text.isDecimal) with
  | some n => some (if negative then -(n : Int) else n, s.dropWhile Text.isDecimal)
  | none => none

/-- Completes a number behind its digits. -/
def finish (negative : Bool) (s : Significand) : List Char → Option (Number × List Char)
  | c :: rest =>
      if c = 'e' ∨ c = 'E' then do
        let (e, rest) ← exponent rest
        let n ← float negative s e
        return (n, rest)
      else do
        let n ← float negative s 0
        return (n, c :: rest)
  | [] => do
      let n ← float negative s 0
      return (n, [])

/-- A whole number: an integer if 64 bits hold it, minus zero apart. -/
def whole (negative : Bool) (s : Significand) : Option Number :=
  if s.full then float negative s 0
  else if !negative then some (.integer s.value)
  else if s.value = 0 ∨ Nat.pow 2 63 < s.value then
    (Binary64.ofNat s.value).map fun x => .float { x with negative := true }
  else some (.integer (-(s.value : Int)))

def number (negative : Bool) (s : List Char) : Option (Number × List Char) :=
  let digits := s.takeWhile Text.isDecimal
  let rest := s.dropWhile Text.isDecimal
  match digits with
  | [] => none
  | '0' :: _ :: _ => none
  | digits =>
      let significand := digits.foldl Significand.integerDigit ⟨0, 0, false⟩
      match rest with
      | '.' :: rest =>
          match rest.takeWhile Text.isDecimal with
          | [] => none
          | fraction =>
              finish negative
                (fraction.foldl Significand.fractionDigit { significand with full := false })
                (rest.dropWhile Text.isDecimal)
      | c :: rest =>
          if c = 'e' ∨ c = 'E' then finish negative significand (c :: rest)
          else do
            let n ← whole negative significand
            return (n, c :: rest)
      | [] => do
          let n ← whole negative significand
          return (n, [])

mutual

/-- A value at the front of the text; `depth` more levels may open. -/
def value : (fuel : Nat) → (depth : Nat) → List Char → Option (Json × List Char)
  | 0, _, _ => none
  | fuel + 1, depth, s =>
      match skip s with
      | 'n' :: 'u' :: 'l' :: 'l' :: rest => some (.null, rest)
      | 't' :: 'r' :: 'u' :: 'e' :: rest => some (.bool true, rest)
      | 'f' :: 'a' :: 'l' :: 's' :: 'e' :: rest => some (.bool false, rest)
      | '"' :: rest => do
          let (s, rest) ← stringBody rest
          return (.string (String.ofList s), rest)
      | '[' :: rest =>
          match depth with
          | 0 => none
          | depth + 1 =>
              match skip rest with
              | ']' :: rest => some (.array [], rest)
              | rest => do
                  let (items, rest) ← items fuel depth rest
                  return (.array items, rest)
      | '\x7b' :: rest =>
          match depth with
          | 0 => none
          | depth + 1 =>
              match skip rest with
              | '\x7d' :: rest => some (.object [], rest)
              | rest => do
                  let (fields, rest) ← fields fuel depth rest
                  return (.object fields, rest)
      | '-' :: rest => do
          let (n, rest) ← number true rest
          return (.number n, rest)
      | rest => do
          let (n, rest) ← number false rest
          return (.number n, rest)

def items : (fuel : Nat) → (depth : Nat) → List Char → Option (List Json × List Char)
  | 0, _, _ => none
  | fuel + 1, depth, s => do
      let (item, rest) ← value fuel depth s
      match skip rest with
      | ',' :: rest =>
          let (more, rest) ← items fuel depth rest
          return (item :: more, rest)
      | ']' :: rest => return ([item], rest)
      | _ => none

def fields : (fuel : Nat) → (depth : Nat) → List Char → Option (List (String × Json) × List Char)
  | 0, _, _ => none
  | fuel + 1, depth, s =>
      match skip s with
      | '"' :: rest => do
          let (name, rest) ← stringBody rest
          match skip rest with
          | ':' :: rest =>
              let (item, rest) ← value fuel depth rest
              match skip rest with
              | ',' :: rest =>
                  let (more, rest) ← fields fuel depth rest
                  return ((String.ofList name, item) :: more, rest)
              | '\x7d' :: rest => return ([(String.ofList name, item)], rest)
              | _ => none
          | _ => none
      | _ => none

end

end Parser

def depthLimit : Nat := 127

/-- The value that a whole text denotes, fields as written. Two steps for each character
suffice. -/
def parseChars (s : List Char) : Option Json := do
  let (value, rest) ← Parser.value (2 * s.length + 2) depthLimit s
  match Parser.skip rest with
  | [] => return value
  | _ => none

def parse (text : String) : Option Json :=
  parseChars text.toList

end Rehearsal.Json
