import Rehearsal.Text.Numeral
import Rehearsal.Toml.Basic
/-!
Quoted text: on one line or several, with escapes or as it stands.
-/

namespace Rehearsal.Toml.Quoted

def isSpace (c : Char) : Bool := c == ' ' || c == '\t'

def isPlain (c : Char) : Bool :=
  c == '\t' || (0x20 ≤ c.toNat && c.toNat != 0x7F)

def codePoint? (digits : List Char) : Option Char :=
  match Text.readNat 16 digits with
  | some n => if n < 0xD800 ∨ (0xDFFF < n ∧ n < 0x110000) then some (Char.ofNat n) else none
  | none => none

def unescape : Char → Option Char
  | 'b' => some '\x08'
  | 't' => some '\t'
  | 'n' => some '\n'
  | 'f' => some '\x0c'
  | 'r' => some '\r'
  | '"' => some '"'
  | '\\' => some '\\'
  | _ => none

def line : List Char → Option (List Char × List Char)
  | '"' :: rest => some ([], rest)
  | '\\' :: 'u' :: a :: b :: c :: d :: rest => do
      let c ← codePoint? [a, b, c, d]
      let (s, rest) ← line rest
      return (c :: s, rest)
  | '\\' :: 'U' :: a :: b :: c :: d :: e :: f :: g :: h :: rest => do
      let c ← codePoint? [a, b, c, d, e, f, g, h]
      let (s, rest) ← line rest
      return (c :: s, rest)
  | '\\' :: e :: rest => do
      let c ← unescape e
      let (s, rest) ← line rest
      return (c :: s, rest)
  | c :: rest =>
      if isPlain c then do
        let (s, rest) ← line rest
        return (c :: s, rest)
      else none
  | [] => none

def endsLine (s : List Char) : Bool :=
  match s.dropWhile isSpace with
  | '\n' :: _ => true
  | '\r' :: '\n' :: _ => true
  | _ => false

/-- The characters up to three closing quotes and what follows them; up to two quotes may
stand right in front. Behind a backslash at the end of a line there is a gap: spaces and line
breaks do not count up to the next character. -/
def lines : (gap : Bool) → List Char → Option (List Char × List Char)
  | true, ' ' :: rest => lines true rest
  | true, '\t' :: rest => lines true rest
  | true, '\n' :: rest => lines true rest
  | true, '\r' :: '\n' :: rest => lines true rest
  | _, '"' :: '"' :: '"' :: '"' :: '"' :: rest => some (['"', '"'], rest)
  | _, '"' :: '"' :: '"' :: '"' :: rest => some (['"'], rest)
  | _, '"' :: '"' :: '"' :: rest => some ([], rest)
  | _, '\r' :: '\n' :: rest => do
      let (s, rest) ← lines false rest
      return ('\n' :: s, rest)
  | _, '\\' :: 'u' :: a :: b :: c :: d :: rest => do
      let c ← codePoint? [a, b, c, d]
      let (s, rest) ← lines false rest
      return (c :: s, rest)
  | _, '\\' :: 'U' :: a :: b :: c :: d :: e :: f :: g :: h :: rest => do
      let c ← codePoint? [a, b, c, d, e, f, g, h]
      let (s, rest) ← lines false rest
      return (c :: s, rest)
  | _, '\\' :: e :: rest =>
      if endsLine (e :: rest) then lines true (e :: rest)
      else do
        let c ← unescape e
        let (s, rest) ← lines false rest
        return (c :: s, rest)
  | _, c :: rest =>
      if c = '\n' ∨ (isPlain c ∧ c ≠ '\\') then do
        let (s, rest) ← lines false rest
        return (c :: s, rest)
      else none
  | _, [] => none

def literalLine : List Char → Option (List Char × List Char)
  | '\'' :: rest => some ([], rest)
  | c :: rest =>
      if isPlain c then do
        let (s, rest) ← literalLine rest
        return (c :: s, rest)
      else none
  | [] => none

def literalLines : List Char → Option (List Char × List Char)
  | '\'' :: '\'' :: '\'' :: '\'' :: '\'' :: rest => some (['\'', '\''], rest)
  | '\'' :: '\'' :: '\'' :: '\'' :: rest => some (['\''], rest)
  | '\'' :: '\'' :: '\'' :: rest => some ([], rest)
  | '\r' :: '\n' :: rest => do
      let (s, rest) ← literalLines rest
      return ('\n' :: s, rest)
  | c :: rest =>
      if c = '\n' ∨ isPlain c then do
        let (s, rest) ← literalLines rest
        return (c :: s, rest)
      else none
  | [] => none

def dropBreak : List Char → List Char
  | '\n' :: rest => rest
  | '\r' :: '\n' :: rest => rest
  | s => s

def oneLine? : List Char → Option (String × List Char)
  | '"' :: rest => (line rest).map fun (s, rest) => (String.ofList s, rest)
  | '\'' :: rest => (literalLine rest).map fun (s, rest) => (String.ofList s, rest)
  | _ => none

def text? : List Char → Option (String × List Char)
  | '"' :: '"' :: '"' :: rest =>
      (lines false (dropBreak rest)).map fun (s, rest) => (String.ofList s, rest)
  | '\'' :: '\'' :: '\'' :: rest =>
      (literalLines (dropBreak rest)).map fun (s, rest) => (String.ofList s, rest)
  | s => oneLine? s

end Rehearsal.Toml.Quoted
