import Rehearsal.Text.Numeral
import Rehearsal.Yaml.Fault
/-!
A place in a YAML text, and the classes of characters that its rules speak of.
-/

namespace Rehearsal.Yaml

def isPrintable (c : Char) : Bool :=
  let n := c.toNat
  n == 0x09 || n == 0x0A || n == 0x0D || (0x20 ≤ n && n ≤ 0x7E) || n == 0x85
    || (0xA0 ≤ n && n ≤ 0xD7FF) || (0xE000 ≤ n && n ≤ 0xFFFD) || 0x10000 ≤ n

def isBreak (c : Char) : Bool :=
  c == '\r' || c == '\n' || c == '\x85' || c == '\u2028' || c == '\u2029'

def isGap (c : Char) : Bool :=
  c == ' ' || c == '\t'

def isWordChar (c : Char) : Bool :=
  c.isAlphanum || c == '-' || c == '_'

def byteOrderMark : Char := '\ufeff'

structure Cursor where
  rest : List Char
  /-- How many characters lie behind. -/
  index : Nat
  line : Nat
  column : Nat
  deriving Repr

namespace Cursor

def start (text : List Char) : Cursor := ⟨text, 0, 0, 0⟩

def peek? (c : Cursor) (n : Nat) : Option Char := c.rest[n]?

def starts (c : Cursor) (x : Char) : Bool := c.rest.head? == some x

def atEnd (c : Cursor) : Bool := c.rest.isEmpty

def sees (c : Cursor) (n : Nat) (p : Char → Bool) : Bool := (c.peek? n).any p

def closes (c : Cursor) (n : Nat) : Bool :=
  (c.peek? n).all fun x => isGap x || isBreak x

def advance (c : Cursor) (n : Nat) : Cursor :=
  { c with rest := c.rest.drop n, index := c.index + n, column := c.column + n }

def skipWhile (c : Cursor) (p : Char → Bool) : Cursor :=
  c.advance (c.rest.takeWhile p).length

def skipGaps (c : Cursor) : Cursor := c.skipWhile isGap

def skipToBreak (c : Cursor) : Cursor := c.skipWhile fun x => !isBreak x

def takeBreak (c : Cursor) : List Char × Cursor :=
  match c.rest with
  | '\r' :: '\n' :: rest => (['\n'], ⟨rest, c.index + 2, c.line + 1, 0⟩)
  | x :: rest =>
      if isBreak x then
        let text := if x == '\u2028' || x == '\u2029' then [x] else ['\n']
        (text, ⟨rest, c.index + 1, c.line + 1, 0⟩)
      else ([], c)
  | [] => ([], c)

def skipBreak (c : Cursor) : Cursor := c.takeBreak.2

/-- Goes on behind a comment or to the end of the line, if nothing else is left in it. -/
def skipLineEnd (c : Cursor) (problem : Problem) : Result Cursor :=
  let c := c.skipGaps
  let c := if c.starts '#' then c.skipToBreak else c
  if c.atEnd then .ok c
  else if c.sees 0 isBreak then .ok c.skipBreak
  else .error problem

def atDocumentMark (c : Cursor) : Bool :=
  c.column == 0 && c.closes 3 &&
    match c.rest with
    | '-' :: '-' :: '-' :: _ => true
    | '.' :: '.' :: '.' :: _ => true
    | _ => false

end Cursor

end Rehearsal.Yaml
