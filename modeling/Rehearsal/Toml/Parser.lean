import Rehearsal.Toml.Numeral
import Rehearsal.Toml.Quoted
import Rehearsal.Toml.Table
/-!
Reading TOML text: sections under headers, each with its keys and values.
-/

namespace Rehearsal.Toml

namespace Parser

open Quoted (isSpace isPlain)

def skip (s : List Char) : List Char :=
  s.dropWhile isSpace

/-- Drops spaces, line breaks and comments; `comment` tells whether a comment has begun. -/
def skipLines : (comment : Bool) → List Char → List Char
  | _, [] => []
  | _, '\n' :: rest => skipLines false rest
  | _, '\r' :: '\n' :: rest => skipLines false rest
  | true, c :: rest => if isPlain c then skipLines true rest else c :: rest
  | false, c :: rest =>
      if isSpace c then skipLines false rest
      else if c = '#' then skipLines true rest
      else c :: rest

def endLine? (s : List Char) : Option (List Char) :=
  let s := match skip s with
    | '#' :: rest => rest.dropWhile isPlain
    | s => s
  match s with
  | [] => some []
  | '\n' :: rest => some rest
  | '\r' :: '\n' :: rest => some rest
  | _ => none

def isBare (c : Char) : Bool :=
  c.isAlphanum || c == '-' || c == '_'

def name? (s : List Char) : Option (String × List Char) :=
  match Quoted.oneLine? s with
  | some result => some result
  | none =>
      match s.takeWhile isBare with
      | [] => none
      | name => some (String.ofList name, s.dropWhile isBare)

def key? : (more : Nat) → List Char → Option (List String × List Char)
  | 0, _ => none
  | more + 1, s => do
      let (name, rest) ← name? (skip s)
      match skip rest with
      | '.' :: rest =>
          let (names, rest) ← key? more rest
          return (name :: names, rest)
      | rest => return ([name], rest)

def keyOf (s : List Char) : Result (List String × List Char) :=
  match key? depthLimit s with
  | some (key, '=' :: rest) => .ok (key, skip rest)
  | _ => .error .malformed

def orMalformed {α : Type} : Option α → Result α
  | some a => .ok a
  | none => .error .malformed

def beginsNumber (c : Char) : Bool :=
  Text.isDecimal c || c == '+' || c == '-' || c == 'i' || c == 'n'

/-- A value that holds no others. -/
def simple? : List Char → Option (Value × List Char)
  | 't' :: 'r' :: 'u' :: 'e' :: rest => some (.bool true, rest)
  | 'f' :: 'a' :: 'l' :: 's' :: 'e' :: rest => some (.bool false, rest)
  | c :: rest =>
      if c = '"' ∨ c = '\'' then
        (Quoted.text? (c :: rest)).map fun (text, rest) => (.string text, rest)
      else if beginsNumber c then
        (Numeral.moment? (c :: rest)).or (Numeral.number? (c :: rest))
      else none
  | [] => none

mutual

def value : (fuel : Nat) → (depth : Nat) → List Char → Result (Value × List Char)
  | 0, _, _ => .error .malformed
  | fuel + 1, depth, s =>
      match s, depth with
      | '[' :: _, 0 => .error .tooDeep
      | '\x7b' :: _, 0 => .error .tooDeep
      | '[' :: rest, depth + 1 => do
          let (items, rest) ← items fuel depth (skipLines false rest)
          return (.array items, rest)
      | '\x7b' :: rest, depth + 1 => do
          let (pairs, rest) ← match skip rest with
            | '\x7d' :: rest => pure ([], rest)
            | rest => pairs fuel depth rest
          return (.table (entriesOf (← Entries.assignAll pairs [])), rest)
      | s, _ => orMalformed (simple? s)

/-- Values up to the closing bracket; a comma may stand behind the last one. -/
def items : (fuel : Nat) → (depth : Nat) → List Char → Result (List Value × List Char)
  | 0, _, _ => .error .malformed
  | fuel + 1, depth, s =>
      match s with
      | ']' :: rest => .ok ([], rest)
      | s => do
          let (item, rest) ← value fuel depth s
          match skipLines false rest with
          | ',' :: rest =>
              let (more, rest) ← items fuel depth (skipLines false rest)
              return (item :: more, rest)
          | ']' :: rest => return ([item], rest)
          | _ => .error .malformed

def pairs : (fuel : Nat) → (depth : Nat) → List Char →
    Result (List (List String × Value) × List Char)
  | 0, _, _ => .error .malformed
  | fuel + 1, depth, s => do
      let (key, rest) ← keyOf s
      let (item, rest) ← value fuel depth rest
      match skip rest with
      | ',' :: rest =>
          let (more, rest) ← pairs fuel depth rest
          return ((key, item) :: more, rest)
      | '\x7d' :: rest => return ([(key, item)], rest)
      | _ => .error .malformed

end

/-- Two steps for each character suffice to read a value. -/
def valueOf (s : List Char) : Result (Value × List Char) :=
  value (2 * s.length + 2) depthLimit s

def heading (s : List Char) : Result (Heading × List Char) :=
  match s with
  | '[' :: s =>
      match key? depthLimit s with
      | some (path, ']' :: ']' :: rest) =>
          (orMalformed (endLine? rest)).map fun rest => (.element path, rest)
      | _ => .error .malformed
  | s =>
      match key? depthLimit s with
      | some (path, ']' :: rest) =>
          (orMalformed (endLine? rest)).map fun rest => (.table path, rest)
      | _ => .error .malformed

def sections : (fuel : Nat) → List Char → Result (List (List String × Value) × List Section)
  | 0, _ => .error .malformed
  | fuel + 1, s =>
      match skipLines false s with
      | [] => .ok ([], [])
      | '[' :: rest => do
          let (heading, rest) ← heading rest
          let (values, more) ← sections fuel rest
          return ([], ⟨heading, values⟩ :: more)
      | rest => do
          let (key, rest) ← keyOf rest
          let (item, rest) ← valueOf rest
          let rest ← orMalformed (endLine? rest)
          let (values, more) ← sections fuel rest
          return ((key, item) :: values, more)

def dropMark : List Char → List Char
  | '\uFEFF' :: rest => rest
  | s => s

end Parser

def parse (text : String) : Result Value := do
  let s := Parser.dropMark text.toList
  let (values, sections) ← Parser.sections (s.length + 1) s
  document (⟨.none, values⟩ :: sections)

end Rehearsal.Toml
