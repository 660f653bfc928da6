import Rehearsal.Json.Basic
import Rehearsal.Number.Shortest
/-!
JSON text: compact, or with one item a line and an indentation of two spaces.
-/

namespace Rehearsal.Json

/-- Numbers are written with the fewest digits that identify them, positionally from 10^-5
below 10^16, otherwise with a signed exponent. -/
def layout : Decimal.Layout where
  leastPositional := -5
  firstExponential := 16
  mark := 'e'
  signed := true

def Number.text : Number → List Char
  | .integer n => if n < 0 then '-' :: Text.decimal n.natAbs else Text.decimal n.natAbs
  | .float x => Decimal.write layout x

def escape (c : Char) : List Char :=
  match c with
  | '"' => ['\\', '"']
  | '\\' => ['\\', '\\']
  | '\x08' => ['\\', 'b']
  | '\x0c' => ['\\', 'f']
  | '\n' => ['\\', 'n']
  | '\r' => ['\\', 'r']
  | '\t' => ['\\', 't']
  | c => if c.toNat < 0x20 then '\\' :: 'u' :: Text.hexadecimal 4 c.toNat else [c]

def quote (s : String) : List Char :=
  '"' :: (s.toList.flatMap escape ++ ['"'])

mutual

def compactChars : Json → List Char
  | .null => "null".toList
  | .bool true => "true".toList
  | .bool false => "false".toList
  | .number n => n.text
  | .string s => quote s
  | .array items => '[' :: (compactItems items ++ [']'])
  | .object fields => '\x7b' :: (compactFields fields ++ ['\x7d'])

def compactItems : List Json → List Char
  | [] => []
  | [item] => item.compactChars
  | item :: rest => item.compactChars ++ ',' :: compactItems rest

def compactFields : List (String × Json) → List Char
  | [] => []
  | [(name, value)] => quote name ++ ':' :: value.compactChars
  | (name, value) :: rest => quote name ++ ':' :: (value.compactChars ++ ',' :: compactFields rest)

end

def compact (value : Json) : String :=
  String.ofList value.compactChars

def lineBreak (depth : Nat) : List Char :=
  '\n' :: List.replicate (2 * depth) ' '

mutual

def prettyChars (depth : Nat) : Json → List Char
  | .array [] => ['[', ']']
  | .array (item :: rest) =>
      '[' :: (prettyItems (depth + 1) (item :: rest) ++ lineBreak depth ++ [']'])
  | .object [] => ['\x7b', '\x7d']
  | .object (entry :: rest) =>
      '\x7b' :: (prettyFields (depth + 1) (entry :: rest) ++ lineBreak depth ++ ['\x7d'])
  | .null => "null".toList
  | .bool true => "true".toList
  | .bool false => "false".toList
  | .number n => n.text
  | .string s => quote s

def prettyItems (depth : Nat) : List Json → List Char
  | [] => []
  | [item] => lineBreak depth ++ item.prettyChars depth
  | item :: rest => lineBreak depth ++ item.prettyChars depth ++ ',' :: prettyItems depth rest

def prettyFields (depth : Nat) : List (String × Json) → List Char
  | [] => []
  | [(name, value)] => lineBreak depth ++ quote name ++ ':' :: ' ' :: value.prettyChars depth
  | (name, value) :: rest =>
      lineBreak depth ++ quote name ++ ':' :: ' ' ::
        (value.prettyChars depth ++ ',' :: prettyFields depth rest)

end

def pretty (value : Json) : String :=
  String.ofList (value.prettyChars 0)

/-- The text of a value in a sentence: a string as it is, all else compact. -/
def shown : Json → String
  | .string s => s
  | value => value.compact

end Rehearsal.Json
