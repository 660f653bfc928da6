import Rehearsal.Abi.Encode
/-!
Normal forms, by which expected and observed values are compared.

Integers are compared as numbers, addresses without regard to case, arrays item by item.
-/

namespace Rehearsal.Normal

/-- A run of decimal digits with a sign or none, without needless zeros and signs. -/
def decimal? (s : List Char) : Option (List Char) :=
  let (negative, digits) := match s with
    | '-' :: rest => (true, rest)
    | '+' :: rest => (false, rest)
    | s => (false, s)
  if digits ≠ [] ∧ digits.all Text.isDecimal then
    match digits.dropWhile (· == '0') with
    | [] => some ['0']
    | kept => some (if negative then '-' :: kept else kept)
  else none

/-- Whether the text is a mark and hexadecimal digits, or a mark alone. -/
def isHex : List Char → Bool
  | '0' :: 'x' :: digits => digits.all Text.isHexadecimal
  | '0' :: 'X' :: digits => digits.all Text.isHexadecimal
  | _ => false

def isAddress (s : List Char) : Bool :=
  isHex s && s.length == 42

/-- One to sixty-four hexadecimal digits behind a mark, in decimal. -/
def hex? (s : List Char) : Option (List Char) :=
  if isHex s ∧ s.length ≠ 2 ∧ s.length ≤ 66 then
    match Abi.unsignedOfText s with
    | .ok n => some (Text.decimal n)
    | .error _ => none
  else none

def ofText (s : List Char) : List Char :=
  let s := Text.trim s
  match decimal? s with
  | some digits => digits
  | none =>
      if isAddress s then Text.lower s
      else
        match hex? s with
        | some digits => digits
        | none =>
            if Text.lower s = "true".toList ∨ Text.lower s = "false".toList then Text.lower s
            else s

mutual

def chars : Json → List Char
  | .null => "null".toList
  | .bool true => "true".toList
  | .bool false => "false".toList
  | .number n => ofText n.text
  | .string s => ofText s.toList
  | .array items => '[' :: (charsAll items ++ [']'])
  | .object fields => (Json.object fields).compactChars

def charsAll : List Json → List Char
  | [] => []
  | [item] => chars item
  | item :: rest => chars item ++ ',' :: charsAll rest

end

def normalize (value : Json) : String :=
  String.ofList (chars value)

end Rehearsal.Normal
